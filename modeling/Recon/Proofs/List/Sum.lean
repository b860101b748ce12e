import Mathlib.Algebra.BigOperators.Group.List.Basic
import Mathlib.Algebra.Order.Group.Multiset
import Mathlib.Data.List.Induction
import Mathlib.Data.List.Perm.Basic
import Mathlib.Data.Multiset.Range

/-!
# Sums over lists

What one element of a list is worth within a sum over the list, and sums that collect the indices
of some elements.
-/

namespace Recon

section Split

variable {α M : Type} [AddCommMonoid M] {l : List α} {i : ℕ} {a : α}

/-- An element is a part of the sum; a change replaces this part and an erasure removes it. -/
theorem sum_map_split (f : α → M) (h : l[i]? = some a) :
    ∃ m, (l.map f).sum = f a + m ∧ (∀ b, ((l.set i b).map f).sum = f b + m) ∧
      ((l.eraseIdx i).map f).sum = m := by
  obtain ⟨hi, ha⟩ := List.getElem?_eq_some_iff.mp h
  refine ⟨((l.eraseIdx i).map f).sum, ?_, ?_, rfl⟩
  · have hp := (List.getElem_cons_eraseIdx_perm hi).map f
    rw [ha] at hp
    rw [← hp.sum_eq, List.map_cons, List.sum_cons]
  · intro b
    have hp := (List.set_perm_cons_eraseIdx hi b).map f
    rw [hp.sum_eq, List.map_cons, List.sum_cons]

/-- The same for a sum that depends on the indices. -/
theorem sum_mapIdx_split (f : ℕ → α → M) (h : l[i]? = some a) :
    ∃ m, (l.mapIdx f).sum = f i a + m ∧ ∀ b, ((l.set i b).mapIdx f).sum = f i b + m := by
  have hi : (l.mapIdx f)[i]? = some (f i a) := by rw [List.getElem?_mapIdx, h, Option.map_some]
  obtain ⟨m, h0, hs, _⟩ := sum_map_split id hi
  rw [List.map_id, id] at h0
  refine ⟨m, h0, ?_⟩
  intro b
  rw [List.mapIdx_set, ← List.map_id ((l.mapIdx f).set i (f i b)), hs, id]

end Split

section Indices

variable {α : Type} (p : α → Bool) (l : List α)

def indices : Multiset ℕ := (l.mapIdx fun i a => if p a then {i} else 0).sum

theorem indices_concat (a : α) :
    indices p (l ++ [a]) = indices p l + if p a then {l.length} else 0 := by
  rw [indices, List.mapIdx_concat, List.sum_append, List.sum_singleton, ← indices]

theorem indices_le_range : indices p l ≤ Multiset.range l.length := by
  induction l using List.reverseRecOn with
  | nil => exact le_rfl
  | append_singleton l a ih =>
    rw [indices_concat, List.length_append, List.length_singleton, Multiset.range_succ,
      ← Multiset.singleton_add, add_comm]
    refine add_le_add ?_ ih
    split
    · exact le_rfl
    · exact Multiset.zero_le _

theorem nodup_indices : (indices p l).Nodup :=
  Multiset.nodup_of_le (indices_le_range p l) (Multiset.nodup_range _)

theorem card_indices : (indices p l).card = l.countP p := by
  induction l using List.reverseRecOn with
  | nil => rfl
  | append_singleton l a ih =>
    rw [indices_concat, Multiset.card_add, ih, List.countP_append, List.countP_singleton]
    split <;> rfl

theorem mem_indices {i : ℕ} : i ∈ indices p l ↔ ∃ a, l[i]? = some a ∧ p a = true := by
  induction l using List.reverseRecOn with
  | nil => simp [indices]
  | append_singleton l a ih =>
    rw [indices_concat, Multiset.mem_add, ih]
    rcases Nat.lt_trichotomy i l.length with hi | rfl | hi
    · -- the new element is not at this index
      have hn : i ∉ if p a then ({l.length} : Multiset ℕ) else 0 := by
        split <;> simp [hi.ne]
      simp [List.getElem?_append_left hi, hn]
    · cases ha : p a <;> simp [ha]
    · have hn : i ∉ if p a then ({l.length} : Multiset ℕ) else 0 := by
        split <;> simp [hi.ne']
      have hl : l[i]? = none := List.getElem?_eq_none hi.le
      simp [hl, hn, List.getElem?_append_right hi.le, Nat.sub_ne_zero_of_lt hi]

end Indices

end Recon
