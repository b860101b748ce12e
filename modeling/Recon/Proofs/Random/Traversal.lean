import Mathlib.Data.List.Nodup
import Mathlib.Data.List.Perm.Subperm
import Mathlib.Data.Nat.ModEq
import Recon.Port.Order
import Recon.Task.Plan

/-!
# Traversals visit every index once

A step that has no common divisor with the size makes the visits distinct, and so they are a
permutation of the indices.  What is rearranged along a traversal is permuted.
-/

namespace Recon

namespace Traversal

/-- What `covers` asks of a traversal, in words of arithmetic. -/
theorem covers_iff (t : Traversal) (n : ℕ) :
    t.covers n = true ↔ t.size = n ∧ (n = 0 ∨ (t.first < n ∧ Nat.Coprime n t.step)) := by
  simp only [covers, Bool.and_eq_true, Bool.or_eq_true, beq_iff_eq, decide_eq_true_eq,
    Nat.Coprime]

theorem get_lt (t : Traversal) (i : ℕ) (h : 0 < t.size) : t.get i < t.size := by
  rw [get, if_neg (by omega)]
  exact Nat.mod_lt _ h

/-- Two visits of one index are one visit. -/
theorem get_injective (t : Traversal) (hc : Nat.Coprime t.size t.step) {i j : ℕ}
    (hi : i < t.size) (hj : j < t.size) (h : t.get i = t.get j) : i = j := by
  have hs : ¬ t.size = 0 := by omega
  rw [get, get, if_neg hs, if_neg hs] at h
  -- the first index cancels, and then the step, which is a unit
  have hm : i * t.step ≡ j * t.step [MOD t.size] := Nat.ModEq.add_left_cancel' _ h
  exact (Nat.ModEq.cancel_right_of_coprime hc hm).eq_of_lt_of_lt hi hj

theorem order_nodup (t : Traversal) (hc : Nat.Coprime t.size t.step) : t.order.Nodup := by
  refine List.Nodup.map_on ?_ List.nodup_range
  intro i hi j hj h
  exact get_injective t hc (List.mem_range.mp hi) (List.mem_range.mp hj) h

/-- A traversal of a size visits every index below it exactly once. -/
theorem order_perm (t : Traversal) (n : ℕ) (h : t.covers n = true) :
    t.order.Perm (List.range n) := by
  obtain ⟨hs, hn⟩ := (covers_iff t n).mp h
  subst hs
  rcases hn with hz | ⟨_, hc⟩
  · simp only [order, hz, List.range_zero, List.map_nil, List.Perm.refl]
  · have hsub : t.order ⊆ List.range t.size := by
      intro k hk
      obtain ⟨i, hi, rfl⟩ := List.mem_map.mp hk
      have hi' := List.mem_range.mp hi
      exact List.mem_range.mpr (get_lt t i (by omega))
    -- distinct indices below the size, as many as there are
    have hsp : t.order.Subperm (List.range t.size) :=
      List.subperm_of_subset (order_nodup t hc) hsub
    exact hsp.perm_of_length_le (by simp only [order, List.length_map, List.length_range, le_refl])

end Traversal

/-- The elements at all indices of a list, in their order, are the list. -/
theorem filterMap_range_getElem? {α : Type} (xs : List α) :
    (List.range xs.length).filterMap (fun i => xs[i]?) = xs := by
  induction xs with
  | nil => rfl
  | cons x xs ih =>
    rw [List.length_cons, List.range_succ_eq_map, List.filterMap_cons]
    simpa [List.filterMap_map, Function.comp_def] using ih

namespace PortOrder

/-- Rearranging along a traversal loses and repeats nothing. -/
theorem rearrange_perm {α : Type} (t : Traversal) (xs : List α) (h : t.covers xs.length = true) :
    (rearrange t xs).Perm xs := by
  have hp := (t.order_perm xs.length h).filterMap (fun i => xs[i]?)
  rw [filterMap_range_getElem?] at hp
  simpa [rearrange] using hp

/-- The order in which a task probes is an order of the ports that were asked for. -/
theorem along_perm (o : PortOrder) (t : Traversal)
    (h : o.tail.length < 2 ∨ t.covers o.tail.length = true) : (o.along t).Perm o.ports := by
  unfold along
  split
  · exact List.Perm.refl _
  · next hl => exact (rearrange_perm t o.tail (h.resolve_left hl)).append_left o.head

end PortOrder

end Recon
