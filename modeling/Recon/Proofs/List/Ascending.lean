import Mathlib.Data.List.Basic

/-!
# Sorted lists without repetitions

Erasing what repeats its neighbour keeps the elements of a list.  In a sorted list equal elements
are neighbours, so what is left ascends strictly.
-/

namespace Recon

section Repetitions

variable {α : Type*} [BEq α]

/-- The list that is built up while repetitions are passed over comes first in the result. -/
theorem eraseRepsBy_loop_eq_append (a : α) (l acc : List α) :
    List.eraseRepsBy.loop (· == ·) a l acc =
      acc.reverse ++ List.eraseRepsBy.loop (· == ·) a l [] := by
  induction l generalizing a acc with
  | nil => simp [List.eraseRepsBy.loop]
  | cons b l ih =>
    simp only [List.eraseRepsBy.loop]
    split
    · exact ih a acc
    · rw [ih b (a :: acc), ih b [a]]
      simp

variable [LawfulBEq α]

theorem eraseReps_cons_self (a : α) (l : List α) :
    (a :: a :: l).eraseReps = (a :: l).eraseReps := by
  simp [List.eraseReps, List.eraseRepsBy, List.eraseRepsBy.loop]

theorem eraseReps_cons_of_ne {a b : α} (h : a ≠ b) (l : List α) :
    (a :: b :: l).eraseReps = a :: (b :: l).eraseReps := by
  have hab : (a == b) = false := beq_eq_false_iff_ne.mpr h
  have hloop := eraseRepsBy_loop_eq_append b l [a]
  simpa [List.eraseReps, List.eraseRepsBy, List.eraseRepsBy.loop, hab] using hloop

@[simp] theorem mem_eraseReps {x : α} {l : List α} : x ∈ l.eraseReps ↔ x ∈ l := by
  match l with
  | [] => rfl
  | [a] => rfl
  | a :: b :: l =>
    have ih : x ∈ (b :: l).eraseReps ↔ x ∈ b :: l := mem_eraseReps
    by_cases h : a = b
    · subst h
      rw [eraseReps_cons_self, ih]
      simp
    · rw [eraseReps_cons_of_ne h, List.mem_cons, ih, List.mem_cons (a := x) (b := a)]

end Repetitions

/-- What is left of a sorted list without its repetitions ascends strictly. -/
theorem pairwise_eraseReps {α : Type*} [DecidableEq α] {le lt : α → α → Prop}
    (hlt : ∀ a b, le a b → a ≠ b → lt a b) (hle : ∀ a b c, lt a b → le b c → lt a c) {l : List α}
    (h : l.Pairwise le) : l.eraseReps.Pairwise lt := by
  match l with
  | [] => exact .nil
  | [a] => exact List.pairwise_singleton lt a
  | a :: b :: l =>
    obtain ⟨ha, hb⟩ := List.pairwise_cons.mp h
    have ih : (b :: l).eraseReps.Pairwise lt := pairwise_eraseReps hlt hle hb
    by_cases hab : a = b
    · subst hab
      rwa [eraseReps_cons_self]
    · rw [eraseReps_cons_of_ne hab]
      refine List.pairwise_cons.mpr ⟨?_, ih⟩
      have hfirst : lt a b := hlt a b (ha b List.mem_cons_self) hab
      intro c hc
      -- what is left of the others was among the others
      rcases List.mem_cons.mp (mem_eraseReps.mp hc) with rfl | hc
      · exact hfirst
      · exact hle a b c hfirst ((List.pairwise_cons.mp hb).1 c hc)

end Recon
