import Mathlib.Data.List.Forall2

/-!
# Lists that are read element by element

Each element is read on its own and the first refusal ends the reading, so what comes out is settled
by the elements up to the leftmost one that is refused.
-/

namespace Recon

variable {α β ε : Type} {f : α → Except ε β} {l : List α} {r : List β} {a : α} {b : β} {e : ε}

namespace Except

variable {x : Except ε α} {g : α → β}

theorem map_eq_ok_iff : x.map g = .ok b ↔ ∃ a, x = .ok a ∧ g a = b := by
  cases x <;> simp [Except.map]

theorem map_eq_error_iff : x.map g = .error e ↔ x = .error e := by
  cases x <;> simp [Except.map]

theorem bind_eq_ok_iff : x.bind f = .ok b ↔ ∃ a, x = .ok a ∧ f a = .ok b := by
  cases x <;> simp [Except.bind]

theorem bind_eq_error_iff :
    x.bind f = .error e ↔ x = .error e ∨ ∃ a, x = .ok a ∧ f a = .error e := by
  cases x <;> simp [Except.bind]

end Except

theorem mapM_cons_of_error (h : f a = .error e) : (a :: l).mapM f = .error e := by
  rw [List.mapM_cons, h]
  rfl

theorem mapM_cons_of_ok (h : f a = .ok b) : (a :: l).mapM f = (l.mapM f).map (b :: ·) := by
  rw [List.mapM_cons, h]
  cases hl : l.mapM f <;> simp [bind, Except.bind, pure, Except.pure, Except.map]

/-- A list is accepted if each of its elements is. -/
theorem mapM_eq_ok_iff : l.mapM f = .ok r ↔ l.map f = r.map .ok := by
  induction l generalizing r with
  | nil => cases r <;> simp [pure, Except.pure]
  | cons a l ih =>
    cases ha : f a with
    | error e => cases r <;> simp [mapM_cons_of_error ha, ha]
    | ok b =>
      rw [mapM_cons_of_ok ha]
      cases r with
      | nil => cases l.mapM f <;> simp [Except.map]
      | cons c r =>
        rw [List.map_cons, List.map_cons, ha, List.cons.injEq, ← ih]
        cases l.mapM f <;> simp [Except.map]

/-- A list is accepted as the results that its elements have one by one. -/
theorem mapM_eq_ok_iff_forall₂ {R : α → β → Prop} (h : ∀ a ∈ l, ∀ b, f a = .ok b ↔ R a b) :
    l.mapM f = .ok r ↔ List.Forall₂ R l r := by
  rw [mapM_eq_ok_iff]
  induction l generalizing r with
  | nil => cases r <;> simp
  | cons a l ih =>
    obtain ⟨ha, hl⟩ := List.forall_mem_cons.mp h
    cases r with
    | nil => simp
    | cons b r =>
      rw [List.map_cons, List.map_cons, List.cons.injEq, ha b, ih hl, List.forall₂_cons]

/-- A list is refused for the first element that is. -/
theorem mapM_eq_error_iff :
    l.mapM f = .error e ↔
      ∃ before a after, l = before ++ a :: after ∧ (∀ x ∈ before, ∃ b, f x = .ok b) ∧
        f a = .error e := by
  induction l with
  | nil => simp [pure, Except.pure]
  | cons x l ih =>
    cases hx : f x with
    | error e' =>
      rw [mapM_cons_of_error hx]
      constructor
      · rintro ⟨⟩
        exact ⟨[], x, l, rfl, by simp, hx⟩
      · rintro ⟨before, a, after, hl, hbefore, ha⟩
        cases before with
        | nil =>
          cases hl
          cases hx.symm.trans ha
          rfl
        | cons y ys =>
          -- what stands before is accepted, and this element is not
          cases hl
          obtain ⟨b, hb⟩ := hbefore x List.mem_cons_self
          rw [hx] at hb
          cases hb
    | ok b =>
      have hrest : (x :: l).mapM f = .error e ↔ l.mapM f = .error e := by
        rw [mapM_cons_of_ok hx, Except.map_eq_error_iff]
      rw [hrest, ih]
      constructor
      · rintro ⟨before, a, after, rfl, hbefore, ha⟩
        exact ⟨x :: before, a, after, rfl, List.forall_mem_cons.mpr ⟨⟨b, hx⟩, hbefore⟩, ha⟩
      · rintro ⟨before, a, after, hl, hbefore, ha⟩
        cases before with
        | nil =>
          cases hl
          rw [hx] at ha
          cases ha
        | cons y ys =>
          cases hl
          exact ⟨ys, a, after, rfl, (List.forall_mem_cons.mp hbefore).2, ha⟩

/-- A list is accepted or not by what becomes of each element. -/
theorem exists_mapM_iff : (∃ r, l.mapM f = .ok r) ↔ ∀ x ∈ l, ∃ b, f x = .ok b := by
  constructor
  · rintro ⟨r, hr⟩ x hx
    have hmem : f x ∈ r.map .ok := mapM_eq_ok_iff.mp hr ▸ List.mem_map_of_mem hx
    obtain ⟨b, -, hb⟩ := List.mem_map.mp hmem
    exact ⟨b, hb.symm⟩
  · intro h
    cases hread : l.mapM f with
    | ok r => exact ⟨r, rfl⟩
    | error e =>
      obtain ⟨before, a, after, rfl, -, ha⟩ := mapM_eq_error_iff.mp hread
      obtain ⟨b, hb⟩ := h a (by simp)
      rw [ha] at hb
      cases hb

end Recon
