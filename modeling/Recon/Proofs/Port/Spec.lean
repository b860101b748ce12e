import Mathlib.Data.Set.Basic
import Recon.Proofs.List.Traverse
import Recon.Proofs.Port.Preset

/-!
# What a specification names

The items of a text name presets and ports.  Each item is read on its own, so what a specification
has depends only on which items there are.
-/

namespace Recon

open Recon.Text

namespace PortSpec

variable {cs : List Char} {spec : PortSpec}

theorem readItems_eq_mapM (xs : List (List Char)) : readItems xs = xs.mapM Item.read := by
  induction xs with
  | nil => rfl
  | cons x xs ih =>
    rw [readItems]
    cases hx : Item.read x with
    | error fault => rw [mapM_cons_of_error hx]
    | ok i => rw [mapM_cons_of_ok hx, ih]

theorem readItems_eq_ok {xs : List (List Char)} {is : List Item} :
    readItems xs = .ok is ↔ xs.map Item.read = is.map .ok := by
  rw [readItems_eq_mapM, mapM_eq_ok_iff]

/-- Items are read one by one: the list is accepted when each of them is. -/
theorem exists_readItems {xs : List (List Char)} :
    (∃ is, readItems xs = .ok is) ↔ ∀ x ∈ xs, ∃ i, Item.read x = .ok i := by
  simp only [readItems_eq_mapM, exists_mapM_iff]

theorem mem_of_readItems {xs : List (List Char)} {is : List Item} (h : readItems xs = .ok is)
    (i : Item) : i ∈ is ↔ ∃ x ∈ xs, Item.read x = .ok i := by
  have hm : i ∈ is ↔ Except.ok i ∈ is.map (Except.ok (ε := PortFault)) := by
    simp
  rw [hm, ← readItems_eq_ok.mp h, List.mem_map]

def Names (cs : List Char) (p : Preset) : Prop := ∃ x ∈ items cs, Item.read x = .ok (.preset p)

/-- The ports but zero that a text names itself, by items that are ports or ranges. -/
def explicit (cs : List Char) : Set Port :=
  {p | p ≠ 0 ∧ ∃ x ∈ items cs, ∃ r, Item.read x = .ok (.range r) ∧ r.lo ≤ p ∧ p ≤ r.hi}

/-- Of the presets that a text names, the smallest counts. -/
def Prefers (cs : List Char) (p : Preset) : Prop :=
  Names cs p ∧ ∀ q, Names cs q → p.ports.length ≤ q.ports.length

theorem prefers_or_unnamed (cs : List Char) : (∃ p, Prefers cs p) ∨ ∀ p, ¬ Names cs p := by
  classical
  cases h : Preset.all.find? fun p => decide (Names cs p) with
  | some p => exact .inl ⟨p, by simpa [Prefers] using Preset.find?_all_eq_some.mp h⟩
  | none => exact .inr fun p => by simpa using Preset.find?_all_eq_none.mp h p

/-- What a specification has is what its text names. -/
theorem read_eq_ok (h : read cs = .ok spec) :
    (∀ p, spec.preset = some p ↔ Prefers cs p) ∧
    (spec.preset = none ↔ ∀ p, ¬ Names cs p) ∧
    ∀ p, p ∈ explicit cs ↔ p ≠ 0 ∧ spec.inRanges p = true := by
  -- the specification is made of the items that were read, and these are those of the text
  obtain ⟨is, his, rfl⟩ := Except.map_eq_ok_iff.mp h
  have hnames (p : Preset) : is.contains (.preset p) = true ↔ Names cs p := by
    rw [List.contains_iff_mem]
    exact mem_of_readItems his _
  refine ⟨?_, ?_, ?_⟩
  · intro p
    rw [presetOf, Preset.find?_all_eq_some, Prefers, hnames]
    simp only [hnames]
  · rw [presetOf, Preset.find?_all_eq_none]
    refine forall_congr' fun p => ?_
    rw [← hnames, Bool.not_eq_true]
  · intro p
    have hranges (r : PortRange) :
        r ∈ rangesOf is ↔ ∃ x ∈ items cs, Item.read x = .ok (.range r) := by
      rw [← mem_of_readItems his, rangesOf, List.mem_filterMap]
      constructor
      · rintro ⟨i, hi, hr⟩
        cases i <;> cases hr
        exact hi
      · exact fun hr => ⟨_, hr, rfl⟩
    simp only [explicit, Set.mem_ofPred_eq, inRanges, List.any_eq_true, PortRange.contains,
      Bool.and_eq_true, decide_eq_true_eq, hranges]
    refine and_congr_right fun _ => ?_
    constructor
    · rintro ⟨x, hx, r, hr, hp⟩
      exact ⟨r, ⟨x, hx, hr⟩, hp⟩
    · rintro ⟨r, ⟨x, hx, hr⟩, hp⟩
      exact ⟨x, hx, r, hr, hp⟩

theorem item_read_ne (x : List Char) : Item.read x ≠ .error .noPorts := by
  -- each fault of an item quotes the item
  have hport (item cs : List Char) : PortRange.readPort item cs ≠ .error .noPorts := by
    unfold PortRange.readPort
    split <;> simp
  have hrange : PortRange.read x ≠ .error .noPorts := by
    unfold PortRange.read
    split
    · next before after _ =>
      have hbefore := hport x before
      have hafter := hport x after
      split
      · simp_all
      · split
        · simp_all
        · split <;> simp
    · rw [ne_eq, Except.map_eq_error_iff]
      exact hport x x
  unfold Item.read
  split
  · simp
  · rw [ne_eq, Except.map_eq_error_iff]
    exact hrange

theorem read_ne (cs : List Char) : read cs ≠ .error .noPorts := by
  intro h
  rw [read, readItems_eq_mapM, Except.map_eq_error_iff] at h
  obtain ⟨-, x, -, -, -, hx⟩ := mapM_eq_error_iff.mp h
  exact item_read_ne x hx

/-- Reading depends only on which items there are. -/
theorem exists_read : (∃ spec, read cs = .ok spec) ↔ ∀ x ∈ items cs, ∃ i, Item.read x = .ok i := by
  rw [← exists_readItems]
  simp only [read, Except.map_eq_ok_iff]
  exact ⟨fun ⟨_, is, his, _⟩ => ⟨is, his⟩, fun ⟨is, his⟩ => ⟨_, is, his, rfl⟩⟩

end PortSpec

/-- The wordings of port faults differ in their first letters. -/
theorem PortFault.head?_message (f : PortFault) :
    f.message.toList.head? = match f with
      | .notAPort _ _ => some 'i'
      | .reversedRange _ => some 'r'
      | .noPorts => some 'p' := by
  have hfirst (s t : String) (c : Char) (h : s.toList.head? = some c) :
      (s ++ t).toList.head? = some c := by
    rw [String.toList_append, List.head?_append, h, Option.some_or]
  cases f
  case notAPort => exact hfirst _ _ _ (hfirst _ _ _ (hfirst _ _ _ (hfirst _ _ _ rfl)))
  case reversedRange => exact hfirst _ _ _ rfl
  case noPorts => rfl

theorem PortFault.toError_eq_iff (f : PortFault) :
    f.toError = ⟨.portRange, "ports len is 0"⟩ ↔ f = .noPorts := by
  constructor
  · intro h
    have hmessage : f.message = "ports len is 0" := congrArg Error.detail h
    have hf := f.head?_message
    rw [hmessage] at hf
    cases f
    case noPorts => rfl
    all_goals simp at hf
  · rintro rfl
    rfl

end Recon
