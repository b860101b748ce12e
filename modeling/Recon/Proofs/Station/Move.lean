import Mathlib.Data.List.Basic
import Recon.Station.Callers

/-!
# Moves of a station and its callers

A move is one thing that a caller does while the slot is locked, or that a task does by itself.
Each step of `Callers.step` is one of the moves of `Callers.Move`, with the guard under which it is
possible, so an invariant has to be looked at once per move.
-/

namespace Recon

def CallerPhase.awaited : CallerPhase → Option Nat
  | .waiting task _ | .seen task _ => some task
  | _ => none

def CallerAction.caller? : CallerAction → Option Nat
  | .beginWait c | .seeEnd c | .endWait c | .abandon c | .ask c | .which c | .snapshot c => some c
  | _ => none

namespace Callers

variable {s s' : Callers} {a : CallerAction} {e : Option CallerEvent}

def statusOf (s : Callers) (task : Nat) : Option Status := (s.tasks[task]?).map fun t => t.status

def tidy (s : Callers) : Callers := { s with slot := s.slot.retire s.isOver }

inductive Move (s : Callers) : CallerAction → Callers → Option CallerEvent → Prop
  | started (h : ∀ k, s.slot.active = some k → s.isOver k = true) :
      Move s .offer
        ⟨⟨some s.tasks.length, some s.tasks.length, s.slot.current?⟩,
          s.tasks ++ [⟨.init, false⟩], s.phases⟩
        (some (.started s.tasks.length))
  | turnedAway {k} (hk : s.slot.active = some k) (h : s.isOver k = false) :
      Move s .offer s (some (.refused .busy))
  | looked : Move s .look s.tidy none
  | waitBegun {c k} (hp : s.phases[c]? = some .idle) (hk : s.slot.active = some k) :
      Move s (.beginWait c)
        ({ s with slot := { s.slot with runner := none } }.put c
          (.waiting k s.slot.runner.isSome)) none
  | waitRefused {c} (hp : s.phases[c]? = some .idle) (hk : s.slot.active = none) :
      Move s (.beginWait c) s (some .noWait)
  | sawEnd {c k hasHandle t} (hp : s.phases[c]? = some (.waiting k hasHandle))
      (ht : s.tasks[k]? = some t)
      (h : (if hasHandle then t.isBack else t.status.isTerminal) = true) :
      Move s (.seeEnd c) (s.put c (.seen k t.status)) none
  | waitEnded {c k st} (hp : s.phases[c]? = some (.seen k st)) :
      Move s (.endWait c) ({ s with slot := s.slot.endWait k }.put c .idle) (some (.waited k st))
  | abandoned {c p k} (hp : s.phases[c]? = some p) (hk : p.awaited = some k) :
      Move s (.abandon c) (s.put c .idle) none
  | asked {c} (hp : s.phases[c]? = some .idle) :
      Move s (.ask c) (s.tidy.put c (.asking s.tidy.slot.active.isSome)) none
  | told {c w k} (hp : s.phases[c]? = some (.asking w)) (hk : s.tidy.slot.current? = some k) :
      Move s (.which c) (s.tidy.put c (.looking w k)) none
  | toldNone {c w} (hp : s.phases[c]? = some (.asking w)) (hk : s.tidy.slot.current? = none) :
      Move s (.which c) (s.tidy.put c .idle) (some (.informed w none))
  | informed {c w k} (hp : s.phases[c]? = some (.looking w k)) :
      Move s (.snapshot c) (s.put c .idle) (some (.informed w (s.statusOf k)))
  | turned {k st t} (ht : s.tasks[k]? = some t) (h : t.status.isTerminal = false) :
      Move s (.turn k st) { s with tasks := s.tasks.set k { t with status := st } } none
  | cameBack {k t} (ht : s.tasks[k]? = some t) (h : t.status.isTerminal = true) :
      Move s (.comeBack k) { s with tasks := s.tasks.set k { t with isBack := true } } none

theorem isOver_iff {k : Nat} :
    s.isOver k = true ↔ ∃ st, s.statusOf k = some st ∧ st.isTerminal = true := by
  cases h : s.tasks[k]? <;> simp [isOver, statusOf, h]

theorem tidy_eq_of_not_over (h : ∀ k, s.slot.active = some k → s.isOver k = false) :
    s.tidy = s := by
  obtain ⟨⟨_ | k, runner, last⟩, tasks, phases⟩ := s
  · rfl
  · simp [tidy, Slot.retire, h k rfl]

theorem tidy_of_over {k : Nat} (hk : s.slot.active = some k) (h : s.isOver k = true) :
    s.tidy = { s with slot := ⟨none, none, some k⟩ } := by
  simp [tidy, Slot.retire, hk, h]

/-- A look at the slot retires the active task if that is over, and else does nothing. -/
theorem tidy_cases (s : Callers) :
    (∃ k, s.slot.active = some k ∧ s.isOver k = true ∧
      s.tidy = { s with slot := ⟨none, none, some k⟩ }) ∨
    (∀ k, s.slot.active = some k → s.isOver k = false) ∧ s.tidy = s := by
  by_cases h : ∃ k, s.slot.active = some k ∧ s.isOver k = true
  · obtain ⟨k, hk, ho⟩ := h
    exact .inl ⟨k, hk, ho, tidy_of_over hk ho⟩
  · have hall : ∀ k, s.slot.active = some k → s.isOver k = false := by simpa using h
    exact .inr ⟨hall, tidy_eq_of_not_over hall⟩

theorem step_offer_of_over (h : ∀ k, s.slot.active = some k → s.isOver k = true) :
    s.step .offer =
      some (⟨⟨some s.tasks.length, some s.tasks.length, s.slot.current?⟩,
        s.tasks ++ [⟨.init, false⟩], s.phases⟩, some (.started s.tasks.length)) := by
  cases hk : s.slot.active with
  | none => simp [step, Slot.start, Slot.retire, Slot.current?, hk]
  | some k => simp [step, Slot.start, Slot.retire, Slot.current?, hk, h k hk]

theorem step_offer_of_busy {k : Nat} (hk : s.slot.active = some k) (h : s.isOver k = false) :
    s.step .offer = some (s, some (.refused .busy)) := by
  simp [step, Slot.start, Slot.retire, hk, h]

theorem move_of_stepCaller {c : Nat} {p : CallerPhase} (hp : s.phases[c]? = some p)
    (ha : a.caller? = some c) (hs : s.stepCaller c p a = some (s', e)) : Move s a s' e := by
  cases a <;> cases ha
  case beginWait =>
    simp only [stepCaller] at hs
    split at hs
    case isFalse => cases hs
    case isTrue hi =>
      subst hi
      cases hk : s.slot.active <;> simp only [Slot.beginWait, hk] at hs <;> cases hs
      · exact .waitRefused hp hk
      · simpa [hk] using Move.waitBegun hp hk
  case seeEnd =>
    cases p <;> simp only [stepCaller] at hs <;> try cases hs
    case waiting k hasHandle =>
      split at hs <;> try cases hs
      rename_i t ht
      -- whom the handle was left to waits for the return of the run, and others for the status
      by_cases h : (if hasHandle then t.isBack else t.status.isTerminal) = true
      · rw [if_pos h] at hs
        cases hs
        exact .sawEnd hp ht h
      · rw [if_neg h] at hs
        cases hs
  case endWait =>
    cases p <;> cases hs
    exact .waitEnded hp
  case abandon =>
    cases p <;> cases hs <;> exact .abandoned hp rfl
  case ask =>
    simp only [stepCaller] at hs
    split at hs <;> cases hs
    rename_i hi
    subst hi
    exact .asked hp
  case which =>
    cases p <;> simp only [stepCaller] at hs <;> try cases hs
    split at hs <;> cases hs
    · exact .told hp ‹_›
    · exact .toldNone hp ‹_›
  case snapshot =>
    cases p <;> cases hs
    exact .informed hp

/-- Every step is one of the moves. -/
theorem move_of_step (hs : s.step a = some (s', e)) : Move s a s' e := by
  cases a
  case offer =>
    by_cases h : ∀ k, s.slot.active = some k → s.isOver k = true
    · rw [step_offer_of_over h] at hs
      cases hs
      exact .started h
    · -- some task is active and at work
      obtain ⟨k, hk, hb⟩ : ∃ k, s.slot.active = some k ∧ s.isOver k = false := by simpa using h
      rw [step_offer_of_busy hk hb] at hs
      cases hs
      exact .turnedAway hk hb
  case look =>
    cases hs
    exact .looked
  case turn k st =>
    simp only [step] at hs
    split at hs <;> try cases hs
    rename_i ht
    split at hs <;> cases hs
    rename_i hn
    exact .turned ht (by simpa using hn)
  case comeBack k =>
    simp only [step] at hs
    split at hs <;> try cases hs
    rename_i ht
    split at hs <;> cases hs
    rename_i hn
    exact .cameBack ht hn
  all_goals
    simp only [step] at hs
    split at hs <;> try cases hs
    exact move_of_stepCaller ‹_› rfl hs

end Callers

end Recon
