import Mathlib.Data.Nat.Notation
import Recon.Proofs.Task.Move

/-!
# Runs of a task

A history is the list of the turns that a task has taken, first turn first.  Whatever holds of a
task that has not run and is kept by every move holds after every history.  The stages of a run
only go forward.
-/

namespace Recon

structure Turn where
  before : TaskState
  action : Action
  after : TaskState
  events : List Event

/-- The turns that a task can take from its beginning, and the state that they lead to. -/
inductive Run (t : Task) : List Turn → TaskState → Prop
  | start : Run t [] (.initial t)
  | turn {h s a s' es} (hr : Run t h s) (hs : TaskState.step t s a = some (s', es)) :
      Run t (h ++ [⟨s, a, s', es⟩]) s'

def Stage.rank : Stage → ℕ
  | .idle => 0
  | .planning => 1
  | .opening => 2
  | .launching => 3
  | .scheduling => 4
  -- the walk goes round among these
  | .entering _ | .checking _ | .gating _ | .visiting _ | .offering _ _ | .inLine _ _ => 5
  | .drainingAsks => 6
  | .drainingScans => 7
  | .drainingScanner => 8
  | .drainingHandovers => 9
  | .releasing => 10
  | .closing => 11
  -- here the ways of a success and of a failure meet
  | .stopping | .failing _ => 12
  | .ending _ => 13
  | .publishing _ => 14
  | .returned _ | .collapsed => 15

def Stage.lined : Stage → List Address
  | .inLine _ host => [host]
  | _ => []

namespace TaskState

variable {t : Task} {s s' : TaskState} {a : Action} {es : List Event}

@[simp] theorem rank_afterOffer (w : Walk) (host : Address) (answer : Pool.Answer) :
    (afterOffer w host answer).rank = if answer = .refused then 6 else 5 := by
  cases answer <;> rfl

def follow (t : Task) (s : TaskState) : List Action → Option TaskState
  | [] => some s
  | a :: as => (step t s a).bind fun (s', _) => follow t s' as

/-- No move takes a run back. -/
theorem Move.rank_le (hm : Move t s a s' es) : s.stage.rank ≤ s'.stage.rank := by
  cases hm
  case offeredToAsks answer _ hs _ _ _ => cases answer <;> simp [Stage.rank, afterOffer, hs]
  case offeredToScans answer _ hs _ _ _ => cases answer <;> simp [Stage.rank, afterOffer, hs]
  all_goals simp_all [Stage.rank, goto, fail, finish, complete, completeHost]

end TaskState

/-- A task can get from one state to another by actions of a kind, each in its state. -/
inductive Leads (t : Task) (A : TaskState → Action → Prop) : TaskState → TaskState → Prop
  | here {s} : Leads t A s s
  | move {s a s₁ es s'} (hm : TaskState.Move t s a s₁ es) (ha : A s a) (hl : Leads t A s₁ s') :
      Leads t A s s'

namespace Run

variable {t : Task} {h : List Turn} {s : TaskState}

/-- A property of states that every move keeps holds after every history. -/
theorem invariant {P : TaskState → Prop} (hr : Run t h s) (h0 : P (.initial t))
    (hstep : ∀ {s a s' es}, TaskState.Move t s a s' es → P s → P s') : P s := by
  induction hr with
  | start => exact h0
  | turn _ hs ih => exact hstep (TaskState.move_of_step hs) ih

/-- Each turn of a history is a step from a state that the history has reached. -/
theorem split (hr : Run t h s) {pre post : List Turn} {x : Turn} (hx : h = pre ++ x :: post) :
    Run t pre x.before ∧ TaskState.Move t x.before x.action x.after x.events := by
  induction hr generalizing post with
  | start => simp at hx
  | @turn h' s₀ a s' es hr hs ih =>
    rcases List.eq_nil_or_concat post with rfl | ⟨post', y, rfl⟩
    · -- it is the last turn
      obtain ⟨rfl, hlast⟩ := List.append_inj' hx rfl
      cases hlast
      exact ⟨hr, TaskState.move_of_step hs⟩
    · -- it is an earlier one, and the last turn is dropped
      have hx' : h' ++ [⟨s₀, a, s', es⟩] = (pre ++ x :: post') ++ [y] := by simpa using hx
      obtain ⟨hpre, _⟩ := List.append_inj' hx' rfl
      exact ih hpre

/-- The same for a turn that is anywhere in the history. -/
theorem of_mem (hr : Run t h s) {x : Turn} (hx : x ∈ h) :
    (∃ pre, Run t pre x.before) ∧ TaskState.Move t x.before x.action x.after x.events := by
  obtain ⟨pre, post, he⟩ := List.append_of_mem hx
  obtain ⟨hb, hm⟩ := hr.split he
  exact ⟨⟨pre, hb⟩, hm⟩

/-- Induction on what follows a turn: what holds after the turn, and is kept by each turn that
follows, holds in the end. -/
theorem since {P : List Turn → TaskState → Prop} (hr : Run t h s) {pre post : List Turn}
    {x : Turn} (hx : h = pre ++ x :: post) (h0 : P [] x.after)
    (hstep : ∀ {post s a s' es}, Run t (pre ++ x :: post) s → TaskState.Move t s a s' es →
      P post s → P (post ++ [⟨s, a, s', es⟩]) s') : P post s := by
  induction hr generalizing post with
  | start => simp at hx
  | @turn h' s₀ a s' es hr hs ih =>
    rcases List.eq_nil_or_concat post with rfl | ⟨post', y, rfl⟩
    · -- it is the last turn
      obtain ⟨rfl, hlast⟩ := List.append_inj' hx rfl
      cases hlast
      exact h0
    · -- it is an earlier one, and the last turn keeps what held before it
      have hx' : h' ++ [⟨s₀, a, s', es⟩] = (pre ++ x :: post') ++ [y] := by simpa using hx
      obtain ⟨hpre, hlast⟩ := List.append_inj' hx' rfl
      cases hlast
      rw [List.concat_eq_append]
      exact hstep (hpre ▸ hr) (TaskState.move_of_step hs) (ih hpre)

/-- What every move keeps holds from the turn on before which it holds. -/
theorem persists {P : TaskState → Prop} (hr : Run t h s)
    (hstep : ∀ {s a s' es}, TaskState.Move t s a s' es → P s → P s') {pre post : List Turn}
    {x : Turn} (hx : h = pre ++ x :: post) (hP : P x.before) :
    P s ∧ ∀ y ∈ x :: post, P y.before := by
  obtain ⟨_, hm⟩ := hr.split hx
  apply hr.since (P := fun post s => P s ∧ ∀ y ∈ x :: post, P y.before) hx
  · exact ⟨hstep hm hP, by simpa using hP⟩
  · intro post s a s' es _ hm ⟨hs, hall⟩
    refine ⟨hstep hm hs, ?_⟩
    rw [← List.cons_append]
    exact List.forall_mem_append.mpr ⟨hall, by simpa using hs⟩

/-- A run goes on along actions that are possible one after the other. -/
theorem follow (hr : Run t h s) (as : List Action) (s' : TaskState)
    (hf : s.follow t as = some s') :
    ∃ h', Run t (h ++ h') s' ∧ h'.map Turn.action = as := by
  induction as generalizing h s with
  | nil =>
    cases hf
    exact ⟨[], by simpa using hr, rfl⟩
  | cons a as ih =>
    obtain ⟨⟨s₁, es⟩, hs, hf⟩ := Option.bind_eq_some_iff.mp hf
    obtain ⟨h', hr', ha⟩ := ih (hr.turn hs) hf
    exact ⟨⟨s, a, s₁, es⟩ :: h', by simpa using hr', by rw [List.map_cons, ha]⟩

theorem leads {A : TaskState → Action → Prop} {s' : TaskState} (hr : Run t h s)
    (hl : Leads t A s s') : ∃ h', Run t (h ++ h') s' ∧ ∀ x ∈ h', A x.before x.action := by
  induction hl generalizing h with
  | here => exact ⟨[], by simpa using hr, by simp⟩
  | @move s a s₁ es s' hm ha _ ih =>
    obtain ⟨h', hr', hA⟩ := ih (hr.turn (TaskState.step_of_move hm))
    refine ⟨⟨s, a, s₁, es⟩ :: h', by simpa using hr', ?_⟩
    intro x hx
    rcases List.mem_cons.mp hx with rfl | hx
    · exact ha
    · exact hA x hx

end Run

end Recon
