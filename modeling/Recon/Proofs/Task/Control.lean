import Recon.Proofs.Task.Conservation
import Recon.Rehearsal.Performance

/-!
# Changes of status

The status of a task has four writers that act in any order: its run, the schedule at the start and
at every look at the clock, and the owner.  What holds them together is that the status always fits
the stage of the run.  So each change has one of a few causes, an outcome is never left, and the
schedule never ends a pause of the owner.
-/

namespace Recon

open Time

def Status.isActive : Status → Bool
  | .running | .pausedByProgram | .pausedManually => true
  | _ => false

def Action.look? : Action → Option Moment
  | .schedule now | .tick now => some now
  | _ => none

namespace Status

variable {status status' : Status} {inWindow : Bool}

theorem isActive_schedule (inWindow : Bool) (status : Status) :
    (status.schedule inWindow).isActive = status.isActive := by
  cases status <;> cases inWindow <;> rfl

/-- Only a status that is under way changes with the schedule. -/
theorem schedule_of_not_active (h : status.isActive = false) :
    status.schedule inWindow = status := by
  cases status <;> first | rfl | cases h

theorem isActive_iff : status.isActive = true ↔
    status = .running ∨ status = .pausedByProgram ∨ status = .pausedManually := by
  cases status <;> simp [isActive]

theorem not_terminal_of_active (h : status.isActive = true) : status.isTerminal = false := by
  cases status <;> first | rfl | cases h

theorem isActive_of_pause (h : status.pause = .ok status') :
    status.isActive = true ∧ status'.isActive = true := by
  cases status <;> cases h <;> exact ⟨rfl, rfl⟩

theorem isActive_of_resume {r : Resumption} (h : status.resume inWindow = .ok (status', r)) :
    status.isActive = true ∧ status'.isActive = true := by
  cases status <;> cases inWindow <;> cases h <;> exact ⟨rfl, rfl⟩

end Status

def Stage.Fits (status : Status) : Stage → Prop
  | .idle | .planning | .opening | .launching | .failing _ | .ending .error | .publishing .error =>
    status = .init
  | .returned outcome => status = outcome ∧ outcome.isTerminal = true
  | .collapsed => status.isTerminal = false
  | .ending .success | .publishing .success => status.isActive = true
  | .ending _ | .publishing _ => False
  | _ => status.isActive = true

/-- Whoever moves a status that is under way to another such status does not disturb the run. -/
theorem Stage.Fits.of_active {stage : Stage} {status status' : Status} (h : stage.Fits status)
    (ha : status.isActive = true) (ha' : status'.isActive = true) : stage.Fits status' := by
  have hi : status ≠ .init := by
    rintro rfl
    cases ha
  cases stage
  -- a status that is under way is not that of a run that has returned
  case returned outcome =>
    have hn := Status.not_terminal_of_active ha
    rw [h.1, h.2] at hn
    cases hn
  case collapsed => exact Status.not_terminal_of_active ha'
  case ending outcome => cases outcome <;> first | exact ha' | exact absurd h hi | exact h.elim
  case publishing outcome => cases outcome <;> first | exact ha' | exact absurd h hi | exact h.elim
  all_goals first | exact ha' | exact absurd h hi

/-- A change of status with its cause: what a task does in a state, and the status before and
after. -/
inductive StatusChange (t : Task) (s : TaskState) : Action → Status → Status → Prop
  | launched (hs : s.stage = .launching) : StatusChange t s .run .init .running
  | failed (hs : s.stage = .publishing .error) : StatusChange t s .run .init .error
  | rested {a now} (ha : a.look? = some now) (hw : isExcludedAt t.settings.window now = true) :
      StatusChange t s a .running .pausedByProgram
  | woken {a now} (ha : a.look? = some now) (hw : isExcludedAt t.settings.window now = false) :
      StatusChange t s a .pausedByProgram .running
  | paused {status} (hb : status = .running ∨ status = .pausedByProgram) :
      StatusChange t s .pause status .pausedManually
  | resumed {now} (hw : isExcludedAt t.settings.window now = false) :
      StatusChange t s (.resume now) .pausedManually .running
  | deferred {now} (hw : isExcludedAt t.settings.window now = true) :
      StatusChange t s (.resume now) .pausedManually .pausedByProgram
  | succeeded {status} (hs : s.stage = .publishing .success)
      (hb : status = .running ∨ status = .pausedByProgram ∨ status = .pausedManually) :
      StatusChange t s .run status .success

namespace StatusChange

variable {t : Task} {s : TaskState} {a : Action} {status status' : Status}

theorem not_terminal (h : StatusChange t s a status status') : status.isTerminal = false := by
  cases h
  case paused hb => rcases hb with rfl | rfl <;> rfl
  case succeeded hb => rcases hb with rfl | rfl | rfl <;> rfl
  all_goals rfl

/-- A pause of the owner ends with a request of the owner or with the run. -/
theorem of_pausedManually (h : StatusChange t s a .pausedManually status') :
    (∃ now, a = .resume now) ∨ (a = .run ∧ s.stage = .publishing .success) := by
  cases h
  case paused hb => simp at hb
  case resumed now _ => exact .inl ⟨now, rfl⟩
  case deferred now _ => exact .inl ⟨now, rfl⟩
  case succeeded hs _ => exact .inr ⟨rfl, hs⟩

/-- Only a window makes a task rest by program. -/
theorem window_isSome (h : StatusChange t s a status .pausedByProgram) :
    t.settings.window.isSome = true := by
  have hw : ∃ now, isExcludedAt t.settings.window now = true := by
    cases h
    case rested now hw _ => exact ⟨now, hw⟩
    case deferred now hw => exact ⟨now, hw⟩
  obtain ⟨now, hw⟩ := hw
  cases ht : t.settings.window
  · rw [ht] at hw
    cases hw
  · rfl

end StatusChange

namespace TaskState

variable {t : Task} {s s' : TaskState} {a : Action} {es : List Event}

def attempt (t : Task) (s : TaskState) (a : Action) : TaskState :=
  ((step t s a).map Prod.fst).getD s

/-- What a rehearsal performs is such a request. -/
theorem state_perform (r : Rehearsal) (a : Action) :
    (r.perform a).state = r.state.attempt r.task a := by
  unfold Rehearsal.perform attempt
  cases step r.task r.state a <;> rfl

attribute [local simp] goto fail finish complete completeHost Stage.Fits

/-- Every move keeps the status in keeping with the stage. -/
theorem Move.fits (hm : Move t s a s' es) (h : s.stage.Fits s.status) :
    s'.stage.Fits s'.status := by
  cases hm
  -- the owner and the clock change the status alone
  case paused hp =>
    obtain ⟨ha, ha'⟩ := Status.isActive_of_pause hp
    exact h.of_active ha ha'
  case resumed hr =>
    obtain ⟨ha, ha'⟩ := Status.isActive_of_resume hr
    exact h.of_active ha ha'
  case ticked now _ =>
    cases ha : s.status.isActive
    · simpa [Status.schedule_of_not_active ha] using h
    · exact h.of_active ha (by rw [Status.isActive_schedule, ha])
  case scheduled hs =>
    rw [hs] at h
    simpa [Status.isActive_schedule] using h
  case launched hs =>
    rw [hs] at h
    have hi : s.status = .init := h
    simp [hi, Status.isActive]
  -- the end of the run
  case endTold outcome hs => cases outcome <;> simp_all
  case published outcome hs =>
    rw [hs] at h
    cases outcome <;> first | exact ⟨rfl, rfl⟩ | exact h.elim
  case failureCollapsed hs =>
    rw [hs] at h
    have hi : s.status = .init := h
    simp [hi, Status.isTerminal]
  case collapsed outcome hs =>
    rw [hs] at h
    cases outcome
    case error =>
      have hi : s.status = .init := h
      simp [hi, Status.isTerminal]
    case success => exact Status.not_terminal_of_active h
    all_goals exact h.elim
  case offeredToAsks answer _ _ _ _ _ => cases answer <;> simp_all [afterOffer]
  case offeredToScans answer _ _ _ _ _ => cases answer <;> simp_all [afterOffer]
  all_goals simp_all

/-- What a look at the clock does to the status has a cause, or is nothing. -/
theorem schedule_shift {now : Moment} (ha : a.look? = some now) :
    s.status.schedule (isExcludedAt t.settings.window now) = s.status ∨
      StatusChange t s a s.status (s.status.schedule (isExcludedAt t.settings.window now)) := by
  cases hw : isExcludedAt t.settings.window now <;> cases hs : s.status
  case false.pausedByProgram => exact .inr (.woken ha hw)
  case true.running => exact .inr (.rested ha hw)
  all_goals exact .inl rfl

/-- Every change of status has one of the causes. -/
theorem Move.shift (hm : Move t s a s' es) (h : s.stage.Fits s.status) :
    s'.status = s.status ∨ StatusChange t s a s.status s'.status := by
  cases hm
  case scheduled => exact schedule_shift rfl
  case ticked => exact schedule_shift rfl
  case paused status hp =>
    right
    cases hs : s.status <;> rw [hs] at hp <;> cases hp
    · exact .paused (.inl rfl)
    · exact .paused (.inr rfl)
  -- a rest by program stays; the owner's becomes one by program if the window is active
  case resumed now status r hr =>
    cases hs : s.status <;> rw [hs] at hr
    case pausedByProgram =>
      cases hr
      exact .inl rfl
    case pausedManually =>
      right
      cases hw : isExcludedAt t.settings.window now <;> rw [hw] at hr <;> cases hr
      · exact .resumed hw
      · exact .deferred hw
    all_goals cases hr
  case launched hs =>
    rw [hs] at h
    have hi : s.status = .init := h
    simpa [hi] using StatusChange.launched hs
  -- the stage tells which outcomes there are and from which status
  case published outcome hs =>
    right
    have hf := h
    rw [hs] at hf
    cases outcome
    case error =>
      have hi : s.status = .init := hf
      rw [hi]
      exact .failed hs
    case success => exact .succeeded hs (Status.isActive_iff.mp hf)
    all_goals exact hf.elim
  all_goals exact .inl rfl

/-- The clock is looked at only for a window. -/
theorem Move.monitored (hm : Move t s a s' es)
    (h : s.monitored = true → t.settings.window.isSome = true) :
    s'.monitored = true → t.settings.window.isSome = true := by
  cases hm
  case scheduled =>
    intro hk
    exact (Bool.and_eq_true_iff.mp hk).1
  case stopped =>
    intro hk
    cases hk
  all_goals exact h

theorem Move.monitored_of_tick {now : Moment} (hm : Move t s (.tick now) s' es) :
    s.monitored = true ∧
      s'.status = s.status.schedule (isExcludedAt t.settings.window now) := by
  cases hm
  case ticked hk => exact ⟨hk, rfl⟩

/-- A request that is refused, or that only confirms the rest by program, changes nothing. -/
theorem attempt_pause {r : Status.Refusal} (h : s.status.pause = .error r) :
    s.attempt t .pause = s := by
  simp [attempt, step, h]

theorem attempt_resume {now : Moment} {r : Status.Refusal}
    (h : s.status.resume (isExcludedAt t.settings.window now) = .error r) :
    s.attempt t (.resume now) = s := by
  simp [attempt, step, h]

theorem attempt_resume_of_rest (now : Moment) (h : s.status = .pausedByProgram) :
    s.status.resume (isExcludedAt t.settings.window now) = .ok (.pausedByProgram, .deferred) ∧
      s.attempt t (.resume now) = s := by
  have hr : s.status.resume (isExcludedAt t.settings.window now) =
      .ok (.pausedByProgram, .deferred) := by rw [h]; rfl
  refine ⟨hr, ?_⟩
  simp [attempt, step, hr, ← h]

end TaskState

namespace Run

variable {t : Task} {h : List Turn} {s : TaskState}

theorem fits (hr : Run t h s) : s.stage.Fits s.status :=
  hr.invariant (P := fun s => s.stage.Fits s.status) rfl fun hm hf => hm.fits hf

theorem monitored (hr : Run t h s) : s.monitored = true → t.settings.window.isSome = true :=
  hr.invariant (P := fun s => s.monitored = true → t.settings.window.isSome = true)
    (fun hk => by cases hk) fun hm hk => hm.monitored hk

theorem shift (hr : Run t h s) {x : Turn} (hx : x ∈ h) :
    x.after.status = x.before.status ∨
      StatusChange t x.before x.action x.before.status x.after.status := by
  obtain ⟨⟨_, hb⟩, hm⟩ := hr.of_mem hx
  exact hm.shift hb.fits

/-- An outcome that a task has had once it keeps to the end of every history. -/
theorem status_eq_of_terminal (hr : Run t h s) {x : Turn} (hx : x ∈ h)
    (ht : x.before.status.isTerminal = true) : s.status = x.before.status := by
  obtain ⟨pre, post, he⟩ := List.append_of_mem hx
  obtain ⟨hb, _⟩ := hr.split he
  have hstep : ∀ {s a s' es}, TaskState.Move t s a s' es →
      s.stage.Fits s.status ∧ s.status = x.before.status →
      s'.stage.Fits s'.status ∧ s'.status = x.before.status := by
    intro s a s' es hm ⟨hf, hk⟩
    refine ⟨hm.fits hf, ?_⟩
    -- no cause of a change applies to an outcome
    rcases hm.shift hf with hs | hc
    · rw [hs, hk]
    · have hn := hc.not_terminal
      rw [hk, ht] at hn
      cases hn
  exact (hr.persists hstep he ⟨hb.fits, rfl⟩).1.2

theorem not_pausedByProgram (hr : Run t h s) (hw : t.settings.window = none) :
    s.status ≠ .pausedByProgram := by
  induction hr with
  | start => simp [TaskState.initial]
  | @turn h s a s' es hr hs ih =>
    intro he
    rcases (TaskState.move_of_step hs).shift hr.fits with hk | hc
    · exact ih (hk.symm.trans he)
    · rw [he] at hc
      have hi := hc.window_isSome
      rw [hw] at hi
      cases hi

/-- A look at the clock finds a window, and makes a task that runs or rests by program do what the
window asks for. -/
theorem tick (hr : Run t h s) {x : Turn} (hx : x ∈ h) {now : Moment} (ha : x.action = .tick now)
    (hb : x.before.status = .running ∨ x.before.status = .pausedByProgram) :
    ∃ w, t.settings.window = some w ∧
      x.after.status = if w.isActive now then .pausedByProgram else .running := by
  obtain ⟨⟨_, hb'⟩, hm⟩ := hr.of_mem hx
  rw [ha] at hm
  obtain ⟨hk, hs⟩ := hm.monitored_of_tick
  obtain ⟨w, hw⟩ := Option.isSome_iff_exists.mp (hb'.monitored hk)
  refine ⟨w, hw, ?_⟩
  rw [hs, hw, isExcludedAt]
  rcases hb with hb | hb <;> rw [hb, Status.schedule]

/-- The status of a task changes only by the causes of `StatusChange`, whatever its run, the clock
and its owner do and in whatever order.  An outcome is never left; a pause of the owner ends with a
request to go on or with the run; a task rests by program only for a window, and after a look at the
clock exactly while the window is active; and a request that is refused, or that is put off while
the task rests by program, changes nothing. -/
theorem status_changes (hr : Run t h s) :
    (∀ x ∈ h, x.after.status = x.before.status ∨
        StatusChange t x.before x.action x.before.status x.after.status) ∧
      (∀ x ∈ h, x.before.status.isTerminal = true → s.status = x.before.status) ∧
      (∀ x ∈ h, x.before.status = .pausedManually → x.after.status ≠ .pausedManually →
        (∃ now, x.action = .resume now) ∨
          (x.action = .run ∧ x.before.stage = .publishing .success)) ∧
      (t.settings.window = none → s.status ≠ .pausedByProgram) ∧
      (∀ x ∈ h, ∀ now, x.action = .tick now →
        x.before.status = .running ∨ x.before.status = .pausedByProgram →
        ∃ w, t.settings.window = some w ∧
          (x.after.status = .pausedByProgram ↔ w.isActive now = true) ∧
          (x.after.status = .running ↔ w.isActive now = false)) ∧
      (∀ r, s.status.pause = .error r → s.attempt t .pause = s) ∧
      (∀ now r, s.status.resume (isExcludedAt t.settings.window now) = .error r →
        s.attempt t (.resume now) = s) ∧
      ∀ now, s.status = .pausedByProgram →
        s.status.resume (isExcludedAt t.settings.window now) = .ok (.pausedByProgram, .deferred) ∧
          s.attempt t (.resume now) = s := by
  refine ⟨fun x hx => hr.shift hx, fun x hx => hr.status_eq_of_terminal hx, ?_,
    hr.not_pausedByProgram, ?_, fun r => TaskState.attempt_pause,
    fun now r => TaskState.attempt_resume, TaskState.attempt_resume_of_rest⟩
  · intro x hx hb hn
    rcases hr.shift hx with he | hc
    · exact absurd (he.trans hb) hn
    · rw [hb] at hc
      exact hc.of_pausedManually
  · intro x hx now ha hb
    obtain ⟨w, hw, hs⟩ := hr.tick hx ha hb
    refine ⟨w, hw, ?_, ?_⟩
    · rw [hs]
      cases w.isActive now <;> simp
    · rw [hs]
      cases w.isActive now <;> simp

end Run

/-- The window has no part in the plan. -/
theorem Plan.parts_window (s : Settings) (window : Option Window) :
    Plan.parts { s with window } = Plan.parts s := rfl

namespace Sample

def officeHours : Window := ⟨.daily, ⟨9, 0⟩, ⟨18, 0⟩⟩

def guarded : Task :=
  { task with
    settings := { task.settings with window := some officeHours }
    interval := 5000 }

theorem parts_guarded : Plan.parts guarded.settings = .ok (⟨[], [port]⟩, ⟨[block]⟩, excluded) :=
  (Plan.parts_window task.settings (some officeHours)).trans parts_task

def night : Time.Moment := ⟨noon.date, ⟨79200, by decide⟩⟩

def guardedReady : TaskState :=
  { planned with status := .running, stage := .entering [block], monitored := true }

def guardedDone : TaskState :=
  { planned with
    status := .success
    cancelled := true
    stage := .returned .success
    ended := true
    asks := (Pool.ofSize 10).close
    scans := (Pool.ofSize 10).close
    handovers := (Pool.ofSize 50).close }

/-- The guarded task has a run that starts inside the window, goes on, is paused, is asked to go on
inside the window and outside, and is cancelled before its first host. -/
theorem exists_guarded_run : ∃ h, Run guarded h guardedDone ∧
    h.map Turn.action =
      [.call, .plan ⟨0, 0, 0⟩, .open none, .run, .schedule noon, .tick night, .pause, .tick night,
        .resume noon, .tick noon, .tick night, .pause, .resume night, .cancel, .enter ⟨2, 0, 1⟩,
        .run, .run, .run, .run, .run, .run, .run, .run, .run, .run] := by
  have r₁ := Run.start.turn (TaskState.step_of_move (t := guarded) (.called rfl))
  have m₂ : TaskState.Move guarded
      { TaskState.initial guarded with stage := .planning, started := true } (.plan ⟨0, 0, 0⟩)
      planned [] := .planned rfl parts_guarded (.inl (by decide))
  have r₂ := r₁.turn (TaskState.step_of_move m₂)
  -- the clock and the owner have their say
  obtain ⟨h₃, r₃, a₃⟩ := r₂.follow
    [.open none, .run, .schedule noon, .tick night, .pause, .tick night, .resume noon, .tick noon,
      .tick night, .pause, .resume night] guardedReady rfl
  -- the walk stops before its first host
  obtain ⟨h₄, r₄, a₄⟩ := r₃.follow
    [.cancel, .enter ⟨2, 0, 1⟩, .run, .run, .run, .run, .run, .run, .run, .run, .run, .run]
    guardedDone rfl
  refine ⟨_, r₄, ?_⟩
  simp [a₃, a₄]

/-- Every change of status in the guarded run has its cause, and its outcome can be neither paused
nor left. -/
theorem status_changes_of_run : ∃ h, Run guarded h guardedDone ∧
    (∀ x ∈ h, x.after.status = x.before.status ∨
      StatusChange guarded x.before x.action x.before.status x.after.status) ∧
    guardedDone.status.pause = .error (.cannotPause .success) ∧
    guardedDone.attempt guarded .pause = guardedDone := by
  obtain ⟨h, hr, _⟩ := exists_guarded_run
  obtain ⟨hc, _, _, _, _, hp, _⟩ := hr.status_changes
  exact ⟨h, hr, hc, rfl, hp _ rfl⟩

end Sample

end Recon
