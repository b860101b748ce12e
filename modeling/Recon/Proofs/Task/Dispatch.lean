import Recon.Proofs.Task.Coverage

/-!
# Dispatch of a run

What the receiver of a task is told: the open endpoints, a failure, and the end.  The endpoints
that it is given are those of the reports, each once; a failure is told right before the end, the
end once and last.  The order of the drains is what brings this about: no hand-over runs or waits
any more when the run gets beyond the drain of the hand-overs.
-/

namespace Recon

namespace Event

def isDispatch : Event → Bool
  | .called _ | .failed _ | .ended _ => true
  | _ => false

def isClosing : Event → Bool
  | .failed _ | .ended _ => true
  | _ => false

def call? : Event → Option Endpoint
  | .called e => some e
  | _ => none

end Event

def Action.found? : Action → Option Endpoint
  | .report e isOpen => if isOpen then some e else none
  | .stray outcome => outcome
  | _ => none

def dispatches (h : List Turn) : List Event := (events h).filter Event.isDispatch

def closings (h : List Turn) : List Event := (events h).filter Event.isClosing

def handedOver (h : List Turn) : List Endpoint := (events h).filterMap Event.call?

def finds (h : List Turn) : List Endpoint := h.filterMap fun x => x.action.found?

/-- What a run at a stage has told besides the endpoints. -/
def Stage.Told (es : List Event) : Stage → Prop
  | .ending .success => es = []
  | .ending .error => ∃ e, es = [.failed e]
  | .publishing .success | .returned .success => ∃ status, es = [.ended status]
  | .publishing .error | .returned .error => ∃ e status, es = [.failed e, .ended status]
  | .collapsed =>
    (∃ e, es = [.failed e]) ∨ (∃ status, es = [.ended status]) ∨
      ∃ e status, es = [.failed e, .ended status]
  | .ending _ | .publishing _ | .returned _ => False
  | _ => es = []

def HandoverJob.pending (j : HandoverJob) : Multiset Endpoint :=
  if j.called then 0 else {j.endpoint}

theorem Stage.Told.eq_nil {stage : Stage} {es : List Event} (h : stage.Told es)
    (hr : stage.rank ≤ 12) : es = [] := by
  cases stage <;> simp [Stage.rank] at hr
  all_goals exact h

theorem Stage.rank_pos {stage : Stage} (h : stage ≠ .idle) : 1 ≤ stage.rank := by
  cases stage <;> simp [rank] at h ⊢

/-- Only a failure and a success are told. -/
theorem Stage.Told.of_returned {o : Status} {es : List Event} (h : (Stage.returned o).Told es) :
    (o = .success ∧ ∃ status, es = [.ended status]) ∨
      (o = .error ∧ ∃ e status, es = [.failed e, .ended status]) := by
  cases o
  case success => exact .inl ⟨rfl, h⟩
  case error => exact .inr ⟨rfl, h⟩
  all_goals exact h.elim

namespace Status

variable {status status' : Status}

theorem isTerminal_schedule (inWindow : Bool) (status : Status) :
    (status.schedule inWindow).isTerminal = status.isTerminal := by
  cases status <;> cases inWindow <;> rfl

theorem schedule_of_terminal (inWindow : Bool) (h : status.isTerminal = true) :
    status.schedule inWindow = status := by
  cases status <;> first | rfl | cases h

theorem isTerminal_of_pause (h : status.pause = .ok status') :
    status.isTerminal = false ∧ status'.isTerminal = false := by
  cases status <;> cases h <;> exact ⟨rfl, rfl⟩

theorem isTerminal_of_resume {inWindow : Bool} {r : Resumption}
    (h : status.resume inWindow = .ok (status', r)) :
    status.isTerminal = false ∧ status'.isTerminal = false := by
  cases status <;> cases inWindow <;> cases h <;> exact ⟨rfl, rfl⟩

end Status

namespace TaskState

variable {t : Task} {s s' : TaskState} {a : Action} {es ts : List Event}

attribute [local simp] goto fail finish complete completeHost
attribute [local simp] Event.isDispatch Event.isClosing Event.call? Action.found? Stage.Told
attribute [local simp] List.filter_cons

/-- A move tells what its stage is to tell. -/
theorem Move.told (hm : Move t s a s' es) (h : s.stage.Told ts) :
    s'.stage.Told (ts ++ es.filter Event.isClosing) := by
  cases hm
  case offeredToAsks answer _ _ _ _ _ => cases answer <;> simp_all [afterOffer]
  case offeredToScans answer _ _ _ _ _ => cases answer <;> simp_all [afterOffer]
  case endTold outcome hs =>
    rw [hs] at h
    cases outcome
    case error =>
      obtain ⟨e, rfl⟩ := h
      simp
    all_goals simp_all
  case published outcome hs => cases outcome <;> simp_all
  case collapsed outcome hs => cases outcome <;> simp_all
  all_goals first | simpa using h | simp_all

/-- What a move tells the receiver is an endpoint, while nothing else has been told, or is not. -/
theorem Move.dispatch_eq (hm : Move t s a s' es) (ho : Orderly t s) (h : s.stage.Told ts) :
    ts ++ es.filter Event.isDispatch =
      (es.filterMap Event.call?).map .called ++ (ts ++ es.filter Event.isClosing) := by
  cases hm
  case handedOver hj =>
    -- hand-overs run only before anything else is told
    have hr := ho.rank_of_handover hj
    rw [h.eq_nil (by omega)]
    simp
  all_goals simp

/-- The endpoints of the reports wait for their hand-over until the receiver has them. -/
theorem Move.handovers_balance (hm : Move t s a s' es) (ho : Orderly t s) :
    s'.handovers.weigh HandoverJob.pending + (es.filterMap Event.call? : Multiset Endpoint) =
      s.handovers.weigh HandoverJob.pending + (a.found?.toList : Multiset Endpoint) := by
  have submitted {e : Endpoint} (hr : s.stage.rank ≤ 8) :
      (s.handovers.submit ⟨e, false⟩).2.weigh HandoverJob.pending =
        {e} + s.handovers.weigh HandoverJob.pending := by
    rcases ha : s.handovers.submit ⟨e, false⟩ with ⟨answer, q⟩
    apply Pool.weigh_submit HandoverJob.pending ha
    -- the pool is open as long as the scanner may report
    rintro rfl
    have hc := (Pool.submit_refused ha).2
    simp [(ho.pools_open (by omega)).2.2] at hc
  cases hm
  case handedOver hj =>
    obtain ⟨m, h0, hu, _⟩ := Pool.weigh_split HandoverJob.pending hj
    simp [h0, hu, HandoverJob.pending, add_comm]
  case handoverLeft hj => simp [Pool.weigh_finish_eq (f := HandoverJob.pending) hj rfl]
  case handoverAdmitted ha => simp [Pool.weigh_admit _ ha]
  case reportedOpen he =>
    have hr := ho.rank_of_flying he
    simp [submitted (by omega), add_comm]
  case strayedOpen hl =>
    have hr := rank_of_live hl
    simp [submitted (by omega), add_comm]
  all_goals simp

theorem Move.found_eq (hm : Move t s a s' es) :
    s'.found = s.found + a.found?.toList.length := by
  cases hm
  all_goals simp

/-- The outcome of a run is its status from its last step on, and no earlier. -/
structure Settled (s : TaskState) : Prop where
  status_eq : ∀ o, s.stage = .returned o → s.status = o ∧ o.isTerminal = true
  not_terminal : (∀ o, s.stage ≠ .returned o) → s.status.isTerminal = false

theorem Settled.of_running (hs : ∀ o, s.stage ≠ .returned o) (hn : s.status.isTerminal = false) :
    Settled s :=
  ⟨fun o ho => absurd ho (hs o), fun _ => hn⟩

theorem Move.settled_returned (hm : Move t s a s' es) (hp : Settled s) {o : Status}
    (hs : s.stage = .returned o) : Settled s' := by
  obtain ⟨rfl, ht⟩ := hp.status_eq o hs
  -- neither the owner nor the clock moves a status that is terminal
  have hk : s'.stage = .returned s.status ∧ s'.status = s.status := by
    cases hm
    case paused hp => simp [(Status.isTerminal_of_pause hp).1] at ht
    case resumed hp => simp [(Status.isTerminal_of_resume hp).1] at ht
    case ticked => exact ⟨hs, Status.schedule_of_terminal _ ht⟩
    all_goals simp_all
  refine ⟨?_, ?_⟩
  · intro o ho
    rw [hk.1] at ho
    cases ho
    exact ⟨hk.2, ht⟩
  · intro hn
    exact absurd hk.1 (hn _)

theorem Move.settled_running (hm : Move t s a s' es) (hs : ∀ o, s.stage ≠ .returned o)
    (hn : s.status.isTerminal = false) (h : s.stage.Told ts) : Settled s' := by
  cases hm
  case published outcome hs =>
    -- only a success or a failure is ever told, so the outcome is one of them
    rw [hs] at h
    refine ⟨?_, fun hn => absurd rfl (hn outcome)⟩
    intro o ho
    cases ho
    cases outcome <;> first | exact ⟨rfl, rfl⟩ | exact h.elim
  case paused hp => exact .of_running hs (Status.isTerminal_of_pause hp).2
  case resumed hp => exact .of_running hs (Status.isTerminal_of_resume hp).2
  case launched =>
    refine .of_running (by simp) ?_
    dsimp only
    split
    · rfl
    · exact hn
  case offeredToAsks answer _ _ _ _ _ =>
    cases answer <;> exact .of_running (by simp [afterOffer]) hn
  case offeredToScans answer _ _ _ _ _ =>
    cases answer <;> exact .of_running (by simp [afterOffer]) hn
  all_goals first
    -- most moves keep the stage and the status
    | exact .of_running hs hn
    | exact .of_running (by simp_all) (by simp_all [Status.isTerminal_schedule])

theorem Move.settled (hm : Move t s a s' es) (hp : Settled s) (h : s.stage.Told ts) :
    Settled s' := by
  by_cases hs : ∃ o, s.stage = .returned o
  · obtain ⟨o, hs⟩ := hs
    exact hm.settled_returned hp hs
  · have hs := not_exists.mp hs
    exact hm.settled_running hs (hp.not_terminal hs) h

theorem Move.rank_pos (hm : Move t s .call s' es) : 1 ≤ s'.stage.rank := by
  cases hm
  case called => simp [Stage.rank]
  case calledAgain hs => exact Stage.rank_pos hs

theorem Move.eq_of_rank_pos (hm : Move t s .call s' es) (hk : 1 ≤ s.stage.rank) :
    s' = s ∧ es = [] := by
  cases hm
  case called hs => simp [hs, Stage.rank] at hk
  case calledAgain => exact ⟨rfl, rfl⟩

/-- Nothing happens to a task that nobody has asked to run. -/
theorem Move.idle (hm : Move t s a s' es) (ho : Orderly t s) (hs : s.stage = .idle)
    (ha : a ≠ .call) : s'.stage = .idle ∧ es = [] := by
  have hasks := ho.asks_quiet (by simp [hs, Stage.rank])
  have hscans := ho.scans_quiet (by simp [hs, Stage.rank])
  have hhandovers := ho.handovers_quiet (by simp [hs, Stage.rank])
  cases hm
  all_goals simp_all

/-- Nothing is told once the end has been told. -/
theorem Move.dispatch_eq_nil (hm : Move t s a s' es) (ho : Orderly t s)
    (hr : 14 ≤ s.stage.rank) : es.filter Event.isDispatch = [] := by
  cases hm
  case handedOver hj =>
    have := ho.rank_of_handover hj
    omega
  all_goals simp_all [Stage.rank]

/-- The end is told by a run whose hand-overs have come to their end. -/
theorem Move.ended {status : Status} (hm : Move t s a s' es) (he : .ended status ∈ es) :
    s.stage.rank = 13 ∧ s'.stage.rank = 14 ∧ s.status = status := by
  cases hm
  all_goals simp_all [Stage.rank]

end TaskState

namespace Run

variable {t : Task} {h : List Turn} {s : TaskState}

theorem told (hr : Run t h s) : s.stage.Told (closings h) := by
  induction hr with
  | start => rfl
  | turn hr hs ih =>
    have hm := (TaskState.move_of_step hs).told ih
    simpa [closings, events] using hm

/-- The receiver is given its endpoints first and told the rest thereafter. -/
theorem dispatches_eq (hr : Run t h s) :
    dispatches h = (handedOver h).map .called ++ closings h := by
  induction hr with
  | start => rfl
  | @turn h s a s' es hr hs ih =>
    have hd := (TaskState.move_of_step hs).dispatch_eq hr.orderly hr.told
    have hsplit : dispatches (h ++ [⟨s, a, s', es⟩]) =
        dispatches h ++ es.filter Event.isDispatch := by simp [dispatches, events]
    rw [hsplit, ih, List.append_assoc, hd]
    simp [handedOver, closings, events]

theorem handovers_balance (hr : Run t h s) :
    s.handovers.weigh HandoverJob.pending + (handedOver h : Multiset Endpoint) = finds h := by
  induction hr with
  | start => rfl
  | @turn h s a s' es hr hs ih =>
    have hb := (TaskState.move_of_step hs).handovers_balance hr.orderly
    have hfinds : (finds (h ++ [⟨s, a, s', es⟩]) : Multiset Endpoint) =
        finds h + (a.found?.toList : Multiset Endpoint) := by
      cases ha : a.found? <;> simp [finds, ha, ← Multiset.coe_add]
    have hover : (handedOver (h ++ [⟨s, a, s', es⟩]) : Multiset Endpoint) =
        handedOver h + (es.filterMap Event.call? : Multiset Endpoint) := by
      simp [handedOver, events, ← Multiset.coe_add]
    rw [hover, hfinds, ← ih, add_left_comm, hb]
    abel

theorem found_eq (hr : Run t h s) : s.found = (finds h).length := by
  induction hr with
  | start => rfl
  | @turn h s a s' es hr hs ih =>
    rw [(TaskState.move_of_step hs).found_eq, ih]
    cases ha : a.found? <;> simp [finds, ha]

theorem settled (hr : Run t h s) : TaskState.Settled s := by
  induction hr with
  | start => exact ⟨by simp [TaskState.initial], fun _ => rfl⟩
  | turn hr hs ih => exact (TaskState.move_of_step hs).settled ih hr.told

theorem rank_pos (hr : Run t h s) (hc : ∃ x ∈ h, x.action = .call) : 1 ≤ s.stage.rank := by
  induction hr with
  | start => simp at hc
  | @turn h s a s' es hr hs ih =>
    have hm := TaskState.move_of_step hs
    obtain ⟨x, hx, ha⟩ := hc
    rcases List.mem_append.mp hx with hx | hx
    · exact (ih ⟨x, hx, ha⟩).trans hm.rank_le
    · rw [List.mem_singleton.mp hx] at ha
      dsimp only at ha
      exact (ha ▸ hm).rank_pos

/-- A call of a task that has been called before does nothing. -/
theorem called_again (hr : Run t h s) {pre post : List Turn} {x : Turn} (hx : h = pre ++ x :: post)
    (ha : x.action = .call) (hc : ∃ y ∈ pre, y.action = .call) :
    x.after = x.before ∧ x.events = [] := by
  obtain ⟨hr', hm⟩ := hr.split hx
  exact (ha ▸ hm).eq_of_rank_pos (hr'.rank_pos hc)

theorem uncalled (hr : Run t h s) (hc : ∀ x ∈ h, x.action ≠ .call) :
    s.stage = .idle ∧ events h = [] := by
  induction hr with
  | start => exact ⟨rfl, rfl⟩
  | turn hr hs ih =>
    obtain ⟨hc, ha⟩ := List.forall_mem_append.mp hc
    obtain ⟨hst, he⟩ := ih hc
    obtain ⟨hst', he'⟩ := (TaskState.move_of_step hs).idle hr.orderly hst
      (ha _ (List.mem_singleton.mpr rfl))
    refine ⟨hst', ?_⟩
    rw [events, List.flatMap_append, ← events, he, List.nil_append, List.flatMap_singleton, he']

theorem after_end (hr : Run t h s) {pre post : List Turn} {x : Turn} {status : Status}
    (hx : h = pre ++ x :: post) (he : .ended status ∈ x.events) :
    14 ≤ s.stage.rank ∧ dispatches post = [] := by
  obtain ⟨_, hm⟩ := hr.split hx
  apply hr.since (P := fun post s => 14 ≤ s.stage.rank ∧ dispatches post = []) hx
  · exact ⟨(hm.ended he).2.1.ge, rfl⟩
  · -- a turn after the end tells nothing
    intro post s a s' es hr hm ⟨hk, hd⟩
    refine ⟨hk.trans hm.rank_le, ?_⟩
    rw [dispatches, events, List.flatMap_append, List.filter_append, ← events, ← dispatches, hd,
      List.flatMap_singleton, hm.dispatch_eq_nil hr.orderly hk]
    rfl

/-- The end is told when no hand-over runs or waits, and before the outcome is to be seen. -/
theorem ended_at (hr : Run t h s) {pre post : List Turn} {x : Turn} {status : Status}
    (hx : h = pre ++ x :: post) (he : .ended status ∈ x.events) :
    x.before.handovers.jobs = [] ∧ x.before.handovers.waiting = [] ∧
      x.before.status = status ∧ status.isTerminal = false := by
  obtain ⟨hr', hm⟩ := hr.split hx
  obtain ⟨hk, _, rfl⟩ := hm.ended he
  refine ⟨hr'.orderly.handovers_quiet (by omega), hr'.orderly.line_quiet (by omega), rfl, ?_⟩
  apply hr'.settled.not_terminal
  intro o ho
  simp [ho, Stage.rank] at hk

theorem ended_of_terminal (hr : Run t h s) (hs : s.status.isTerminal = true) :
    ∃ status, .ended status ∈ dispatches h := by
  have ho : ∃ o, s.stage = .returned o := by
    by_contra hn
    simp [hr.settled.not_terminal (not_exists.mp hn)] at hs
  obtain ⟨o, ho⟩ := ho
  have ht := hr.told
  rw [ho] at ht
  rw [hr.dispatches_eq]
  rcases ht.of_returned with ⟨_, status, hc⟩ | ⟨_, e, status, hc⟩
  · exact ⟨status, by simp [hc]⟩
  · exact ⟨status, by simp [hc]⟩

theorem handedOver_eq_finds (hr : Run t h s) (hk : 10 ≤ s.stage.rank) :
    (handedOver h : Multiset Endpoint) = finds h := by
  have hw := Pool.weigh_eq_zero (f := HandoverJob.pending) (hr.orderly.handovers_quiet (by omega))
    (hr.orderly.line_quiet (by omega))
  rw [← hr.handovers_balance, hw, zero_add]

/-- However often a task is called, its receiver is told one story: nothing before the first call,
then the open endpoints of the reports, each once, then the failure if the run fails, then the end
while the outcome is not yet to be seen, and nothing more. -/
theorem dispatched_once (hr : Run t h s) :
    ((∀ x ∈ h, x.action ≠ .call) → events h = []) ∧
      (∀ pre x post, h = pre ++ x :: post → x.action = .call → (∃ y ∈ pre, y.action = .call) →
        x.after = x.before ∧ x.events = []) ∧
      (∀ pre x post status, h = pre ++ x :: post → .ended status ∈ x.events →
        x.before.handovers.jobs = [] ∧ x.before.handovers.waiting = [] ∧
          x.before.status = status ∧ status.isTerminal = false ∧ dispatches post = []) ∧
      (s.status.isTerminal = true → ∃ status, .ended status ∈ dispatches h) ∧
      ∀ o, s.stage = .returned o →
        s.status = o ∧ (handedOver h).length = s.found ∧
          (handedOver h : Multiset Endpoint) = finds h ∧
          ((o = .success ∧ ∃ status,
              dispatches h = (handedOver h).map .called ++ [.ended status]) ∨
            (o = .error ∧ ∃ e status,
              dispatches h = (handedOver h).map .called ++ [.failed e, .ended status])) := by
  refine ⟨fun hc => (hr.uncalled hc).2, ?_, ?_, hr.ended_of_terminal, ?_⟩
  · intro pre x post hx
    exact hr.called_again hx
  · intro pre x post status hx he
    obtain ⟨hjobs, hwaiting, hstatus, hterminal⟩ := hr.ended_at hx he
    exact ⟨hjobs, hwaiting, hstatus, hterminal, (hr.after_end hx he).2⟩
  · intro o ho
    have hfinds := hr.handedOver_eq_finds (by simp [ho, Stage.rank])
    have ht := hr.told
    rw [ho] at ht
    refine ⟨(hr.settled.status_eq o ho).1, ?_, hfinds, ?_⟩
    · rw [hr.found_eq, ← Multiset.coe_card, hfinds, Multiset.coe_card]
    · rw [hr.dispatches_eq]
      rcases ht.of_returned with ⟨hs, status, hc⟩ | ⟨hs, e, status, hc⟩
      · exact .inl ⟨hs, status, by rw [hc]⟩
      · exact .inr ⟨hs, e, status, by rw [hc]⟩

end Run

namespace Sample

/-- The receiver of the sample is given its open endpoint and told the end. -/
theorem dispatched_once_of_run : ∃ h status, Run task h done ∧
    dispatches h = [.called ⟨second, port⟩, .ended status] := by
  obtain ⟨h, hr, ha⟩ := exists_run
  obtain ⟨_, _, _, _, hdone⟩ := hr.dispatched_once
  obtain ⟨_, _, hfinds, hd⟩ := hdone _ rfl
  have hf : finds h = [⟨second, port⟩] := by
    have hmap : finds h = (h.map Turn.action).filterMap Action.found? := by
      rw [List.filterMap_map]
      rfl
    rw [hmap, ha]
    rfl
  rw [hf, Multiset.coe_singleton] at hfinds
  have hover : handedOver h = [⟨second, port⟩] := Multiset.coe_eq_singleton.mp hfinds
  obtain ⟨_, status, hd⟩ := hd.resolve_right (by simp)
  exact ⟨h, status, hr, by rw [hd, hover]; rfl⟩

end Sample

end Recon
