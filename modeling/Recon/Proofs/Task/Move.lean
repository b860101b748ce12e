import Recon.Task.Step

/-!
# Moves of a task

The steps of a task as a relation, with one rule for each thing that can happen, its guard and the
state after it.  The relation holds exactly where the step function answers, so an invariant is
proved by going through the rules once.
-/

namespace Recon.TaskState

open Time

def afterOffer (w : Walk) (host : Address) : Pool.Answer → Stage
  | .accepted => .checking w.next
  | .queued => .inLine w host
  | .refused => .drainingAsks

/-- What a task can do: the state before, the action, the state after and what others notice. -/
inductive Move (t : Task) : TaskState → Action → TaskState → List Event → Prop
  -- the owner and the clock
  | called {s} (hs : s.stage = .idle) :
      Move t s .call { s with stage := .planning, started := true } []
  | calledAgain {s} (hs : s.stage ≠ .idle) : Move t s .call s []
  | paused {s status} (hp : s.status.pause = .ok status) : Move t s .pause { s with status } []
  | resumed {s now status r}
      (hr : s.status.resume (isExcludedAt t.settings.window now) = .ok (status, r)) :
      Move t s (.resume now) { s with status } []
  | ticked {s now} (hm : s.monitored = true) :
      Move t s (.tick now)
        { s with status := s.status.schedule (isExcludedAt t.settings.window now) } []
  | cancelled {s} : Move t s .cancel { s with cancelled := true } []
  -- the run before its first host
  | planFailed {s tail e} (hs : s.stage = .planning) (hp : Plan.parts t.settings = .error e) :
      Move t s (.plan tail) (s.fail e) []
  | planned {s tail ports targets excluded} (hs : s.stage = .planning)
      (hp : Plan.parts t.settings = .ok (ports, targets, excluded))
      (ht : ports.tail.length < 2 ∨ tail.covers ports.tail.length = true) :
      Move t s (.plan tail)
        { s with
          stage := .opening
          plan := ⟨ports.along tail, targets.blocks, excluded⟩
          total := Plan.total ⟨ports.along tail, targets.blocks, excluded⟩ } []
  | openFailed {s e} (hs : s.stage = .opening) :
      Move t s (.open (some e)) (s.fail e) [.opened t.settings.mode t.settings.scannerOption]
  | opened {s} (hs : s.stage = .opening) :
      Move t s (.open none) (s.goto .launching) [.opened t.settings.mode t.settings.scannerOption]
  | launched {s} (hs : s.stage = .launching) :
      Move t s .run
        { s with
          stage := .scheduling
          status := if s.status = .init then .running else s.status } []
  | scheduled {s now} (hs : s.stage = .scheduling) :
      Move t s (.schedule now)
        { s with
          stage := .entering s.plan.blocks
          status := s.status.schedule (isExcludedAt t.settings.window now)
          monitored := t.settings.window.isSome && 0 < t.interval } []
  -- the walk over the blocks
  | entered {s b rest order} (hs : s.stage = .entering (b :: rest))
      (ho : order.covers b.size = true) :
      Move t s (.enter order) (s.goto (.checking ⟨b, order, 0, rest⟩)) []
  | walkDone {s} (hs : s.stage = .entering []) : Move t s .run (s.goto .drainingAsks) []
  | blockDone {s w} (hs : s.stage = .checking w) (hw : w.block.size ≤ w.index) :
      Move t s .run (s.goto (.entering w.rest)) []
  | checkStopped {s w} (hs : s.stage = .checking w) (hw : w.index < w.block.size)
      (hc : s.cancelled = true) : Move t s .run (s.goto .drainingAsks) []
  | checked {s w} (hs : s.stage = .checking w) (hw : w.index < w.block.size)
      (hc : s.cancelled = false) : Move t s .run (s.goto (.gating w)) []
  | gatePassed {s w} (hs : s.stage = .gating w) (hp : s.status.isPaused = false) :
      Move t s .run (s.goto (.visiting w)) []
  | gateStopped {s w} (hs : s.stage = .gating w) (hp : s.status.isPaused = true)
      (hc : s.cancelled = true) : Move t s .run (s.goto .drainingAsks) []
  | visitedNothing {s w} (hs : s.stage = .visiting w)
      (hn : w.block.nth (w.order.get w.index) = none) :
      Move t s .run (s.goto (.checking w.next)) []
  | visitedExcluded {s w host} (hs : s.stage = .visiting w)
      (hn : w.block.nth (w.order.get w.index) = some host)
      (he : s.plan.excluded.excludes host = true) :
      Move t s .run (s.completeHost.goto (.checking w.next)) []
  | visited {s w host} (hs : s.stage = .visiting w)
      (hn : w.block.nth (w.order.get w.index) = some host)
      (he : s.plan.excluded.excludes host = false) :
      Move t s .run (s.goto (.offering w host)) []
  | offerStopped {s w host} (hs : s.stage = .offering w host) (hc : s.cancelled = true) :
      Move t s .run (s.goto .drainingAsks) []
  | offeredToAsks {s w host answer asks} (hs : s.stage = .offering w host)
      (hc : s.cancelled = false) (hp : t.settings.ping = true)
      (ha : s.asks.submit ⟨host, .gate⟩ = (answer, asks)) :
      Move t s .run { s with asks, stage := afterOffer w host answer } []
  | offeredToScans {s w host answer scans} (hs : s.stage = .offering w host)
      (hc : s.cancelled = false) (hp : t.settings.ping = false)
      (ha : s.scans.submit ⟨host, .gate⟩ = (answer, scans)) :
      Move t s .run { s with scans, stage := afterOffer w host answer } []
  | withdrawnFromAsks {s w host} (hs : s.stage = .inLine w host) (hc : s.cancelled = true)
      (hp : t.settings.ping = true) :
      Move t s .run { s with asks := s.asks.withdraw 0, stage := .drainingAsks } []
  | withdrawnFromScans {s w host} (hs : s.stage = .inLine w host) (hc : s.cancelled = true)
      (hp : t.settings.ping = false) :
      Move t s .run { s with scans := s.scans.withdraw 0, stage := .drainingAsks } []
  -- the run after its last host
  | asksDrained {s} (hs : s.stage = .drainingAsks) (hj : s.asks.jobs = []) :
      Move t s .run (s.goto .drainingScans) []
  | scansDrained {s} (hs : s.stage = .drainingScans) (hj : s.scans.jobs = []) :
      Move t s .run (s.goto .drainingScanner) []
  | scannerDrained {s} (hs : s.stage = .drainingScanner) (hf : s.flying = [])
      (hw : s.handovers.waiting = []) : Move t s .run (s.goto .drainingHandovers) [.drained]
  | handoversDrained {s} (hs : s.stage = .drainingHandovers) (hj : s.handovers.jobs = []) :
      Move t s .run (s.goto .releasing) []
  | released {s} (hs : s.stage = .releasing) : Move t s .run (s.goto .closing) [.released]
  | closed {s} (hs : s.stage = .closing) :
      Move t s .run
        { s with
          stage := .stopping
          asks := s.asks.close
          scans := s.scans.close
          handovers := s.handovers.close } []
  | stopped {s} (hs : s.stage = .stopping) :
      Move t s .run ({ s with monitored := false }.finish .success) []
  | failureTold {s e} (hs : s.stage = .failing e) :
      Move t s .run (s.finish .error) [.failed e]
  | endTold {s outcome} (hs : s.stage = .ending outcome) :
      Move t s .run (s.goto (.publishing outcome)) [.ended s.status]
  | published {s outcome} (hs : s.stage = .publishing outcome) :
      Move t s .run { s with status := outcome, stage := .returned outcome } []
  | failureCollapsed {s e} (hs : s.stage = .failing e) :
      Move t s .collapse (s.goto .collapsed) [.failed e]
  | collapsed {s outcome} (hs : s.stage = .publishing outcome) :
      Move t s .collapse (s.goto .collapsed) []
  -- jobs that ask hosts
  | askPassed {s i host} (hj : s.asks.jobs[i]? = some ⟨host, .gate⟩)
      (hp : s.status.isPaused = false) :
      Move t s (.ask i .pass) { s with asks := s.asks.update i ⟨host, .ready⟩ } []
  | askSkipped {s i host} (hj : s.asks.jobs[i]? = some ⟨host, .gate⟩)
      (hp : s.status.isPaused = true) (hc : s.cancelled = true) :
      Move t s (.ask i .skip) { s with asks := s.asks.finish i false }.completeHost []
  | asked {s i host} (hj : s.asks.jobs[i]? = some ⟨host, .ready⟩) :
      Move t s (.ask i .ask) { s with asks := s.asks.update i ⟨host, .asked⟩ } [.asked host]
  | answeredUp {s i host} (hj : s.asks.jobs[i]? = some ⟨host, .asked⟩) :
      Move t s (.ask i (.answer true)) { s with asks := s.asks.update i ⟨host, .up⟩ } []
  | answeredDown {s i host} (hj : s.asks.jobs[i]? = some ⟨host, .asked⟩) :
      Move t s (.ask i (.answer false)) { s with asks := s.asks.finish i false }.completeHost []
  | askPanicked {s i host} (hj : s.asks.jobs[i]? = some ⟨host, .asked⟩) :
      Move t s (.ask i .panic) { s with asks := s.asks.finish i true } []
  | handedOn {s i host scans} (hj : s.asks.jobs[i]? = some ⟨host, .up⟩)
      (ha : s.scans.submit ⟨host, .gate⟩ = (.accepted, scans)) :
      Move t s (.ask i .submit) { s with scans, asks := s.asks.update i ⟨host, .handedOn⟩ } []
  | linedUp {s i host scans} (hj : s.asks.jobs[i]? = some ⟨host, .up⟩)
      (ha : s.scans.submit ⟨host, .gate⟩ = (.queued, scans)) :
      Move t s (.ask i .submit) { s with scans, asks := s.asks.update i ⟨host, .inLine⟩ } []
  | unplaced {s i host scans} (hj : s.asks.jobs[i]? = some ⟨host, .up⟩)
      (ha : s.scans.submit ⟨host, .gate⟩ = (.refused, scans)) :
      Move t s (.ask i .submit) { s with asks := s.asks.finish i false }.completeHost []
  | askLeft {s i host} (hj : s.asks.jobs[i]? = some ⟨host, .handedOn⟩) :
      Move t s (.ask i .leave) { s with asks := s.asks.finish i false } []
  -- jobs that scan hosts
  | scanPassed {s i host} (hj : s.scans.jobs[i]? = some ⟨host, .gate⟩)
      (hp : s.status.isPaused = false) :
      Move t s (.scan i .pass)
        { s with scans := s.scans.update i ⟨host, .probing s.plan.ports false⟩ } []
  | scanSkipped {s i host} (hj : s.scans.jobs[i]? = some ⟨host, .gate⟩)
      (hp : s.status.isPaused = true) (hc : s.cancelled = true) :
      Move t s (.scan i .skip) { s with scans := s.scans.finish i false }.completeHost []
  | awaited {s i host p rest} (hj : s.scans.jobs[i]? = some ⟨host, .probing (p :: rest) false⟩) :
      Move t s (.scan i .await)
        { s with scans := s.scans.update i ⟨host, .probing (p :: rest) true⟩ } [.awaited]
  | probeTaken {s i host p rest}
      (hj : s.scans.jobs[i]? = some ⟨host, .probing (p :: rest) true⟩) :
      Move t s (.scan i (.probe true))
        { s with
          scans := s.scans.update i ⟨host, .probing rest false⟩
          flying := s.flying ++ [⟨host, p⟩] } [.probed ⟨host, p⟩]
  | probeRefused {s i host p rest}
      (hj : s.scans.jobs[i]? = some ⟨host, .probing (p :: rest) true⟩) :
      Move t s (.scan i (.probe false))
        ({ s with scans := s.scans.update i ⟨host, .probing rest false⟩ }.complete 1)
        [.probed ⟨host, p⟩]
  | scanLeft {s i host} (hj : s.scans.jobs[i]? = some ⟨host, .probing [] false⟩) :
      Move t s (.scan i .leave) { s with scans := s.scans.finish i false } []
  | scanPanicked {s i host rest admitted}
      (hj : s.scans.jobs[i]? = some ⟨host, .probing rest admitted⟩) :
      Move t s (.scan i .panic) { s with scans := s.scans.finish i true } []
  -- jobs that hand endpoints over
  | handedOver {s i endpoint} (hj : s.handovers.jobs[i]? = some ⟨endpoint, false⟩) :
      Move t s (.handover i .call)
        { s with handovers := s.handovers.update i ⟨endpoint, true⟩ } [.called endpoint]
  | handoverLeft {s i endpoint panicked} (hj : s.handovers.jobs[i]? = some ⟨endpoint, true⟩) :
      Move t s (.handover i (.leave panicked))
        { s with handovers := s.handovers.finish i panicked } []
  -- room in the pools
  | askAdmitted {s w host job asks} (hs : s.stage = .inLine w host)
      (ha : s.asks.admit? = some (job, asks)) (hc : s.cancelled = false) :
      Move t s .admitAsk { s with asks, stage := .checking w.next } []
  | scanAdmittedForJob {s job scans i} (ha : s.scans.admit? = some (job, scans))
      (hc : t.settings.ping = true ∨ s.cancelled = false)
      (hi : s.asks.jobs.findIdx? (fun j => j.host == job.host && j.phase == .inLine) = some i) :
      Move t s .admitScan
        { s with scans, asks := s.asks.update i ⟨job.host, .handedOn⟩ } []
  | scanAdmittedForRun {s job scans w host} (ha : s.scans.admit? = some (job, scans))
      (hc : t.settings.ping = true ∨ s.cancelled = false)
      (hi : s.asks.jobs.findIdx? (fun j => j.host == job.host && j.phase == .inLine) = none)
      (hs : s.stage = .inLine w host) :
      Move t s .admitScan { s with scans, stage := .checking w.next } []
  | scanAdmittedForNone {s job scans} (ha : s.scans.admit? = some (job, scans))
      (hc : t.settings.ping = true ∨ s.cancelled = false)
      (hi : s.asks.jobs.findIdx? (fun j => j.host == job.host && j.phase == .inLine) = none)
      (hs : ∀ w host, s.stage ≠ .inLine w host) : Move t s .admitScan { s with scans } []
  | handoverAdmitted {s job handovers} (ha : s.handovers.admit? = some (job, handovers)) :
      Move t s .admitHandover { s with handovers } []
  -- the scanner
  | reportedShut {s e} (he : e ∈ s.flying) :
      Move t s (.report e false)
        { s with flying := s.flying.erase e, completed := s.completed + 1 } []
  | reportedOpen {s e} (he : e ∈ s.flying) :
      Move t s (.report e true)
        { s with
          flying := s.flying.erase e
          completed := s.completed + 1
          found := s.found + 1
          handovers := (s.handovers.submit ⟨e, false⟩).2 } []
  | lost {s e} (he : e ∈ s.flying) : Move t s (.lose e) { s with flying := s.flying.erase e } []
  | strayedShut {s} (hs : scannerIsLive s.stage = true) :
      Move t s (.stray none) { s with completed := s.completed + 1 } []
  | strayedOpen {s e} (hs : scannerIsLive s.stage = true) :
      Move t s (.stray (some e))
        { s with
          completed := s.completed + 1
          found := s.found + 1
          handovers := (s.handovers.submit ⟨e, false⟩).2 } []

variable {t : Task} {s s' : TaskState} {a : Action} {es : List Event}

/-! ### Steps of the run -/

theorem move_of_checking {w : Walk} (hs : s.stage = .checking w)
    (h : advance t s = some (s', es)) : Move t s .run s' es := by
  simp only [advance, hs] at h
  split at h
  · next hw =>
    cases h
    exact .blockDone hs hw
  · next hw =>
    split at h
    · next hc =>
      cases h
      exact .checkStopped hs (Nat.lt_of_not_le hw) hc
    · next hc =>
      cases h
      exact .checked hs (Nat.lt_of_not_le hw) (eq_false_of_ne_true hc)

theorem move_of_gating {w : Walk} (hs : s.stage = .gating w)
    (h : advance t s = some (s', es)) : Move t s .run s' es := by
  simp only [advance, hs] at h
  split at h
  · next hp =>
    cases h
    exact .gatePassed hs (by simpa using hp)
  · next hp =>
    obtain ⟨hc, h⟩ := Option.ite_none_right_eq_some.mp h
    cases h
    exact .gateStopped hs (by simpa using hp) hc

theorem move_of_visiting {w : Walk} (hs : s.stage = .visiting w)
    (h : advance t s = some (s', es)) : Move t s .run s' es := by
  simp only [advance, hs] at h
  split at h
  · next hn =>
    cases h
    exact .visitedNothing hs hn
  · next host hn =>
    split at h
    · next he =>
      cases h
      exact .visitedExcluded hs hn he
    · next he =>
      cases h
      exact .visited hs hn (eq_false_of_ne_true he)

theorem move_of_offering {w : Walk} {host : Address} (hs : s.stage = .offering w host)
    (h : advance t s = some (s', es)) : Move t s .run s' es := by
  simp only [advance, hs] at h
  split at h
  · next hc =>
    cases h
    exact .offerStopped hs hc
  · next hc =>
    have hc' := eq_false_of_ne_true hc
    unfold submitHost at h
    -- the settings say which of the two pools is asked
    by_cases hp : t.settings.ping = true
    · rw [if_pos hp] at h
      rcases ha : s.asks.submit ⟨host, .gate⟩ with ⟨answer, asks⟩
      rw [ha] at h
      have hm := Move.offeredToAsks (t := t) hs hc' hp ha
      cases answer <;> cases h <;> exact hm
    · rw [if_neg hp] at h
      rcases ha : s.scans.submit ⟨host, .gate⟩ with ⟨answer, scans⟩
      rw [ha] at h
      have hm := Move.offeredToScans (t := t) hs hc' (eq_false_of_ne_true hp) ha
      cases answer <;> cases h <;> exact hm

theorem move_of_inLine {w : Walk} {host : Address} (hs : s.stage = .inLine w host)
    (h : advance t s = some (s', es)) : Move t s .run s' es := by
  simp only [advance, hs] at h
  obtain ⟨hc, h⟩ := Option.ite_none_right_eq_some.mp h
  cases h
  unfold withdrawHost
  split
  · next hp => exact .withdrawnFromAsks hs hc hp
  · next hp => exact .withdrawnFromScans hs hc (eq_false_of_ne_true hp)

theorem move_of_advance (h : advance t s = some (s', es)) : Move t s .run s' es := by
  cases hs : s.stage
  case checking w => exact move_of_checking hs h
  case gating w => exact move_of_gating hs h
  case visiting w => exact move_of_visiting hs h
  case offering w host => exact move_of_offering hs h
  case inLine w host => exact move_of_inLine hs h
  -- at the other stages the run has one step, some of which wait for a pool or the scanner
  all_goals simp only [advance, hs] at h
  case entering rest =>
    cases rest <;> cases h
    exact .walkDone hs
  case drainingAsks =>
    obtain ⟨hj, h⟩ := Option.ite_none_right_eq_some.mp h
    cases h
    exact .asksDrained hs (List.isEmpty_iff.mp hj)
  case drainingScans =>
    obtain ⟨hj, h⟩ := Option.ite_none_right_eq_some.mp h
    cases h
    exact .scansDrained hs (List.isEmpty_iff.mp hj)
  case drainingScanner =>
    obtain ⟨hj, h⟩ := Option.ite_none_right_eq_some.mp h
    cases h
    obtain ⟨hf, hw⟩ := Bool.and_eq_true_iff.mp hj
    exact .scannerDrained hs (List.isEmpty_iff.mp hf) (List.isEmpty_iff.mp hw)
  case drainingHandovers =>
    obtain ⟨hj, h⟩ := Option.ite_none_right_eq_some.mp h
    cases h
    exact .handoversDrained hs (List.isEmpty_iff.mp hj)
  all_goals cases h
  case launching => exact .launched hs
  case releasing => exact .released hs
  case closing => exact .closed hs
  case stopping => exact .stopped hs
  case failing e => exact .failureTold hs
  case ending outcome => exact .endTold hs
  case publishing outcome => exact .published hs

theorem move_of_makePlan {tail : Traversal} (hs : s.stage = .planning)
    (h : makePlan t tail s = some (s', es)) : Move t s (.plan tail) s' es := by
  unfold makePlan at h
  split at h
  · next e hp =>
    cases h
    exact .planFailed hs hp
  · next ports targets excluded hp =>
    split at h
    · next ht =>
      cases h
      exact .planned hs hp ht
    · cases h

theorem move_of_stepAsk {i : Nat} {act : AskAction} (h : stepAsk s i act = some (s', es)) :
    Move t s (.ask i act) s' es := by
  unfold stepAsk at h
  split at h
  · cases h
  · next job hj =>
    obtain ⟨host, phase⟩ := job
    dsimp only at h
    split at h
    · split at h
      · cases h
      · next hp =>
        cases h
        exact .askPassed hj (eq_false_of_ne_true hp)
    · split at h
      · next hp =>
        cases h
        obtain ⟨hp, hc⟩ := Bool.and_eq_true_iff.mp hp
        exact .askSkipped hj hp hc
      · cases h
    · cases h
      exact .asked hj
    · cases h
      exact .answeredUp hj
    · cases h
      exact .answeredDown hj
    · cases h
      exact .askPanicked hj
    · split at h
      · next scans ha =>
        cases h
        exact .handedOn hj ha
      · next scans ha =>
        cases h
        exact .linedUp hj ha
      · next scans ha =>
        cases h
        exact .unplaced hj ha
    · cases h
      exact .askLeft hj
    · cases h

theorem move_of_stepScan {i : Nat} {act : ScanAction} (h : stepScan s i act = some (s', es)) :
    Move t s (.scan i act) s' es := by
  unfold stepScan at h
  split at h
  · cases h
  · next job hj =>
    obtain ⟨host, phase⟩ := job
    dsimp only at h
    split at h
    · split at h
      · cases h
      · next hp =>
        cases h
        exact .scanPassed hj (eq_false_of_ne_true hp)
    · split at h
      · next hp =>
        cases h
        obtain ⟨hp, hc⟩ := Bool.and_eq_true_iff.mp hp
        exact .scanSkipped hj hp hc
      · cases h
    · cases h
      exact .awaited hj
    · next taken =>
      cases taken <;> cases h
      · exact .probeRefused hj
      · exact .probeTaken hj
    · cases h
      exact .scanLeft hj
    · cases h
      exact .scanPanicked hj
    · cases h

theorem move_of_stepHandover {i : Nat} {act : HandoverAction}
    (h : stepHandover s i act = some (s', es)) : Move t s (.handover i act) s' es := by
  unfold stepHandover at h
  split at h
  · cases h
  · next job hj =>
    obtain ⟨endpoint, called⟩ := job
    dsimp only at h
    split at h
    · cases h
      exact .handedOver hj
    · cases h
      exact .handoverLeft hj
    · cases h

theorem move_of_admitAsk (h : admitAsk s = some (s', es)) : Move t s .admitAsk s' es := by
  unfold admitAsk at h
  split at h
  · next w host job asks hs ha =>
    split at h
    · cases h
    · next hc =>
      cases h
      exact .askAdmitted hs ha (eq_false_of_ne_true hc)
  · cases h

theorem move_of_admitScan (h : admitScan t s = some (s', es)) : Move t s .admitScan s' es := by
  unfold admitScan at h
  split at h
  · next job scans ha =>
    split at h
    · cases h
    · next hc =>
      have hc' : t.settings.ping = true ∨ s.cancelled = false := by
        cases hp : t.settings.ping
        · exact .inr (by simpa [hp] using hc)
        · exact .inl rfl
      cases h
      unfold handOn
      split
      · next i hi => exact .scanAdmittedForJob ha hc' hi
      · next hi =>
        split
        · next hs => exact .scanAdmittedForRun ha hc' hi hs
        · next hs => exact .scanAdmittedForNone ha hc' hi hs
  · cases h

/-- Every step is a move. -/
theorem move_of_step (h : step t s a = some (s', es)) : Move t s a s' es := by
  cases a
  case ask i a => exact move_of_stepAsk h
  case scan i a => exact move_of_stepScan h
  case handover i a => exact move_of_stepHandover h
  case run => exact move_of_advance h
  case admitAsk => exact move_of_admitAsk h
  case admitScan => exact move_of_admitScan h
  case admitHandover =>
    obtain ⟨⟨job, handovers⟩, ha, he⟩ := Option.map_eq_some_iff.mp h
    cases he
    exact .handoverAdmitted ha
  all_goals simp only [step] at h
  -- the run before its first host, and where it breaks off
  case call =>
    split at h
    · next hs =>
      cases h
      exact .called hs
    · next hs =>
      cases h
      exact .calledAgain hs
  case plan tail =>
    obtain ⟨hs, h⟩ := Option.ite_none_right_eq_some.mp h
    exact move_of_makePlan hs h
  case «open» failure =>
    obtain ⟨hs, h⟩ := Option.ite_none_right_eq_some.mp h
    cases failure <;> cases h
    · exact .opened hs
    · exact .openFailed hs
  case schedule now =>
    obtain ⟨hs, h⟩ := Option.ite_none_right_eq_some.mp h
    cases h
    exact .scheduled hs
  case enter order =>
    split at h
    · next hs =>
      obtain ⟨ho, h⟩ := Option.ite_none_right_eq_some.mp h
      cases h
      exact .entered hs ho
    · cases h
  case collapse =>
    split at h
    · next hs =>
      cases h
      exact .failureCollapsed hs
    · next hs =>
      cases h
      exact .collapsed hs
    · cases h
  -- the scanner
  case report endpoint isOpen =>
    obtain ⟨he, h⟩ := Option.ite_none_right_eq_some.mp h
    cases isOpen <;> cases h
    · exact .reportedShut he
    · exact .reportedOpen he
  case lose endpoint =>
    obtain ⟨he, h⟩ := Option.ite_none_right_eq_some.mp h
    cases h
    exact .lost he
  case stray outcome =>
    obtain ⟨hs, h⟩ := Option.ite_none_right_eq_some.mp h
    cases outcome <;> cases h
    · exact .strayedShut hs
    · exact .strayedOpen hs
  -- the owner and the clock
  case pause =>
    split at h
    · next hp =>
      cases h
      exact .paused hp
    · cases h
  case resume now =>
    split at h
    · next hr =>
      cases h
      exact .resumed hr
    · cases h
  case tick now =>
    obtain ⟨hm, h⟩ := Option.ite_none_right_eq_some.mp h
    cases h
    exact .ticked hm
  case cancel =>
    cases h
    exact .cancelled

theorem handOn_eq_self {host : Address}
    (hi : s.asks.jobs.findIdx? (fun j => j.host == host && j.phase == .inLine) = none)
    (hs : ∀ w host, s.stage ≠ .inLine w host) : handOn s host = s := by
  simp only [handOn, hi]

/-- Every move is a step. -/
theorem step_of_move (h : Move t s a s' es) : step t s a = some (s', es) := by
  cases h
  case offeredToAsks answer _ hs hc hp ha =>
    cases answer <;> simp [step, advance, submitHost, afterOffer, goto, *]
  case offeredToScans answer _ hs hc hp ha =>
    cases answer <;> simp [step, advance, submitHost, afterOffer, goto, *]
  case scanAdmittedForJob hc _ => rcases hc with hc | hc <;> simp [step, admitScan, handOn, *]
  case scanAdmittedForRun hc _ _ =>
    rcases hc with hc | hc <;> simp [step, admitScan, handOn, goto, *]
  case scanAdmittedForNone job scans ha hc hi hs =>
    have hh : handOn { s with scans } job.host = { s with scans } := handOn_eq_self hi hs
    simp only [step, admitScan, ha, hh]
    rcases hc with hc | hc <;> simp [hc]
  all_goals
    simp_all [step, advance, makePlan, withdrawHost, Pool.isIdle, goto, stepAsk, stepScan,
      stepHandover, admitAsk, admitHandover, receive, complete]

/-- The relation and the step function agree. -/
theorem step_eq_some_iff : step t s a = some (s', es) ↔ Move t s a s' es :=
  ⟨move_of_step, step_of_move⟩

end Recon.TaskState
