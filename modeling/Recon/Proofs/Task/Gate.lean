import Recon.Proofs.Task.Rest

/-!
# Gates of the pools

Each host waits at a gate before it is asked, and again before it is scanned, as long as the task
rests.  So in a rest only those hosts are asked or probed that have passed their gate before it, and
there is room for few of them.  A scan that has passed its gate is not held up any more, and probes
all ports of the plan.
-/

namespace Recon

/-- The host of a job that has passed its gate and not yet asked. -/
def AskJob.ready (j : AskJob) : Multiset Address := if j.phase = .ready then {j.host} else 0

def AskJob.passed (j : AskJob) : Multiset Address := if j.phase = .gate then 0 else {j.host}

def ScanJob.unprobed (j : ScanJob) : Multiset Endpoint :=
  match j.phase with
  | .gate => 0
  | .probing rest _ => pairs rest j.host

def ScanJob.passed (j : ScanJob) : Multiset Address :=
  match j.phase with
  | .gate => 0
  | .probing _ _ => {j.host}

namespace TaskState

variable {t : Task} {s s' : TaskState} {a : Action} {es : List Event}

def ready (s : TaskState) : Multiset Address := s.asks.weigh AskJob.ready

def unprobed (s : TaskState) : Multiset Endpoint := s.scans.weigh ScanJob.unprobed

def passed (s : TaskState) : Multiset Address :=
  s.asks.weigh AskJob.passed + s.scans.weigh ScanJob.passed

/-- The host that passes the gate of the scanning pool. -/
def passing (s : TaskState) : Action → Multiset Address
  | .scan i .pass => ((s.scans.jobs[i]?).map fun j => {j.host}).getD 0
  | _ => 0

attribute [local simp] goto fail finish complete completeHost
attribute [local simp] Event.question? Event.probe? ready unprobed passing
attribute [local simp] AskJob.ready ScanJob.unprobed

theorem Move.ready_balance (hm : Move t s a s' es) (ho : Orderly t s)
    (hp : s.status.isPaused = true) :
    s'.ready + (es.filterMap Event.question? : Multiset Address) = s.ready := by
  have updated {i : ℕ} {j : AskJob} (j' : AskJob) (hj : s.asks.jobs[i]? = some j)
      (hf : j'.ready = j.ready) := Pool.weigh_update_eq hj hf
  have finished {i : ℕ} {j : AskJob} (panicked : Bool) (hj : s.asks.jobs[i]? = some j)
      (hf : j.ready = 0) : (s.asks.finish i panicked).weigh AskJob.ready = s.ready :=
    Pool.weigh_finish_eq hj hf
  cases hm
  case offeredToAsks answer _ _ _ _ ha =>
    cases answer
    · simp [Pool.weigh_submit _ ha]
    · simp [Pool.weigh_submit _ ha]
    · simp [Pool.submit_refused ha]
  case withdrawnFromAsks host hs _ hping =>
    have hl : s.asks.waiting = [⟨host, .gate⟩] := by simp [ho.asks_line, hping, hs, Stage.lined]
    simp [← Pool.weigh_withdraw AskJob.ready hl]
  case askPassed hn =>
    -- in a rest nobody passes the gate
    rw [hp] at hn
    cases hn
  case asked hj =>
    obtain ⟨m, h0, hu, _⟩ := Pool.weigh_split AskJob.ready hj
    simp [h0, hu, add_comm]
  case answeredUp host hj => simpa using updated ⟨host, .up⟩ hj rfl
  case handedOn host _ hj _ => simpa using updated ⟨host, .handedOn⟩ hj rfl
  case linedUp host _ hj _ => simpa using updated ⟨host, .inLine⟩ hj rfl
  case askSkipped hj _ _ => simpa using finished false hj rfl
  case answeredDown hj => simpa using finished false hj rfl
  case askPanicked hj => simpa using finished true hj rfl
  case unplaced hj _ => simpa using finished false hj rfl
  case askLeft hj => simpa using finished false hj rfl
  case askAdmitted ha _ => simp [Pool.weigh_admit _ ha]
  case scanAdmittedForJob job _ _ ha _ hi =>
    -- an asker in line has been asked long since
    obtain ⟨hlt, hb, _⟩ := List.findIdx?_eq_some_iff_getElem.mp hi
    obtain ⟨_, hl⟩ := Bool.and_eq_true_iff.mp hb
    simpa using updated ⟨job.host, .handedOn⟩ (List.getElem?_eq_getElem hlt)
      (by simp [beq_iff_eq.mp hl])
  all_goals simp

/-- A scan that passes its gate has all ports before it. -/
theorem Move.unprobed_balance (hm : Move t s a s' es) (ho : Orderly t s)
    (hb : ∀ i, a ≠ .scan i .panic) :
    s'.unprobed + (es.filterMap Event.probe? : Multiset Endpoint) =
      s.unprobed + (s.passing a).bind (pairs s.plan.ports) := by
  -- a probe is made of the first port that is left
  have probing {i : ℕ} {host : Address} {p : Port} {rest : List Port}
      (hj : s.scans.jobs[i]? = some ⟨host, .probing (p :: rest) true⟩) :
      s.scans.weigh ScanJob.unprobed =
        {⟨host, p⟩} + (s.scans.update i ⟨host, .probing rest false⟩).weigh ScanJob.unprobed := by
    obtain ⟨m, h0, hu, _⟩ := Pool.weigh_split ScanJob.unprobed hj
    rw [h0, hu, ← add_assoc]
    rfl
  cases hm
  case offeredToScans answer _ _ _ _ ha =>
    cases answer
    · simp [Pool.weigh_submit _ ha]
    · simp [Pool.weigh_submit _ ha]
    · simp [Pool.submit_refused ha]
  case withdrawnFromScans host hs _ hping =>
    have hl : s.scans.waiting = [⟨host, .gate⟩] := by
      rw [ho.scans_waiting_eq hping, hs, Stage.lined, List.map_singleton]
    simp [← Pool.weigh_withdraw ScanJob.unprobed hl]
  case handedOn hj ha => simp [Pool.weigh_submit _ ha]
  case linedUp hj ha => simp [Pool.weigh_submit _ ha]
  case scanPassed hj _ =>
    obtain ⟨m, h0, hu, _⟩ := Pool.weigh_split ScanJob.unprobed hj
    simp [h0, hu, hj, add_comm]
  case scanSkipped hj _ _ => simp [Pool.weigh_finish_eq (f := ScanJob.unprobed) hj rfl]
  case awaited host p rest hj =>
    have hu := Pool.weigh_update_eq (f := ScanJob.unprobed)
      (b := ⟨host, .probing (p :: rest) true⟩) hj rfl
    simp [hu]
  case probeTaken host p rest hj => simp [probing hj, add_comm]
  case probeRefused host p rest hj => simp [probing hj, add_comm]
  case scanLeft hj => simp [Pool.weigh_finish_eq (f := ScanJob.unprobed) hj rfl]
  case scanPanicked i _ _ _ _ => exact absurd rfl (hb i)
  case scanAdmittedForJob ha _ _ => simp [Pool.weigh_admit _ ha]
  case scanAdmittedForRun ha _ _ _ => simp [Pool.weigh_admit _ ha]
  case scanAdmittedForNone ha _ _ _ => simp [Pool.weigh_admit _ ha]
  all_goals simp

theorem Move.unprobed_le (hm : Move t s a s' es) (ho : Orderly t s)
    (hp : s.status.isPaused = true) :
    s'.unprobed + (es.filterMap Event.probe? : Multiset Endpoint) ≤ s.unprobed := by
  by_cases hb : ∃ i, a = .scan i .panic
  · -- a scan that panics leaves its ports unprobed
    obtain ⟨i, rfl⟩ := hb
    cases hm
    case scanPanicked hj =>
      obtain ⟨m, h0, _, hf⟩ := Pool.weigh_split ScanJob.unprobed hj
      rw [unprobed, unprobed, hf, h0, List.filterMap_nil, Multiset.coe_nil, add_zero]
      exact Multiset.le_add_left _ _
  · have hbal := hm.unprobed_balance ho (by simpa using hb)
    have hpass : s.passing a = 0 := by
      cases hm
      case scanPassed hn =>
        rw [hp] at hn
        cases hn
      all_goals rfl
    rw [hbal, hpass, Multiset.zero_bind, add_zero]

theorem Move.pools_eq (hm : Move t s a s' es) (hne : s'.status ≠ s.status) :
    s'.asks = s.asks ∧ s'.scans = s.scans := by
  cases hm
  all_goals first
    | exact ⟨rfl, rfl⟩
    | exact absurd rfl hne

end TaskState

namespace Pool

variable {α : Type} {n : ℕ} {p q : Pool α} {a : α}

def Bounded (n : ℕ) (p : Pool α) : Prop := p.size = n ∧ p.jobs.length ≤ n

theorem bounded_ofSize (n : ℕ) : Bounded (max n 1) (ofSize n : Pool α) := ⟨rfl, Nat.zero_le _⟩

namespace Bounded

theorem update (h : p.Bounded n) (i : ℕ) (a : α) : (p.update i a).Bounded n :=
  ⟨h.1, by simpa using h.2⟩

theorem finish (h : p.Bounded n) (i : ℕ) (panicked : Bool) : (p.finish i panicked).Bounded n := by
  refine ⟨?_, ?_⟩
  · unfold Pool.finish
    split <;> exact h.1
  · rw [jobs_finish]
    exact (List.length_eraseIdx_le _ _).trans h.2

theorem start (h : p.Bounded n) (hr : p.hasRoom = true) (a : α) : (p.start a).Bounded n := by
  refine ⟨h.1, ?_⟩
  have hlt : p.jobs.length < p.size := by simpa [hasRoom] using hr
  have hn := h.1
  simp only [Pool.start, List.length_append, List.length_singleton]
  omega

theorem submit {answer : Answer} (h : p.Bounded n) (hs : p.submit a = (answer, q)) :
    q.Bounded n := by
  unfold Pool.submit at hs
  split at hs
  · cases hs
    exact h
  · split at hs <;> cases hs
    · next hr => exact h.start (Bool.and_eq_true_iff.mp hr).2 a
    · exact h

theorem admitted (h : p.Bounded n) (ha : p.admit? = some (a, q)) : q.Bounded n := by
  unfold admit? at ha
  split at ha
  · cases ha
  · split at ha <;> cases ha
    rename_i rest hr _
    have hb : Bounded n { p with waiting := rest } := h
    exact hb.start (Bool.and_eq_true_iff.mp hr).2 a

end Bounded

end Pool

namespace TaskState

variable {t : Task} {s s' : TaskState} {a : Action} {es : List Event} {n : ℕ}

theorem Move.asks_bounded (hm : Move t s a s' es) (h : s.asks.Bounded n) : s'.asks.Bounded n := by
  cases hm
  case offeredToAsks ha => exact h.submit ha
  case askAdmitted ha _ => exact h.admitted ha
  all_goals first
    | exact h
    | exact h.update _ _
    | exact h.finish _ _

theorem Move.scans_bounded (hm : Move t s a s' es) (h : s.scans.Bounded n) :
    s'.scans.Bounded n := by
  cases hm
  case offeredToScans ha => exact h.submit ha
  case handedOn ha => exact h.submit ha
  case linedUp ha => exact h.submit ha
  case scanAdmittedForJob ha _ _ => exact h.admitted ha
  case scanAdmittedForRun ha _ _ _ => exact h.admitted ha
  case scanAdmittedForNone ha _ _ _ => exact h.admitted ha
  all_goals first
    | exact h
    | exact h.update _ _
    | exact h.finish _ _

theorem card_weigh_le {α β : Type} {f : α → Multiset β} {p : Pool α} (hf : ∀ a, (f a).card ≤ 1)
    (hw : ∀ a ∈ p.waiting, f a = 0) : (p.weigh f).card ≤ p.jobs.length := by
  have hwaiting : (p.waiting.map f).sum = 0 := by
    apply List.sum_eq_zero
    intro m hm
    obtain ⟨a, ha, rfl⟩ := List.mem_map.mp hm
    exact hw a ha
  have hjobs (as : List α) : (as.map f).sum.card ≤ as.length := by
    induction as with
    | nil => simp
    | cons a as ih =>
      have := hf a
      simp only [List.map_cons, List.sum_cons, Multiset.card_add, List.length_cons]
      omega
  rw [Pool.weigh, hwaiting, add_zero]
  exact hjobs p.jobs

/-- Only jobs that run have passed their gate, and there is room for so many of them. -/
theorem card_passed_le {m : ℕ} (ho : Orderly t s) (ha : s.asks.Bounded n)
    (hs : s.scans.Bounded m) : s.passed.card ≤ n + m := by
  have hasks : (s.asks.weigh AskJob.passed).card ≤ s.asks.jobs.length := by
    apply card_weigh_le
    · intro j
      rw [AskJob.passed]
      split <;> simp
    · intro j hj
      have hg : j.phase = .gate := by
        rw [ho.asks_line] at hj
        split at hj <;> simp at hj
        obtain ⟨_, _, rfl⟩ := hj
        rfl
      rw [AskJob.passed, if_pos hg]
  have hscans : (s.scans.weigh ScanJob.passed).card ≤ s.scans.jobs.length := by
    apply card_weigh_le
    · intro j
      rw [ScanJob.passed]
      split <;> simp
    · intro j hj
      rw [ScanJob.passed, ho.scans_gate j hj]
  rw [passed, Multiset.card_add]
  exact Nat.add_le_add (hasks.trans ha.2) (hscans.trans hs.2)

theorem mem_passed_of_ready {host : Address} (h : host ∈ s.ready) : host ∈ s.passed := by
  refine Multiset.mem_add.mpr (.inl ?_)
  have hj (j : AskJob) (hj : host ∈ j.ready) : host ∈ j.passed := by
    rw [AskJob.ready] at hj
    split at hj
    · next hp => simpa [AskJob.passed, hp] using hj
    · simp at hj
  rcases Pool.mem_weigh.mp h with ⟨j, hm, hr⟩ | ⟨j, hm, hr⟩
  · exact Pool.mem_weigh.mpr (.inl ⟨j, hm, hj j hr⟩)
  · exact Pool.mem_weigh.mpr (.inr ⟨j, hm, hj j hr⟩)

theorem mem_passed_of_unprobed {e : Endpoint} (h : e ∈ s.unprobed) : e.address ∈ s.passed := by
  refine Multiset.mem_add.mpr (.inr ?_)
  have hj (j : ScanJob) (hj : e ∈ j.unprobed) : e.address ∈ j.passed := by
    obtain ⟨host, phase⟩ := j
    cases phase with
    | gate => simp [ScanJob.unprobed] at hj
    | probing rest _ => simp [ScanJob.passed, (mem_pairs.mp hj).1]
  rcases Pool.mem_weigh.mp h with ⟨j, hm, hr⟩ | ⟨j, hm, hr⟩
  · exact Pool.mem_weigh.mpr (.inl ⟨j, hm, hj j hr⟩)
  · exact Pool.mem_weigh.mpr (.inr ⟨j, hm, hj j hr⟩)

end TaskState

def passes (h : List Turn) : Multiset Address := (h.map fun x => x.before.passing x.action).sum

namespace Run

variable {t : Task} {h : List Turn} {s : TaskState}

theorem bounded (hr : Run t h s) :
    s.asks.Bounded (max t.settings.pool.ping.toNat 1) ∧
      s.scans.Bounded (max t.settings.pool.scan.toNat 1) := by
  induction hr with
  | start => exact ⟨Pool.bounded_ofSize _, Pool.bounded_ofSize _⟩
  | turn _ hs ih =>
    have hm := TaskState.move_of_step hs
    exact ⟨hm.asks_bounded ih.1, hm.scans_bounded ih.2⟩

/-- In a rest, those that are asked and probed had passed their gate when it began. -/
theorem rest_balance (hr : Run t h s) {pre post : List Turn} {x : Turn} (hx : h = pre ++ x :: post)
    (hp : x.after.status.isPaused = true) (hpost : ∀ y ∈ post, y.after.status.isPaused = true) :
    s.ready + (questions post : Multiset Address) = x.after.ready ∧
      s.unprobed + (probes post : Multiset Endpoint) ≤ x.after.unprobed := by
  revert hpost
  apply hr.since (P := fun post s => (∀ y ∈ post, y.after.status.isPaused = true) →
    s.ready + (questions post : Multiset Address) = x.after.ready ∧
      s.unprobed + (probes post : Multiset Endpoint) ≤ x.after.unprobed) hx
  · intro _
    simp [questions, probes, events]
  · intro post s a s' es hr hm ih hpost
    obtain ⟨hpost, _⟩ := List.forall_mem_append.mp hpost
    obtain ⟨hready, hunprobed⟩ := ih hpost
    -- the task has rested until this turn
    have hrest := (hr.holds_on (P := fun s => s.status.isPaused = true) rfl hp hpost).1
    constructor
    · rw [questions_concat, ← Multiset.coe_add, ← hready, ← hm.ready_balance hr.orderly hrest]
      abel
    · rw [probes_concat, ← Multiset.coe_add, add_comm (probes post : Multiset Endpoint),
        ← add_assoc]
      exact (add_le_add_left (hm.unprobed_le hr.orderly hrest) _).trans hunprobed

theorem passes_concat (h : List Turn) (x : Turn) :
    passes (h ++ [x]) = passes h + x.before.passing x.action := by
  simp [passes]

theorem passes_early (hr : Run t h s) (hk : s.stage.rank ≤ 4) : passes h = 0 := by
  induction hr with
  | start => rfl
  | @turn h s a s' es hr hs ih =>
    have hk' := (TaskState.move_of_step hs).rank_le.trans hk
    have hj := hr.orderly.scans_quiet (.inl hk')
    -- before the walk there is no scan
    have hpass : s.passing a = 0 := by
      unfold TaskState.passing
      split <;> simp [hj]
    rw [passes_concat, ih hk', hpass, add_zero]

/-- Each scan that has passed its gate has probed the ports of the plan, or has still to. -/
theorem probes_add_unprobed (hr : Run t h s) (hb : ScansUnbroken h) :
    (probes h : Multiset Endpoint) + s.unprobed = (passes h).bind (pairs s.plan.ports) := by
  induction hr with
  | start => simp [probes, events, passes, TaskState.unprobed, TaskState.initial]
  | @turn h s a s' es hr hs ih =>
    have hm := TaskState.move_of_step hs
    obtain ⟨hb, hlast⟩ := List.forall_mem_append.mp hb
    have hbal := hm.unprobed_balance hr.orderly (hlast _ (List.mem_singleton.mpr rfl))
    have hsum : (probes (h ++ [⟨s, a, s', es⟩]) : Multiset Endpoint) + s'.unprobed =
        (passes (h ++ [⟨s, a, s', es⟩])).bind (pairs s.plan.ports) := by
      rw [probes_concat, ← Multiset.coe_add]
      calc (probes h + es.filterMap Event.probe? + s'.unprobed : Multiset Endpoint)
          = probes h + (s'.unprobed + es.filterMap Event.probe?) := by
            rw [add_assoc, add_comm s'.unprobed]
        _ = probes h + s.unprobed + (s.passing a).bind (pairs s.plan.ports) := by
            rw [hbal, add_assoc]
        _ = (passes h).bind (pairs s.plan.ports) + (s.passing a).bind (pairs s.plan.ports) := by
            rw [ih hb]
        _ = (passes (h ++ [⟨s, a, s', es⟩])).bind (pairs s.plan.ports) := by
            rw [passes_concat, Multiset.add_bind]
    by_cases hk : s.stage = .planning ∧ s'.stage = .opening
    · -- the ports become known before any scan
      have hnone := (hr.turn hs).passes_early (by simp [hk.2, Stage.rank])
      rw [hsum, hnone, Multiset.zero_bind, Multiset.zero_bind]
    · rw [hsum, hm.plan_eq hk]

/-- A scan that has passed its gate can always go on, and probes what it has before it. -/
theorem exists_probes (hr : Run t h s) {i : ℕ} {host : Address} {rest : List Port}
    {admitted : Bool} (hj : s.scans.jobs[i]? = some ⟨host, .probing rest admitted⟩) :
    ∃ h' s', Run t (h ++ h') s' ∧ probes h' = rest.map (Endpoint.mk host) ∧
      s'.status = s.status ∧
      ∀ y ∈ h', y.action = .scan i .await ∨ y.action = .scan i (.probe true) := by
  induction rest generalizing h s admitted with
  | nil => exact ⟨[], s, by simpa using hr, rfl, rfl, by simp⟩
  | cons p rest ih =>
    have updated (s : TaskState) (job : ScanJob) (hlt : i < s.scans.jobs.length) :
        (s.scans.update i job).jobs[i]? = some job := by
      rw [Pool.jobs_update, List.getElem?_set_self hlt]
    -- once it has leave for its next probe, it makes that probe and goes on
    have probing : ∀ {h s}, Run t h s →
        s.scans.jobs[i]? = some ⟨host, .probing (p :: rest) true⟩ →
        ∃ h' s', Run t (h ++ h') s' ∧ probes h' = (p :: rest).map (Endpoint.mk host) ∧
          s'.status = s.status ∧
          ∀ y ∈ h', y.action = .scan i .await ∨ y.action = .scan i (.probe true) := by
      intro h s hr hj
      have hlt := (List.getElem?_eq_some_iff.mp hj).1
      have hr₁ := hr.turn (TaskState.step_of_move (.probeTaken hj))
      obtain ⟨h', s', hr', hp, hst, ha⟩ := ih hr₁ (updated s ⟨host, .probing rest false⟩ hlt)
      refine ⟨_ :: h', s', by simpa using hr', ?_, hst, ?_⟩
      · rw [List.map_cons, ← hp]
        rfl
      · exact List.forall_mem_cons.mpr ⟨.inr rfl, ha⟩
    cases admitted with
    | true => exact probing hr hj
    | false =>
      have hlt := (List.getElem?_eq_some_iff.mp hj).1
      have hr₁ := hr.turn (TaskState.step_of_move (.awaited hj))
      obtain ⟨h', s', hr', hp, hst, ha⟩ :=
        probing hr₁ (updated s ⟨host, .probing (p :: rest) true⟩ hlt)
      refine ⟨_ :: h', s', by simpa using hr', by rw [← hp]; rfl, hst, ?_⟩
      exact List.forall_mem_cons.mpr ⟨.inl rfl, ha⟩

/-- In a rest that begins later, only that is asked and probed which had passed its gate. -/
theorem confined_in_rest (hr : Run t h s) {pre post : List Turn} {x : Turn}
    (hx : h = pre ++ x :: post) (hb : x.before.status.isPaused = false)
    (hp : x.after.status.isPaused = true) (hpost : ∀ y ∈ post, y.after.status.isPaused = true) :
    (questions post : Multiset Address) ≤ x.before.ready ∧
      (probes post : Multiset Endpoint) ≤ x.before.unprobed := by
  obtain ⟨hpre, hm⟩ := hr.split hx
  obtain ⟨hready, hunprobed⟩ := hr.rest_balance hx hp hpost
  have hne : x.after.status ≠ x.before.status := by
    intro he
    rw [he, hb] at hp
    cases hp
  obtain ⟨hasks, hscans⟩ := hm.pools_eq hne
  constructor
  · rw [show x.before.ready = x.after.ready by rw [TaskState.ready, TaskState.ready, hasks],
      ← hready]
    exact Multiset.le_add_left _ _
  · rw [show x.before.unprobed = x.after.unprobed by
      rw [TaskState.unprobed, TaskState.unprobed, hscans]]
    exact (Multiset.le_add_left _ _).trans hunprobed

theorem card_passed_le {engine : EngineSettings} {id : String} {settings : Settings}
    (hr : Run (.make engine id settings) h s) :
    s.passed.card ≤ settings.clamped.pool.ping.toNat + settings.clamped.pool.scan.toNat := by
  have hsound := settings.sound_clamped
  have hping : 0 < settings.clamped.pool.ping.toNat := hsound.ping
  have hscan : 0 < settings.clamped.pool.scan.toNat := hsound.scan
  obtain ⟨hba, hbs⟩ := hr.bounded
  have hcard := TaskState.card_passed_le hr.orderly hba hbs
  have hsizes : (Task.make engine id settings).settings.pool = settings.clamped.pool := rfl
  rw [hsizes] at hcard
  omega

/-- If the window is active when the schedule is first applied, nothing comes about as long as the
task rests; a task that is cancelled then can go on to a success, and once its walk is over it has
no other end and nothing comes about either.  In a rest that begins later, only those are asked and
probed that had passed their gate, of whom there are no more than the two pools have room for.  A
scan that has passed its gate probes all ports of the plan, whether the task rests or not: they have
been probed when the scans are drained, and until then the scan can go on. -/
theorem gates_hold (engine : EngineSettings) (id : String) (settings : Settings)
    (hr : Run (.make engine id settings) h s) :
    (∀ pre x post now, h = pre ++ x :: post → x.action = .schedule now →
      isExcludedAt settings.clamped.window now = true →
      (∀ y ∈ post, y.after.status.isPaused = true) →
      Untouched h s ∧
      (s.cancelled = true → s.stage ≠ .collapsed → StrayFree h →
        ∃ h' s', Run (.make engine id settings) (h ++ h') s' ∧ s'.stage = .returned .success ∧
          Untouched (h ++ h') s' ∧ ∀ y ∈ h', y.action.isOwn = true) ∧
      (6 ≤ s.stage.rank → ∀ h' s', Run (.make engine id settings) (h ++ h') s' →
        Untouched (h ++ h') s' ∧ ∀ o, s'.stage = .returned o → o = .success)) ∧
    (∀ pre x post, h = pre ++ x :: post → x.before.status.isPaused = false →
      x.after.status.isPaused = true → (∀ y ∈ post, y.after.status.isPaused = true) →
      (questions post : Multiset Address) ≤ x.before.ready ∧
      (probes post : Multiset Endpoint) ≤ x.before.unprobed ∧
      (∀ host, host ∈ questions post → host ∈ x.before.passed) ∧
      (∀ e, e ∈ probes post → e.address ∈ x.before.passed) ∧
      x.before.passed.card ≤
        settings.clamped.pool.ping.toNat + settings.clamped.pool.scan.toNat) ∧
    (ScansUnbroken h →
      (probes h : Multiset Endpoint) + s.unprobed = (passes h).bind (pairs s.plan.ports) ∧
      (8 ≤ s.stage.rank →
        (probes h : Multiset Endpoint) = (passes h).bind (pairs s.plan.ports))) ∧
    (∀ i host rest admitted, s.scans.jobs[i]? = some ⟨host, .probing rest admitted⟩ →
      (∃ done, (Journal.of h).running[i]? = some done ∧ done ++ rest = s.plan.ports) ∧
      ∃ h' s', Run (.make engine id settings) (h ++ h') s' ∧
        probes h' = rest.map (Endpoint.mk host) ∧ s'.status = s.status ∧
        ∀ y ∈ h', y.action = .scan i .await ∨ y.action = .scan i (.probe true)) := by
  refine ⟨?_, ?_, ?_, ?_⟩
  · intro pre x post now hx ha hw hpost
    exact hr.untouched_in_rest hx ha hw hpost
  · intro pre x post hx hb hp hpost
    obtain ⟨hq, hpr⟩ := hr.confined_in_rest hx hb hp hpost
    refine ⟨hq, hpr, ?_, ?_, (hr.split hx).1.card_passed_le⟩
    · intro host hh
      exact TaskState.mem_passed_of_ready (Multiset.mem_of_le hq hh)
    · intro e he
      exact TaskState.mem_passed_of_unprobed (Multiset.mem_of_le hpr he)
  · intro hb
    have hall := hr.probes_add_unprobed hb
    refine ⟨hall, ?_⟩
    intro hk
    rw [← hall, TaskState.unprobed, hr.orderly.weigh_scans (.inr hk), add_zero]
  · intro i host rest admitted hj
    exact ⟨hr.agrees.exists_list hj, hr.exists_probes hj⟩

end Run

namespace Sample

/-- The task that the settings of the sample ask for, under a window from nine to six. -/
def sheltered : Task := .make .default "sample" { task.settings with window := some officeHours }

theorem parts_sheltered :
    Plan.parts sheltered.settings = .ok (⟨[], [port]⟩, ⟨[block]⟩, excluded) :=
  parts_guarded

def resting (stage : Stage) (cancelled : Bool) : TaskState :=
  { planned with status := .pausedByProgram, cancelled, stage, monitored := true }

/-- The sheltered task starts at noon and is cancelled at the gate of its walk.  It can only
succeed, and has done nothing. -/
theorem gates_hold_at_noon : ∃ h, Run sheltered h (resting (.gating (walk 0)) true) ∧
    h.map Turn.action =
      [.call, .plan ⟨0, 0, 0⟩, .open none, .run, .schedule noon, .enter ⟨2, 0, 1⟩, .run, .cancel] ∧
    ∃ h' s', Run sheltered (h ++ h') s' ∧ s'.stage = .returned .success ∧
      Untouched (h ++ h') s' := by
  have r₁ := Run.start.turn (TaskState.step_of_move (t := sheltered) (.called rfl))
  have m₂ : TaskState.Move sheltered
      { TaskState.initial sheltered with stage := .planning, started := true } (.plan ⟨0, 0, 0⟩)
      planned [] := .planned rfl parts_sheltered (.inl (by decide))
  have r₂ := r₁.turn (TaskState.step_of_move m₂)
  obtain ⟨h₃, r₃, a₃⟩ := r₂.follow [.open none, .run]
    { planned with status := .running, stage := .scheduling } rfl
  obtain ⟨h₀, r₀, a₀⟩ : ∃ h₀, Run sheltered h₀
      { planned with status := .running, stage := .scheduling } ∧
      h₀.map Turn.action = [.call, .plan ⟨0, 0, 0⟩, .open none, .run] :=
    ⟨_, r₃, by simp [a₃]⟩
  -- the schedule makes the task rest, and it rests to the end
  let noonTurn : Turn := ⟨{ planned with status := .running, stage := .scheduling },
    .schedule noon, resting (.entering [block]) false, []⟩
  let post : List Turn :=
    [⟨resting (.entering [block]) false, .enter ⟨2, 0, 1⟩, resting (.checking (walk 0)) false, []⟩,
      ⟨resting (.checking (walk 0)) false, .run, resting (.gating (walk 0)) false, []⟩,
      ⟨resting (.gating (walk 0)) false, .cancel, resting (.gating (walk 0)) true, []⟩]
  have m₄ : TaskState.Move sheltered { planned with status := .running, stage := .scheduling }
      (.schedule noon) (resting (.entering [block]) false) [] := .scheduled rfl
  have m₅ : TaskState.Move sheltered (resting (.entering [block]) false) (.enter ⟨2, 0, 1⟩)
      (resting (.checking (walk 0)) false) [] := .entered rfl (by decide)
  have m₆ : TaskState.Move sheltered (resting (.checking (walk 0)) false) .run
      (resting (.gating (walk 0)) false) [] := .checked rfl (by decide) rfl
  have m₇ : TaskState.Move sheltered (resting (.gating (walk 0)) false) .cancel
      (resting (.gating (walk 0)) true) [] := .cancelled
  have r₇ : Run sheltered (h₀ ++ noonTurn :: post) (resting (.gating (walk 0)) true) := by
    have r := (((r₀.turn (TaskState.step_of_move m₄)).turn (TaskState.step_of_move m₅)).turn
      (TaskState.step_of_move m₆)).turn (TaskState.step_of_move m₇)
    simpa [noonTurn, post] using r
  have ha : (h₀ ++ noonTurn :: post).map Turn.action =
      [.call, .plan ⟨0, 0, 0⟩, .open none, .run, .schedule noon, .enter ⟨2, 0, 1⟩, .run,
        .cancel] := by
    simp [a₀, noonTurn, post]
  have hrests : ∀ y ∈ post, y.after.status.isPaused = true := by
    simp [post, resting, Status.isPaused]
  have hstray : StrayFree (h₀ ++ noonTurn :: post) :=
    forall_action (P := fun a => ∀ o, a ≠ .stray o) ha (by simp)
  have hwindow : isExcludedAt sheltered.settings.window noon = true := rfl
  obtain ⟨hrest, _⟩ := Run.gates_hold .default "sample"
    { task.settings with window := some officeHours } r₇
  obtain ⟨_, hgo, _⟩ := hrest h₀ noonTurn post noon rfl rfl hwindow hrests
  obtain ⟨h', s', hr', hs', hu, _⟩ := hgo rfl (by simp [resting]) hstray
  exact ⟨_, r₇, ha, h', s', hr', hs', hu⟩

end Sample

end Recon
