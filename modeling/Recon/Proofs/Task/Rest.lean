import Recon.Proofs.Task.Fate
import Recon.Proofs.Task.Setup

/-!
# Rest before the first host

A run that begins inside the exclusion window comes to the gate of its walk and no further, as long
as the task rests.  Nothing has been handed on by then, so the pools are empty and have nothing to
do, whatever the owner and the clock do.  A task that is cancelled there ends without having begun.
-/

namespace Recon

/-- The scanner reports only what it has been given. -/
def StrayFree (h : List Turn) : Prop := ∀ x ∈ h, ∀ outcome, x.action ≠ .stray outcome

theorem questions_concat (h : List Turn) (x : Turn) :
    questions (h ++ [x]) = questions h ++ x.events.filterMap Event.question? := by
  simp [questions, events]

theorem probes_concat (h : List Turn) (x : Turn) :
    probes (h ++ [x]) = probes h ++ x.events.filterMap Event.probe? := by
  simp [probes, events]

theorem handedOver_concat (h : List Turn) (x : Turn) :
    handedOver (h ++ [x]) = handedOver h ++ x.events.filterMap Event.call? := by
  simp [handedOver, events]

theorem Stage.rank_le (stage : Stage) : stage.rank ≤ 15 := by
  cases stage <;> simp [rank]

/-- Whether the run has no address in its hand: its walk is to come, is at a gate, or is over. -/
def Stage.isFresh : Stage → Bool
  | .visiting _ | .offering _ _ | .inLine _ _ => false
  | _ => true

/-- A history in which nobody has been asked and nothing probed, handed on, handed over or
counted. -/
structure Untouched (h : List Turn) (s : TaskState) : Prop where
  questions : questions h = []
  probes : probes h = []
  handedOn : handedOn h = 0
  asks : s.asks.jobs = []
  scans : s.scans.jobs = []
  handedOver : StrayFree h → handedOver h = []
  completed : StrayFree h → s.completed = 0

namespace TaskState

variable {t : Task} {s s' : TaskState} {a : Action} {es : List Event}

attribute [local simp] goto fail finish complete completeHost
attribute [local simp] Event.question? Event.probe? Event.call?

@[mk_iff]
structure Fresh (s : TaskState) : Prop where
  stage : s.stage.isFresh = true
  asks : s.asks.jobs = []
  scans : s.scans.jobs = []
  flying : s.flying = []

namespace Fresh

theorem lined (hf : s.Fresh) : s.stage.lined = [] := by
  have h := hf.stage
  cases hs : s.stage <;> simp_all [Stage.isFresh, Stage.lined]

theorem handedOn (hf : s.Fresh) (stage : Stage) : s.stage.handedOn stage = 0 := by
  have h := hf.stage
  cases stage
  case checking w => cases hs : s.stage <;> simp_all [Stage.isFresh, Stage.hand, Stage.lined]
  all_goals rfl

theorem asks_waiting (hf : s.Fresh) (ho : Orderly t s) : s.asks.waiting = [] := by
  rw [ho.asks_line, hf.lined]
  simp

theorem scans_waiting (hf : s.Fresh) (ho : Orderly t s) : s.scans.waiting = [] := by
  have hl := ho.scans_line
  rw [LinesUp, askersInLine, Pool.weigh_eq_zero hf.asks (hf.asks_waiting ho), hf.lined] at hl
  simpa using hl.symm

end Fresh

theorem Move.fresh (hm : Move t s a s' es) (ho : Orderly t s) (hf : s.Fresh)
    (hg : ∀ w, s.stage = .gating w → s.status.isPaused = true) :
    s'.Fresh ∧ es.filterMap Event.question? = [] ∧ es.filterMap Event.probe? = [] := by
  have hline := hf.asks_waiting ho
  have hlineup := hf.scans_waiting ho
  obtain ⟨hstage, hasks, hscans, hflying⟩ := hf
  rw [fresh_iff]
  cases hm
  case gatePassed w hs hp =>
    -- the walk does not get beyond its gate in a rest
    rw [hg w hs] at hp
    cases hp
  case scanAdmittedForJob ha _ _ => simp [Pool.admit?, hlineup] at ha
  case scanAdmittedForRun ha _ _ _ => simp [Pool.admit?, hlineup] at ha
  case scanAdmittedForNone ha _ _ _ => simp [Pool.admit?, hlineup] at ha
  -- no other job has begun, and no probe is in the air
  all_goals simp_all [Stage.isFresh]

theorem Move.uncounted (hm : Move t s a s' es) (hf : s.Fresh)
    (ha : ∀ outcome, a ≠ .stray outcome) (hj : s.handovers.jobs = [])
    (hw : s.handovers.waiting = []) (hc : s.completed = 0) :
    s'.handovers.jobs = [] ∧ s'.handovers.waiting = [] ∧ s'.completed = 0 ∧
      es.filterMap Event.call? = [] := by
  obtain ⟨hstage, hasks, hscans, hflying⟩ := hf
  cases hm
  -- without a probe in the air, any report would be a stray one
  case strayedShut => exact absurd rfl (ha none)
  case strayedOpen e _ => exact absurd rfl (ha (some e))
  case handoverAdmitted hadm => simp [Pool.admit?, hw] at hadm
  all_goals simp_all [Stage.isFresh]

structure Quiet (s : TaskState) : Prop where
  asks : s.asks.jobs = []
  scans : s.scans.jobs = []
  flying : s.flying = []
  handovers : s.handovers.jobs = []
  line : s.handovers.waiting = []

theorem Quiet.goto (hq : s.Quiet) (stage : Stage) : (s.goto stage).Quiet :=
  ⟨hq.asks, hq.scans, hq.flying, hq.handovers, hq.line⟩

/-- A task goes on by itself, and is at a gate only while it rests. -/
def RestsOn (s : TaskState) (a : Action) : Prop :=
  a.isOwn = true ∧ ∀ w, s.stage = .gating w → s.status.isPaused = true

theorem Quiet.close (hq : s.Quiet) (stage : Stage) :
    Quiet { s with
      stage
      asks := s.asks.close
      scans := s.scans.close
      handovers := s.handovers.close } :=
  ⟨hq.asks, hq.scans, hq.flying, hq.handovers, hq.line⟩

/-- Once the walk is over and nothing has been begun, the run waits for nothing more. -/
theorem exists_later (hq : s.Quiet) (hfit : s.stage.Fits s.status) (hk : 6 ≤ s.stage.rank)
    (hf : s.stage.hasFailed = false) :
    s.stage = .returned .success ∨ ∃ s' es, Move t s .run s' es ∧ s'.Quiet ∧
      s.stage.rank < s'.stage.rank ∧ s'.stage.hasFailed = false := by
  -- nobody is at work, so no stage has to wait
  cases hs : s.stage <;> simp [hs, Stage.rank, Stage.hasFailed] at hk hf
  case drainingAsks =>
    exact .inr ⟨_, _, .asksDrained hs hq.asks, hq.goto _, by simp [Stage.rank], rfl⟩
  case drainingScans =>
    exact .inr ⟨_, _, .scansDrained hs hq.scans, hq.goto _, by simp [Stage.rank], rfl⟩
  case drainingScanner =>
    exact .inr ⟨_, _, .scannerDrained hs hq.flying hq.line, hq.goto _, by simp [Stage.rank], rfl⟩
  case drainingHandovers =>
    exact .inr ⟨_, _, .handoversDrained hs hq.handovers, hq.goto _, by simp [Stage.rank], rfl⟩
  case releasing => exact .inr ⟨_, _, .released hs, hq.goto _, by simp [Stage.rank], rfl⟩
  case closing => exact .inr ⟨_, _, .closed hs, hq.close _, by simp [Stage.rank], rfl⟩
  case stopping =>
    have hq' : Quiet ({ s with monitored := false }.finish .success) :=
      ⟨hq.asks, hq.scans, hq.flying, hq.handovers, hq.line⟩
    exact .inr ⟨_, _, .stopped hs, hq', by simp [Stage.rank], rfl⟩
  case ending o =>
    rw [hs] at hfit
    cases o <;> first | exact hfit.elim | cases hf
    exact .inr ⟨_, _, .endTold hs, hq.goto _, by simp [Stage.rank], rfl⟩
  case publishing o =>
    rw [hs] at hfit
    cases o <;> first | exact hfit.elim | cases hf
    have hq' : Quiet { s with status := .success, stage := .returned .success } :=
      ⟨hq.asks, hq.scans, hq.flying, hq.handovers, hq.line⟩
    exact .inr ⟨_, _, .published hs, hq', by simp [Stage.rank], rfl⟩
  case returned o =>
    rw [hs] at hfit
    have ht := hfit.2
    cases o
    case success => exact .inl rfl
    case error => cases hf
    all_goals cases ht

theorem leads_of_quiet (hq : s.Quiet) (hfit : s.stage.Fits s.status) (hk : 6 ≤ s.stage.rank)
    (hf : s.stage.hasFailed = false) :
    ∃ s', Leads t RestsOn s s' ∧ s'.stage = .returned .success := by
  -- by induction on how far it is from the end, since each step takes it further
  induction hn : 15 - s.stage.rank using Nat.strong_induction_on generalizing s with
  | _ n ih =>
    rcases exists_later (t := t) hq hfit hk hf with hs | ⟨s₁, es, hm, hq₁, hlt, hf₁⟩
    · exact ⟨s, .here, hs⟩
    · have hle : s₁.stage.rank ≤ 15 := s₁.stage.rank_le
      obtain ⟨s', hl, hs'⟩ :=
        ih (15 - s₁.stage.rank) (by omega) hq₁ (hm.fits hfit) (by omega) hf₁ rfl
      refine ⟨s', .move hm ⟨rfl, ?_⟩ hl, hs'⟩
      intro w hw
      rw [hw] at hk
      exact absurd hk (by simp [Stage.rank])

/-- A cancelled walk stops at its next check, or at its gate if the task rests. -/
theorem leads_of_cancelled (hc : s.cancelled = true) (hp : s.status.isPaused = true)
    (hfresh : s.stage.isFresh = true) (hk : 5 ≤ s.stage.rank) (hf : s.stage.hasFailed = false)
    (hfit : s.stage.Fits s.status) (hq : s.Quiet) :
    ∃ s', Leads t RestsOn s s' ∧ s'.stage = .returned .success := by
  have rests {stage : Stage} {a : Action} (ha : a.isOwn = true) : RestsOn (s.goto stage) a :=
    ⟨ha, fun _ _ => hp⟩
  have hactive : s.status.isActive = true := by
    revert hp
    cases s.status <;> simp [Status.isPaused, Status.isActive]
  have hdrain : (s.goto .drainingAsks).stage.Fits (s.goto .drainingAsks).status := hactive
  obtain ⟨s', hl, hs'⟩ := leads_of_quiet (t := t) (hq.goto .drainingAsks) hdrain (Nat.le_refl 6) rfl
  have checking (w : Walk)
      (h : ∃ s', Leads t RestsOn (s.goto (.entering w.rest)) s' ∧ s'.stage = .returned .success) :
      ∃ s', Leads t RestsOn (s.goto (.checking w)) s' ∧ s'.stage = .returned .success := by
    by_cases hw : w.index < w.block.size
    · have hm : Move t (s.goto (.checking w)) .run (s.goto .drainingAsks) [] :=
        .checkStopped rfl hw hc
      exact ⟨s', .move hm (rests rfl) hl, hs'⟩
    · obtain ⟨s₂, hl₂, hs₂⟩ := h
      have hm : Move t (s.goto (.checking w)) .run (s.goto (.entering w.rest)) [] :=
        .blockDone rfl (Nat.le_of_not_lt hw)
      exact ⟨s₂, .move hm (rests rfl) hl₂, hs₂⟩
  -- the blocks that are left are entered at most, one after the other
  have entering (rest : List Block) :
      ∃ s', Leads t RestsOn (s.goto (.entering rest)) s' ∧ s'.stage = .returned .success := by
    induction rest with
    | nil =>
      have hm : Move t (s.goto (.entering [])) .run (s.goto .drainingAsks) [] := .walkDone rfl
      exact ⟨s', .move hm (rests rfl) hl, hs'⟩
    | cons b rest ih =>
      -- the run may choose any traversal, such as the one in order
      let w : Walk := ⟨b, ⟨b.size, 0, 1⟩, 0, rest⟩
      have hcovers : w.order.covers b.size = true := by
        simp [Traversal.covers, w]
        omega
      have hm : Move t (s.goto (.entering (b :: rest))) (.enter w.order) (s.goto (.checking w))
        [] := .entered rfl hcovers
      obtain ⟨s₂, hl₂, hs₂⟩ := checking w ih
      exact ⟨s₂, .move hm (rests rfl) hl₂, hs₂⟩
  have hself : s.goto s.stage = s := rfl
  by_cases hlate : 6 ≤ s.stage.rank
  · exact leads_of_quiet hq hfit hlate hf
  · cases hst : s.stage <;> rw [hst] at hfresh hk hlate hself <;> simp [Stage.rank] at hk hlate <;>
      simp [Stage.isFresh] at hfresh
    case entering rest => exact hself ▸ entering rest
    case checking w => exact hself ▸ checking w (entering w.rest)
    case gating w =>
      have hm : Move t s .run (s.goto .drainingAsks) [] := .gateStopped hst hp hc
      exact ⟨s', .move hm ⟨rfl, fun _ _ => hp⟩ hl, hs'⟩

end TaskState

namespace Run

variable {t : Task} {h : List Turn} {s : TaskState}

/-- What has come about as long as the task has rested whenever its walk was at the gate. -/
theorem fresh (hr : Run t h s)
    (hg : ∀ x ∈ h, ∀ w, x.before.stage = .gating w → x.before.status.isPaused = true) :
    s.Fresh ∧ Untouched h s ∧
      (StrayFree h → s.handovers.jobs = [] ∧ s.handovers.waiting = []) := by
  induction hr with
  | start =>
    refine ⟨⟨rfl, rfl, rfl, rfl⟩, ⟨rfl, rfl, rfl, rfl, rfl, fun _ => rfl, fun _ => rfl⟩, ?_⟩
    exact fun _ => ⟨rfl, rfl⟩
  | @turn h s a s' es hr hs ih =>
    have hm := TaskState.move_of_step hs
    obtain ⟨hg, hlast⟩ := List.forall_mem_append.mp hg
    obtain ⟨hf, hu, hj⟩ := ih hg
    have hgate := hlast _ (List.mem_singleton.mpr rfl)
    obtain ⟨hf', hquestions, hprobes⟩ := hm.fresh hr.orderly hf hgate
    -- without strays there is no report, since nothing has been probed
    have counts (hn : StrayFree (h ++ [⟨s, a, s', es⟩])) :
        StrayFree h ∧ s'.handovers.jobs = [] ∧ s'.handovers.waiting = [] ∧ s'.completed = 0 ∧
          es.filterMap Event.call? = [] := by
      obtain ⟨hn, ha⟩ := List.forall_mem_append.mp hn
      obtain ⟨hjobs, hwaiting⟩ := hj hn
      exact ⟨hn, hm.uncounted hf (ha _ (List.mem_singleton.mpr rfl)) hjobs hwaiting
        (hu.completed hn)⟩
    refine ⟨hf', ⟨?_, ?_, ?_, hf'.asks, hf'.scans, ?_, ?_⟩, ?_⟩
    · rw [questions_concat, hu.questions, hquestions, List.append_nil]
    · rw [probes_concat, hu.probes, hprobes, List.append_nil]
    · rw [handedOn_concat, hu.handedOn, hf.handedOn]
      rfl
    · intro hn
      obtain ⟨hn, _, _, _, hcalls⟩ := counts hn
      rw [handedOver_concat, hu.handedOver hn, hcalls, List.append_nil]
    · exact fun hn => (counts hn).2.2.2.1
    · exact fun hn => ⟨(counts hn).2.1, (counts hn).2.2.1⟩

/-- What holds after a turn and after all that follow it holds before all that follow. -/
theorem holds_on (hr : Run t h s) {P : TaskState → Prop} {pre post : List Turn} {x : Turn}
    (hx : h = pre ++ x :: post) (h0 : P x.after) (hP : ∀ y ∈ post, P y.after) :
    P s ∧ ∀ y ∈ post, P y.before := by
  revert hP
  apply hr.since (P := fun post s => (∀ y ∈ post, P y.after) → P s ∧ ∀ y ∈ post, P y.before) hx
  · exact fun _ => ⟨h0, by simp⟩
  · intro post s a s' es _ _ ih hP
    obtain ⟨hpost, hlast⟩ := List.forall_mem_append.mp hP
    obtain ⟨hs, hbefore⟩ := ih hpost
    refine ⟨hlast _ (List.mem_singleton.mpr rfl), ?_⟩
    exact List.forall_mem_append.mpr ⟨hbefore, by simpa using hs⟩

theorem rank_before (hr : Run t h s) {x : Turn} (hx : x ∈ h) :
    x.before.stage.rank ≤ s.stage.rank := by
  obtain ⟨pre, post, he⟩ := List.append_of_mem hx
  exact (hr.persists (P := fun s' => x.before.stage.rank ≤ s'.stage.rank)
    (fun hm hk => hk.trans hm.rank_le) he le_rfl).1

theorem eq_last (hr : Run t h s) : s = (h.getLast?.map Turn.after).getD (.initial t) := by
  cases hr with
  | start => rfl
  | turn => simp

theorem rank_le_of_append {h' : List Turn} {s' : TaskState} (hr : Run t h s)
    (hr' : Run t (h ++ h') s') : s.stage.rank ≤ s'.stage.rank := by
  induction h' using List.reverseRecOn generalizing s' with
  | nil =>
    rw [List.append_nil] at hr'
    rw [hr.eq_last, hr'.eq_last]
  | append_singleton h' x ih =>
    rw [← List.append_assoc] at hr'
    obtain ⟨hpre, hm⟩ := hr'.split rfl
    have hlast : s' = x.after := by simpa using hr'.eq_last
    rw [hlast]
    exact (ih hpre).trans hm.rank_le

/-- A run that begins inside the window rests, so as long as that lasts its walk has been at the
gate in a rest only. -/
theorem rests_of_schedule (hr : Run t h s) {pre post : List Turn} {x : Turn} {now : Time.Moment}
    (hx : h = pre ++ x :: post) (ha : x.action = .schedule now)
    (hw : isExcludedAt t.settings.window now = true)
    (hpost : ∀ y ∈ post, y.after.status.isPaused = true) :
    x.before.stage = .scheduling ∧ 5 ≤ s.stage.rank ∧ s.status.isPaused = true ∧
      ∀ y ∈ h, ∀ w, y.before.stage = .gating w → y.before.status.isPaused = true := by
  obtain ⟨hpre, hm⟩ := hr.split hx
  have hafter : x.before.stage = .scheduling ∧ x.after.stage.rank = 5 ∧
      x.after.status = x.before.status.schedule (isExcludedAt t.settings.window now) := by
    rw [ha] at hm
    generalize x.before = before at hm
    generalize x.after = after at hm
    generalize x.events = es at hm
    cases hm with
    | scheduled hs => exact ⟨hs, rfl, rfl⟩
  obtain ⟨hs, hrank, hafter⟩ := hafter
  have hfit := hpre.fits
  rw [hs] at hfit
  -- a status that is under way becomes one of a rest
  have hrest : x.after.status.isPaused = true := by
    rw [hafter, hw]
    rcases Status.isActive_iff.mp hfit with he | he | he <;> rw [he] <;> rfl
  obtain ⟨hlast, hbefore⟩ := hr.holds_on (P := fun s => s.status.isPaused = true) hx hrest hpost
  have hrun : Run t (pre ++ [x]) x.after := hpre.turn (TaskState.step_of_move hm)
  have hall : Run t ((pre ++ [x]) ++ post) s := by
    rwa [List.append_assoc, List.singleton_append, ← hx]
  have hle : x.after.stage.rank ≤ s.stage.rank := hrun.rank_le_of_append hall
  refine ⟨hs, hrank ▸ hle, hlast, ?_⟩
  intro y hy w hgate
  rw [hx] at hy
  rcases List.mem_append.mp hy with hy | hy
  · -- no gate comes before the schedule
    have hk := hpre.rank_before hy
    simp [hgate, hs, Stage.rank] at hk
  · rcases List.mem_cons.mp hy with rfl | hy
    · rw [hs] at hgate
      cases hgate
    · exact hbefore y hy

theorem hasFailed_of_scheduled (hr : Run t h s) {x : Turn} (hx : x ∈ h)
    (hs : x.before.stage = .scheduling) (hc : s.stage ≠ .collapsed) :
    s.stage.hasFailed = false := by
  by_contra hf
  -- a run that fails has been in the setup until then, and has applied no schedule
  have hb : s.stage.isBarren = true := by
    cases hst : s.stage <;> rw [hst] at hf hc
    case failing e => rfl
    case ending o => cases o <;> first | rfl | exact absurd rfl hf
    case publishing o => cases o <;> first | rfl | exact absurd rfl hf
    case returned o => cases o <;> first | rfl | exact absurd rfl hf
    case collapsed => exact absurd rfl hc
    all_goals exact absurd rfl hf
  have hxb := (hr.barren hb).1 x hx
  rw [hs] at hxb
  cases hxb

/-- In a rest that begins with the run nothing comes about.  A task that is cancelled in it can go
on to a success, and once its walk is over it comes to no other end, whatever happens. -/
theorem untouched_in_rest (hr : Run t h s) {pre post : List Turn} {x : Turn} {now : Time.Moment}
    (hx : h = pre ++ x :: post) (ha : x.action = .schedule now)
    (hw : isExcludedAt t.settings.window now = true)
    (hpost : ∀ y ∈ post, y.after.status.isPaused = true) :
    Untouched h s ∧
    (s.cancelled = true → s.stage ≠ .collapsed → StrayFree h →
      ∃ h' s', Run t (h ++ h') s' ∧ s'.stage = .returned .success ∧ Untouched (h ++ h') s' ∧
        ∀ y ∈ h', y.action.isOwn = true) ∧
    (6 ≤ s.stage.rank → ∀ h' s', Run t (h ++ h') s' →
      Untouched (h ++ h') s' ∧ ∀ o, s'.stage = .returned o → o = .success) := by
  obtain ⟨hs, hk, hp, hg⟩ := hr.rests_of_schedule hx ha hw hpost
  obtain ⟨hf, hu, hj⟩ := hr.fresh hg
  have hmem : x ∈ h := by simp [hx]
  refine ⟨hu, ?_, ?_⟩
  · intro hc hcollapsed hn
    have hq : s.Quiet := ⟨hf.asks, hf.scans, hf.flying, (hj hn).1, (hj hn).2⟩
    obtain ⟨s', hl, hs'⟩ := TaskState.leads_of_cancelled hc hp hf.stage hk
      (hr.hasFailed_of_scheduled hmem hs hcollapsed) hr.fits hq
    obtain ⟨h', hr', hrest⟩ := hr.leads hl
    refine ⟨h', s', hr', hs', ?_, fun y hy => (hrest y hy).1⟩
    exact (hr'.fresh (List.forall_mem_append.mpr ⟨hg, fun y hy => (hrest y hy).2⟩)).2.1
  · -- no gate comes after the walk, so it is the same whether the rest lasts or not
    intro hlate h' s' hr'
    have hg' : ∀ y ∈ h', ∀ w, y.before.stage = .gating w → y.before.status.isPaused = true := by
      intro y hy w hgate
      obtain ⟨p, q, rfl⟩ := List.append_of_mem hy
      rw [← List.append_assoc] at hr'
      have hle := hr.rank_le_of_append (hr'.split rfl).1
      rw [hgate] at hle
      exact absurd (hlate.trans hle) (by simp [Stage.rank])
    refine ⟨(hr'.fresh (List.forall_mem_append.mpr ⟨hg, hg'⟩)).2.1, ?_⟩
    intro o ho
    have hfail := hr'.hasFailed_of_scheduled (List.mem_append_left h' hmem) hs (by simp [ho])
    have htold := hr'.told
    rw [ho] at hfail htold
    rcases htold.of_returned with ⟨rfl, _⟩ | ⟨rfl, _⟩
    · rfl
    · cases hfail

end Run

end Recon
