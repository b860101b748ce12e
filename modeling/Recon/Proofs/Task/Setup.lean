import Recon.Proofs.Settings.Clamp
import Recon.Proofs.Task.Control
import Recon.Proofs.Task.Dispatch

/-!
# Failures of the setup

A run fails where a text of its settings cannot be read or its scanner cannot be opened, and only
there.  It tells the first of these failures and the end.  Nothing of the pipeline is begun, so the
task has asked nobody, probed nothing and counted nothing.
-/

namespace Recon

def failureOf {ε α : Type} (toError : ε → Error) : Except ε α → Option Error
  | .error f => some (toError f)
  | .ok _ => none

namespace Settings

structure Sound (s : Settings) : Prop where
  rate : 0 < s.rate
  ping : 0 < s.pool.ping
  scan : 0 < s.pool.scan
  finger : 0 < s.pool.finger

theorem InBounds.sound {s : Settings} (h : s.InBounds) : s.Sound where
  rate := UInt32.lt_of_lt_of_le (by decide) h.rate.1
  ping := UInt64.lt_of_lt_of_le (by decide) h.ping.1
  scan := UInt64.lt_of_lt_of_le (by decide) h.scan.1
  finger := UInt64.lt_of_lt_of_le (by decide) h.finger.1

theorem sound_clamped (s : Settings) : s.clamped.Sound := (inBounds_clamped s).sound

/-- What is wrong with the texts of settings: a blank target, the ports, the targets and the
exclusions, in this order. -/
def faults (s : Settings) : List Error :=
  [if isBlankText s.target then some Fault.noTarget.toError else none,
    failureOf (fun f => f.toError) (PortOrder.ofString s.ports),
    failureOf (fun f => f.toError) (TargetList.ofString s.target),
    failureOf (fun f => f.toError) (Exclusions.ofString s.excluded)].filterMap id

theorem validate_of_sound {s : Settings} (h : s.Sound) :
    s.validate = if isBlankText s.target then .error .noTarget else .ok () := by
  have hrate : s.rate ≠ 0 := (UInt32.ne_of_lt h.rate).symm
  have hping : s.pool.ping ≠ 0 := (UInt64.ne_of_lt h.ping).symm
  have hscan : s.pool.scan ≠ 0 := (UInt64.ne_of_lt h.scan).symm
  have hfinger : s.pool.finger ≠ 0 := (UInt64.ne_of_lt h.finger).symm
  simp [validate, hrate, hping, hscan, hfinger]

end Settings

/-- The parts of a plan cannot be read where a text is at fault, and the first fault is reported. -/
theorem Plan.parts_eq_error {s : Settings} (h : s.Sound) {e : Error} :
    Plan.parts s = .error e ↔ s.faults.head? = some e := by
  rw [Plan.parts, Settings.validate_of_sound h, Settings.faults]
  by_cases hb : Settings.isBlankText s.target = true
  · simp [hb]
  · cases PortOrder.ofString s.ports <;> cases TargetList.ofString s.target <;>
      cases Exclusions.ofString s.excluded <;> simp [hb, failureOf]

theorem Plan.exists_error_iff {s : Settings} (h : s.Sound) :
    (∃ e, Plan.parts s = .error e) ↔ s.faults ≠ [] := by
  simp only [Plan.parts_eq_error h, ← Option.ne_none_iff_exists', ne_eq, List.head?_eq_none_iff]

theorem Plan.exists_parts_iff {s : Settings} (h : s.Sound) :
    (∃ parts, Plan.parts s = .ok parts) ↔ s.faults = [] := by
  have he := Plan.exists_error_iff h
  cases hp : Plan.parts s <;> simp_all

def Action.refusal? : Action → Option Error
  | .open e => e
  | _ => none

/-- Whether an action is one that a run takes by itself, whatever goes on around it. -/
def Action.isOwn : Action → Bool
  | .call | .plan _ | .enter _ | .run => true
  | _ => false

def refusals (h : List Turn) : List Error := h.filterMap fun x => x.action.refusal?

def Event.isSetup : Event → Bool
  | .opened _ _ | .failed _ | .ended _ => true
  | _ => false

namespace Stage

/-- Whether nothing of the pipeline has been begun, since it is too early or the run fails. -/
def isBarren : Stage → Bool
  | .idle | .planning | .opening | .failing _ | .ending .error | .publishing .error
  | .returned .error => true
  | _ => false

def FailsBy (e : Error) (es : List Event) : Stage → Prop
  | .failing e' => e' = e ∧ es = []
  | .ending .error => es = [.failed e]
  | .publishing .error | .returned .error => es = [.failed e, .ended .init]
  | _ => False

theorem rank_of_barren {stage : Stage} (h : stage.isBarren = true) :
    stage.rank ≤ 2 ∨ 12 ≤ stage.rank := by
  cases stage <;> simp_all [isBarren, rank]

theorem not_live_of_barren {stage : Stage} (h : stage.isBarren = true) :
    TaskState.scannerIsLive stage = false := by
  cases stage <;> simp_all [isBarren, TaskState.scannerIsLive]

theorem Fits.of_barren {stage : Stage} {status : Status} (hf : stage.Fits status)
    (h : stage.isBarren = true) : status = .init ∨ status = .error := by
  -- the first status is kept until the failure is known
  cases stage
  case idle | planning | opening | failing => exact .inl hf
  case ending o =>
    cases o <;> first | exact .inl hf | cases h
  case publishing o =>
    cases o <;> first | exact .inl hf | cases h
  case returned o =>
    cases o
    case error => exact .inr hf.1
    all_goals cases h
  all_goals cases h

end Stage

namespace TaskState

variable {t : Task} {s s' : TaskState} {a : Action} {es : List Event}

attribute [local simp] goto fail finish complete completeHost

@[simp] theorem isBarren_afterOffer (w : Walk) (host : Address) (answer : Pool.Answer) :
    (afterOffer w host answer).isBarren = false := by
  cases answer <;> rfl

/-- A run gets to a failure only by way of the setup. -/
theorem Move.barren (hm : Move t s a s' es) (hb : s'.stage.isBarren = true) :
    s.stage.isBarren = true := by
  cases hm
  case endTold outcome hs => cases outcome <;> simp_all [Stage.isBarren]
  case published outcome hs => cases outcome <;> simp_all [Stage.isBarren]
  case offeredToAsks => simp at hb
  case offeredToScans => simp at hb
  all_goals simp_all [Stage.isBarren]

/-- The setup counts nothing, and is all that is noticed of it. -/
theorem Move.counts_of_barren (hm : Move t s a s' es) (ho : Orderly t s)
    (hb : s'.stage.isBarren = true) :
    s'.completed = s.completed ∧ s'.found = s.found ∧ ∀ ev ∈ es, ev.isSetup = true := by
  have hs := hm.barren hb
  have hk := Stage.rank_of_barren hs
  have hl := Stage.not_live_of_barren hs
  -- no job is at work and no probe is in the air
  have hasks := ho.asks_quiet (by omega)
  have hscans := ho.scans_quiet (by omega)
  have hhandovers := ho.handovers_quiet (by omega)
  have hflying := ho.flying_quiet (by omega)
  cases hm
  all_goals simp_all [Stage.isBarren, Event.isSetup]

/-- A failure begins with the planning or the opening, and then takes its course. -/
theorem Move.failsBy (hm : Move t s a s' es) (hf : s.stage.Fits s.status)
    (hb : s'.stage.isBarren = true) (hk : 12 ≤ s'.stage.rank) :
    (∃ e, Plan.parts t.settings = .error e ∧ s.stage = .planning ∧ s' = s.fail e ∧ es = []) ∨
    (∃ e, s.stage = .opening ∧ a = .open (some e) ∧ s' = s.fail e ∧
      es.filter Event.isClosing = []) ∨
    (s.stage.isBarren = true ∧ 12 ≤ s.stage.rank ∧ s'.message = s.message ∧ a.refusal? = none ∧
      ∀ e cs, s.stage.FailsBy e cs → s'.stage.FailsBy e (cs ++ es.filter Event.isClosing)) := by
  have hs := hm.barren hb
  cases hm
  case planFailed e hp hst => exact .inl ⟨e, hst, hp, rfl, rfl⟩
  case openFailed e hst => exact .inr (.inl ⟨e, hst, rfl, rfl, rfl⟩)
  -- the course that a failure takes
  case failureTold e hst =>
    refine .inr (.inr ⟨hs, by simp [hst, Stage.rank], rfl, rfl, ?_⟩)
    intro e' cs h
    rw [hst] at h
    obtain ⟨rfl, rfl⟩ := h
    rfl
  case endTold outcome hst =>
    refine .inr (.inr ⟨hs, by simp [hst, Stage.rank], rfl, rfl, ?_⟩)
    intro e' cs h
    rw [hst] at h hf
    cases outcome <;> first | exact h.elim | skip
    have hi : s.status = .init := hf
    rw [show cs = [.failed e'] from h, hi]
    rfl
  case published outcome hst =>
    refine .inr (.inr ⟨hs, by simp [hst, Stage.rank], rfl, rfl, ?_⟩)
    intro e' cs h
    rw [hst] at h
    cases outcome <;> first | exact h.elim | skip
    simpa [Stage.FailsBy] using h
  case offeredToAsks => simp at hb
  case offeredToScans => simp at hb
  -- all other moves come too early for a failure, or leave its stage as it is
  all_goals first
    | exact .inr (.inr ⟨hb, hk, rfl, rfl, fun _ _ h => by simpa [Event.isClosing] using h⟩)
    | simp_all [Stage.isBarren, Stage.rank]

theorem Move.hasFailed_of_refusal (hm : Move t s a s' es) {e : Error}
    (ha : a.refusal? = some e) : s.stage = .opening ∧ s'.stage.hasFailed = true := by
  cases hm
  case openFailed hs => exact ⟨hs, rfl⟩
  all_goals cases ha

theorem Move.plans_of_parts {parts : PortOrder × TargetList × Exclusions}
    (hm : Move t s a s' es) (hp : Plan.parts t.settings = .ok parts)
    (h : s.stage.rank ≤ 1 ∨ t.Plans s.plan) : s'.stage.rank ≤ 1 ∨ t.Plans s'.plan := by
  cases hm
  case planFailed he =>
    rw [hp] at he
    cases he
  case planned ports targets excluded _ hp' ht =>
    exact .inr ⟨ports, targets, excluded, _, hp', ht, rfl⟩
  -- the stage after an offer is not of the setup, whatever the pool answers
  case offeredToAsks hs _ _ _ => exact .inr (h.resolve_left (by simp [hs, Stage.rank]))
  case offeredToScans hs _ _ _ => exact .inr (h.resolve_left (by simp [hs, Stage.rank]))
  all_goals exact h.imp (fun h => by simp_all [Stage.rank]) fun h => h

end TaskState

namespace Run

variable {t : Task} {h : List Turn} {s : TaskState}

/-- A run whose stage is barren has never been at another, and has left no trace. -/
theorem barren (hr : Run t h s) (hb : s.stage.isBarren = true) :
    (∀ x ∈ h, x.before.stage.isBarren = true) ∧ s.completed = 0 ∧ s.found = 0 ∧
      ∀ ev ∈ events h, ev.isSetup = true := by
  -- the state after the last turn is barren, so the state before it is
  induction hr with
  | start => exact ⟨by simp, rfl, rfl, by simp [events]⟩
  | @turn h s a s' es hr hs ih =>
    have hm := TaskState.move_of_step hs
    obtain ⟨hc, hf, he⟩ := hm.counts_of_barren hr.orderly hb
    obtain ⟨hall, hc0, hf0, hev⟩ := ih (hm.barren hb)
    refine ⟨?_, hc.trans hc0, hf.trans hf0, ?_⟩
    · intro x hx
      rcases List.mem_append.mp hx with hx | hx
      · exact hall x hx
      · rw [List.mem_singleton.mp hx]
        exact hm.barren hb
    · intro ev hev'
      rw [events, List.flatMap_append] at hev'
      rcases List.mem_append.mp hev' with hev' | hev'
      · exact hev ev hev'
      · exact he ev (by simpa using hev')

theorem shift_of_barren (hr : Run t h s) (hb : s.stage.isBarren = true) {x : Turn} (hx : x ∈ h) :
    x.after.status = x.before.status ∨ x.before.status = .init ∧ x.after.status = .error := by
  have hbefore := (hr.barren hb).1 x hx
  obtain ⟨⟨_, hr'⟩, _⟩ := hr.of_mem hx
  have hst := hr'.fits.of_barren hbefore
  rcases hr.shift hx with he | hc
  · exact .inl he
  · -- of all changes of a status, only that to a failure has a barren stage before it
    right
    generalize hold : x.before.status = old at hc hst
    generalize x.after.status = new at hc
    generalize x.action = a at hc
    cases hc
    case launched hs =>
      rw [hs] at hbefore
      cases hbefore
    case failed => exact ⟨rfl, rfl⟩
    case succeeded hs _ =>
      rw [hs] at hbefore
      cases hbefore
    case paused hp => rcases hp with rfl | rfl <;> simp at hst
    all_goals simp at hst

theorem plans_of_parts (hr : Run t h s) {parts : PortOrder × TargetList × Exclusions}
    (hp : Plan.parts t.settings = .ok parts) : s.stage.rank ≤ 1 ∨ t.Plans s.plan :=
  hr.invariant (P := fun s => s.stage.rank ≤ 1 ∨ t.Plans s.plan) (.inl (Nat.zero_le _))
    fun hm h => hm.plans_of_parts hp h

theorem faults_of_opening (hr : Run t h s) (ht : t.settings.Sound) (hs : s.stage = .opening) :
    t.settings.faults = [] := by
  rw [← Plan.exists_parts_iff ht]
  rcases hr.planned_or with ⟨_, hk⟩ | ⟨ports, targets, excluded, _, hp, _⟩
  · simp [hs, Stage.rank, Stage.hasFailed] at hk
  · exact ⟨_, hp⟩

theorem hasFailed_of_refusals (hr : Run t h s) (hne : refusals h ≠ []) :
    s.stage.hasFailed = true := by
  induction hr with
  | start => exact absurd rfl hne
  | @turn h s a s' es hr hs ih =>
    have hm := TaskState.move_of_step hs
    by_cases hh : refusals h = []
    · -- the first refusal is that of the last turn
      have ha : ∃ e, a.refusal? = some e := by
        rw [← Option.ne_none_iff_exists']
        intro hn
        simp [refusals, hn] at hne hh
        exact absurd hh (by simpa using hne)
      obtain ⟨e, ha⟩ := ha
      exact (hm.hasFailed_of_refusal ha).2
    · exact hm.hasFailed (ih hh)

/-- A run fails by the first of the faults of its settings, or else by that of its scanner. -/
theorem failsBy (hr : Run t h s) (ht : t.settings.Sound) (hb : s.stage.isBarren = true)
    (hk : 12 ≤ s.stage.rank) :
    ∃ e, (t.settings.faults ++ refusals h).head? = some e ∧ s.message = e.message ∧
      s.stage.FailsBy e (closings h) := by
  induction hr with
  | start => simp [TaskState.initial, Stage.rank] at hk
  | @turn h s a s' es hr hs ih =>
    have hm := TaskState.move_of_step hs
    have hclosings : closings (h ++ [⟨s, a, s', es⟩]) =
        closings h ++ es.filter Event.isClosing := by simp [closings, events]
    have hrefusals : refusals (h ++ [⟨s, a, s', es⟩]) = refusals h ++ a.refusal?.toList := by
      cases ha : a.refusal? <;> simp [refusals, ha]
    rw [hclosings, hrefusals]
    rcases hm.failsBy hr.fits hb hk with ⟨e, hp, hst, rfl, rfl⟩ | ⟨e, hst, rfl, rfl, hes⟩ |
      ⟨hb', hk', hmsg, ha, hgo⟩
    · -- a text cannot be read
      have hnone := hr.told.eq_nil (by simp [hst, Stage.rank])
      have hhead := (Plan.parts_eq_error ht).mp hp
      refine ⟨e, ?_, rfl, rfl, ?_⟩
      · simp [List.head?_append, hhead]
      · simp [hnone]
    · -- the texts have been read, and the scanner does not open
      have hnone := hr.told.eq_nil (by simp [hst, Stage.rank])
      have hfaults := hr.faults_of_opening ht hst
      have hfirst : refusals h = [] := by
        by_contra hne
        have hf := hr.hasFailed_of_refusals hne
        simp [hst, Stage.hasFailed] at hf
      refine ⟨e, ?_, rfl, rfl, ?_⟩
      · simp [hfaults, hfirst, Action.refusal?]
      · simp [hnone, hes]
    · obtain ⟨e, he, hmsg', hfail⟩ := ih hb' hk'
      refine ⟨e, ?_, hmsg.trans hmsg', hgo e _ hfail⟩
      rw [ha]
      simpa using he

/-- A run that has failed comes to its end by itself. -/
theorem leads_of_hasFailed (hs : s.stage.hasFailed = true) (hc : s.stage ≠ .collapsed) :
    ∃ s', Leads t (fun _ a => a.isOwn = true) s s' ∧ s'.stage = .returned .error := by
  have publishing : ∀ s : TaskState, s.stage = .publishing .error →
      ∃ s', Leads t (fun _ a => a.isOwn = true) s s' ∧ s'.stage = .returned .error :=
    fun s hs => ⟨_, .move (.published hs) rfl .here, rfl⟩
  have ending : ∀ s : TaskState, s.stage = .ending .error →
      ∃ s', Leads t (fun _ a => a.isOwn = true) s s' ∧ s'.stage = .returned .error := by
    intro s hs
    obtain ⟨s', hl, hs'⟩ := publishing (s.goto (.publishing .error)) rfl
    exact ⟨s', .move (.endTold hs) rfl hl, hs'⟩
  cases hst : s.stage <;> rw [hst] at hs hc
  case failing e =>
    obtain ⟨s', hl, hs'⟩ := ending (s.finish .error) rfl
    exact ⟨s', .move (.failureTold hst) rfl hl, hs'⟩
  case ending o => cases o <;> first | exact ending s hst | cases hs
  case publishing o => cases o <;> first | exact publishing s hst | cases hs
  case returned o => cases o <;> first | exact ⟨s, .here, hst⟩ | cases hs
  case collapsed => exact absurd rfl hc
  all_goals cases hs

theorem leads_of_fault {e : Error} (hp : Plan.parts t.settings = .error e)
    (hk : s.stage.rank ≤ 1) :
    ∃ s', Leads t (fun _ a => a.isOwn = true) s s' ∧ s'.stage = .returned .error := by
  -- the plan cannot be made, with whatever traversal it is asked for
  have planning : ∀ s : TaskState, s.stage = .planning →
      ∃ s', Leads t (fun _ a => a.isOwn = true) s s' ∧ s'.stage = .returned .error := by
    intro s hs
    have hm : TaskState.Move t s (.plan ⟨0, 0, 0⟩) (s.fail e) [] := .planFailed hs hp
    have hc : (s.fail e).stage ≠ .collapsed := by simp [TaskState.fail]
    obtain ⟨s', hl, hs'⟩ := leads_of_hasFailed (t := t) rfl hc
    exact ⟨s', .move hm rfl hl, hs'⟩
  cases hst : s.stage <;> simp [hst, Stage.rank] at hk
  case idle =>
    obtain ⟨s', hl, hs'⟩ := planning { s with stage := .planning, started := true } rfl
    exact ⟨s', .move (.called hst) rfl hl, hs'⟩
  case planning => exact planning s hst

theorem unplanned_of_fault (hr : Run t h s) {e : Error} (hp : Plan.parts t.settings = .error e) :
    s.Unplanned := by
  refine hr.planned_or.resolve_right ?_
  rintro ⟨_, _, _, _, hp', _⟩
  rw [hp] at hp'
  cases hp'

theorem total_of_plans (hr : Run t h s) (hpl : t.Plans s.plan) {ports : PortOrder}
    {targets : TargetList} (hports : PortOrder.ofString t.settings.ports = .ok ports)
    (htargets : TargetList.ofString t.settings.target = .ok targets) :
    s.total = min (targets.size * ports.ports.length) (2 ^ 64 - 1) := by
  obtain ⟨ports', targets', excluded, tail, hp, hcov, hplan⟩ := hpl
  obtain ⟨hports', htargets', _⟩ := Plan.parts_eq_ok hp
  rw [hports] at hports'
  rw [htargets] at htargets'
  cases hports'
  cases htargets'
  have hlen : (ports.along tail).length = ports.ports.length :=
    (ports.along_perm tail hcov).length_eq
  rw [hr.total_eq, hplan, Plan.total, hlen]
  rfl

/-- With a fault a run has failed, or has yet to find out that a text is at fault. -/
theorem unplanned_or_hasFailed (hr : Run t h s) (ht : t.settings.Sound)
    (hne : t.settings.faults ++ refusals h ≠ []) :
    (∃ e, Plan.parts t.settings = .error e) ∧ s.stage.rank ≤ 1 ∨ s.stage.hasFailed = true := by
  by_cases hf : t.settings.faults = []
  · rw [hf, List.nil_append] at hne
    exact .inr (hr.hasFailed_of_refusals hne)
  · obtain ⟨e, hp⟩ := (Plan.exists_error_iff ht).mpr hf
    exact (hr.unplanned_of_fault hp).2.imp_left fun hk => ⟨⟨e, hp⟩, hk⟩

theorem returned_error_iff (hr : Run t h s) (ht : t.settings.Sound) {o : Status}
    (ho : s.stage = .returned o) : o = .error ↔ t.settings.faults ++ refusals h ≠ [] := by
  constructor
  · rintro rfl
    obtain ⟨e, he, _⟩ := hr.failsBy ht (by rw [ho]; rfl) (by simp [ho, Stage.rank])
    intro hnil
    rw [hnil] at he
    cases he
  · intro hne
    rcases hr.unplanned_or_hasFailed ht hne with ⟨_, hk⟩ | hk
    · simp [ho, Stage.rank] at hk
    · rw [ho] at hk
      cases o <;> first | rfl | cases hk

theorem exists_failure (hr : Run t h s) (ht : t.settings.Sound)
    (hne : t.settings.faults ++ refusals h ≠ []) (hc : s.stage ≠ .collapsed) :
    ∃ h' s', Run t (h ++ h') s' ∧ s'.stage = .returned .error ∧
      ∀ x ∈ h', x.action.isOwn = true := by
  have hl : ∃ s', Leads t (fun _ a => a.isOwn = true) s s' ∧ s'.stage = .returned .error := by
    rcases hr.unplanned_or_hasFailed ht hne with ⟨⟨e, he⟩, hk⟩ | hk
    · exact leads_of_fault he hk
    · exact leads_of_hasFailed hk hc
  obtain ⟨s', hl, hs'⟩ := hl
  obtain ⟨h', hr', hown⟩ := hr.leads hl
  exact ⟨h', s', hr', hs', hown⟩

theorem total_of_faults (hr : Run t h s) (ht : t.settings.Sound) (hne : t.settings.faults ≠ []) :
    s.total = 0 := by
  obtain ⟨e, hp⟩ := (Plan.exists_error_iff ht).mpr hne
  rw [hr.total_eq, (hr.unplanned_of_fault hp).1]
  rfl

/-- As long as the stage is barren, no event is a question, a probe or a call. -/
theorem nothing_of_barren (hr : Run t h s) (hb : s.stage.isBarren = true) :
    questions h = [] ∧ probes h = [] ∧ handedOver h = [] := by
  obtain ⟨_, _, _, hevents⟩ := hr.barren hb
  have hnone {β : Type} (f : Event → Option β) (hf : ∀ ev, ev.isSetup = true → f ev = none) :
      (events h).filterMap f = [] :=
    List.filterMap_eq_nil_iff.mpr fun ev hev => hf ev (hevents ev hev)
  refine ⟨hnone Event.question? ?_, hnone Event.probe? ?_, hnone Event.call? ?_⟩
  · rintro ⟨⟩ <;> simp [Event.isSetup, Event.question?]
  · rintro ⟨⟩ <;> simp [Event.isSetup, Event.probe?]
  · rintro ⟨⟩ <;> simp [Event.isSetup, Event.call?]

/-- A run with settings of any kind, made safe, returns a failure just where a text is at fault or
the scanner has not opened; and where one of these is so, it does return, unless its receiver breaks
off.  The reason is the first of the faults.  The receiver is told of it and then of the end, and of
nothing else; nobody has been asked and nothing probed or counted; and the status has gone from the
first to that of a failure.  The total is known only if the scanner alone is at fault. -/
theorem setup_fails (engine : EngineSettings) (id : String) (settings : Settings)
    (hr : Run (.make engine id settings) h s) :
    (∀ o, s.stage = .returned o →
      (o = .error ↔ settings.clamped.faults ++ refusals h ≠ [])) ∧
    (settings.clamped.faults ++ refusals h ≠ [] → s.stage ≠ .collapsed →
      ∃ h' s', Run (.make engine id settings) (h ++ h') s' ∧ s'.stage = .returned .error ∧
        ∀ x ∈ h', x.action.isOwn = true) ∧
    (settings.clamped.faults ≠ [] → s.total = 0) ∧
    (s.stage = .returned .error →
      (∃ e, (settings.clamped.faults ++ refusals h).head? = some e ∧ s.message = e.message ∧
        dispatches h = [.failed e, .ended .init]) ∧
      questions h = [] ∧ probes h = [] ∧ s.completed = 0 ∧ s.found = 0 ∧ s.status = .error ∧
      (∀ x ∈ h, x.after.status = x.before.status ∨
        x.before.status = .init ∧ x.after.status = .error) ∧
      ∀ ports targets, settings.clamped.faults = [] →
        PortOrder.ofString settings.clamped.ports = .ok ports →
        TargetList.ofString settings.clamped.target = .ok targets →
        s.total = min (targets.size * ports.ports.length) (2 ^ 64 - 1)) := by
  have ht : (Task.make engine id settings).settings.Sound := settings.sound_clamped
  refine ⟨fun o ho => hr.returned_error_iff ht ho, hr.exists_failure ht, hr.total_of_faults ht, ?_⟩
  intro hs
  have hb : s.stage.isBarren = true := by rw [hs]; rfl
  obtain ⟨_, hcompleted, hfound, _⟩ := hr.barren hb
  obtain ⟨hquestions, hprobes, hover⟩ := hr.nothing_of_barren hb
  obtain ⟨e, he, hmsg, hfail⟩ := hr.failsBy ht hb (by simp [hs, Stage.rank])
  rw [hs] at hfail
  refine ⟨⟨e, he, hmsg, ?_⟩, hquestions, hprobes, hcompleted, hfound, ?_,
    fun x => hr.shift_of_barren hb, ?_⟩
  · rw [hr.dispatches_eq, hover]
    exact hfail
  · have hfit := hr.fits
    rw [hs] at hfit
    exact hfit.1
  · intro ports targets hnil hports htargets
    obtain ⟨parts, hp⟩ := (Plan.exists_parts_iff ht).mpr hnil
    have hpl := (hr.plans_of_parts hp).resolve_left (by simp [hs, Stage.rank])
    exact hr.total_of_plans hpl hports htargets

end Run

namespace Sample

def misread : Settings :=
  { Settings.default with target := "10.0.0.1", ports := "70000", excluded := "nowhere" }

def portFault : Error := ⟨.portRange, "invalid port '70000' in '70000'"⟩

theorem parts_misread : Plan.parts misread.clamped = .error portFault := by rfl

def misreadDone : TaskState :=
  { TaskState.initial (.make .default "sample" misread) with
    status := .error
    stage := .returned .error
    message := portFault.message
    started := true
    ended := true }

/-- The task fails by its ports, which come before its exclusions. -/
theorem setup_fails_of_misread : ∃ h, Run (.make .default "sample" misread) h misreadDone ∧
    misread.clamped.faults ≠ [] ∧ dispatches h = [.failed portFault, .ended .init] ∧
    probes h = [] ∧ misreadDone.total = 0 := by
  let t := Task.make .default "sample" misread
  have r₁ := Run.start.turn (TaskState.step_of_move (t := t) (.called rfl))
  have m₂ : TaskState.Move t { TaskState.initial t with stage := .planning, started := true }
      (.plan ⟨0, 0, 0⟩) _ [] := .planFailed rfl parts_misread
  have r₂ := r₁.turn (TaskState.step_of_move m₂)
  obtain ⟨h, hr, _⟩ := r₂.follow [.run, .run, .run] misreadDone rfl
  obtain ⟨houtcome, _, htotal, hdone⟩ := hr.setup_fails
  have hsound : misread.clamped.Sound := misread.sound_clamped
  have hhead : misread.clamped.faults.head? = some portFault :=
    (Plan.parts_eq_error hsound).mp parts_misread
  have hne : misread.clamped.faults ≠ [] := (Plan.exists_error_iff hsound).mp ⟨_, parts_misread⟩
  obtain ⟨⟨e, he, _, hd⟩, _, hprobes, _⟩ := hdone rfl
  rw [List.head?_append, hhead] at he
  cases he
  exact ⟨_, hr, hne, hd, hprobes, htotal hne⟩

end Sample

end Recon
