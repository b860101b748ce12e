import Recon.Proofs.Task.Journal

/-!
# Coverage of a run

Which hosts a run asks and which pairs it probes.  Each coin of the ledger gives one count: of the
questions, of the answers, of the probes and of the scans that come to their end.  In a run that
nothing disturbs, every address that is not left out is asked once if hosts are asked at all, and
every port of it is probed once if it is found up or not asked.  The orders that are drawn decide
only when.
-/

namespace Recon

def events (h : List Turn) : List Event := h.flatMap Turn.events

def Event.question? : Event → Option Address
  | .asked host => some host
  | _ => none

def Event.probe? : Event → Option Endpoint
  | .probed e => some e
  | _ => none

def questions (h : List Turn) : List Address := (events h).filterMap Event.question?

def probes (h : List Turn) : List Endpoint := (events h).filterMap Event.probe?

namespace Deed

def asks : Deed → Multiset Address
  | .asked host => {host}
  | _ => 0

def answers : Deed → Multiset (Address × Bool)
  | .answered host up => {(host, up)}
  | _ => 0

def lives : Deed → Multiset Address
  | .answered host true => {host}
  | _ => 0

def probes : Deed → Multiset Endpoint
  | .probed e _ => {e}
  | _ => 0

end Deed

def answers (h : List Turn) : Multiset (Address × Bool) := tally Deed.answers h

def live (h : List Turn) : Multiset Address := ((answers h).filter fun x => x.2).map Prod.fst

open scoped Classical in
/-- The addresses that a task does not leave out, one for every occurrence in its blocks. -/
noncomputable def Task.spared (t : Task) (targets : TargetList) : Multiset Address :=
  (targets.blocks.flatMap Block.addresses : Multiset Address).filter
    fun host => ¬ Exclusions.Matches t.settings.excluded host

/-- The parsed exclusions leave out what the text of the settings does. -/
theorem Task.spared_eq {t : Task} {ports : PortOrder} {targets : TargetList}
    {excluded : Exclusions} (hp : Plan.parts t.settings = .ok (ports, targets, excluded)) :
    t.spared targets = ((targets.blocks.flatMap Block.addresses).filter
      fun host => !excluded.excludes host : List Address) := by
  classical
  have hm := Exclusions.excludes_iff_matches (Plan.parts_eq_ok hp).2.2
  rw [Task.spared, Multiset.filter_coe]
  congr 1
  apply List.filter_congr
  intro host _
  rw [Bool.eq_iff_iff]
  simp [← hm]

/-- The addresses to be scanned: those that have been found up, or all that are not left out if
hosts are not asked. -/
noncomputable def Task.reached (t : Task) (targets : TargetList) (h : List Turn) :
    Multiset Address :=
  if t.settings.ping then live h else t.spared targets

theorem TaskState.action_of_answered {s s' : TaskState} {a : Action} {host : Address} {up : Bool}
    (h : s.deed? a s' = some (.answered host up)) : ∃ i, a = .ask i (.answer up) := by
  unfold deed? at h
  repeat' split at h
  all_goals simp_all

section Answers

attribute [local simp] Deed.answers Deed.lives Deed.dead

theorem live_eq (h : List Turn) : live h = tally Deed.lives h := by
  -- what is done to the answers respects sums, so it can be done to each deed
  let φ : Multiset (Address × Bool) →+ Multiset Address :=
    { toFun := fun m => (m.filter fun x => x.2).map Prod.fst
      map_zero' := rfl
      map_add' := fun m n => by rw [Multiset.filter_add, Multiset.map_add] }
  have hd : ∀ d : Deed, φ d.answers = d.lives := by
    intro d
    cases d
    case answered up => cases up <;> rfl
    all_goals rfl
  exact (tally_hom φ Deed.answers h).trans (tally_congr fun d _ => hd d)

/-- Every answer finds its host up or down. -/
theorem fst_answers (h : List Turn) :
    (answers h).map Prod.fst = tally Deed.lives h + tally Deed.dead h := by
  have hd : ∀ d : Deed, d.answers.map Prod.fst = d.lives + d.dead := by
    intro d
    cases d
    case answered up => cases up <;> simp
    all_goals simp
  rw [answers, ← tally_add]
  exact (tally_hom (Multiset.mapAddMonoidHom Prod.fst) Deed.answers h).trans
    (tally_congr fun d _ => hd d)

theorem dead_eq_zero {h : List Turn} (ha : ∀ x ∈ h, ∀ i, x.action ≠ .ask i (.answer false)) :
    tally Deed.dead h = 0 := by
  apply tally_eq_zero
  intro d hd
  obtain ⟨x, hx, hx'⟩ := List.mem_filterMap.mp hd
  cases d
  case answered up =>
    obtain ⟨i, hi⟩ := TaskState.action_of_answered hx'
    cases up
    · exact absurd hi (ha x hx i)
    · rfl
  all_goals rfl

end Answers

namespace TaskState

variable {t : Task} {s s' : TaskState} {a : Action} {es : List Event}

attribute [local simp] goto fail finish complete completeHost deed?
attribute [local simp] Event.question? Event.probe? Deed.asks Deed.probes

/-- What is noticed of a move are its questions and its probes. -/
theorem Move.noticed (hm : Move t s a s' es) :
    (es.filterMap Event.question? : Multiset Address) = s.yield Deed.asks a s' ∧
      (es.filterMap Event.probe? : Multiset Endpoint) = s.yield Deed.probes a s' := by
  unfold yield
  cases hm
  case visitedExcluded hs hn he => simp [hs, hn, he]
  case offeredToAsks answer _ hs _ _ _ => cases answer <;> simp [hs, afterOffer]
  case offeredToScans answer _ hs _ _ _ => cases answer <;> simp [hs, afterOffer]
  case handedOn hj ha => simp [hj, Pool.open_of_submit ha]
  case linedUp hj ha => simp [hj, Pool.open_of_submit ha]
  case unplaced hj ha => simp [hj, Pool.submit_refused ha]
  all_goals simp [*]

end TaskState

/-! ### The ledger in single coins -/

namespace Fees

variable {M : Type} [AddCommMonoid M]

def ofQuestions : Fees (Multiset Address) := ⟨0, fun host => {host}, 0, 0, 0⟩

def ofAnswers : Fees (Multiset Address) := ⟨0, 0, fun host => {host}, 0, 0⟩

def ofProbes : Fees (Multiset Endpoint) := ⟨0, 0, 0, fun e => {e}, 0⟩

def ofScans : Fees (Multiset Address) := ⟨0, 0, 0, 0, fun host => {host}⟩

variable (c : Fees M) (ping : Bool) (plan : Plan)

/-- Where leaving a host out is free, the hosts ahead are worth what the others are. -/
theorem walk_eq (h0 : c.skip = 0) (hosts : List Address) :
    c.walk ping plan hosts =
      ((hosts.filter fun host => !plan.excluded.excludes host).map (c.offered ping plan)).sum := by
  induction hosts with
  | nil => rfl
  | cons host hosts ih =>
    rw [walk, List.map_cons, List.sum_cons, ← walk, ih, unvisited, h0]
    cases he : plan.excluded.excludes host <;> simp [he]

end Fees

namespace Run

variable {t : Task} {h : List Turn} {s : TaskState} {M : Type} [AddCommMonoid M]

theorem noticed (hr : Run t h s) :
    (questions h : Multiset Address) = tally Deed.asks h ∧
      (probes h : Multiset Endpoint) = tally Deed.probes h := by
  induction hr with
  | start => exact ⟨rfl, rfl⟩
  | turn hr hs ih =>
    obtain ⟨hq, hp⟩ := (TaskState.move_of_step hs).noticed
    rw [tally_concat, tally_concat, ← ih.1, ← ih.2, ← hq, ← hp]
    simp [questions, probes, events]

/-- After the drains, the deeds have paid for what is not left out. -/
theorem balance_of_success (hr : Run t h s) (hs : s.stage = .returned .success) (c : Fees M)
    (h0 : c.skip = 0) : tally (c.paid t.settings.ping s.plan) h =
      (((s.plan.blocks.flatMap Block.addresses).filter fun host =>
        !s.plan.excluded.excludes host).map (c.offered t.settings.ping s.plan)).sum := by
  rw [← c.walk_eq t.settings.ping s.plan h0, ← hr.balance c,
    hr.orderly.worth_eq_zero c (by simp [hs, Stage.rank]), zero_add]

section Success

variable {ports : PortOrder} {targets : TargetList} {excluded : Exclusions}

variable (hr : Run t h s) (hu : Uncancelled h) (hb : Unbroken h) (hs : s.stage = .returned .success)
variable (hp : Plan.parts t.settings = .ok (ports, targets, excluded))
include hr hu hb hs hp

/-- What the deeds of a run yield that nothing disturbs, if they yield what they pay in some
coin. -/
theorem tally_eq {c : Fees M} (h0 : c.skip = 0) {f : Deed → M} {g : Address → M}
    (hf : ∀ d : Deed, d.isSmooth = true → c.paid t.settings.ping s.plan d = f d)
    (hg : ∀ host, c.offered t.settings.ping s.plan host = g host) :
    tally f h = ((t.spared targets).map g).sum := by
  have hsm := hr.smooth hu hb (by simp [hs, Stage.hasFailed])
  -- the plan has the blocks and the exclusions of the settings; only its ports are shuffled
  obtain ⟨_, hblocks, hexcluded⟩ := (hr.plans_of_success hs).eq hp
  rw [← tally_congr fun d h => hf d (hsm d h), hr.balance_of_success hs c h0, funext hg,
    Task.spared_eq hp, Multiset.map_coe, Multiset.sum_coe, hblocks, hexcluded]

attribute [local simp] Deed.isSmooth Fees.paid Fees.offered Fees.unasked Fees.rest

theorem asks_eq : tally Deed.asks h = if t.settings.ping then t.spared targets else 0 := by
  rw [hr.tally_eq hu hb hs hp (c := .ofQuestions)
    (g := fun host => if t.settings.ping then {host} else 0) rfl]
  · cases t.settings.ping <;> simp
  · intro d hd
    cases d
    case answered up => cases up <;> simp [Fees.ofQuestions, Deed.asks]
    all_goals simp_all [Fees.ofQuestions, Deed.asks]
  · intro host
    simp [Fees.ofQuestions]

theorem answers_eq :
    tally Deed.lives h + tally Deed.dead h = if t.settings.ping then t.spared targets else 0 := by
  rw [← tally_add, hr.tally_eq hu hb hs hp (c := .ofAnswers)
    (g := fun host => if t.settings.ping then {host} else 0) rfl]
  · cases t.settings.ping <;> simp
  · intro d hd
    cases d
    case answered up => cases up <;> simp [Fees.ofAnswers, Deed.lives, Deed.dead]
    all_goals simp_all [Fees.ofAnswers, Deed.lives, Deed.dead]
  · intro host
    simp [Fees.ofAnswers]

theorem scans_add_dead_eq : tally Deed.scans h + tally Deed.dead h = t.spared targets := by
  rw [← tally_add, hr.tally_eq hu hb hs hp (c := .ofScans) (g := fun host => {host}) rfl]
  · exact Multiset.sum_map_singleton _
  · intro d hd
    cases d
    case answered up => cases up <;> simp [Fees.ofScans, Deed.scans, Deed.dead]
    all_goals simp_all [Fees.ofScans, Deed.scans, Deed.dead]
  · intro host
    simp [Fees.ofScans]

theorem probes_add_dead_eq :
    tally Deed.probes h + (tally Deed.dead h).bind (pairs s.plan.ports) =
      (t.spared targets).bind (pairs s.plan.ports) := by
  rw [tally_bind, ← tally_add,
    hr.tally_eq hu hb hs hp (c := .ofProbes) (g := pairs s.plan.ports) rfl]
  · rfl
  · intro d hd
    cases d
    case answered up =>
      cases up <;> simp [Fees.ofProbes, Deed.probes, Deed.dead, Fees.sum_map_singleton]
    all_goals simp_all [Fees.ofProbes, Deed.probes, Deed.dead]
  · intro host
    simp [Fees.ofProbes, Fees.sum_map_singleton]

/-- The hosts that are down are missing from those to be scanned. -/
theorem reached_add_dead_eq : t.reached targets h + tally Deed.dead h = t.spared targets := by
  have ha := hr.answers_eq hu hb hs hp
  unfold Task.reached
  by_cases hping : t.settings.ping = true
  · rw [if_pos hping] at ha ⊢
    rw [live_eq, ha]
  · rw [if_neg hping] at ha ⊢
    have hd : tally Deed.dead h = 0 := Multiset.le_zero.mp (ha ▸ Multiset.le_add_left _ _)
    rw [hd, add_zero]

theorem scans_eq : tally Deed.scans h = t.reached targets h := by
  have hd := hr.scans_add_dead_eq hu hb hs hp
  rw [← hr.reached_add_dead_eq hu hb hs hp] at hd
  exact add_right_cancel hd

theorem probes_eq : tally Deed.probes h = (t.reached targets h).bind (pairs s.plan.ports) := by
  have hd := hr.probes_add_dead_eq hu hb hs hp
  rw [← hr.reached_add_dead_eq hu hb hs hp, Multiset.add_bind] at hd
  exact add_right_cancel hd

/-- In a run that nothing disturbs and that comes through, every occurrence of an address that is
not left out is asked once if hosts are asked at all, and each host that is to be scanned has its
ports probed once, by a single job and in the order of the plan. -/
theorem covered_exactly :
    (questions h : Multiset Address) = (if t.settings.ping then t.spared targets else 0) ∧
      (t.settings.ping = true → (answers h).map Prod.fst = t.spared targets) ∧
      (probes h : Multiset Endpoint) = (t.reached targets h).bind (pairs ports.ports) ∧
      (s.plan.ports.Perm ports.ports ∧ (Journal.of h).running = [] ∧
        ((Journal.of h).ended : Multiset (Address × List Port)) =
          (t.reached targets h).map fun host => (host, s.plan.ports)) ∧
      ∀ h' s', Run t h' s' → Uncancelled h' → Unbroken h' → s'.stage = .returned .success →
        answers h' = answers h → (probes h' : Multiset Endpoint) = probes h := by
  obtain ⟨hquestions, hprobes⟩ := hr.noticed
  obtain ⟨hports, _⟩ := (hr.plans_of_success hs).eq hp
  have hcov := hr.probes_eq hu hb hs hp
  rw [pairs_perm hports] at hcov
  refine ⟨?_, ?_, ?_, ⟨hports, ?_, ?_⟩, ?_⟩
  · rw [hquestions, hr.asks_eq hu hb hs hp]
  · intro hping
    rw [fst_answers, hr.answers_eq hu hb hs hp, if_pos hping]
  · rw [hprobes, hcov]
  · apply List.length_eq_zero_iff.mp
    rw [hr.agrees.length_eq, hr.orderly.scans_quiet (by simp [hs, Stage.rank]), List.length_nil]
  · rw [hr.ended_eq hu hb, hr.scans_eq hu hb hs hp]
  · -- the same answers reach the same hosts, whatever orders are drawn
    intro h' s' hr' hu' hb' hs' ha
    obtain ⟨hports', _⟩ := (hr'.plans_of_success hs').eq hp
    rw [hprobes, hcov, hr'.noticed.2, hr'.probes_eq hu' hb' hs' hp, pairs_perm hports',
      Task.reached, Task.reached, live, live, ha]

end Success

end Run

namespace Sample

theorem spared_task : task.spared ⟨[block]⟩ = {second} := by
  have hb : [block].flatMap Block.addresses = [first, second] := by decide +kernel
  rw [Task.spared_eq parts_task, hb]
  simp [excludes_first, excludes_second]

/-- The run of the sample probes the only port of the address that is not excluded. -/
theorem covered_exactly_of_run : ∃ h, Run task h done ∧
    (questions h : Multiset Address) = {second} ∧
    (probes h : Multiset Endpoint) = {⟨second, port⟩} ∧
    ((Journal.of h).ended : Multiset (Address × List Port)) = {(second, [port])} := by
  obtain ⟨h, hr, ha⟩ := exists_run
  have hu : Uncancelled h := forall_action (P := fun a => a ≠ .cancel) ha (by simp)
  have hb : Unbroken h :=
    forall_action (P := fun a => ∀ i, a ≠ .ask i .panic ∧ a ≠ .scan i .panic) ha (by simp)
  have hd : tally Deed.dead h = 0 :=
    dead_eq_zero (forall_action (P := fun a => ∀ i, a ≠ .ask i (.answer false)) ha (by simp))
  have hreached := hr.reached_add_dead_eq hu hb rfl parts_task
  rw [hd, add_zero, spared_task] at hreached
  obtain ⟨hquestions, _, hprobes, ⟨_, _, hended⟩, _⟩ := hr.covered_exactly hu hb rfl parts_task
  rw [hreached] at hprobes hended
  refine ⟨h, hr, ?_, ?_, ?_⟩
  · rw [hquestions, spared_task]
    rfl
  · rw [hprobes]
    rfl
  · rw [hended]
    rfl

end Sample

end Recon
