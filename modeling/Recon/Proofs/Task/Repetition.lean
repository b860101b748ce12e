import Mathlib.Algebra.Order.BigOperators.Group.List
import Mathlib.Data.Finset.Card
import Recon.Proofs.Task.Fate

/-!
# Endpoints that are handed over again

The targets of a task are a list of blocks, and an address that two of them share occurs twice: it
is visited, scanned and reported once for each occurrence.  So the receiver can be given an endpoint
as often as its address occurs among those that are not left out, and no more often.  Only where no
address occurs twice is each endpoint given once and the number of finds that of the endpoints.
-/

namespace Recon

section Pairs

variable {ports : List Port} {e : Endpoint}

theorem count_pairs_le (hp : ports.Nodup) (host : Address) :
    (pairs ports host).count e ≤ if e.address = host then 1 else 0 := by
  split
  · have hinj : Function.Injective (Endpoint.mk host) := by
      intro p q he
      cases he
      rfl
    have hn : (pairs ports host).Nodup := Multiset.coe_nodup.mpr (hp.map hinj)
    exact Multiset.nodup_iff_count_le_one.mp hn e
  · next he =>
    have hout : e ∉ pairs ports host := fun hm => he (mem_pairs.mp hm).1
    exact (Multiset.count_eq_zero.mpr hout).le

/-- A pair occurs at most once for each occurrence of its address. -/
theorem count_bind_pairs_le (hp : ports.Nodup) (hosts : Multiset Address) :
    (hosts.bind (pairs ports)).count e ≤ hosts.count e.address := by
  induction hosts using Multiset.induction_on with
  | empty => simp
  | cons host hosts ih =>
    have hhost := count_pairs_le (e := e) hp host
    rw [Multiset.cons_bind, Multiset.count_add, Multiset.count_cons]
    omega

end Pairs

namespace Fees

/-- What is probed is paid for as a probe. -/
theorem probes_le_paid (ping : Bool) (plan : Plan) (d : Deed) :
    d.probes ≤ ofProbes.paid ping plan d := by
  cases d
  case probed => exact le_rfl
  all_goals exact Multiset.zero_le _

end Fees

theorem tally_mono {α : Type} {f g : Deed → Multiset α} (hfg : ∀ d, f d ≤ g d) (h : List Turn) :
    tally f h ≤ tally g h :=
  List.sum_le_sum fun d _ => hfg d

namespace Run

variable {t : Task} {h : List Turn} {s : TaskState}

/-- A faithful scanner finds only what it has been given. -/
theorem finds_le (hr : Run t h s) (hf : Faithful h) :
    (finds h : Multiset Endpoint) ≤ tally Deed.report h := by
  induction hr with
  | start => exact le_rfl
  | @turn h s a s' es hr hs ih =>
    obtain ⟨hf, ha⟩ := List.forall_mem_append.mp hf
    -- the last turn finds an endpoint only by reporting it
    have hlast : (a.found?.toList : Multiset Endpoint) ≤ s.yield Deed.report a s' := by
      cases a
      case report e isOpen => cases isOpen <;> simp [Action.found?, TaskState.yield,
        TaskState.deed?, Deed.report]
      case stray outcome =>
        exact absurd rfl ((ha _ (List.mem_singleton.mpr rfl)).2 outcome)
      all_goals exact Multiset.zero_le _
    have hfinds : (finds (h ++ [⟨s, a, s', es⟩]) : Multiset Endpoint) =
        finds h + (a.found?.toList : Multiset Endpoint) := by
      cases ha : a.found? <;> simp [finds, ha, ← Multiset.coe_add]
    rw [hfinds, tally_concat]
    exact add_le_add (ih hf) hlast

/-- What has been probed are pairs of addresses that are not left out, each at most once for every
occurrence. -/
theorem probes_le (hr : Run t h s) {ports : PortOrder} {targets : TargetList}
    {excluded : Exclusions} (hp : Plan.parts t.settings = .ok (ports, targets, excluded)) :
    tally Deed.probes h ≤ (t.spared targets).bind (pairs ports.ports) := by
  have hoffered : Fees.ofProbes.offered t.settings.ping s.plan = pairs s.plan.ports := by
    funext host
    simp [Fees.ofProbes, Fees.offered, Fees.unasked, Fees.rest, Fees.sum_map_singleton]
  have hwalk := hr.balance Fees.ofProbes
  rw [Fees.walk_eq _ _ _ rfl, hoffered] at hwalk
  -- the probes are part of what the deeds have paid, and that of what the plan is worth
  have hle : tally Deed.probes h ≤ (((s.plan.blocks.flatMap Block.addresses).filter fun host =>
      !s.plan.excluded.excludes host).map (pairs s.plan.ports)).sum := by
    rw [← hwalk]
    exact (tally_mono (Fees.probes_le_paid _ _) h).trans (Multiset.le_add_left _ _)
  rcases hr.planned_or with ⟨hempty, _⟩ | hplan
  · -- without a plan there is nothing to probe
    rw [hempty] at hle
    exact hle.trans (Multiset.zero_le _)
  · obtain ⟨hports, hblocks, hexcluded⟩ := hplan.eq hp
    rw [hblocks, hexcluded, pairs_perm hports] at hle
    rwa [Task.spared_eq hp]

theorem handedOver_le (hr : Run t h s) {ports : PortOrder} {targets : TargetList}
    {excluded : Exclusions} (hp : Plan.parts t.settings = .ok (ports, targets, excluded))
    (hf : Faithful h) :
    (handedOver h : Multiset Endpoint) ≤ (t.spared targets).bind (pairs ports.ports) := by
  calc (handedOver h : Multiset Endpoint)
    _ ≤ finds h := by
      rw [← hr.handovers_balance]
      exact Multiset.le_add_left _ _
    _ ≤ tally Deed.report h := hr.finds_le hf
    _ = tally Deed.landed h := (hr.landed_eq hf).symm
    _ ≤ tally Deed.taken h := by
      rw [hr.flying_eq]
      exact Multiset.le_add_left _ _
    _ ≤ tally Deed.probes h := by
      rw [probes_eq_add]
      exact Multiset.le_add_left _ _
    _ ≤ (t.spared targets).bind (pairs ports.ports) := hr.probes_le hp

/-- The receiver is given an endpoint at most once for every occurrence of its address in the
targets that is not left out.  If no address occurs twice, no endpoint is given twice, and a run
that returns has found as many endpoints as it has given. -/
theorem repeated_at_most {ports : PortOrder} {targets : TargetList} {excluded : Exclusions}
    (hp : Plan.parts t.settings = .ok (ports, targets, excluded)) (hr : Run t h s)
    (hf : Faithful h) :
    (∀ e ∈ handedOver h, e.address ∈ t.spared targets ∧ e.port ∈ ports.ports) ∧
      (∀ e, (handedOver h).count e ≤ (t.spared targets).count e.address) ∧
      (∀ outcome, s.stage = .returned outcome → s.found = (handedOver h).length) ∧
      ((t.spared targets).Nodup →
        (handedOver h).Nodup ∧
          ∀ outcome, s.stage = .returned outcome → s.found = (handedOver h).toFinset.card) := by
  have hle := hr.handedOver_le hp hf
  have hports := PortOrder.nodup_ofString (Plan.parts_eq_ok hp).1
  -- ports are not repeated, so only addresses can be
  have hcount : ∀ e, (handedOver h).count e ≤ (t.spared targets).count e.address := by
    intro e
    rw [← Multiset.coe_count]
    exact (Multiset.count_le_of_le e hle).trans (count_bind_pairs_le hports _)
  have hfound : ∀ outcome, s.stage = .returned outcome → s.found = (handedOver h).length := by
    intro outcome hs
    have hfinds := hr.handedOver_eq_finds (by simp [hs, Stage.rank])
    rw [hr.found_eq, ← Multiset.coe_card, ← hfinds, Multiset.coe_card]
  refine ⟨?_, hcount, hfound, ?_⟩
  · intro e he
    obtain ⟨host, hh, hm⟩ := Multiset.mem_bind.mp (Multiset.mem_of_le hle (Multiset.mem_coe.mpr he))
    obtain ⟨rfl, hport⟩ := mem_pairs.mp hm
    exact ⟨hh, hport⟩
  · intro hn
    have hnodup : (handedOver h).Nodup := by
      rw [List.nodup_iff_count_le_one]
      intro e
      exact (hcount e).trans (Multiset.nodup_iff_count_le_one.mp hn e.address)
    refine ⟨hnodup, ?_⟩
    intro outcome hs
    rw [hfound outcome hs, List.toFinset_card_of_nodup hnodup]

end Run

namespace Sample

def single : Block := ⟨"10.0.0.2", second, 1⟩

def doubled : Task :=
  { task with
    settings :=
      { task.settings with
        target := "10.0.0.2,10.0.0.2"
        excluded := ""
        ping := false } }

theorem parts_doubled :
    Plan.parts doubled.settings = .ok (⟨[], [port]⟩, ⟨[single, single]⟩, .empty) := by
  have hv : doubled.settings.validate = .ok () := rfl
  have ht : TargetList.ofString doubled.settings.target = .ok ⟨[single, single]⟩ := by rfl
  have he : Exclusions.ofString doubled.settings.excluded = .ok .empty := by rfl
  exact Plan.parts_eq hv ports_task ht he

def doubledPlanned : TaskState :=
  { TaskState.initial doubled with
    stage := .opening
    plan := ⟨[port], [single, single], .empty⟩
    total := 2
    started := true }

/-- The doubled task when it visits one of its blocks, with some hosts to be scanned. -/
def doubledVisiting (rest : List Block) (scans : Pool ScanJob) : TaskState :=
  { doubledPlanned with
    status := .running
    stage := .visiting ⟨single, ⟨1, 0, 0⟩, 0, rest⟩
    scans }

def doubledDone : TaskState :=
  { doubledPlanned with
    status := .success
    stage := .returned .success
    completed := 2
    found := 2
    ended := true
    asks := (Pool.ofSize 10).close
    scans := ⟨10, [], [], 2, 2, 0, true⟩
    handovers := ⟨50, [], [], 2, 2, 0, true⟩ }

/-- The doubled task has a run in which its port is open whenever it is probed. -/
theorem exists_doubled_run : ∃ h, Run doubled h doubledDone ∧
    h.map Turn.action =
      [.call, .plan ⟨0, 0, 0⟩, .open none, .run, .schedule noon, .enter ⟨1, 0, 0⟩, .run, .run,
        .run, .run, .run, .enter ⟨1, 0, 0⟩, .run, .run, .run, .run, .run, .run, .run,
        .scan 0 .pass, .scan 0 .await, .scan 0 (.probe true), .scan 0 .leave, .scan 0 .pass,
        .scan 0 .await, .scan 0 (.probe true), .scan 0 .leave, .run, .report ⟨second, port⟩ true,
        .report ⟨second, port⟩ true, .run, .handover 0 .call, .handover 0 (.leave false),
        .handover 0 .call, .handover 0 (.leave false), .run, .run, .run, .run, .run, .run] := by
  have r₁ := Run.start.turn (TaskState.step_of_move (t := doubled) (.called rfl))
  have m₂ : TaskState.Move doubled
      { TaskState.initial doubled with stage := .planning, started := true } (.plan ⟨0, 0, 0⟩)
      doubledPlanned [] := .planned rfl parts_doubled (.inl (by decide))
  have r₂ := r₁.turn (TaskState.step_of_move m₂)
  -- the address is visited in either block
  obtain ⟨h₃, r₃, a₃⟩ := r₂.follow
    [.open none, .run, .schedule noon, .enter ⟨1, 0, 0⟩, .run, .run]
    (doubledVisiting [single] (.ofSize 10)) rfl
  have r₄ := r₃.turn (TaskState.step_of_move (.visited rfl rfl (Exclusions.excludes_empty _)))
  obtain ⟨h₅, r₅, a₅⟩ := r₄.follow
    [.run, .run, .enter ⟨1, 0, 0⟩, .run, .run]
    (doubledVisiting [] ⟨10, [⟨second, .gate⟩], [], 1, 0, 0, false⟩) rfl
  have r₆ := r₅.turn (TaskState.step_of_move (.visited rfl rfl (Exclusions.excludes_empty _)))
  -- both jobs probe its port
  obtain ⟨h₇, r₇, a₇⟩ := r₆.follow
    [.run, .run, .run, .run, .scan 0 .pass, .scan 0 .await, .scan 0 (.probe true), .scan 0 .leave,
      .scan 0 .pass, .scan 0 .await, .scan 0 (.probe true), .scan 0 .leave]
    { doubledPlanned with
      status := .running
      stage := .drainingScans
      scans := ⟨10, [], [], 2, 2, 0, false⟩
      flying := [⟨second, port⟩, ⟨second, port⟩] } rfl
  obtain ⟨h₈, r₈, a₈⟩ := r₇.follow
    [.run, .report ⟨second, port⟩ true, .report ⟨second, port⟩ true, .run, .handover 0 .call,
      .handover 0 (.leave false), .handover 0 .call, .handover 0 (.leave false), .run, .run, .run,
      .run, .run, .run] doubledDone rfl
  refine ⟨_, r₈, ?_⟩
  simp [a₃, a₅, a₇, a₈]

/-- In the sample, whose targets name each address once, the receiver is given an endpoint for
every find. -/
theorem repeated_at_most_of_run : ∃ h, Run task h done ∧
    (∀ e, (handedOver h).count e ≤ ({second} : Multiset Address).count e.address) ∧
    (handedOver h).Nodup ∧ (handedOver h).toFinset.card = 1 := by
  obtain ⟨h, hr, ha⟩ := exists_run
  have hf : Faithful h :=
    forall_action (P := fun a => (∀ e, a ≠ .lose e) ∧ ∀ o, a ≠ .stray o) ha (by simp)
  obtain ⟨_, hcount, _, hnodup⟩ := hr.repeated_at_most parts_task hf
  rw [spared_task] at hcount hnodup
  obtain ⟨hn, hfound⟩ := hnodup (Multiset.nodup_singleton second)
  exact ⟨h, hr, hcount, hn, (hfound .success rfl).symm⟩

/-- A receiver can be given an endpoint twice, by a run that nothing disturbs, and finds can be
more than endpoints. -/
theorem handed_over_twice : ∃ h s e, Run doubled h s ∧ Uncancelled h ∧ Opened h ∧ Unbroken h ∧
    Faithful h ∧ s.stage = .returned .success ∧ (handedOver h).count e = 2 ∧ s.found = 2 ∧
    (handedOver h).toFinset.card = 1 := by
  obtain ⟨h, hr, ha⟩ := exists_doubled_run
  have hfinds : finds h = List.replicate 2 ⟨second, port⟩ := by
    have hmap : finds h = (h.map Turn.action).filterMap Action.found? := by
      rw [List.filterMap_map]
      rfl
    rw [hmap, ha]
    rfl
  have hover : handedOver h = List.replicate 2 ⟨second, port⟩ := by
    have he := hr.handedOver_eq_finds (by decide)
    rw [hfinds] at he
    exact List.perm_replicate.mp (Multiset.coe_eq_coe.mp he)
  refine ⟨h, doubledDone, ⟨second, port⟩, hr, ?_, ?_, ?_, ?_, rfl, ?_, rfl, ?_⟩
  · exact forall_action (P := fun a => a ≠ .cancel) ha (by simp)
  · exact forall_action (P := fun a => ∀ e, a ≠ .open (some e)) ha (by simp)
  · exact forall_action (P := fun a => ∀ i, a ≠ .ask i .panic ∧ a ≠ .scan i .panic) ha (by simp)
  · exact forall_action (P := fun a => (∀ e, a ≠ .lose e) ∧ ∀ o, a ≠ .stray o) ha (by simp)
  · rw [hover, List.count_replicate_self]
  · rw [hover]
    rfl

end Sample

end Recon
