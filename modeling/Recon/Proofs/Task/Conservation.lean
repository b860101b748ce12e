import Mathlib.Tactic.Simps.Basic
import Recon.Proofs.Port.Order
import Recon.Proofs.Target.Exclusion
import Recon.Proofs.Task.Ledger

/-!
# Conservation of pairs

Every pair of an address and a port that a plan has is at any moment in exactly one place: still
to be probed, with the scanner, accounted for, or spoiled because something broke off.  What is
accounted for is what the counter of the task counts.  So a run that nothing disturbs counts each
pair once, by exactly one of five causes, and never more pairs than there are.
-/

namespace Recon

/-- The pairs of a host and some ports. -/
def pairs (ports : List Port) (host : Address) : Multiset Endpoint :=
  (ports.map (Endpoint.mk host) : List Endpoint)

@[simp] theorem card_pairs (ports : List Port) (host : Address) :
    (pairs ports host).card = ports.length := by
  simp [pairs]

theorem mem_pairs {ports : List Port} {host : Address} {e : Endpoint} :
    e ∈ pairs ports host ↔ e.address = host ∧ e.port ∈ ports := by
  constructor
  · intro he
    obtain ⟨p, hp, rfl⟩ := List.mem_map.mp (Multiset.mem_coe.mp he)
    exact ⟨rfl, hp⟩
  · rintro ⟨rfl, hp⟩
    exact Multiset.mem_coe.mpr (List.mem_map.mpr ⟨e.port, hp, rfl⟩)

theorem card_bind_pairs (ports : List Port) (hosts : Multiset Address) :
    (hosts.bind (pairs ports)).card = hosts.card * ports.length := by
  have hc : Multiset.card ∘ pairs ports = fun _ => ports.length := funext (card_pairs ports)
  rw [Multiset.card_bind, hc, Multiset.map_const', Multiset.sum_replicate]
  exact nsmul_eq_mul _ _

theorem pairs_perm {ports ports' : List Port} (h : ports.Perm ports') :
    pairs ports = pairs ports' := by
  funext host
  exact Multiset.coe_eq_coe.mpr (h.map _)

/-- The pairs of a plan, one for every occurrence of an address in its blocks and every port. -/
def Plan.pairs (p : Plan) : Multiset Endpoint :=
  (p.blocks.flatMap Block.addresses : Multiset Address).bind (Recon.pairs p.ports)

theorem Plan.card_pairs (p : Plan) : p.pairs.card = Block.total p.blocks * p.ports.length := by
  rw [Plan.pairs, card_bind_pairs, Multiset.coe_card, Block.total_eq_length]

namespace Deed

variable (ports : List Port)

def settled : Deed → Multiset Endpoint
  | .excluded host | .answered host false | .unplaced host | .unasked host | .unprobed host =>
    pairs ports host
  | .probed e false | .reported e _ => {e}
  | _ => 0

def spoiled : Deed → Multiset Endpoint
  | .forsaken hand ahead => ((hand ++ ahead).map (pairs ports)).sum
  | .silent host => pairs ports host
  | .broken host rest => pairs rest host
  | .lost e => {e}
  | _ => 0

def taken : Deed → Multiset Endpoint
  | .probed e true => {e}
  | _ => 0

def landed : Deed → Multiset Endpoint
  | .reported e _ | .lost e => {e}
  | _ => 0

def strays : Deed → ℕ
  | .strayed _ => 1
  | _ => 0

def isSmooth : Deed → Bool
  | .forsaken _ _ | .silent _ | .unplaced _ | .unasked _ | .unprobed _ | .broken _ _ => false
  | _ => true

end Deed

@[simps]
def Fees.ofPairs (ports : List Port) : Fees (Multiset Endpoint) where
  skip := pairs ports
  ask _ := 0
  answer _ := 0
  probe e := {e}
  leave _ := 0

namespace Fees

variable (ping : Bool) (plan : Plan)

theorem sum_map_singleton (ports : List Port) (host : Address) :
    (ports.map fun p => ({⟨host, p⟩} : Multiset Endpoint)).sum = pairs ports host := by
  induction ports with
  | nil => rfl
  | cons p ports ih => rw [List.map_cons, List.sum_cons, ih]; rfl

@[simp] theorem rest_ofPairs (ports : List Port) (host : Address) :
    (ofPairs plan.ports).rest ports host = pairs ports host := by
  simp [rest, sum_map_singleton]

@[simp] theorem unasked_ofPairs : (ofPairs plan.ports).unasked plan = pairs plan.ports := by
  funext host
  simp [unasked]

@[simp] theorem offered_ofPairs : (ofPairs plan.ports).offered ping plan = pairs plan.ports := by
  funext host
  simp [offered]

@[simp] theorem unvisited_ofPairs :
    (ofPairs plan.ports).unvisited ping plan = pairs plan.ports := by
  funext host
  simp [unvisited]

@[simp] theorem walk_ofPairs (hosts : List Address) :
    (ofPairs plan.ports).walk ping plan hosts = (hosts.map (pairs plan.ports)).sum := by
  simp [walk]

/-- A deed pays for the pairs that it accounts for, spoils or puts in the air, and nothing for
those that come down. -/
theorem paid_ofPairs (d : Deed) :
    (ofPairs plan.ports).paid ping plan d + d.landed =
      d.settled plan.ports + d.spoiled plan.ports + d.taken := by
  cases d
  case answered up => cases up <;> simp [paid, Deed.landed, Deed.settled, Deed.spoiled, Deed.taken]
  case probed taken =>
    cases taken <;> simp [paid, Deed.landed, Deed.settled, Deed.spoiled, Deed.taken]
  all_goals simp [paid, Deed.landed, Deed.settled, Deed.spoiled, Deed.taken]

end Fees

namespace TaskState

variable {t : Task} {s s' : TaskState} {a : Action} {es : List Event}

attribute [local simp] goto fail finish complete completeHost deed?
attribute [local simp] Deed.taken Deed.landed Deed.settled Deed.strays

/-- The scanner holds what it has taken and is not rid of. -/
theorem Move.flying_eq (hm : Move t s a s' es) :
    (s.flying : Multiset Endpoint) + s.yield Deed.taken a s' =
      s'.flying + s.yield Deed.landed a s' := by
  have erase {e : Endpoint} (he : e ∈ s.flying) :
      (s.flying : Multiset Endpoint) = (s.flying.erase e : Multiset Endpoint) + {e} := by
    rw [add_comm, Multiset.singleton_add]
    exact Multiset.coe_eq_coe.mpr (List.perm_cons_erase he)
  unfold yield
  cases hm
  case visitedExcluded hs hn he => simp [hs, hn, he]
  case probeTaken hj => simp [hj, ← Multiset.coe_add]
  case reportedShut he => simpa using erase he
  case reportedOpen he => simpa using erase he
  case lost he => simpa using erase he
  all_goals simp [*]

/-- A move adds to the count what it accounts for. -/
theorem Move.completed_eq (hm : Move t s a s' es) :
    s'.completed = s.completed + (s.yield (Deed.settled s.plan.ports) a s').card +
      s.yield Deed.strays a s' := by
  unfold yield
  cases hm
  case visitedExcluded hs hn he => simp [hs, hn, he, card_pairs]
  case offeredToAsks answer _ hs _ _ _ => cases answer <;> simp [hs, afterOffer]
  case offeredToScans answer _ hs _ _ _ => cases answer <;> simp [hs, afterOffer]
  case handedOn hj ha => simp [hj, Pool.open_of_submit ha]
  case linedUp hj ha => simp [hj, Pool.open_of_submit ha]
  case unplaced hj ha => simp [hj, Pool.submit_refused ha, card_pairs]
  all_goals simp [*, card_pairs]

end TaskState

namespace Run

variable {t : Task} {h : List Turn} {s : TaskState}

theorem flying_eq (hr : Run t h s) :
    tally Deed.taken h = (s.flying : Multiset Endpoint) + tally Deed.landed h := by
  induction hr with
  | start => rfl
  | turn hr hs ih =>
    rw [tally_concat, tally_concat, ih, add_right_comm, (TaskState.move_of_step hs).flying_eq]
    abel

theorem completed_eq (hr : Run t h s) :
    s.completed = (tally (Deed.settled s.plan.ports) h).card + tally Deed.strays h := by
  induction hr with
  | start => rfl
  | @turn h s a s' es hr hs ih =>
    have hm := TaskState.move_of_step hs
    rw [hm.completed_eq, ih, tally_concat, tally_concat, Multiset.card_add]
    by_cases hk : s.stage = .planning ∧ s'.stage = .opening
    · -- nothing has been accounted for when the ports become known
      have hq : s'.stage.rank ≤ 2 := by simp [hk.2, Stage.rank]
      have hq' := hm.rank_le.trans hq
      simp only [hr.tally_early _ hq', hm.yield_eq_zero hr.orderly _ hq]
      rfl
    · rw [hm.plan_eq hk]
      abel

/-- Every pair of the plan is accounted for, spoiled, with the scanner or still to be probed. -/
theorem pairs_balance (hr : Run t h s) :
    s.worth (Fees.ofPairs s.plan.ports) t + tally (Deed.settled s.plan.ports) h +
        tally (Deed.spoiled s.plan.ports) h + s.flying = s.plan.pairs := by
  have hb := hr.balance (Fees.ofPairs s.plan.ports)
  have hp : tally ((Fees.ofPairs s.plan.ports).paid t.settings.ping s.plan) h +
      tally Deed.landed h = tally (Deed.settled s.plan.ports) h +
        tally (Deed.spoiled s.plan.ports) h + tally Deed.taken h := by
    rw [← tally_add, ← tally_add, ← tally_add]
    exact tally_congr fun d _ => Fees.paid_ofPairs t.settings.ping s.plan d
  -- what has been taken is in the air or has come down
  rw [hr.flying_eq, ← add_assoc] at hp
  rw [Fees.walk_ofPairs] at hb
  change _ = ((s.plan.blocks.flatMap Block.addresses).map (pairs s.plan.ports)).sum
  rw [← hb, add_right_cancel hp]
  abel

end Run

/-! ### Runs that nothing disturbs -/

/-- The owner does not cancel the task. -/
def Uncancelled (h : List Turn) : Prop := ∀ x ∈ h, x.action ≠ .cancel

/-- No job that asks or scans a host breaks off. -/
def Unbroken (h : List Turn) : Prop :=
  ∀ x ∈ h, ∀ i, x.action ≠ .ask i .panic ∧ x.action ≠ .scan i .panic

/-- The scanner reports what it has taken, and nothing else. -/
def Faithful (h : List Turn) : Prop :=
  ∀ x ∈ h, (∀ e, x.action ≠ .lose e) ∧ ∀ outcome, x.action ≠ .stray outcome

theorem forall_action {h : List Turn} {as : List Action} (ha : h.map Turn.action = as)
    {P : Action → Prop} (hP : ∀ a ∈ as, P a) : ∀ x ∈ h, P x.action := by
  intro x hx
  apply hP
  rw [← ha]
  exact List.mem_map_of_mem hx

def Deed.Warranted (s : TaskState) (a : Action) : Deed → Prop
  | .forsaken _ _ => s.cancelled = true ∨ ∃ e, a = .open (some e)
  | .unasked _ | .unprobed _ => s.cancelled = true
  | .silent _ => ∃ i, a = .ask i .panic
  | .broken _ _ => ∃ i, a = .scan i .panic
  | .unplaced _ => False
  | .lost e => a = .lose e
  | .strayed outcome => a = .stray outcome
  | _ => True

namespace TaskState

variable {t : Task} {s s' : TaskState} {a : Action} {es : List Event} {d : Deed}

attribute [local simp] goto fail finish complete completeHost deed? Deed.Warranted

theorem action_of_strayed {outcome : Option Endpoint}
    (h : s.deed? a s' = some (.strayed outcome)) : a = .stray outcome := by
  unfold deed? at h
  repeat' split at h
  all_goals simp_all

theorem action_of_lost {e : Endpoint} (h : s.deed? a s' = some (.lost e)) : a = .lose e := by
  unfold deed? at h
  repeat' split at h
  all_goals simp_all

theorem Move.cancelled_eq (hm : Move t s a s' es) (ha : a ≠ .cancel) :
    s'.cancelled = s.cancelled := by
  cases hm
  case cancelled => exact absurd rfl ha
  all_goals rfl

/-- No deed is done without its cause. -/
theorem Move.warranted (hm : Move t s a s' es) (ho : Orderly t s) :
    ∀ d ∈ s.deed? a s', d.Warranted s a := by
  have scans_open {i : ℕ} {j : AskJob} (hj : s.asks.jobs[i]? = some j) :
      s.scans.closed = false := by
    have := ho.rank_of_ask hj
    exact (ho.pools_open (by omega)).2.1
  have offered {w : Walk} {host : Address} (hs : s.stage = .offering w host) :
      s.asks.closed = false ∧ s.scans.closed = false := by
    have hp := ho.pools_open (by simp [hs, Stage.rank])
    exact ⟨hp.1, hp.2.1⟩
  -- a refusal would need a closed pool
  cases hm
  case visitedExcluded hs hn he => simp [hs, hn, he]
  case offeredToAsks answer _ hs _ _ ha =>
    cases answer
    · simp [hs, afterOffer]
    · simp [hs, afterOffer]
    · have hp := (Pool.submit_refused ha).2
      simp [(offered hs).1] at hp
  case offeredToScans answer _ hs _ _ ha =>
    cases answer
    · simp [hs, afterOffer]
    · simp [hs, afterOffer]
    · have hp := (Pool.submit_refused ha).2
      simp [(offered hs).2] at hp
  case handedOn hj _ => simp [hj, scans_open hj]
  case linedUp hj _ => simp [hj, scans_open hj]
  case unplaced hj _ => simp [hj, scans_open hj]
  all_goals simp_all

/-- A run that nobody cancels and no job of which breaks off drops no host, unless it has
failed. -/
theorem Move.smooth (hm : Move t s a s' es) (ho : Orderly t s) (hc : s.cancelled = false)
    (hb : ∀ i, a ≠ .ask i .panic ∧ a ≠ .scan i .panic) (hf : s'.stage.hasFailed = false) :
    ∀ d ∈ s.deed? a s', d.isSmooth = true := by
  intro d hd
  have hw := hm.warranted ho d hd
  have hopen : ∀ e, a ≠ .open (some e) := by
    rintro e rfl
    cases hm
    simp [Stage.hasFailed] at hf
  cases d
  case forsaken => exact absurd hw (by simp [Deed.Warranted, hc, hopen])
  case silent => exact absurd hw (by simp [Deed.Warranted, hb])
  case broken => exact absurd hw (by simp [Deed.Warranted, hb])
  case unplaced => exact hw.elim
  case unasked => exact absurd hw (by simp [Deed.Warranted, hc])
  case unprobed => exact absurd hw (by simp [Deed.Warranted, hc])
  all_goals rfl

end TaskState

namespace Run

variable {t : Task} {h : List Turn} {s : TaskState}

theorem cancelled_eq (hr : Run t h s) (hu : Uncancelled h) : s.cancelled = false := by
  induction hr with
  | start => rfl
  | turn hr hs ih =>
    have hh := List.forall_mem_append.mp hu
    rw [(TaskState.move_of_step hs).cancelled_eq (hh.2 _ (List.mem_singleton.mpr rfl)), ih hh.1]

theorem smooth (hr : Run t h s) (hu : Uncancelled h) (hb : Unbroken h)
    (hf : s.stage.hasFailed = false) : ∀ d ∈ record h, d.isSmooth = true := by
  induction hr with
  | start => simp [record]
  | @turn h s a s' es hr hs ih =>
    have hm := TaskState.move_of_step hs
    obtain ⟨hu, hua⟩ := List.forall_mem_append.mp hu
    obtain ⟨hb, hba⟩ := List.forall_mem_append.mp hb
    -- a run that has not failed had not failed before
    have hf' : s.stage.hasFailed = false := by
      by_contra hn
      simp [hm.hasFailed (eq_true_of_ne_false hn)] at hf
    intro d hd
    rw [record_concat] at hd
    rcases List.mem_append.mp hd with hd | hd
    · exact ih hu hb hf' d hd
    · exact hm.smooth hr.orderly (hr.cancelled_eq hu) (hba _ (List.mem_singleton.mpr rfl)) hf d
        (Option.mem_toList.mp hd)

end Run

/-! ### How each pair is accounted for -/

namespace Deed

def leftOut : Deed → Multiset Address
  | .excluded host => {host}
  | _ => 0

def dead : Deed → Multiset Address
  | .answered host false => {host}
  | _ => 0

def homeless : Deed → Multiset Address
  | .unplaced host => {host}
  | _ => 0

def refused : Deed → Multiset Endpoint
  | .probed e false => {e}
  | _ => 0

def report : Deed → Multiset Endpoint
  | .reported e _ => {e}
  | _ => 0

end Deed

attribute [local simp] Deed.leftOut Deed.dead Deed.homeless Deed.refused Deed.report

/-- The pairs that a history accounts for: those of the hosts that are excluded, dead or not taken
by the scanning pool, the probes that the scanner refuses, and those that it reports. -/
def accounted (ports : List Port) (h : List Turn) : Multiset Endpoint :=
  (tally Deed.leftOut h + tally Deed.dead h + tally Deed.homeless h).bind (pairs ports) +
    tally Deed.refused h + tally Deed.report h

theorem tally_bind {α β : Type} (f : Deed → Multiset α) (g : α → Multiset β) (h : List Turn) :
    (tally f h).bind g = tally (fun d => (f d).bind g) h := by
  let φ : Multiset α →+ Multiset β :=
    { toFun := fun m => m.bind g
      map_zero' := Multiset.zero_bind g
      map_add' := fun m n => Multiset.add_bind m n g }
  exact tally_hom φ f h

/-- In a smooth history, what is settled is settled by one of the five causes. -/
theorem accounted_eq (ports : List Port) {h : List Turn}
    (hs : ∀ d ∈ record h, d.isSmooth = true) :
    accounted ports h = tally (Deed.settled ports) h := by
  rw [accounted, Multiset.add_bind, Multiset.add_bind, tally_bind, tally_bind, tally_bind,
    ← tally_add, ← tally_add, ← tally_add, ← tally_add]
  apply tally_congr
  intro d hd
  replace hd := hs d hd
  cases d
  case answered up => cases up <;> simp [Deed.settled]
  case probed taken => cases taken <;> simp [Deed.settled]
  all_goals simp_all [Deed.settled, Deed.isSmooth]

namespace Run

variable {t : Task} {h : List Turn} {s : TaskState}

theorem strays_eq (hf : Faithful h) : tally Deed.strays h = 0 := by
  apply tally_eq_zero
  intro d hd
  obtain ⟨x, hx, hx'⟩ := List.mem_filterMap.mp hd
  cases d
  case strayed outcome => exact absurd (TaskState.action_of_strayed hx') ((hf x hx).2 outcome)
  all_goals rfl

theorem settled_le (hr : Run t h s) : tally (Deed.settled s.plan.ports) h ≤ s.plan.pairs := by
  rw [← hr.pairs_balance, add_assoc, add_right_comm]
  exact Multiset.le_add_left _ _

/-- A faithful scanner never makes a task count more pairs than it has. -/
theorem completed_le (hr : Run t h s) (hf : Faithful h) :
    s.completed ≤ Block.total s.plan.blocks * s.plan.ports.length := by
  rw [hr.completed_eq, strays_eq hf, add_zero, ← Plan.card_pairs]
  exact Multiset.card_le_card hr.settled_le

theorem spoiled_eq (ports : List Port) (hs : ∀ d ∈ record h, d.isSmooth = true)
    (hf : Faithful h) : tally (Deed.spoiled ports) h = 0 := by
  apply tally_eq_zero
  intro d hd
  obtain ⟨x, hx, hx'⟩ := List.mem_filterMap.mp hd
  replace hd := hs d hd
  cases d
  case lost e => exact absurd (TaskState.action_of_lost hx') ((hf x hx).1 e)
  all_goals simp_all [Deed.spoiled, Deed.isSmooth]

theorem accounted_eq_pairs (hr : Run t h s) (hu : Uncancelled h) (hb : Unbroken h)
    (hf : Faithful h) (hs : s.stage = .returned .success) :
    accounted s.plan.ports h = s.plan.pairs := by
  have hsm := hr.smooth hu hb (by simp [hs, Stage.hasFailed])
  have hk : s.stage.rank = 15 := by simp [hs, Stage.rank]
  have hp := hr.pairs_balance
  -- nothing is on the way, in the air or spoiled
  rw [hr.orderly.worth_eq_zero _ (by omega), hr.orderly.flying_quiet (by omega),
    spoiled_eq _ hsm hf, ← accounted_eq _ hsm] at hp
  simpa using hp

/-- The total of a task is the number of its pairs, as long as that fits. -/
theorem total_eq_mul (hr : Run t h s) {ports : PortOrder} {targets : TargetList}
    {excluded : Exclusions} (hp : Plan.parts t.settings = .ok (ports, targets, excluded))
    (hn : targets.size * ports.ports.length < 2 ^ 64) :
    s.total = Block.total s.plan.blocks * s.plan.ports.length := by
  rw [hr.total_eq, Plan.total]
  apply Nat.min_eq_left
  rcases hr.planned_or with ⟨he, _⟩ | hpl
  · simp [he, Plan.empty, Block.total]
  · obtain ⟨hports, hblocks, _⟩ := hpl.eq hp
    rw [hports.length_eq, hblocks]
    exact Nat.le_sub_one_of_lt hn

/-- A task never counts more pairs than it has.  What it counts are pairs of its plan, each of them
accounted for once by one of the five causes; and a run that comes through has counted them all. -/
theorem accounted_once {ports : PortOrder} {targets : TargetList} {excluded : Exclusions}
    (hp : Plan.parts t.settings = .ok (ports, targets, excluded))
    (hn : targets.size * ports.ports.length < 2 ^ 64) (hr : Run t h s) (hu : Uncancelled h)
    (hb : Unbroken h) (hf : Faithful h) :
    s.completed ≤ s.total ∧
      (s.stage.hasFailed = false →
        s.completed = (accounted s.plan.ports h).card ∧
          accounted s.plan.ports h ≤ s.plan.pairs) ∧
      (s.stage = .returned .success →
        s.completed = s.total ∧ s.total = targets.size * ports.ports.length ∧
          accounted ports.ports h =
            (targets.blocks.flatMap Block.addresses : Multiset Address).bind
              (pairs ports.ports)) := by
  have ht := hr.total_eq_mul hp hn
  refine ⟨?_, ?_, ?_⟩
  · rw [ht]
    exact hr.completed_le hf
  · intro hs
    have hsm := hr.smooth hu hb hs
    rw [hr.completed_eq, strays_eq hf, accounted_eq _ hsm, add_zero]
    exact ⟨rfl, hr.settled_le⟩
  · intro hs
    have hsm := hr.smooth hu hb (by simp [hs, Stage.hasFailed])
    obtain ⟨hports, hblocks, _⟩ := (hr.plans_of_success hs).eq hp
    have ha := hr.accounted_eq_pairs hu hb hf hs
    have hc : s.completed = s.total := by
      rw [ht, hr.completed_eq, strays_eq hf, ← accounted_eq _ hsm, ha, add_zero, Plan.card_pairs]
    refine ⟨hc, ?_, ?_⟩
    · rw [ht, hports.length_eq, hblocks]
      rfl
    · rw [accounted, ← pairs_perm hports, ← accounted, ha, Plan.pairs, hblocks]

end Run

namespace Sample

def task : Task where
  id := "sample"
  name := "sample"
  debug := false
  settings :=
    { Settings.default with
      target := "10.0.0.1-10.0.0.2"
      excluded := "10.0.0.1"
      ports := "61000"
      ping := true }
  interval := 0
  livenessTimeout := 0

def first : Address := .v4 167772161
def second : Address := .v4 167772162

def block : Block := ⟨"10.0.0.1-10.0.0.2", first, 2⟩

def excluded : Exclusions := .ofBlocks [⟨"10.0.0.1", first, 1⟩]

def port : Port := 61000

theorem ports_task : PortOrder.ofString task.settings.ports = .ok ⟨[], [port]⟩ := by
  have hs : PortSpec.read task.settings.ports.toList = .ok ⟨none, [⟨port, port⟩]⟩ := by rfl
  have hb : (Text.trim task.settings.ports.toList).isEmpty = false := by rfl
  rw [PortOrder.ofString, PortOrder.read, hb, hs]
  dsimp only
  rw [PortOrder.ofSpec_of_rare (by decide) (by decide +kernel)]
  rfl

theorem parts_task : Plan.parts task.settings = .ok (⟨[], [port]⟩, ⟨[block]⟩, excluded) := by
  have hv : task.settings.validate = .ok () := rfl
  have ht : TargetList.ofString task.settings.target = .ok ⟨[block]⟩ := by rfl
  have he : Exclusions.ofString task.settings.excluded = .ok excluded := by rfl
  exact Plan.parts_eq hv ports_task ht he

theorem excludes_first : excluded.excludes first = true := by
  rw [excluded, Exclusions.excludes_ofBlocks _ (by simpa using Block.fits_single _ first)]
  decide +kernel

theorem excludes_second : excluded.excludes second = false := by
  rw [excluded, Exclusions.excludes_ofBlocks _ (by simpa using Block.fits_single _ first)]
  decide +kernel

def noon : Time.Moment := ⟨⟨2024, 5, 17, by decide, by decide⟩, 43200⟩

def walk (index : ℕ) : Walk := ⟨block, ⟨2, 0, 1⟩, index, []⟩

def visiting (index completed : ℕ) : TaskState :=
  { TaskState.initial task with
    status := .running
    stage := .visiting (walk index)
    plan := ⟨[port], [block], excluded⟩
    total := 2
    completed
    started := true }

def planned : TaskState :=
  { TaskState.initial task with
    stage := .opening
    plan := ⟨[port], [block], excluded⟩
    total := 2
    started := true }

def done : TaskState :=
  { planned with
    status := .success
    stage := .returned .success
    completed := 2
    found := 1
    ended := true
    asks := ⟨10, [], [], 1, 1, 0, true⟩
    scans := ⟨10, [], [], 1, 1, 0, true⟩
    handovers := ⟨50, [], [], 1, 1, 0, true⟩ }

def offering : TaskState := (visiting 1 1).goto (.offering (walk 1) second)

/-- Every run of the task that visits its addresses in order begins like this. -/
theorem exists_approach : ∃ h, Run task h offering ∧
    h.map Turn.action =
      [.call, .plan ⟨0, 0, 0⟩, .open none, .run, .schedule noon, .enter ⟨2, 0, 1⟩, .run, .run,
        .run, .run, .run, .run] := by
  -- the plan is made
  have r₁ := Run.start.turn (TaskState.step_of_move (t := task) (.called rfl))
  have m₂ : TaskState.Move task
      { TaskState.initial task with stage := .planning, started := true } (.plan ⟨0, 0, 0⟩)
      planned [] := .planned rfl parts_task (.inl (by decide))
  have r₂ := r₁.turn (TaskState.step_of_move m₂)
  -- the first address is visited and left out
  obtain ⟨h₃, r₃, a₃⟩ := r₂.follow
    [.open none, .run, .schedule noon, .enter ⟨2, 0, 1⟩, .run, .run] (visiting 0 0) rfl
  have r₄ := r₃.turn (TaskState.step_of_move (.visitedExcluded rfl rfl excludes_first))
  -- the second address is visited and taken
  obtain ⟨h₅, r₅, a₅⟩ := r₄.follow [.run, .run] (visiting 1 1) rfl
  have m₆ : TaskState.Move task (visiting 1 1) .run offering [] :=
    .visited rfl rfl excludes_second
  refine ⟨_, r₅.turn (TaskState.step_of_move m₆), ?_⟩
  simp [a₃, a₅]

/-- The task has a run in which the second address is up and its port is open. -/
theorem exists_run : ∃ h, Run task h done ∧
    h.map Turn.action =
      [.call, .plan ⟨0, 0, 0⟩, .open none, .run, .schedule noon, .enter ⟨2, 0, 1⟩, .run, .run,
        .run, .run, .run, .run, .run, .run, .run, .ask 0 .pass, .ask 0 .ask,
        .ask 0 (.answer true), .ask 0 .submit, .ask 0 .leave, .run, .scan 0 .pass,
        .scan 0 .await, .scan 0 (.probe true), .report ⟨second, port⟩ true, .scan 0 .leave,
        .run, .run, .handover 0 .call, .handover 0 (.leave false), .run, .run, .run, .run, .run,
        .run] := by
  obtain ⟨h, hr, ha⟩ := exists_approach
  obtain ⟨h', hr', ha'⟩ := hr.follow
    [.run, .run, .run, .ask 0 .pass, .ask 0 .ask, .ask 0 (.answer true), .ask 0 .submit,
      .ask 0 .leave, .run, .scan 0 .pass, .scan 0 .await, .scan 0 (.probe true),
      .report ⟨second, port⟩ true, .scan 0 .leave, .run, .run, .handover 0 .call,
      .handover 0 (.leave false), .run, .run, .run, .run, .run, .run] done rfl
  refine ⟨_, hr', ?_⟩
  rw [List.map_append, ha, ha']
  rfl

/-- Both pairs of the sample are accounted for. -/
theorem accounted_once_of_run : ∃ h, Run task h done ∧ done.completed = done.total ∧
    accounted [port] h = {⟨first, port⟩, ⟨second, port⟩} := by
  obtain ⟨h, hr, ha⟩ := exists_run
  have hu : Uncancelled h := forall_action (P := fun a => a ≠ .cancel) ha (by simp)
  have hb : Unbroken h :=
    forall_action (P := fun a => ∀ i, a ≠ .ask i .panic ∧ a ≠ .scan i .panic) ha (by simp)
  have hf : Faithful h :=
    forall_action (P := fun a => (∀ e, a ≠ .lose e) ∧ ∀ o, a ≠ .stray o) ha (by simp)
  obtain ⟨_, _, hs⟩ := hr.accounted_once parts_task (by decide) hu hb hf
  obtain ⟨hc, _, hp⟩ := hs rfl
  refine ⟨h, hr, hc, hp.trans ?_⟩
  decide +kernel

end Sample

end Recon
