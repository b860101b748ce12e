import Recon.Proofs.Task.Dispatch

/-!
# Fates of hosts

Where every occurrence of an address of the plan ends.  The walk leaves it out, hands it on to a
pool, or forsakes it when the walk stops early; and a host that has been handed on is scanned, found
down, dropped in a rest of a cancelled task, or lost when its job breaks off.  The two counts, one
of the walk and one of the jobs, meet when the run has come through; there the pairs of the hosts
that have been left out or handed on are accounted for, except those of hosts that broke off.
-/

namespace Recon

namespace Deed

def abandoned : Deed → Multiset Address
  | .forsaken hand _ => hand
  | _ => 0

def unreached : Deed → Multiset Address
  | .forsaken _ ahead => ahead
  | _ => 0

def dropped : Deed → Multiset Address
  | .unasked host | .unprobed host => {host}
  | _ => 0

def silenced : Deed → Multiset Address
  | .silent host => {host}
  | _ => 0

def cutShort : Deed → Multiset Address
  | .broken host _ => {host}
  | _ => 0

end Deed

namespace Stage

def road (plan : Plan) (stage : Stage) : Multiset Address :=
  (stage.hand + stage.lined : Multiset Address) + stage.ahead plan

/-- Nothing is on the road once the pools are drained. -/
theorem road_eq_zero {plan : Plan} {stage : Stage} (hk : 8 ≤ stage.rank) : stage.road plan = 0 := by
  cases stage <;> simp [rank, road, hand, lined, ahead] at hk ⊢

/-- The address that the run hands on to a pool when it goes from one stage to another. -/
def handedOn (stage : Stage) : Stage → Multiset Address
  | .checking _ => (stage.hand + stage.lined : Multiset Address)
  | _ => 0

@[simp] theorem handedOn_checking (stage : Stage) (w : Walk) :
    stage.handedOn (.checking w) = (stage.hand + stage.lined : Multiset Address) := rfl

theorem handedOn_eq_zero {stage stage' : Stage} (h : ∀ w, stage' ≠ .checking w) :
    stage.handedOn stage' = 0 := by
  cases stage'
  case checking w => exact absurd rfl (h w)
  all_goals rfl

@[simp] theorem handedOn_self (stage : Stage) : stage.handedOn stage = 0 := by
  cases stage <;> rfl

end Stage

theorem coe_add_singleton {α : Type} (l : List α) (a : α) :
    (l : Multiset α) + {a} = (a :: l : List α) := by
  rw [add_comm, Multiset.singleton_add, Multiset.cons_coe]

def handedOn (h : List Turn) : Multiset Address :=
  (h.map fun x => x.before.stage.handedOn x.after.stage).sum

theorem handedOn_concat (h : List Turn) (x : Turn) :
    handedOn (h ++ [x]) = handedOn h + x.before.stage.handedOn x.after.stage := by
  simp [handedOn]

namespace TaskState

variable {t : Task} {s s' : TaskState} {a : Action} {es : List Event}

attribute [local simp] goto fail finish complete completeHost deed?
attribute [local simp] Stage.road Stage.handedOn_eq_zero Stage.hand Stage.lined Stage.ahead
attribute [local simp] Deed.leftOut Deed.abandoned Deed.unreached coe_add_singleton

/-- What leaves the road has been left out, forsaken or handed on. -/
theorem Move.road_balance (hm : Move t s a s' es) (ho : Orderly t s)
    (hk : ¬ (s.stage = .planning ∧ s'.stage = .opening)) :
    s'.stage.road s.plan + (s.yield Deed.leftOut a s' + s.yield Deed.abandoned a s' +
      s.yield Deed.unreached a s' + s.stage.handedOn s'.stage) = s.stage.road s.plan := by
  unfold yield
  cases hm
  case planned => simp_all
  case entered b rest order hs hc =>
    -- the visits come in another order, but they are the same
    have hw := Multiset.coe_eq_coe.mpr (Walk.ahead_start rest hc)
    simp [hs, hw]
  case blockDone hs hw => simp [hs, Walk.ahead_done hw]
  case visitedNothing hs hn =>
    simp [hs, hn, Walk.ahead_next (ho.walk_inside _ (.inr hs))]
  case visitedExcluded hs hn he =>
    simp [hs, hn, he, Walk.ahead_next (ho.walk_inside _ (.inr hs))]
  case visited hs hn he =>
    simp [hs, hn, he, Walk.ahead_next (ho.walk_inside _ (.inr hs))]
  -- an address that is offered is handed on, gets in line or is forsaken, as the pool answers
  case offeredToAsks answer _ hs _ _ _ => cases answer <;> simp [hs, afterOffer]
  case offeredToScans answer _ hs _ _ _ => cases answer <;> simp [hs, afterOffer]
  -- what the jobs do is not on the road
  case handedOn hj ha => simp [hj, Pool.open_of_submit ha]
  case linedUp hj ha => simp [hj, Pool.open_of_submit ha]
  case unplaced hj ha => simp [hj, Pool.submit_refused ha]
  all_goals simp [*]

end TaskState

namespace Fees

@[simps]
def ofHosts : Fees (Multiset Address) where
  skip host := {host}
  ask _ := 0
  answer _ := 0
  probe _ := 0
  leave host := {host}

variable (ping : Bool) (plan : Plan)

@[simp] theorem rest_ofHosts (ports : List Port) (host : Address) :
    ofHosts.rest ports host = {host} := by
  simp [rest]

@[simp] theorem unasked_ofHosts (host : Address) : ofHosts.unasked plan host = {host} := by
  simp [unasked]

@[simp] theorem offered_ofHosts (host : Address) : ofHosts.offered ping plan host = {host} := by
  simp [offered]

@[simp] theorem walk_ofHosts (hosts : List Address) : ofHosts.walk ping plan hosts = hosts := by
  have hu : ofHosts.unvisited ping plan = fun host => {host} := by
    funext host
    simp [unvisited]
  rw [walk, hu]
  exact Multiset.sum_map_singleton (hosts : Multiset Address)

attribute [local simp] Deed.leftOut Deed.abandoned Deed.unreached Deed.scans Deed.dead
attribute [local simp] Deed.homeless Deed.dropped Deed.silenced Deed.cutShort

/-- A host is paid for where its way ends. -/
theorem paid_ofHosts (d : Deed) :
    ofHosts.paid ping plan d =
      d.leftOut + d.abandoned + d.unreached +
        (d.scans + d.dead + d.homeless + d.dropped + d.silenced + d.cutShort) := by
  cases d
  case forsaken hand ahead =>
    have hh : (hand.map (ofHosts.offered ping plan)).sum = (hand : Multiset Address) := by
      rw [funext (offered_ofHosts ping plan)]
      exact Multiset.sum_map_singleton (hand : Multiset Address)
    simp [paid, hh]
  case answered up => cases up <;> simp [paid]
  all_goals simp [paid]

end Fees

namespace Run

variable {t : Task} {h : List Turn} {s : TaskState}

theorem handedOn_early (hr : Run t h s) (hk : s.stage.rank ≤ 2) : handedOn h = 0 := by
  induction hr with
  | start => rfl
  | turn hr hs ih =>
    have hm := TaskState.move_of_step hs
    rw [handedOn_concat, ih (hm.rank_le.trans hk), zero_add]
    apply Stage.handedOn_eq_zero
    intro w hw
    dsimp only at hw
    simp [hw, Stage.rank] at hk

/-- Every address of the plan is still on the road, or it has been left out, forsaken or handed
on. -/
theorem road_balance (hr : Run t h s) :
    s.stage.road s.plan + (tally Deed.leftOut h + tally Deed.abandoned h +
      tally Deed.unreached h + handedOn h) = s.plan.blocks.flatMap Block.addresses := by
  induction hr with
  | start => rfl
  | @turn h s a s' es hr hs ih =>
    have hm := TaskState.move_of_step hs
    have hr' := hr.turn hs
    by_cases hk : s.stage = .planning ∧ s'.stage = .opening
    · -- the whole plan is on the road when it is made
      have hq : s'.stage.rank ≤ 2 := by simp [hk.2, Stage.rank]
      simp only [hr'.tally_early _ hq, hr'.handedOn_early hq]
      simp [hk.2, Stage.road, Stage.hand, Stage.lined, Stage.ahead]
    · rw [tally_concat, tally_concat, tally_concat, handedOn_concat, hm.plan_eq hk, ← ih,
        ← hm.road_balance hr.orderly hk]
      abel

/-- Once the pools are drained, every address has been left out, handed on or forsaken. -/
theorem addresses_eq (hr : Run t h s) (hk : 8 ≤ s.stage.rank) :
    (s.plan.blocks.flatMap Block.addresses : Multiset Address) =
      tally Deed.leftOut h + handedOn h + (tally Deed.abandoned h + tally Deed.unreached h) := by
  have hb := hr.road_balance
  rw [Stage.road_eq_zero hk, zero_add] at hb
  rw [← hb]
  abel

/-- Every host that has been handed on has come to its end by then. -/
theorem handedOn_eq (hr : Run t h s) (hk : 8 ≤ s.stage.rank) :
    handedOn h = tally Deed.scans h + tally Deed.dead h + tally Deed.homeless h +
      tally Deed.dropped h + tally Deed.silenced h + tally Deed.cutShort h := by
  have hb := hr.balance Fees.ofHosts
  have hpaid := tally_congr (h := h) fun d _ => Fees.paid_ofHosts t.settings.ping s.plan d
  -- the ledger counts the ends of hosts, the road where they have gone
  rw [hr.orderly.worth_eq_zero _ hk, zero_add, Fees.walk_ofHosts, ← hr.road_balance,
    Stage.road_eq_zero hk, zero_add, hpaid] at hb
  simp only [tally_add] at hb
  exact (add_left_cancel hb).symm

end Run

/-! ### What the pairs of a host come to -/

def Opened (h : List Turn) : Prop := ∀ x ∈ h, ∀ e, x.action ≠ .open (some e)

def ScansUnbroken (h : List Turn) : Prop := ∀ x ∈ h, ∀ i, x.action ≠ .scan i .panic

theorem Unbroken.scans {h : List Turn} (hb : Unbroken h) : ScansUnbroken h :=
  fun x hx i => (hb x hx i).2

section Deeds

attribute [local simp] Deed.settled Deed.leftOut Deed.dead Deed.homeless Deed.dropped Deed.refused
attribute [local simp] Deed.report Deed.probes Deed.taken

/-- What is settled does not depend on the order of the ports. -/
theorem Deed.settled_perm {ports ports' : List Port} (hp : ports.Perm ports') :
    Deed.settled ports = Deed.settled ports' := by
  have hpairs := pairs_perm hp
  funext d
  cases d
  case answered up => cases up <;> simp [hpairs]
  case probed taken => cases taken <;> simp
  all_goals simp [hpairs]

/-- What is settled is accounted for by one of the five causes, or dropped. -/
theorem settled_eq (ports : List Port) (h : List Turn) :
    tally (Deed.settled ports) h =
      accounted ports h + (tally Deed.dropped h).bind (pairs ports) := by
  rw [accounted, Multiset.add_bind, Multiset.add_bind, tally_bind, tally_bind, tally_bind,
    tally_bind, ← tally_add, ← tally_add, ← tally_add, ← tally_add, ← tally_add]
  apply tally_congr
  intro d hd
  cases d
  case answered up => cases up <;> simp
  case probed taken => cases taken <;> simp
  all_goals simp

/-- The scanner refuses a probe or takes it. -/
theorem probes_eq_add (h : List Turn) :
    tally Deed.probes h = tally Deed.refused h + tally Deed.taken h := by
  rw [← tally_add]
  apply tally_congr
  intro d hd
  cases d
  case probed taken => cases taken <;> simp
  all_goals simp

end Deeds

namespace TaskState

variable {t : Task} {s s' : TaskState} {a : Action} {es : List Event}

attribute [local simp] goto fail finish complete completeHost Stage.hasFailed

/-- With a plan and a scanner, a run fails only if its receiver breaks off. -/
theorem Move.collapsed_of_failed {parts : PortOrder × TargetList × Exclusions}
    (hm : Move t s a s' es) (hp : Plan.parts t.settings = .ok parts)
    (ha : ∀ e, a ≠ .open (some e)) (h : s.stage.hasFailed = true → s.stage = .collapsed) :
    s'.stage.hasFailed = true → s'.stage = .collapsed := by
  cases hm
  case planFailed he =>
    rw [hp] at he
    cases he
  case openFailed e _ => exact absurd rfl (ha e)
  case offeredToAsks answer _ _ _ _ _ => cases answer <;> simp [afterOffer]
  case offeredToScans answer _ _ _ _ _ => cases answer <;> simp [afterOffer]
  case endTold outcome hs => cases outcome <;> simp_all
  case published outcome hs => cases outcome <;> simp_all
  all_goals simp_all

end TaskState

namespace Run

variable {t : Task} {h : List Turn} {s : TaskState}

/-- Yields need to agree only on deeds that have their cause in the history. -/
theorem tally_congr_of_warranted (hr : Run t h s) {M : Type} [AddCommMonoid M] {f g : Deed → M}
    (hfg : ∀ d : Deed, ∀ x ∈ h, d.Warranted x.before x.action → f d = g d) :
    tally f h = tally g h := by
  apply tally_congr
  intro d hd
  obtain ⟨x, hx, hx'⟩ := List.mem_filterMap.mp hd
  obtain ⟨⟨_, hb⟩, hm⟩ := hr.of_mem hx
  exact hfg d x hx (hm.warranted hb.orderly d hx')

theorem tally_eq_zero_of_warranted (hr : Run t h s) {M : Type} [AddCommMonoid M] {f : Deed → M}
    (hf : ∀ d : Deed, ∀ x ∈ h, d.Warranted x.before x.action → f d = 0) : tally f h = 0 := by
  rw [hr.tally_congr_of_warranted (g := fun _ => 0) hf]
  exact tally_eq_zero fun _ _ => rfl

/-- The scanning pool takes every host, since it is open as long as hosts are asked. -/
theorem homeless_eq_zero (hr : Run t h s) : tally Deed.homeless h = 0 := by
  apply hr.tally_eq_zero_of_warranted
  intro d x hx hw
  cases d
  case unplaced host => exact hw.elim
  all_goals rfl

theorem cutShort_eq_zero (hr : Run t h s) (hb : ScansUnbroken h) :
    tally Deed.cutShort h = 0 := by
  apply hr.tally_eq_zero_of_warranted
  intro d x hx hw
  cases d
  case broken host rest =>
    obtain ⟨i, hi⟩ := hw
    exact absurd hi (hb x hx i)
  all_goals rfl

theorem silenced_eq_zero (hr : Run t h s) (hb : Unbroken h) : tally Deed.silenced h = 0 := by
  apply hr.tally_eq_zero_of_warranted
  intro d x hx hw
  cases d
  case silent host =>
    obtain ⟨i, hi⟩ := hw
    exact absurd hi (hb x hx i).1
  all_goals rfl

/-- The only probes that a faithful scanner is rid of are those that it reports. -/
theorem landed_eq (hr : Run t h s) (hf : Faithful h) :
    tally Deed.landed h = tally Deed.report h := by
  apply hr.tally_congr_of_warranted
  intro d x hx hw
  cases d
  case lost e => exact absurd hw ((hf x hx).1 e)
  all_goals rfl

theorem spoiled_eq_bind (hr : Run t h s) (hb : ScansUnbroken h) (hf : Faithful h)
    (ports : List Port) :
    tally (Deed.spoiled ports) h =
      (tally Deed.abandoned h + tally Deed.unreached h + tally Deed.silenced h).bind
        (pairs ports) := by
  rw [Multiset.add_bind, Multiset.add_bind, tally_bind, tally_bind, tally_bind, ← tally_add,
    ← tally_add]
  apply hr.tally_congr_of_warranted
  intro d x hx hw
  cases d
  case forsaken hand ahead =>
    -- the hosts in hand and those ahead are spoiled with all their ports
    simp only [Deed.spoiled, Deed.abandoned, Deed.unreached, Deed.silenced, Multiset.zero_bind,
      add_zero, ← Multiset.add_bind, Multiset.coe_add]
    rfl
  -- a scan that breaks off or a probe that is lost would spoil single pairs
  case broken host rest =>
    obtain ⟨i, hi⟩ := hw
    exact absurd hi (hb x hx i)
  case lost e => exact absurd hw ((hf x hx).1 e)
  all_goals simp [Deed.spoiled, Deed.abandoned, Deed.unreached, Deed.silenced]

/-- Once the scanner has been waited for, a host that has been left out or handed on has all its
pairs accounted for, unless its question broke off. -/
theorem settled_add_silenced (hr : Run t h s) (hb : ScansUnbroken h) (hf : Faithful h)
    (hk : 9 ≤ s.stage.rank) :
    tally (Deed.settled s.plan.ports) h + (tally Deed.silenced h).bind (pairs s.plan.ports) =
      (tally Deed.leftOut h + handedOn h).bind (pairs s.plan.ports) := by
  have hpairs := hr.pairs_balance
  rw [hr.orderly.worth_eq_zero _ (by omega), hr.orderly.flying_quiet (by omega),
    hr.spoiled_eq_bind hb hf, Plan.pairs, hr.addresses_eq (by omega), zero_add, Multiset.coe_nil,
    add_zero, Multiset.add_bind _ (tally Deed.silenced h),
    Multiset.add_bind (tally Deed.leftOut h + handedOn h)] at hpairs
  -- what the walk has forsaken is spoiled, and stands on both sides
  rw [add_comm ((tally Deed.abandoned h + _).bind _), ← add_assoc] at hpairs
  exact add_right_cancel hpairs

/-- The same, with the probes of the hosts that have been scanned. -/
theorem probes_eq_scans (hr : Run t h s) (hb : ScansUnbroken h) (hf : Faithful h)
    (hk : 9 ≤ s.stage.rank) :
    tally Deed.probes h = tally Deed.refused h + tally Deed.report h ∧
      tally Deed.probes h = (tally Deed.scans h).bind (pairs s.plan.ports) := by
  have hprobes : tally Deed.probes h = tally Deed.refused h + tally Deed.report h := by
    rw [probes_eq_add, hr.flying_eq, hr.orderly.flying_quiet (by omega), Multiset.coe_nil, zero_add,
      hr.landed_eq hf]
  refine ⟨hprobes, ?_⟩
  -- a host that has been handed on and not scanned makes no probes
  have hsettled : tally (Deed.settled s.plan.ports) h +
      (tally Deed.silenced h).bind (pairs s.plan.ports) = tally Deed.probes h +
        (tally Deed.leftOut h + tally Deed.dead h + tally Deed.dropped h +
          tally Deed.silenced h).bind (pairs s.plan.ports) := by
    rw [settled_eq, accounted, hr.homeless_eq_zero, add_assoc _ (tally Deed.refused h), ← hprobes]
    simp only [add_zero, Multiset.add_bind]
    abel
  have hends : (tally Deed.leftOut h + handedOn h).bind (pairs s.plan.ports) =
      (tally Deed.scans h).bind (pairs s.plan.ports) +
        (tally Deed.leftOut h + tally Deed.dead h + tally Deed.dropped h +
          tally Deed.silenced h).bind (pairs s.plan.ports) := by
    rw [hr.handedOn_eq (by omega), hr.homeless_eq_zero, hr.cutShort_eq_zero hb]
    simp only [add_zero, Multiset.add_bind]
    abel
  rw [hr.settled_add_silenced hb hf hk, hends] at hsettled
  exact (add_right_cancel hsettled).symm

theorem collapsed_of_failed (hr : Run t h s) {parts : PortOrder × TargetList × Exclusions}
    (hp : Plan.parts t.settings = .ok parts) (ho : Opened h) :
    s.stage.hasFailed = true → s.stage = .collapsed := by
  -- what every move keeps is that only a collapse has failed
  induction hr with
  | start =>
    intro hf
    cases hf
  | turn hr hs ih =>
    obtain ⟨ho, ha⟩ := List.forall_mem_append.mp ho
    exact (TaskState.move_of_step hs).collapsed_of_failed hp (ha _ (List.mem_singleton.mpr rfl))
      (ih ho)

/-- With a plan and a scanner, a run can return nothing but a success. -/
theorem outcome_eq_success (hr : Run t h s) {parts : PortOrder × TargetList × Exclusions}
    (hp : Plan.parts t.settings = .ok parts) (ho : Opened h) {outcome : Status}
    (hs : s.stage = .returned outcome) :
    outcome = .success ∧ ∃ status, closings h = [.ended status] := by
  have ht := hr.told
  rw [hs] at ht
  rcases ht.of_returned with hsuccess | ⟨rfl, _⟩
  · exact hsuccess
  · have hc := hr.collapsed_of_failed hp ho (by rw [hs]; rfl)
    rw [hs] at hc
    cases hc

end Run

end Recon
