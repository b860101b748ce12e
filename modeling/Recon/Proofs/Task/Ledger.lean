import Recon.Proofs.Random.Traversal
import Recon.Proofs.Target.Block
import Recon.Proofs.Task.Order
import Recon.Proofs.Task.Plan

/-!
# Ledger of a run

Each turn of a run does at most one deed that matters to the hosts and the pairs of the plan: a
host is left out, asked, answered for, dropped or scanned, and a probe is made or reported.  Fees
for the deeds give a worth to every host that is still on its way.  Whatever the fees are, the plan
is worth what the deeds have paid and what the hosts on the way are worth; each choice of fees
makes this law into a count of its own.
-/

namespace Recon

/-- What a turn does to a host or a pair. -/
inductive Deed where
  | excluded (host : Address)
  | forsaken (hand ahead : List Address)
  | asked (host : Address)
  | answered (host : Address) (up : Bool)
  | silent (host : Address)
  | unplaced (host : Address)
  | unasked (host : Address)
  | unprobed (host : Address)
  | probed (endpoint : Endpoint) (taken : Bool)
  | scanned (host : Address)
  | broken (host : Address) (rest : List Port)
  | reported (endpoint : Endpoint) (isOpen : Bool)
  | lost (endpoint : Endpoint)
  | strayed (outcome : Option Endpoint)
deriving DecidableEq, Repr

namespace Walk

def ahead (w : Walk) : List Address :=
  (List.range' w.index (w.block.size - w.index)).filterMap (fun i => w.block.nth (w.order.get i))
    ++ w.rest.flatMap Block.addresses

variable {w : Walk}

theorem ahead_done (h : w.block.size ≤ w.index) : w.ahead = w.rest.flatMap Block.addresses := by
  rw [ahead, Nat.sub_eq_zero_of_le h, List.range'_zero, List.filterMap_nil, List.nil_append]

theorem ahead_next (h : w.index < w.block.size) :
    w.ahead = (w.block.nth (w.order.get w.index)).toList ++ w.next.ahead := by
  obtain ⟨n, hn⟩ : ∃ n, w.block.size - w.index = n + 1 := ⟨w.block.size - w.index - 1, by omega⟩
  have hn' : w.block.size - (w.index + 1) = n := by omega
  rw [ahead, ahead, next, hn, hn', List.range'_succ, ← List.append_assoc]
  congr 1
  cases hw : w.block.nth (w.order.get w.index)
  · simp [hw]
  · simp [hw]

/-- A walk that begins has every address of its block ahead, once. -/
theorem ahead_start {b : Block} {order : Traversal} (rest : List Block)
    (h : order.covers b.size = true) :
    (Walk.mk b order 0 rest).ahead.Perm ((b :: rest).flatMap Block.addresses) := by
  obtain ⟨hs, _⟩ := (order.covers_iff b.size).mp h
  have hp := (order.order_perm b.size h).filterMap b.nth
  rw [List.flatMap_cons]
  apply List.Perm.append_right _
  simpa [Block.addresses, Traversal.order, hs, List.range_eq_range', List.filterMap_map,
    Function.comp_def] using hp

end Walk

namespace Stage

def ahead (plan : Plan) : Stage → List Address
  | .opening | .launching | .scheduling => plan.blocks.flatMap Block.addresses
  | .entering rest => rest.flatMap Block.addresses
  | .checking w | .gating w | .visiting w => w.ahead
  | .offering w _ | .inLine w _ => w.next.ahead
  | _ => []

def hand : Stage → List Address
  | .offering _ host => [host]
  | _ => []

end Stage

namespace TaskState

def deed? (s : TaskState) : Action → TaskState → Option Deed
  | .run, s' =>
    match s.stage with
    | .visiting w =>
      match w.block.nth (w.order.get w.index) with
      | some host => if s.plan.excluded.excludes host then some (.excluded host) else none
      | none => none
    | .checking _ | .gating _ | .offering _ _ | .inLine _ _ =>
      -- from within a block the drains come next only if the walk stops
      if s'.stage = .drainingAsks then
        some (.forsaken (s.stage.hand ++ s.stage.lined) (s.stage.ahead s.plan))
      else none
    | _ => none
  -- without a scanner there is no walk at all
  | .open (some _), _ => some (.forsaken [] (s.stage.ahead s.plan))
  | .ask i a, _ =>
    match s.asks.jobs[i]?, a with
    | some j, .skip => some (.unasked j.host)
    | some j, .ask => some (.asked j.host)
    | some j, .answer up => some (.answered j.host up)
    | some j, .panic => some (.silent j.host)
    | some j, .submit => if s.scans.closed then some (.unplaced j.host) else none
    | _, _ => none
  | .scan i a, _ =>
    match s.scans.jobs[i]?, a with
    | some j, .skip => some (.unprobed j.host)
    | some ⟨host, .probing (p :: _) _⟩, .probe taken => some (.probed ⟨host, p⟩ taken)
    | some j, .leave => some (.scanned j.host)
    | some ⟨host, .probing rest _⟩, .panic => some (.broken host rest)
    | _, _ => none
  | .report e isOpen, _ => some (.reported e isOpen)
  | .lose e, _ => some (.lost e)
  | .stray outcome, _ => some (.strayed outcome)
  | _, _ => none

end TaskState

def record (h : List Turn) : List Deed := h.filterMap fun x => x.before.deed? x.action x.after

theorem record_concat (h : List Turn) (x : Turn) :
    record (h ++ [x]) = record h ++ (x.before.deed? x.action x.after).toList := by
  rw [record, record, List.filterMap_append]
  cases hd : x.before.deed? x.action x.after <;> simp [hd]

section Tally

variable {M : Type} [AddCommMonoid M] (f : Deed → M)

def TaskState.yield (s : TaskState) (a : Action) (s' : TaskState) : M :=
  ((s.deed? a s').map f).getD 0

def tally (h : List Turn) : M := ((record h).map f).sum

@[simp] theorem tally_nil : tally f [] = 0 := rfl

@[simp] theorem tally_concat (h : List Turn) (x : Turn) :
    tally f (h ++ [x]) = tally f h + x.before.yield f x.action x.after := by
  rw [tally, tally, record_concat, List.map_append, List.sum_append, TaskState.yield]
  cases x.before.deed? x.action x.after <;> simp

variable {f} {g : Deed → M} {h : List Turn}

theorem tally_add (f g : Deed → M) (h : List Turn) :
    tally (fun d => f d + g d) h = tally f h + tally g h :=
  List.sum_map_add

theorem tally_hom {N : Type} [AddCommMonoid N] (φ : M →+ N) (f : Deed → M) (h : List Turn) :
    φ (tally f h) = tally (fun d => φ (f d)) h := by
  rw [tally, tally, map_list_sum, List.map_map, Function.comp_def]

theorem tally_congr (hfg : ∀ d ∈ record h, f d = g d) : tally f h = tally g h := by
  rw [tally, tally, List.map_congr_left hfg]

theorem tally_eq_zero (hf : ∀ d ∈ record h, f d = 0) : tally f h = 0 := by
  rw [tally, List.map_congr_left hf, List.map_const', List.sum_replicate, nsmul_zero]

end Tally

/-- What the deeds cost, in any coin. -/
structure Fees (M : Type) where
  skip : Address → M
  ask : Address → M
  answer : Address → M
  probe : Endpoint → M
  leave : Address → M

namespace Fees

variable {M : Type} [AddCommMonoid M] (c : Fees M) (ping : Bool) (plan : Plan)

def rest (ports : List Port) (host : Address) : M :=
  (ports.map fun p => c.probe ⟨host, p⟩).sum + c.leave host

def unasked (host : Address) : M := c.ask host + (c.answer host + c.rest plan.ports host)

def offered (host : Address) : M :=
  if ping then c.unasked plan host else c.rest plan.ports host

def unvisited (host : Address) : M :=
  if plan.excluded.excludes host then c.skip host else c.offered ping plan host

def walk (hosts : List Address) : M := (hosts.map (c.unvisited ping plan)).sum

def road (stage : Stage) : M :=
  (stage.hand.map (c.offered ping plan)).sum + c.walk ping plan (stage.ahead plan)

def asker (j : AskJob) : M :=
  match j.phase with
  | .gate | .ready => c.unasked plan j.host
  | .asked => c.answer j.host + c.rest plan.ports j.host
  | .up => c.rest plan.ports j.host
  | .inLine | .handedOn => 0

def scan (j : ScanJob) : M :=
  match j.phase with
  | .gate => c.rest plan.ports j.host
  | .probing ports _ => c.rest ports j.host

def paid : Deed → M
  | .excluded host => c.skip host
  | .forsaken hand ahead => (hand.map (c.offered ping plan)).sum + c.walk ping plan ahead
  | .asked host => c.ask host
  | .answered host true => c.answer host
  | .answered host false | .silent host => c.answer host + c.rest plan.ports host
  | .unplaced host | .unprobed host => c.rest plan.ports host
  | .unasked host => c.unasked plan host
  | .probed e _ => c.probe e
  | .scanned host => c.leave host
  | .broken host ports => c.rest ports host
  | .reported _ _ | .lost _ | .strayed _ => 0

end Fees

namespace TaskState

variable {t : Task} {s s' : TaskState} {a : Action} {es : List Event}
variable {M : Type} [AddCommMonoid M] (c : Fees M)

/-- What the hosts on the way are worth. -/
def worth (t : Task) (s : TaskState) : M :=
  c.road t.settings.ping s.plan s.stage + s.asks.weigh (c.asker s.plan) +
    s.scans.weigh (c.scan s.plan)

@[simp] theorem worth_complete (n : ℕ) : (s.complete n).worth c t = s.worth c t := rfl

@[simp] theorem worth_completeHost : s.completeHost.worth c t = s.worth c t := rfl

attribute [local simp] goto fail finish
attribute [local simp] deed? Fees.road Fees.paid Fees.asker Fees.scan Stage.hand Stage.ahead

/-- The host of a job that asks is a part of the worth; a change of the job replaces this part and
its end removes it. -/
theorem worth_split_ask {i : ℕ} {j : AskJob} (hj : s.asks.jobs[i]? = some j) :
    ∃ m, s.worth c t = c.asker s.plan j + m ∧
      (∀ k, worth c t { s with asks := s.asks.update i k } = c.asker s.plan k + m) ∧
      ∀ panicked, worth c t { s with asks := s.asks.finish i panicked } = m := by
  obtain ⟨m, h0, hu, hf⟩ := Pool.weigh_split (c.asker s.plan) hj
  refine ⟨c.road t.settings.ping s.plan s.stage + m + s.scans.weigh (c.scan s.plan), ?_, ?_, ?_⟩
  · rw [worth, h0]
    abel
  · intro k
    rw [worth, hu]
    abel
  · intro panicked
    rw [worth, hf]

theorem worth_split_scan {i : ℕ} {j : ScanJob} (hj : s.scans.jobs[i]? = some j) :
    ∃ m, s.worth c t = c.scan s.plan j + m ∧
      (∀ k, worth c t { s with scans := s.scans.update i k } = c.scan s.plan k + m) ∧
      ∀ panicked, worth c t { s with scans := s.scans.finish i panicked } = m := by
  obtain ⟨m, h0, hu, hf⟩ := Pool.weigh_split (c.scan s.plan) hj
  refine ⟨c.road t.settings.ping s.plan s.stage + s.asks.weigh (c.asker s.plan) + m, ?_, ?_, ?_⟩
  · rw [worth, h0]
    abel
  · intro k
    rw [worth, hu]
    abel
  · intro panicked
    rw [worth, hf]

/-- A job that asks pays for what it does to its host. -/
theorem Move.balance_ask {i : ℕ} {act : AskAction} (hm : Move t s (.ask i act) s' es) :
    s'.worth c t + s.yield (c.paid t.settings.ping s.plan) (.ask i act) s' = s.worth c t := by
  cases hm
  case askPassed _ hj | asked hj | answeredUp hj =>
    obtain ⟨m, h0, hu, -⟩ := worth_split_ask c (t := t) hj
    simp only [h0, hu, yield, deed?, hj, Option.map_some, Option.map_none, Option.getD_some,
      Option.getD_none, Fees.asker, Fees.paid, Fees.unasked]
    abel
  case askSkipped _ _ hj | answeredDown hj | askPanicked hj | askLeft hj =>
    obtain ⟨m, h0, -, hf⟩ := worth_split_ask c (t := t) hj
    simp only [worth_completeHost, h0, hf, yield, deed?, hj, Option.map_some, Option.map_none,
      Option.getD_some, Option.getD_none, Fees.asker, Fees.paid]
    abel
  case handedOn ha hj | linedUp ha hj =>
    -- what the asker loses its host is worth in the scanning pool
    have hc := Pool.open_of_submit ha (by simp)
    obtain ⟨m, h0, hu, -⟩ := Pool.weigh_split (c.asker s.plan) hj
    simp [worth, yield, hj, hc, h0, hu, Pool.weigh_submit _ ha]
    abel
  case unplaced ha hj =>
    obtain ⟨m, h0, -, hf⟩ := worth_split_ask c (t := t) hj
    simp [yield, hj, h0, hf, Pool.submit_refused ha]
    abel

/-- A job that scans pays for what it does to its host. -/
theorem Move.balance_scan {i : ℕ} {act : ScanAction} (hm : Move t s (.scan i act) s' es) :
    s'.worth c t + s.yield (c.paid t.settings.ping s.plan) (.scan i act) s' = s.worth c t := by
  cases hm
  case scanPassed _ hj | awaited hj =>
    obtain ⟨m, h0, hu, -⟩ := worth_split_scan c (t := t) hj
    simp [yield, hj, h0, hu]
  case scanSkipped _ _ hj | scanLeft hj | scanPanicked hj =>
    obtain ⟨m, h0, -, hf⟩ := worth_split_scan c (t := t) hj
    simp [yield, hj, h0, hf, Fees.rest]
    abel
  case probeTaken hj =>
    obtain ⟨m, h0, hu, -⟩ := Pool.weigh_split (c.scan s.plan) hj
    simp [worth, yield, hj, h0, hu, Fees.rest]
    abel
  case probeRefused hj =>
    obtain ⟨m, h0, hu, -⟩ := worth_split_scan c (t := t) hj
    simp [yield, hj, h0, hu, Fees.rest]
    abel

/-- The walk pays for the hosts that it leaves out and for those that it gives up, and those that it
submits are worth in a pool what they were on the road. -/
theorem Move.balance_run (hm : Move t s .run s' es) (ho : Orderly t s) :
    s'.worth c t + s.yield (c.paid t.settings.ping s.plan) .run s' = s.worth c t := by
  unfold worth yield
  cases hm
  case blockDone hs hw => simp [hs, Walk.ahead_done hw]
  case checkStopped hs _ _ | gateStopped hs _ _ | offerStopped hs _ =>
    simp [hs, Stage.lined, Fees.walk]
    abel
  case visitedNothing hs hn =>
    simp [hs, hn, Walk.ahead_next (ho.walk_inside _ (.inr hs))]
  case visitedExcluded hs hn he =>
    simp [hs, hn, he, Walk.ahead_next (ho.walk_inside _ (.inr hs)), Fees.walk, Fees.unvisited,
      completeHost, complete]
    abel
  case visited hs hn he =>
    simp [hs, hn, he, Walk.ahead_next (ho.walk_inside _ (.inr hs)), Fees.walk, Fees.unvisited]
  case offeredToAsks answer _ hs _ hp ha =>
    cases answer
    case refused =>
      simp [hs, hp, afterOffer, Pool.submit_refused ha, Fees.offered, Fees.walk, Stage.lined]
      abel
    all_goals
      simp [hs, hp, afterOffer, Pool.weigh_submit _ ha, Fees.offered]
      abel
  case offeredToScans answer _ hs _ hp ha =>
    cases answer
    case refused =>
      simp [hs, hp, afterOffer, Pool.submit_refused ha, Fees.offered, Fees.walk, Stage.lined]
      abel
    all_goals
      simp [hs, hp, afterOffer, Pool.weigh_submit _ ha, Fees.offered]
      abel
  case withdrawnFromAsks host hs _ hp =>
    -- the only host in line is that of the run
    have hl : s.asks.waiting = [⟨host, .gate⟩] := by simp [ho.asks_line, hp, hs, Stage.lined]
    rw [← Pool.weigh_withdraw (c.asker s.plan) hl]
    simp [hs, hp, Fees.offered, Fees.walk, Stage.lined]
    abel
  case withdrawnFromScans host hs _ hp =>
    have hl : s.scans.waiting = [⟨host, .gate⟩] := by
      rw [ho.scans_waiting_eq hp, hs, Stage.lined, List.map_singleton]
    rw [← Pool.weigh_withdraw (c.scan s.plan) hl]
    simp [hs, hp, Fees.offered, Fees.walk, Stage.lined]
    abel
  all_goals simp [*]

/-- A host that gets room is worth as much as it was in line. -/
theorem worth_admitScan (hm : Move t s .admitScan s' es) : s'.worth c t = s.worth c t := by
  unfold worth
  cases hm
  case scanAdmittedForJob ha _ hi =>
    -- the asker has nothing left: its host is worth what it is in the scanning pool
    obtain ⟨hlt, hb, _⟩ := List.findIdx?_eq_some_iff_getElem.mp hi
    obtain ⟨_, hl⟩ := Bool.and_eq_true_iff.mp hb
    obtain ⟨m, h0, hu, _⟩ := Pool.weigh_split (c.asker s.plan) (List.getElem?_eq_getElem hlt)
    rw [Fees.asker, beq_iff_eq.mp hl] at h0
    simp [h0, hu, Pool.weigh_admit _ ha]
  case scanAdmittedForRun ha _ _ hs => simp [hs, Pool.weigh_admit _ ha]
  case scanAdmittedForNone ha _ _ _ => simp [Pool.weigh_admit _ ha]

/-- A move pays what it takes from the worth of the hosts on the way. -/
theorem Move.balance (hm : Move t s a s' es) (ho : Orderly t s)
    (hk : ¬ (s.stage = .planning ∧ s'.stage = .opening)) :
    s'.worth c t + s.yield (c.paid t.settings.ping s.plan) a s' = s.worth c t := by
  cases a
  case run => exact hm.balance_run c ho
  case ask i act => exact hm.balance_ask c
  case scan i act => exact hm.balance_scan c
  case admitScan => simp [yield, worth_admitScan c hm]
  case enter order =>
    cases hm
    case entered b rest hs ho =>
      -- the sum over the block does not depend on the order of the visits
      have hw : c.walk t.settings.ping s.plan (Walk.mk b order 0 rest).ahead =
          c.walk t.settings.ping s.plan ((b :: rest).flatMap Block.addresses) :=
        ((Walk.ahead_start rest ho).map _).sum_eq
      simp only [worth, yield, deed?, hs, goto, Fees.road, Stage.hand, Stage.ahead, hw]
      simp
  case plan tail => cases hm <;> simp_all [worth, yield]
  case «open» failure =>
    cases hm
    case openFailed hs =>
      simp [worth, yield, hs, Fees.walk]
      abel
    case opened hs => simp [worth, yield, hs]
  case admitAsk =>
    cases hm
    case askAdmitted hs ha _ => simp [worth, yield, hs, Pool.weigh_admit _ ha]
  all_goals
    unfold worth yield
    cases hm <;> simp [*]

theorem Move.yield_eq_zero (hm : Move t s a s' es) (ho : Orderly t s) (f : Deed → M)
    (hk : s'.stage.rank ≤ 2) : s.yield f a s' = 0 := by
  have hk' := hm.rank_le.trans hk
  have ha := ho.asks_quiet (by omega)
  have hs := ho.scans_quiet (by omega)
  have hf := ho.flying_quiet (by omega)
  unfold yield
  cases hm
  case offeredToAsks hs _ _ _ => simp [hs, Stage.rank] at hk'
  case offeredToScans hs _ _ _ => simp [hs, Stage.rank] at hk'
  case strayedShut hl =>
    have := rank_of_live hl
    omega
  case strayedOpen hl =>
    have := rank_of_live hl
    omega
  all_goals simp_all [deed?, Stage.rank]

theorem Orderly.weigh_asks (ho : Orderly t s) (hr : s.stage.rank ≤ 4 ∨ 7 ≤ s.stage.rank)
    (f : AskJob → M) : s.asks.weigh f = 0 := by
  apply Pool.weigh_eq_zero (ho.asks_quiet hr)
  rw [ho.asks_line]
  cases hs : s.stage <;> simp [hs, Stage.rank, Stage.lined] at hr ⊢

theorem Orderly.weigh_scans (ho : Orderly t s) (hr : s.stage.rank ≤ 4 ∨ 8 ≤ s.stage.rank)
    (f : ScanJob → M) : s.scans.weigh f = 0 :=
  Pool.weigh_eq_zero (ho.scans_quiet hr) (ho.scans_waiting (by omega))

/-- Once the pools are drained, no host is on the way. -/
theorem Orderly.worth_eq_zero (ho : Orderly t s) (hr : 8 ≤ s.stage.rank) : s.worth c t = 0 := by
  rw [worth, ho.weigh_asks (by omega), ho.weigh_scans (by omega), Fees.road]
  cases hs : s.stage <;> simp [hs, Stage.rank, Stage.hand, Stage.ahead, Fees.walk] at hr ⊢

end TaskState

namespace Run

variable {t : Task} {h : List Turn} {s : TaskState} {M : Type} [AddCommMonoid M]

/-- Nothing has been done before the walk begins. -/
theorem tally_early (hr : Run t h s) (f : Deed → M) (hk : s.stage.rank ≤ 2) : tally f h = 0 := by
  induction hr with
  | start => rfl
  | turn hr hs ih =>
    have hm := TaskState.move_of_step hs
    rw [tally_concat, ih (hm.rank_le.trans hk), hm.yield_eq_zero hr.orderly f hk, add_zero]

/-- The plan is worth what the deeds have paid and what the hosts on the way are worth. -/
theorem balance (hr : Run t h s) (c : Fees M) :
    s.worth c t + tally (c.paid t.settings.ping s.plan) h =
      c.walk t.settings.ping s.plan (s.plan.blocks.flatMap Block.addresses) := by
  induction hr with
  | start =>
    simp [TaskState.worth, TaskState.initial, Fees.road, Stage.hand, Stage.ahead, Fees.walk,
      Plan.empty]
  | @turn h s a s' es hr hs ih =>
    have hm := TaskState.move_of_step hs
    have hr' := hr.turn hs
    by_cases hk : s.stage = .planning ∧ s'.stage = .opening
    · -- the plan is made before anything is paid or on the way
      have hq : s'.stage.rank ≤ 2 := by simp [hk.2, Stage.rank]
      rw [hr'.tally_early _ hq, TaskState.worth, hr'.orderly.weigh_asks (by omega),
        hr'.orderly.weigh_scans (by omega)]
      simp [hk.2, Fees.road, Stage.hand, Stage.ahead]
    · rw [tally_concat, hm.plan_eq hk, ← ih, ← hm.balance c hr.orderly hk]
      abel

end Run
end Recon
