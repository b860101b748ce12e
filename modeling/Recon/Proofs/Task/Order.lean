import Recon.Proofs.Task.Pool
import Recon.Proofs.Task.Run

/-!
# Order of a run

What holds of a task at every stage of its run, in whatever order its jobs, the scanner and its
owner act.  The pools are open until the run closes them.  Each pool is empty before the walk and
after its drain, and the scanner holds no probe once it has been waited for.  A line is never
longer than its owners: an address in line for the asking pool is the one that the run offers, and
a host in line for the scanning pool has an asker, or the run, waiting with it.
-/

namespace Recon

def AskJob.inLine (j : AskJob) : Multiset Address := if j.phase = .inLine then {j.host} else 0

namespace TaskState

variable {t : Task} {s s' : TaskState} {a : Action} {es : List Event}

attribute [local simp] goto fail finish complete completeHost

@[simp] theorem lined_afterOffer (w : Walk) (host : Address) (answer : Pool.Answer) :
    (afterOffer w host answer).lined = if answer = .queued then [host] else [] := by
  cases answer <;> rfl

def askersInLine (s : TaskState) : Multiset Address := s.asks.weigh AskJob.inLine

/-- The hosts in line for the scanning pool are those whose askers wait for it; without questions,
it is the run that waits. -/
def LinesUp (t : Task) (s : TaskState) : Prop :=
  s.askersInLine + (if t.settings.ping then 0 else (s.stage.lined : Multiset Address)) =
    (s.scans.waiting.map ScanJob.host : Multiset Address)

structure Orderly (t : Task) (s : TaskState) : Prop where
  pools_open : s.stage.rank ≤ 11 →
    s.asks.closed = false ∧ s.scans.closed = false ∧ s.handovers.closed = false
  asks_line : s.asks.waiting = if t.settings.ping then s.stage.lined.map (⟨·, .gate⟩) else []
  scans_line : LinesUp t s
  scans_gate : ∀ j ∈ s.scans.waiting, j.phase = .gate
  asks_unused : t.settings.ping = false → s.asks.jobs = []
  asks_quiet : s.stage.rank ≤ 4 ∨ 7 ≤ s.stage.rank → s.asks.jobs = []
  scans_quiet : s.stage.rank ≤ 4 ∨ 8 ≤ s.stage.rank → s.scans.jobs = []
  flying_quiet : s.stage.rank ≤ 4 ∨ 9 ≤ s.stage.rank → s.flying = []
  line_quiet : s.stage.rank ≤ 2 ∨ 9 ≤ s.stage.rank → s.handovers.waiting = []
  handovers_quiet : s.stage.rank ≤ 2 ∨ 10 ≤ s.stage.rank → s.handovers.jobs = []
  walk_inside : ∀ w, s.stage = .gating w ∨ s.stage = .visiting w → w.index < w.block.size

namespace Orderly

/-- When hosts are asked, a host in line for the scanning pool has its asker there. -/
theorem asker_of_waiting (ho : Orderly t s) (hp : t.settings.ping = true) {job : ScanJob}
    (hj : job ∈ s.scans.waiting) : ∃ j ∈ s.asks.jobs, j.host = job.host ∧ j.phase = .inLine := by
  have hl := ho.scans_line
  rw [LinesUp, if_pos hp, add_zero] at hl
  have hm : job.host ∈ s.askersInLine := by
    rw [hl]
    exact Multiset.mem_coe.mpr (List.mem_map_of_mem hj)
  -- an asker in the line of its own pool does not count
  have hg : ∀ j ∈ s.asks.waiting, j.phase = .gate := by
    rw [ho.asks_line, if_pos hp]
    simp
  have hw : ∀ j : AskJob, job.host ∈ j.inLine → j.host = job.host ∧ j.phase = .inLine := by
    intro j h
    unfold AskJob.inLine at h
    split at h
    · next hp => exact ⟨(Multiset.mem_singleton.mp h).symm, hp⟩
    · simp at h
  rcases Pool.mem_weigh.mp hm with ⟨j, hj, h⟩ | ⟨j, hj, h⟩
  · exact ⟨j, hj, hw j h⟩
  · have := (hw j h).2
    rw [hg j hj] at this
    cases this

theorem ping_of_no_asker (ho : Orderly t s) {job : ScanJob} {scans : Pool ScanJob}
    (ha : s.scans.admit? = some (job, scans))
    (hi : s.asks.jobs.findIdx? (fun j => j.host == job.host && j.phase == .inLine) = none) :
    t.settings.ping = false := by
  obtain ⟨rest, hw, _⟩ := Pool.admit?_eq_some ha
  by_contra hp
  obtain ⟨j, hj, hh, hl⟩ := ho.asker_of_waiting (eq_true_of_ne_false hp) (hw ▸ List.mem_cons_self)
  have := List.findIdx?_eq_none_iff.mp hi j hj
  simp [hh, hl] at this

theorem rank_of_ask (ho : Orderly t s) {i : ℕ} {j : AskJob} (hj : s.asks.jobs[i]? = some j) :
    5 ≤ s.stage.rank ∧ s.stage.rank ≤ 6 := by
  by_contra hr
  simp [ho.asks_quiet (by omega)] at hj

theorem rank_of_scan (ho : Orderly t s) {i : ℕ} {j : ScanJob} (hj : s.scans.jobs[i]? = some j) :
    5 ≤ s.stage.rank ∧ s.stage.rank ≤ 7 := by
  by_contra hr
  simp [ho.scans_quiet (by omega)] at hj

theorem rank_of_flying (ho : Orderly t s) {e : Endpoint} (he : e ∈ s.flying) :
    5 ≤ s.stage.rank ∧ s.stage.rank ≤ 8 := by
  by_contra hr
  simp [ho.flying_quiet (by omega)] at he

theorem rank_of_handover (ho : Orderly t s) {i : ℕ} {j : HandoverJob}
    (hj : s.handovers.jobs[i]? = some j) : 3 ≤ s.stage.rank ∧ s.stage.rank ≤ 9 := by
  by_contra hr
  simp [ho.handovers_quiet (by omega)] at hj

theorem scans_waiting (ho : Orderly t s) (hr : s.stage.rank ≤ 4 ∨ 7 ≤ s.stage.rank) :
    s.scans.waiting = [] := by
  have hl := ho.scans_line
  unfold LinesUp at hl
  have hw := ho.asks_line
  have hi : s.stage.lined = [] := by
    cases hs : s.stage <;> simp [hs, Stage.rank, Stage.lined] at hr ⊢
  simpa [askersInLine, Pool.weigh, ho.asks_quiet hr, hw, hi] using hl.symm

theorem rank_of_scan_waiting (ho : Orderly t s) {job : ScanJob} {rest : List ScanJob}
    (hw : s.scans.waiting = job :: rest) : 5 ≤ s.stage.rank ∧ s.stage.rank ≤ 6 := by
  by_contra hr
  simp [ho.scans_waiting (by omega)] at hw

theorem askersInLine_eq (ho : Orderly t s) (hp : t.settings.ping = false) :
    s.askersInLine = 0 :=
  Pool.weigh_eq_zero (ho.asks_unused hp) (by simp [ho.asks_line, hp])

/-- Without questions, only the address that the run has in line waits for the scanning pool. -/
theorem scans_waiting_eq (ho : Orderly t s) (hp : t.settings.ping = false) :
    s.scans.waiting = s.stage.lined.map (⟨·, .gate⟩) := by
  have hl := ho.scans_line
  rw [LinesUp, ho.askersInLine_eq hp, if_neg (by simp [hp]), zero_add, Multiset.coe_eq_coe] at hl
  -- at most one host is in line, so the order of the line does not matter
  have he : s.scans.waiting.map ScanJob.host = s.stage.lined := by
    cases hs : s.stage
    case inLine => exact List.perm_singleton.mp (by simpa [hs, Stage.lined] using hl.symm)
    all_goals exact List.perm_nil.mp (by simpa [hs, Stage.lined] using hl.symm)
  have hg : ∀ j ∈ s.scans.waiting, ScanJob.mk j.host .gate = j := by
    intro j hj
    rw [← ho.scans_gate j hj]
  rw [← he, List.map_map, Function.comp_def, List.map_congr_left hg, List.map_id']

end Orderly

/-- The pools stay as they are until the run closes them. -/
theorem Move.closed_eq (hm : Move t s a s' es) (hr : s'.stage.rank ≤ 11) :
    s'.asks.closed = s.asks.closed ∧ s'.scans.closed = s.scans.closed ∧
      s'.handovers.closed = s.handovers.closed := by
  cases hm
  case offeredToAsks ha => simp [Pool.closed_of_submit ha]
  case offeredToScans ha => simp [Pool.closed_of_submit ha]
  case handedOn ha => simp [Pool.closed_of_submit ha]
  case linedUp ha => simp [Pool.closed_of_submit ha]
  case askAdmitted ha _ => simp [Pool.closed_of_admit ha]
  case scanAdmittedForJob ha _ _ => simp [Pool.closed_of_admit ha]
  case scanAdmittedForRun ha _ _ _ => simp [Pool.closed_of_admit ha]
  case scanAdmittedForNone ha _ _ _ => simp [Pool.closed_of_admit ha]
  case handoverAdmitted ha => simp [Pool.closed_of_admit ha]
  case closed => simp [Stage.rank] at hr
  all_goals simp

theorem Move.pools_open (hm : Move t s a s' es) (ho : Orderly t s) (hr : s'.stage.rank ≤ 11) :
    s'.asks.closed = false ∧ s'.scans.closed = false ∧ s'.handovers.closed = false := by
  obtain ⟨ha, hs, hh⟩ := hm.closed_eq hr
  rw [ha, hs, hh]
  exact ho.pools_open (hm.rank_le.trans hr)

theorem Move.asks_line (hm : Move t s a s' es) (ho : Orderly t s) :
    s'.asks.waiting = if t.settings.ping then s'.stage.lined.map (⟨·, .gate⟩) else [] := by
  have h := ho.asks_line
  cases hm
  case offeredToAsks answer asks hs hc hp ha =>
    have hw : s.asks.waiting = [] := by simpa [hs, Stage.lined] using h
    cases answer
    · simp [Pool.submit_accepted ha]
    · simp [Pool.submit_queued ha, hw, hp]
    · simp [Pool.submit_refused ha, hw]
  case askAdmitted ha _ =>
    obtain ⟨_, hw, hq, _, _⟩ := Pool.admit?_eq_some ha
    by_cases hp : t.settings.ping <;> simp_all [Stage.lined]
  case scanAdmittedForRun ha hc hi hs =>
    have hp := ho.ping_of_no_asker ha hi
    simpa [hp] using h
  all_goals simp_all [Stage.lined]

theorem rank_of_live {stage : Stage} (h : scannerIsLive stage = true) :
    3 ≤ stage.rank ∧ stage.rank ≤ 8 := by
  cases stage <;> simp [scannerIsLive, Stage.rank] at h ⊢

theorem Move.asks_quiet (hm : Move t s a s' es) (ho : Orderly t s)
    (hr : s'.stage.rank ≤ 4 ∨ 7 ≤ s'.stage.rank) : s'.asks.jobs = [] := by
  have h := ho.asks_quiet
  cases hm
  case offeredToAsks answer _ hs _ _ _ => cases answer <;> simp [Stage.rank, afterOffer] at hr
  case offeredToScans answer _ hs _ _ _ => cases answer <;> simp [Stage.rank, afterOffer] at hr
  all_goals simp_all [Stage.rank]

theorem Move.asks_unused (hm : Move t s a s' es) (ho : Orderly t s)
    (hp : t.settings.ping = false) : s'.asks.jobs = [] := by
  have h := ho.asks_unused hp
  have hl := ho.asks_line
  rw [if_neg (by simp [hp])] at hl
  cases hm
  case askAdmitted ha _ =>
    obtain ⟨_, hw, _⟩ := Pool.admit?_eq_some ha
    simp [hl] at hw
  all_goals simp_all

theorem Move.scans_quiet (hm : Move t s a s' es) (ho : Orderly t s)
    (hr : s'.stage.rank ≤ 4 ∨ 8 ≤ s'.stage.rank) : s'.scans.jobs = [] := by
  have h := ho.scans_quiet
  cases hm
  case offeredToAsks answer _ hs _ _ _ => cases answer <;> simp [Stage.rank, afterOffer] at hr
  case offeredToScans answer _ hs _ _ _ => cases answer <;> simp [Stage.rank, afterOffer] at hr
  case handedOn hj _ =>
    have := ho.rank_of_ask hj
    dsimp only at hr
    omega
  case linedUp hj _ =>
    have := ho.rank_of_ask hj
    dsimp only at hr
    omega
  case scanAdmittedForJob ha _ _ =>
    obtain ⟨_, hw, _⟩ := Pool.admit?_eq_some ha
    have := ho.rank_of_scan_waiting hw
    dsimp only at hr
    omega
  case scanAdmittedForNone ha _ _ _ =>
    obtain ⟨_, hw, _⟩ := Pool.admit?_eq_some ha
    have := ho.rank_of_scan_waiting hw
    dsimp only at hr
    omega
  all_goals simp_all [Stage.rank]

theorem Move.flying_quiet (hm : Move t s a s' es) (ho : Orderly t s)
    (hr : s'.stage.rank ≤ 4 ∨ 9 ≤ s'.stage.rank) : s'.flying = [] := by
  have h := ho.flying_quiet
  cases hm
  case offeredToAsks answer _ hs _ _ _ => cases answer <;> simp [Stage.rank, afterOffer] at hr
  case offeredToScans answer _ hs _ _ _ => cases answer <;> simp [Stage.rank, afterOffer] at hr
  case probeTaken hj =>
    have := ho.rank_of_scan hj
    dsimp only at hr
    omega
  all_goals simp_all [Stage.rank]

theorem Move.line_quiet (hm : Move t s a s' es) (ho : Orderly t s)
    (hr : s'.stage.rank ≤ 2 ∨ 9 ≤ s'.stage.rank) : s'.handovers.waiting = [] := by
  have h := ho.line_quiet
  cases hm
  case offeredToAsks answer _ hs _ _ _ => cases answer <;> simp [Stage.rank, afterOffer] at hr
  case offeredToScans answer _ hs _ _ _ => cases answer <;> simp [Stage.rank, afterOffer] at hr
  case reportedOpen he =>
    have := ho.rank_of_flying he
    dsimp only at hr
    omega
  case strayedOpen hl =>
    have := rank_of_live hl
    dsimp only at hr
    omega
  case handoverAdmitted ha =>
    obtain ⟨_, hw, _⟩ := Pool.admit?_eq_some ha
    simp [h hr] at hw
  all_goals simp_all [Stage.rank]

theorem Move.handovers_quiet (hm : Move t s a s' es) (ho : Orderly t s)
    (hr : s'.stage.rank ≤ 2 ∨ 10 ≤ s'.stage.rank) : s'.handovers.jobs = [] := by
  have h := ho.handovers_quiet
  have hc := ho.line_quiet
  cases hm
  case offeredToAsks answer _ hs _ _ _ => cases answer <;> simp [Stage.rank, afterOffer] at hr
  case offeredToScans answer _ hs _ _ _ => cases answer <;> simp [Stage.rank, afterOffer] at hr
  case reportedOpen he =>
    have := ho.rank_of_flying he
    dsimp only at hr
    omega
  case strayedOpen hl =>
    have := rank_of_live hl
    dsimp only at hr
    omega
  case handoverAdmitted ha =>
    obtain ⟨_, hw, _⟩ := Pool.admit?_eq_some ha
    dsimp only at hr
    simp [hc (by omega)] at hw
  all_goals simp_all [Stage.rank]

theorem Move.scans_gate (hm : Move t s a s' es) (ho : Orderly t s) :
    ∀ j ∈ s'.scans.waiting, j.phase = .gate := by
  have h := ho.scans_gate
  have queued {q : Pool ScanJob} {host : Address}
      (ha : s.scans.submit ⟨host, .gate⟩ = (.queued, q)) : ∀ j ∈ q.waiting, j.phase = .gate := by
    rw [(Pool.submit_queued ha).2]
    intro j hj
    rcases List.mem_append.mp hj with hj | hj
    · exact h j hj
    · rw [List.mem_singleton.mp hj]
  have admitted {job : ScanJob} {q : Pool ScanJob} (ha : s.scans.admit? = some (job, q)) :
      ∀ j ∈ q.waiting, j.phase = .gate := by
    obtain ⟨rest, hw, hq, _⟩ := Pool.admit?_eq_some ha
    intro j hj
    apply h j
    rw [hw, ← hq]
    exact List.mem_cons_of_mem _ hj
  -- of those in line, the new ones come last and the first ones leave
  cases hm
  case offeredToScans answer _ _ _ _ ha =>
    cases answer
    · simp [(Pool.submit_accepted ha).2.2]
    · exact queued ha
    · simpa [(Pool.submit_refused ha).1] using h
  case handedOn ha => simp [(Pool.submit_accepted ha).2.2]
  case linedUp ha => exact queued ha
  case scanAdmittedForJob ha _ _ => exact admitted ha
  case scanAdmittedForRun ha _ _ _ => exact admitted ha
  case scanAdmittedForNone ha _ _ _ => exact admitted ha
  case withdrawnFromScans =>
    intro j hj
    exact h j (List.mem_of_mem_eraseIdx hj)
  all_goals simpa using h

theorem Move.scans_line_run (hm : Move t s .run s' es) (ho : Orderly t s) : LinesUp t s' := by
  have h := ho.scans_line
  unfold LinesUp askersInLine at h ⊢
  cases hm
  case offeredToAsks answer _ _ _ hp ha =>
    cases answer
    case refused => simpa [Pool.submit_refused ha, hp] using h
    all_goals simp [Pool.weigh_submit _ ha, hp, AskJob.inLine, ← h]
  case offeredToScans answer _ hs _ hp ha =>
    -- nobody is asked, and the run itself may stand in line
    simp only [hs, hp, Stage.lined, if_neg Bool.false_ne_true, Multiset.coe_nil, add_zero] at h
    cases answer
    · simp [h, hp, Pool.submit_accepted ha]
    · simp [h, hp, Pool.submit_queued ha, ← Multiset.coe_add]
    · simp [h, hp, Pool.submit_refused ha]
  case withdrawnFromAsks hs _ hp =>
    have hl := ho.asks_line
    rw [if_pos hp, hs] at hl
    have hw := Pool.weigh_withdraw AskJob.inLine hl
    simp only [AskJob.inLine, reduceCtorEq, if_false, zero_add] at hw
    simpa [hp, AskJob.inLine, hw] using h
  case withdrawnFromScans hs _ hp =>
    have hn := ho.askersInLine_eq hp
    have hw := ho.scans_waiting_eq hp
    rw [askersInLine] at hn
    simp [hn, hw, hs, hp, Stage.lined]
  all_goals simp_all [Stage.lined]

/-- An asker begins to wait when its host gets in line, and its other steps leave the line alone. -/
theorem Move.scans_line_ask {i : ℕ} {act : AskAction} (hm : Move t s (.ask i act) s' es)
    (h : LinesUp t s) : LinesUp t s' := by
  unfold LinesUp askersInLine at h ⊢
  cases hm
  case askPassed _ hj =>
    simpa [Pool.weigh_update_eq (f := AskJob.inLine) (b := ⟨_, .ready⟩) hj rfl] using h
  case asked hj =>
    simpa [Pool.weigh_update_eq (f := AskJob.inLine) (b := ⟨_, .asked⟩) hj rfl] using h
  case answeredUp hj =>
    simpa [Pool.weigh_update_eq (f := AskJob.inLine) (b := ⟨_, .up⟩) hj rfl] using h
  case handedOn ha hj =>
    obtain ⟨hw, _, hq⟩ := Pool.submit_accepted ha
    simpa [Pool.weigh_update_eq (f := AskJob.inLine) (b := ⟨_, .handedOn⟩) hj rfl, hw, hq] using h
  case linedUp ha hj =>
    obtain ⟨m, h0, hu, _⟩ := Pool.weigh_split AskJob.inLine hj
    have hq := (Pool.submit_queued ha).2
    simp only [h0, AskJob.inLine, reduceCtorEq, if_false, zero_add] at h
    simp only [hu, AskJob.inLine, if_true, hq, List.map_append, ← Multiset.coe_add, ← h]
    simp only [List.map_cons, List.map_nil, Multiset.coe_singleton]
    abel
  case askSkipped _ _ hj | answeredDown hj | askPanicked hj | unplaced _ hj | askLeft hj =>
    simpa [Pool.weigh_finish_eq (f := AskJob.inLine) hj rfl] using h

/-- Whoever waits for the host that leaves the line stops waiting. -/
theorem Move.scans_line_admit (hm : Move t s .admitScan s' es) (ho : Orderly t s) :
    LinesUp t s' := by
  have h := ho.scans_line
  unfold LinesUp askersInLine at h ⊢
  cases hm
  case scanAdmittedForJob job _ i ha _ hi =>
    -- the asker that is found has a host of the same address
    obtain ⟨rest, hw, hq, _⟩ := Pool.admit?_eq_some ha
    obtain ⟨hlt, hb, _⟩ := List.findIdx?_eq_some_iff_getElem.mp hi
    obtain ⟨hh, hl⟩ := Bool.and_eq_true_iff.mp hb
    obtain ⟨m, h0, hu, _⟩ := Pool.weigh_split AskJob.inLine (List.getElem?_eq_getElem hlt)
    rw [h0, AskJob.inLine, if_pos (beq_iff_eq.mp hl), beq_iff_eq.mp hh, hw] at h
    rw [List.map_cons, ← Multiset.cons_coe, add_assoc, Multiset.singleton_add] at h
    simpa [hu, AskJob.inLine, hq] using (Multiset.cons_inj_right _).mp h
  case scanAdmittedForRun ha hc hi hs =>
    have hp := ho.ping_of_no_asker ha hi
    have hn := ho.askersInLine_eq hp
    have hl := ho.scans_waiting_eq hp
    obtain ⟨rest, hw, hq, _⟩ := Pool.admit?_eq_some ha
    rw [hw, hs] at hl
    rw [askersInLine] at hn
    simp [hn, hq, (List.cons.inj hl).2, Stage.lined]
  case scanAdmittedForNone ha _ hi hs =>
    -- with no asker and no run in line, the line is empty
    have hl := ho.scans_waiting_eq (ho.ping_of_no_asker ha hi)
    obtain ⟨rest, hw, _⟩ := Pool.admit?_eq_some ha
    have hn : s.stage.lined = [] := by
      cases hst : s.stage
      case inLine w host => exact absurd hst (hs w host)
      all_goals rfl
    rw [hw, hn] at hl
    cases hl

theorem Move.scans_line (hm : Move t s a s' es) (ho : Orderly t s) : LinesUp t s' := by
  cases a
  case run => exact hm.scans_line_run ho
  case ask i act => exact hm.scans_line_ask ho.scans_line
  case admitScan => exact hm.scans_line_admit ho
  case admitAsk =>
    have h := ho.scans_line
    unfold LinesUp askersInLine at h ⊢
    cases hm
    case askAdmitted hs ha _ =>
      have hp : t.settings.ping = true := by
        obtain ⟨_, hw, _⟩ := Pool.admit?_eq_some ha
        by_contra hp
        simp [ho.asks_line, hp] at hw
      simpa [Pool.weigh_admit _ ha, hp] using h
  all_goals
    have h := ho.scans_line
    unfold LinesUp askersInLine at h ⊢
    cases hm <;> simp_all [Stage.lined]

theorem Move.walk_inside (hm : Move t s a s' es) (ho : Orderly t s) (w : Walk)
    (hw : s'.stage = .gating w ∨ s'.stage = .visiting w) : w.index < w.block.size := by
  have h := ho.walk_inside
  cases hm
  case offeredToAsks answer _ _ _ _ _ => cases answer <;> simp [afterOffer] at hw
  case offeredToScans answer _ _ _ _ _ => cases answer <;> simp [afterOffer] at hw
  case checked hi _ =>
    rcases hw with hw | hw <;> cases hw
    exact hi
  case gatePassed hs _ =>
    rcases hw with hw | hw <;> cases hw
    exact h _ (.inl hs)
  all_goals simp_all

theorem orderly_initial (t : Task) : Orderly t (.initial t) := by
  constructor <;> simp [initial, LinesUp, askersInLine, Stage.lined]

/-- Every move keeps the order. -/
theorem Move.orderly (hm : Move t s a s' es) (ho : Orderly t s) : Orderly t s' where
  pools_open := hm.pools_open ho
  asks_line := hm.asks_line ho
  scans_line := hm.scans_line ho
  scans_gate := hm.scans_gate ho
  asks_unused := hm.asks_unused ho
  asks_quiet := hm.asks_quiet ho
  scans_quiet := hm.scans_quiet ho
  flying_quiet := hm.flying_quiet ho
  line_quiet := hm.line_quiet ho
  handovers_quiet := hm.handovers_quiet ho
  walk_inside := hm.walk_inside ho

end TaskState

theorem Run.orderly {t : Task} {h : List Turn} {s : TaskState} (hr : Run t h s) :
    TaskState.Orderly t s :=
  hr.invariant (TaskState.orderly_initial t) fun hm ho => hm.orderly ho

end Recon
