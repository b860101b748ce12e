import Recon.Proofs.Task.Conservation

/-!
# Journal of the scanning pool

Which ports each job of the scanning pool has probed, and in which order.  The journal is written
from the turns alone: every probe goes on the list of its own job.  It follows that a job that
leaves has probed the ports of the plan from the first to the last, whatever the other jobs have
done in the meantime.
-/

namespace Recon

/-- The ports that the jobs of the scanning pool have probed: a list for each job that runs, in
the order of the pool, and the lists of those that have ended, with their hosts. -/
structure Journal where
  running : List (List Port)
  ended : List (Address × List Port)

def ScanJob.remaining (ports : List Port) (j : ScanJob) : List Port :=
  match j.phase with
  | .gate => ports
  | .probing rest _ => rest

def Event.port? : Event → Option Port
  | .probed e => some e.port
  | _ => none

def Deed.scans : Deed → Multiset Address
  | .scanned host => {host}
  | _ => 0

namespace Journal

/-- A probe goes on the list of the job that makes it, the list of a job that ends is closed, and
jobs that start have empty lists. -/
def enter (l : Journal) (x : Turn) : Journal :=
  match x.action with
  | .scan i (.probe _) =>
    { l with running := l.running.modify i (· ++ x.events.filterMap Event.port?) }
  | .scan i .skip | .scan i .leave | .scan i .panic =>
    match x.before.scans.jobs[i]?, l.running[i]? with
    | some job, some ports => ⟨l.running.eraseIdx i, l.ended ++ [(job.host, ports)]⟩
    | _, _ => l
  | _ =>
    let started := x.after.scans.jobs.length - x.before.scans.jobs.length
    { l with running := l.running ++ List.replicate started [] }

def of (h : List Turn) : Journal := h.foldl enter ⟨[], []⟩

@[simp] theorem of_concat (h : List Turn) (x : Turn) : of (h ++ [x]) = (of h).enter x := by
  rw [of, of, List.foldl_append, List.foldl_cons, List.foldl_nil]

/-- A journal agrees with a state: what a job has probed and what it has still to probe are the
ports of the plan. -/
structure Agrees (l : Journal) (s : TaskState) : Prop where
  length_eq : l.running.length = s.scans.jobs.length
  append_eq : ∀ (i : ℕ) (job : ScanJob) (ports : List Port), s.scans.jobs[i]? = some job →
    l.running[i]? = some ports → ports ++ job.remaining s.plan.ports = s.plan.ports

namespace Agrees

variable {l : Journal} {s s' : TaskState} {i : ℕ} {job job' : ScanJob}

theorem empty (hl : l.running = []) (hj : s.scans.jobs = []) : l.Agrees s := by
  refine ⟨by rw [hl, hj, List.length_nil, List.length_nil], ?_⟩
  intro i job ports hi
  simp [hj] at hi

/-- Jobs that start have all ports before them. -/
theorem start (h : l.Agrees s) {js : List ScanJob} (hj : s'.scans.jobs = s.scans.jobs ++ js)
    (hg : ∀ j ∈ js, j.phase = .gate) (hp : s'.plan = s.plan) :
    Agrees { l with
      running := l.running ++
        List.replicate (s'.scans.jobs.length - s.scans.jobs.length) [] } s' := by
  have hlen : s'.scans.jobs.length - s.scans.jobs.length = js.length := by simp [hj]
  rw [hlen]
  refine ⟨by simp [h.length_eq, hj], ?_⟩
  intro k job ports hk hports
  rw [hj] at hk
  rw [hp]
  by_cases hlt : k < s.scans.jobs.length
  · -- a job that runs already keeps its list
    rw [List.getElem?_append_left hlt] at hk
    rw [List.getElem?_append_left (h.length_eq ▸ hlt)] at hports
    exact h.append_eq k job ports hk hports
  · -- a new job is at its gate, and its list is empty
    have hle := h.length_eq.trans_le (Nat.le_of_not_lt hlt)
    rw [List.getElem?_append_right (Nat.le_of_not_lt hlt)] at hk
    rw [List.getElem?_append_right hle] at hports
    have hnil := List.eq_of_mem_replicate (List.mem_of_getElem? hports)
    simp [hnil, ScanJob.remaining, hg job (List.mem_of_getElem? hk)]

theorem keep (h : l.Agrees s) (hj : s'.scans.jobs = s.scans.jobs) (hp : s'.plan = s.plan) :
    Agrees { l with
      running := l.running ++
        List.replicate (s'.scans.jobs.length - s.scans.jobs.length) [] } s' := by
  have hn : s'.scans.jobs = s.scans.jobs ++ [] := by rw [hj, List.append_nil]
  exact h.start hn (by simp) hp

/-- A job goes on, and what it has done moves from its own list to the journal. -/
theorem update (h : l.Agrees s) (hi : s.scans.jobs[i]? = some job) (job' : ScanJob)
    (done : List Port) (hj : s'.scans.jobs = s.scans.jobs.set i job') (hp : s'.plan = s.plan)
    (hd : job.remaining s.plan.ports = done ++ job'.remaining s.plan.ports) :
    Agrees { l with running := l.running.modify i (· ++ done) } s' := by
  refine ⟨by simp [h.length_eq, hj], ?_⟩
  intro k job'' ports hk hports
  rw [hj, List.getElem?_set] at hk
  rw [List.getElem?_modify] at hports
  obtain ⟨old, hold, rfl⟩ := Option.map_eq_some_iff.mp hports
  rw [hp]
  by_cases hik : i = k
  · subst hik
    have hlt := (List.getElem?_eq_some_iff.mp hi).1
    rw [if_pos rfl, if_pos hlt] at hk
    cases hk
    rw [if_pos rfl, List.append_assoc, ← hd]
    exact h.append_eq i job old hi hold
  · rw [if_neg hik] at hk ⊢
    exact h.append_eq k job'' old hk hold

/-- A job goes on without a probe. -/
theorem pass (h : l.Agrees s) (hi : s.scans.jobs[i]? = some job)
    (hj : s'.scans.jobs = s.scans.jobs.set i job') (hp : s'.plan = s.plan)
    (hd : job.remaining s.plan.ports = job'.remaining s.plan.ports) :
    Agrees { l with
      running := l.running ++
        List.replicate (s'.scans.jobs.length - s.scans.jobs.length) [] } s' := by
  have hlen : s'.scans.jobs.length - s.scans.jobs.length = 0 := by simp [hj]
  have hid : l.running.modify i (· ++ []) = l.running := by
    simp only [List.append_nil]
    exact List.modify_id i l.running
  have hu := h.update hi job' [] hj hp (hd.trans (List.nil_append _).symm)
  rw [hlen, List.replicate_zero, List.append_nil, ← hid]
  exact hu

/-- A job ends, and its list is taken out. -/
theorem erase (h : l.Agrees s) (i : ℕ) (ended : List (Address × List Port))
    (hj : s'.scans.jobs = s.scans.jobs.eraseIdx i) (hp : s'.plan = s.plan) :
    Agrees ⟨l.running.eraseIdx i, ended⟩ s' := by
  refine ⟨by simp [h.length_eq, hj, List.length_eraseIdx], ?_⟩
  intro k job ports hk hports
  rw [hj, List.getElem?_eraseIdx] at hk
  rw [hp]
  dsimp only at hports
  rw [List.getElem?_eraseIdx] at hports
  by_cases hki : k < i
  · rw [if_pos hki] at hk hports
    exact h.append_eq k job ports hk hports
  · rw [if_neg hki] at hk hports
    exact h.append_eq (k + 1) job ports hk hports

theorem exists_list (h : l.Agrees s) (hi : s.scans.jobs[i]? = some job) :
    ∃ ports, l.running[i]? = some ports ∧ ports ++ job.remaining s.plan.ports = s.plan.ports := by
  have hlt := (List.getElem?_eq_some_iff.mp hi).1
  have hports := List.getElem?_eq_getElem (h.length_eq ▸ hlt)
  exact ⟨_, hports, h.append_eq i job _ hi hports⟩

end Agrees

end Journal

namespace TaskState

variable {t : Task} {s s' : TaskState} {a : Action} {es : List Event} {l : Journal}

open Journal in
/-- The journal keeps up with every move. -/
theorem Move.agrees (hm : Move t s a s' es) (ho : Orderly t s) (hl : l.Agrees s) :
    (l.enter ⟨s, a, s', es⟩).Agrees s' := by
  have admitted {job : ScanJob} {q : Pool ScanJob} (ha : s.scans.admit? = some (job, q)) :
      q.jobs = s.scans.jobs ++ [job] ∧ ∀ j ∈ [job], j.phase = .gate := by
    obtain ⟨rest, hw, _, hj, _⟩ := Pool.admit?_eq_some ha
    have hg := ho.scans_gate job (hw ▸ List.mem_cons_self)
    exact ⟨hj, by simpa using hg⟩
  -- jobs start with empty lists, a probe makes one longer, and the end of a job closes it
  cases hm
  case planned hs _ _ =>
    -- the ports become known before there is any job
    have hj : s.scans.jobs = [] := ho.scans_quiet (by simp [hs, Stage.rank])
    have hr : l.running = [] := List.length_eq_zero_iff.mp (by rw [hl.length_eq, hj]; rfl)
    exact .empty (by simp [enter, hr]) hj
  case offeredToScans host answer scans _ _ _ ha =>
    cases answer
    · exact hl.start (Pool.submit_accepted ha).2.1 (by simp) rfl
    · exact hl.keep (Pool.submit_queued ha).1 rfl
    · exact hl.keep (congrArg _ (Pool.submit_refused ha).1) rfl
  case handedOn ha => exact hl.start (Pool.submit_accepted ha).2.1 (by simp) rfl
  case linedUp ha => exact hl.keep (Pool.submit_queued ha).1 rfl
  case scanAdmittedForJob ha _ _ =>
    obtain ⟨hj, hg⟩ := admitted ha
    exact hl.start hj hg rfl
  case scanAdmittedForRun ha _ _ _ =>
    obtain ⟨hj, hg⟩ := admitted ha
    exact hl.start hj hg rfl
  case scanAdmittedForNone ha _ _ _ =>
    obtain ⟨hj, hg⟩ := admitted ha
    exact hl.start hj hg rfl
  case scanPassed hj _ => exact hl.pass hj rfl rfl rfl
  case awaited hj => exact hl.pass hj rfl rfl rfl
  case probeTaken host p rest hj =>
    exact hl.update hj ⟨host, .probing rest false⟩ [p] rfl rfl rfl
  case probeRefused host p rest hj =>
    exact hl.update hj ⟨host, .probing rest false⟩ [p] rfl rfl rfl
  case scanSkipped hj _ _ =>
    obtain ⟨ports, hports, _⟩ := hl.exists_list hj
    simp only [enter, hj, hports]
    exact hl.erase _ _ (Pool.jobs_finish _ _ _) rfl
  case scanLeft hj =>
    obtain ⟨ports, hports, _⟩ := hl.exists_list hj
    simp only [enter, hj, hports]
    exact hl.erase _ _ (Pool.jobs_finish _ _ _) rfl
  case scanPanicked hj =>
    obtain ⟨ports, hports, _⟩ := hl.exists_list hj
    simp only [enter, hj, hports]
    exact hl.erase _ _ (Pool.jobs_finish _ _ _) rfl
  all_goals exact hl.keep rfl rfl

attribute [local simp] goto fail finish complete completeHost deed? Deed.scans

open Journal in
/-- A job of the scanning pool that leaves has probed every port of the plan, in order. -/
theorem Move.ended_eq (hm : Move t s a s' es) (hl : l.Agrees s) (hc : s.cancelled = false)
    (hb : ∀ i, a ≠ .scan i .panic) :
    ((l.enter ⟨s, a, s', es⟩).ended : Multiset (Address × List Port)) =
      l.ended + (s.yield Deed.scans a s').map fun host => (host, s.plan.ports) := by
  unfold yield
  cases hm
  case visitedExcluded hs hn he => simp [enter, hs, hn, he]
  case scanLeft hj =>
    -- nothing remains, so the list of the job is the whole list of ports
    obtain ⟨ports, hports, hp⟩ := hl.exists_list hj
    rw [ScanJob.remaining, List.append_nil] at hp
    simp [enter, hj, hports, hp, ← Multiset.coe_add]
  case scanPanicked i _ _ _ _ => exact absurd rfl (hb i)
  case offeredToAsks answer _ hs _ _ _ => cases answer <;> simp [enter, hs, afterOffer]
  case offeredToScans answer _ hs _ _ _ => cases answer <;> simp [enter, hs, afterOffer]
  case handedOn hj ha => simp [enter, hj, Pool.open_of_submit ha]
  case linedUp hj ha => simp [enter, hj, Pool.open_of_submit ha]
  case unplaced hj ha => simp [enter, hj, Pool.submit_refused ha]
  all_goals simp_all [enter]

end TaskState

namespace Run

variable {t : Task} {h : List Turn} {s : TaskState}

theorem agrees (hr : Run t h s) : (Journal.of h).Agrees s := by
  induction hr with
  | start => exact .empty rfl rfl
  | turn hr hs ih =>
    rw [Journal.of_concat]
    exact (TaskState.move_of_step hs).agrees hr.orderly ih

/-- The scans that come to their end in a run that nothing disturbs, with what they have probed. -/
theorem ended_eq (hr : Run t h s) (hu : Uncancelled h) (hb : Unbroken h) :
    ((Journal.of h).ended : Multiset (Address × List Port)) =
      (tally Deed.scans h).map fun host => (host, s.plan.ports) := by
  induction hr with
  | start => rfl
  | @turn h s a s' es hr hs ih =>
    have hm := TaskState.move_of_step hs
    obtain ⟨hu, _⟩ := List.forall_mem_append.mp hu
    obtain ⟨hb, hba⟩ := List.forall_mem_append.mp hb
    have ha : ∀ i, a ≠ .scan i .panic := fun i => (hba _ (List.mem_singleton.mpr rfl) i).2
    rw [Journal.of_concat, hm.ended_eq hr.agrees (hr.cancelled_eq hu) ha, ih hu hb, tally_concat,
      Multiset.map_add]
    by_cases hk : s.stage = .planning ∧ s'.stage = .opening
    · -- no scan has ended when the ports become known
      have hq : s'.stage.rank ≤ 2 := by simp [hk.2, Stage.rank]
      rw [hr.tally_early _ (hm.rank_le.trans hq), hm.yield_eq_zero hr.orderly _ hq]
      rfl
    · rw [hm.plan_eq hk]

end Run

end Recon
