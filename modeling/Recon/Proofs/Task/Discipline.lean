import Recon.Proofs.Task.SharedPool

/-!
# The discipline of a pool in shared use

The balances of single moves add up over a run.  Of a submission that is back it is known, then,
that it neither waits nor takes a slot again, so its job is gone for good once it is gone; and a
drain that has come past its wait has seen a tracker with nothing in it.

The counters are moved apart from what they count.  Between the two counts of a job that has
panicked there may be more panics than completions.
-/

namespace Recon

namespace SharedPool

inductive Leads (s : SharedPool) : List PoolEvent → SharedPool → Prop
  | refl : Leads s [] s
  | snoc {es s' a s'' e} (h : Leads s es s') (hs : s'.step a = some (s'', e)) :
      Leads s (es ++ e.toList) s''

def endings (es : List PoolEvent) (t : ℕ) : ℕ :=
  es.count (.ended t true) + es.count (.ended t false)

def holders (s : SharedPool) : List ℕ := s.entering ++ s.counted ++ s.uncompleted ++ s.ended

variable {s s' s'' : SharedPool} {a : PoolAction} {e : Option PoolEvent} {es es' : List PoolEvent}
  {i d t size : ℕ}

namespace Leads

theorem of_step (hs : s.step a = some (s', e)) : Leads s e.toList s' := by
  simpa using Leads.refl.snoc hs

theorem trans (h : Leads s es s') (h' : Leads s' es' s'') : Leads s (es ++ es') s'' := by
  induction h' with
  | refl => simpa using h
  | snoc _ hs ih =>
    rw [← List.append_assoc]
    exact ih.snoc hs

theorem of_follow (as : List PoolAction) (hf : s.follow as = some (es, s')) : Leads s es s' := by
  induction as generalizing s es with
  | nil =>
    cases hf
    exact .refl
  | cons a as ih =>
    simp only [follow, Option.bind_eq_bind, Option.bind_eq_some_iff] at hf
    obtain ⟨⟨s₁, e⟩, hs, ⟨es', s''⟩, hrest, hf⟩ := hf
    cases hf
    exact (of_step hs).trans (ih hrest)

/-! ### Balances of runs -/

theorem slots (h : Leads s es s') :
    s'.free + s'.holders.length = s.free + s.holders.length := by
  simp only [holders, List.length_append]
  induction h with
  | refl => rfl
  | snoc _ hs ih =>
    have hslots := (move_of_step hs).slots
    omega

theorem tracked (h : Leads s es s')
    (hs : s.inside = s.uncompleted.length + s.ended.length + s.parting.length) :
    s'.inside = s'.uncompleted.length + s'.ended.length + s'.parting.length := by
  induction h with
  | refl => exact hs
  | snoc _ hs ih => exact (move_of_step hs).tracked ih

theorem placed (h : Leads s es s') (u : ℕ) :
    s'.pool.waiting.count u + s'.entering.count u + s'.counted.count u +
        es.count (.accepted u) + es.count (.refused u) + es.count (.withdrawn u) +
        (List.range s.tickets).count u =
      s.pool.waiting.count u + s.entering.count u + s.counted.count u +
        (List.range s'.tickets).count u := by
  induction h with
  | refl => simp
  | snoc _ hs ih =>
    have hplaced := (move_of_step hs).placed u
    simp only [List.count_append]
    omega

theorem served (h : Leads s es s') (u : ℕ) :
    s'.pool.jobs.count u + endings es u = s.pool.jobs.count u + es.count (.accepted u) := by
  induction h with
  | refl => rfl
  | snoc _ hs ih =>
    have hserved := (move_of_step hs).served u
    simp only [endings, List.count_append] at ih ⊢
    omega

theorem carried (h : Leads s es s') (u : ℕ) :
    s'.uncompleted.count u + es.count (.completed u) =
      s.uncompleted.count u + es.count (.accepted u) := by
  induction h with
  | refl => rfl
  | snoc _ hs ih =>
    have hcarried := (move_of_step hs).carried u
    simp only [List.count_append]
    omega

theorem counters (h : Leads s es s') :
    s'.pool.submitted + s.counted.length =
        s.pool.submitted + s'.counted.length + es.countP PoolEvent.isAccepted ∧
      s'.pool.completed = s.pool.completed + es.countP PoolEvent.isCompletion ∧
      s'.pool.panicked + s'.broken.length =
        s.pool.panicked + s.broken.length + es.countP PoolEvent.isPanic := by
  induction h with
  | refl => exact ⟨rfl, rfl, rfl⟩
  | snoc _ hs ih =>
    obtain ⟨hsubmitted, hcompleted, hpanicked⟩ := (move_of_step hs).counters
    simp only [List.countP_append]
    omega

theorem submitted_eq (h : Leads s es s')
    (hs : s.pool.submitted = s.pool.completed + s.uncompleted.length + s.counted.length) :
    s'.pool.submitted = s'.pool.completed + s'.uncompleted.length + s'.counted.length := by
  induction h with
  | refl => exact hs
  | snoc _ hs ih => exact (move_of_step hs).submitted_eq ih

theorem panicked_le (h : Leads s es s')
    (hs : s.pool.panicked ≤ s.pool.completed + s.finished.countP Prod.snd) :
    s'.pool.panicked ≤ s'.pool.completed + s'.finished.countP Prod.snd := by
  induction h with
  | refl => exact hs
  | snoc _ hs ih => exact (move_of_step hs).panicked_le ih

theorem submitted_le (h : Leads s es s') : s.pool.submitted ≤ s'.pool.submitted := by
  induction h with
  | refl => exact Nat.le_refl _
  | snoc _ hs ih => exact ih.trans (move_of_step hs).submitted_le

theorem closed_entering (h : Leads s es s') (hc : s.pool.closed = true) (u : ℕ) :
    s'.pool.closed = true ∧
      s'.entering.count u + s'.counted.count u + es.count (.accepted u) =
        s.entering.count u + s.counted.count u ∧
      s'.pool.submitted + s'.entering.length = s.pool.submitted + s.entering.length := by
  induction h with
  | refl => exact ⟨hc, by simp, rfl⟩
  | snoc _ hs ih =>
    obtain ⟨hclosed, hentering, hsubmitted⟩ := ih
    obtain ⟨hclosed', hentering', hsubmitted'⟩ := (move_of_step hs).closed_entering hclosed u
    refine ⟨hclosed', ?_, by omega⟩
    rw [List.count_append]
    omega

end Leads

/-! ### Submissions that are back -/

/-- A submission has been made, and is neither in line nor about to start its job. -/
structure Settled (s : SharedPool) (t : ℕ) : Prop where
  made : t < s.tickets
  notWaiting : t ∉ s.pool.waiting
  notEntering : t ∉ s.entering
  notCounted : t ∉ s.counted

theorem count_range_of_lt {n : ℕ} (h : t < n) : (List.range n).count t = 1 :=
  List.count_eq_one_of_mem List.nodup_range (List.mem_range.mpr h)

theorem count_range_le_one (n t : ℕ) : (List.range n).count t ≤ 1 :=
  List.nodup_iff_count_le_one.mp List.nodup_range t

theorem lt_of_count_range {n : ℕ} (h : 0 < (List.range n).count t) : t < n :=
  List.mem_range.mp (List.count_pos_iff.mp h)

/-- What is settled stays so, and its job does not start again. -/
theorem Settled.leads (h : s.Settled t) (hr : Leads s es s') :
    s'.Settled t ∧ es.count (.accepted t) = 0 := by
  have hplaced := hr.placed t
  have hmade := count_range_of_lt h.made
  have hwaiting := List.count_eq_zero.mpr h.notWaiting
  have hentering := List.count_eq_zero.mpr h.notEntering
  have hcounted := List.count_eq_zero.mpr h.notCounted
  have hone := count_range_le_one s'.tickets t
  refine ⟨⟨lt_of_count_range (by omega), ?_, ?_, ?_⟩, by omega⟩
  · exact List.count_eq_zero.mp (by omega)
  · exact List.count_eq_zero.mp (by omega)
  · exact List.count_eq_zero.mp (by omega)

/-- No drain that has come past its wait has left the job of an earlier submission behind. -/
theorem Settled.notMem_of_past (h : s.Settled t)
    (htracked : s.inside = s.uncompleted.length + s.ended.length + s.parting.length)
    (hd : ∀ p, s.drains[d]? = some p → ¬ p.IsPast) (hr : Leads s es s') :
    ∀ p, s'.drains[d]? = some p → p.IsPast → t ∉ s'.uncompleted := by
  induction hr with
  | refl => exact fun p hp hpast => absurd hpast (hd p hp)
  | @snoc es s₁ a s₂ e hr hs ih =>
    intro p hp hpast
    have hlater := hr.snoc hs
    rcases (move_of_step hs).past hp hpast with hnone | ⟨q, hq, hqpast⟩
    · -- nothing is in the tracker, so no job runs or is yet to be counted
      have hinside := hlater.tracked htracked
      have hjobs : s₂.uncompleted = [] := List.eq_nil_of_length_eq_zero (by omega)
      rw [hjobs]
      exact List.not_mem_nil
    · -- it came past its wait before, and the job was gone then
      have hgone := List.count_eq_zero.mpr (ih q hq hqpast)
      obtain ⟨-, hnew⟩ := (h.leads hr).1.leads (.of_step hs)
      have hcarried := (Leads.of_step hs).carried t
      exact List.count_eq_zero.mp (by omega)

/-! ### What is possible -/

theorem step_submit_of_closed (hc : s.pool.closed = true) :
    s.step .submit = some ({ s with tickets := s.tickets + 1 }, some (.refused s.tickets)) := by
  simp [step, submit, hc]

theorem step_submit_of_free (hopen : s.pool.closed = false)
    (hfree : s.pool.waiting.length < s.free) :
    s.step .submit = some (enter { s with tickets := s.tickets + 1 } s.tickets, none) := by
  simp [step, submit, hopen, hfree]

theorem step_submit_of_full (hopen : s.pool.closed = false)
    (hfull : s.free ≤ s.pool.waiting.length) :
    s.step .submit = some ({ s with
      pool := { s.pool with waiting := s.pool.waiting ++ [s.tickets] }
      tickets := s.tickets + 1 }, none) := by
  simp [step, submit, hopen, Nat.not_lt.mpr hfull]

theorem step_takeSlot (ht : s.pool.waiting[i]? = some t) (hopen : s.pool.closed = false)
    (hi : i < s.free) :
    s.step (.takeSlot i) = some (enter { s with pool := s.pool.withdraw i } t, none) := by
  simp [step, ht, hopen, hi]

theorem step_turnAway (ht : s.pool.waiting[i]? = some t) (hc : s.pool.closed = true) :
    s.step (.turnAway i) = some ({ s with pool := s.pool.withdraw i }, some (.refused t)) := by
  simp [step, ht, hc]

theorem step_count (ht : s.entering[i]? = some t) :
    s.step (.count i) = some ({ s with
      pool := { s.pool with submitted := s.pool.submitted + 1 }
      entering := s.entering.eraseIdx i
      counted := s.counted ++ [t] }, none) := by
  simp [step, ht]

theorem step_start (ht : s.counted[i]? = some t) :
    s.step (.start i) = some ({ s with
      pool := { s.pool with jobs := s.pool.jobs ++ [t] }
      counted := s.counted.eraseIdx i
      inside := s.inside + 1 }, some (.accepted t)) := by
  simp [step, ht]

theorem step_finish (ht : s.pool.jobs[i]? = some t) (panics : Bool) :
    s.step (.finish i panics) =
      some ({ s with pool := { s.pool with jobs := s.pool.jobs.eraseIdx i } }.endJob t panics,
        some (.ended t panics)) := by
  simp [step, ht]

theorem step_countPanic (ht : s.broken[i]? = some t) :
    s.step (.countPanic i) = some ({ s with
      pool := { s.pool with panicked := s.pool.panicked + 1 }
      broken := s.broken.eraseIdx i
      finished := s.finished ++ [(t, true)] }, none) := by
  simp [step, ht]

theorem step_complete {b : Bool} (ht : s.finished[i]? = some (t, b)) :
    s.step (.complete i) = some ({ s with
      pool := { s.pool with completed := s.pool.completed + 1 }
      finished := s.finished.eraseIdx i
      ended := s.ended ++ [t] }, some (.completed t)) := by
  simp [step, ht]

theorem step_giveBack (ht : s.ended[i]? = some t) :
    s.step (.giveBack i) = some ({ s with
      free := s.free + 1
      ended := s.ended.eraseIdx i
      parting := s.parting ++ [t] }, none) := by
  simp [step, ht]

theorem step_leave (hi : i < s.parting.length) :
    s.step (.leave i) = some
      (notify { s with parting := s.parting.eraseIdx i, inside := s.inside - 1 }, none) := by
  simp [step, hi]

def CanFree (s : SharedPool) : Prop :=
  ∃ es s', Leads s es s' ∧ 0 < s'.free ∧ s'.pool.waiting = s.pool.waiting ∧
    s'.pool.closed = s.pool.closed

theorem CanFree.of_step (hs : s.step a = some (s', e)) (h : s'.CanFree)
    (hwaiting : s'.pool.waiting = s.pool.waiting) (hclosed : s'.pool.closed = s.pool.closed) :
    s.CanFree := by
  obtain ⟨es, s'', hleads, hfree, hw, hc⟩ := h
  exact ⟨_, s'', (Leads.of_step hs).trans hleads, hfree, hw.trans hwaiting, hc.trans hclosed⟩

theorem canFree_of_ended (h : s.ended ≠ []) : s.CanFree := by
  obtain ⟨t, ts, hended⟩ := List.exists_cons_of_ne_nil h
  have hs := step_giveBack (s := s) (i := 0) (t := t) (by simp [hended])
  exact ⟨_, _, .of_step hs, Nat.succ_pos _, rfl, rfl⟩

theorem canFree_of_finished (h : s.finished ≠ []) : s.CanFree := by
  obtain ⟨⟨t, b⟩, ts, hfinished⟩ := List.exists_cons_of_ne_nil h
  have hs := step_complete (s := s) (i := 0) (t := t) (b := b) (by simp [hfinished])
  exact .of_step hs (canFree_of_ended (by simp)) rfl rfl

theorem canFree_of_broken (h : s.broken ≠ []) : s.CanFree := by
  obtain ⟨t, ts, hbroken⟩ := List.exists_cons_of_ne_nil h
  have hs := step_countPanic (s := s) (i := 0) (t := t) (by simp [hbroken])
  exact .of_step hs (canFree_of_finished (by simp)) rfl rfl

theorem canFree_of_jobs (h : s.pool.jobs ≠ []) : s.CanFree := by
  obtain ⟨t, ts, hjobs⟩ := List.exists_cons_of_ne_nil h
  have hs := step_finish (s := s) (i := 0) (t := t) (by simp [hjobs]) false
  exact .of_step hs (canFree_of_finished (by simp [endJob])) rfl rfl

theorem canFree_of_counted (h : s.counted ≠ []) : s.CanFree := by
  obtain ⟨t, ts, hcounted⟩ := List.exists_cons_of_ne_nil h
  have hs := step_start (s := s) (i := 0) (t := t) (by simp [hcounted])
  exact .of_step hs (canFree_of_jobs (by simp)) rfl rfl

theorem canFree_of_entering (h : s.entering ≠ []) : s.CanFree := by
  obtain ⟨t, ts, hentering⟩ := List.exists_cons_of_ne_nil h
  have hs := step_count (s := s) (i := 0) (t := t) (by simp [hentering])
  exact .of_step hs (canFree_of_counted (by simp)) rfl rfl

/-- Whoever has a slot can give it back. -/
theorem canFree (h : 0 < s.free + s.holders.length) : s.CanFree := by
  by_cases hfree : 0 < s.free
  · exact ⟨[], s, .refl, hfree, rfl, rfl⟩
  have hholders : s.holders ≠ [] := List.ne_nil_of_length_pos (by omega)
  simp only [holders, uncompleted, ne_eq, List.append_eq_nil_iff, List.map_eq_nil_iff,
    not_and_or] at hholders
  rcases hholders with ((hentering | hcounted) | (hjobs | hbroken) | hfinished) | hended
  · exact canFree_of_entering hentering
  · exact canFree_of_counted hcounted
  · exact canFree_of_jobs hjobs
  · exact canFree_of_broken hbroken
  · exact canFree_of_finished hfinished
  · exact canFree_of_ended hended

theorem accepted_of_counted (ht : t ∈ s.counted) : ∃ s', Leads s [.accepted t] s' := by
  obtain ⟨i, hi⟩ := List.mem_iff_getElem?.mp ht
  exact ⟨_, .of_step (step_start hi)⟩

theorem accepted_of_entering (ht : t ∈ s.entering) : ∃ s', Leads s [.accepted t] s' := by
  obtain ⟨i, hi⟩ := List.mem_iff_getElem?.mp ht
  have hs := step_count hi
  obtain ⟨s', hstart⟩ := accepted_of_counted
    (s := { s with
      pool := { s.pool with submitted := s.pool.submitted + 1 }
      entering := s.entering.eraseIdx i
      counted := s.counted ++ [t] }) (t := t) (by simp)
  exact ⟨s', (Leads.of_step hs).trans hstart⟩

/-- In an open pool everyone in line can have his turn. -/
theorem accepted_of_waiting (hsize : 0 < s.free + s.holders.length)
    (hopen : s.pool.closed = false) (ht : s.pool.waiting[i]? = some t) :
    ∃ es s', Leads s es s' ∧ .accepted t ∈ es := by
  -- whoever is first in line takes a slot, so the others move up
  induction i generalizing s with
  | zero =>
    obtain ⟨es, s₁, hfree, hpos, hwaiting, hclosed⟩ := canFree hsize
    have hs := step_takeSlot (hwaiting ▸ ht) (hclosed.trans hopen) hpos
    obtain ⟨s₂, hstart⟩ := accepted_of_entering
      (s := enter { s₁ with pool := s₁.pool.withdraw 0 } t) (t := t) (by simp [enter])
    exact ⟨_, s₂, hfree.trans ((Leads.of_step hs).trans hstart), by simp⟩
  | succ i ih =>
    obtain ⟨es, s₁, hfree, hpos, hwaiting, hclosed⟩ := canFree hsize
    cases hline : s.pool.waiting with
    | nil => simp [hline] at ht
    | cons u us =>
      have hfirst : s₁.pool.waiting[0]? = some u := by simp [hwaiting, hline]
      have hs := step_takeSlot hfirst (hclosed.trans hopen) hpos
      have hnext := hfree.trans (.of_step hs)
      have hslots := hnext.slots
      obtain ⟨es', s₂, hrest, hmem⟩ := ih
        (s := enter { s₁ with pool := s₁.pool.withdraw 0 } u) (by omega)
        (by simp [enter, hclosed, hopen]) (by simpa [enter, hwaiting, hline] using ht)
      exact ⟨_, s₂, hnext.trans hrest, List.mem_append_right _ hmem⟩

/-- A pool takes submissions: a new one does not fail, it can be accepted, and is if there is a slot
that nobody in line is to have. -/
def TakesJobs (s : SharedPool) : Prop :=
  ∃ s₁ es s₂, s.step .submit = some (s₁, none) ∧ Leads s₁ es s₂ ∧ .accepted s.tickets ∈ es ∧
    (s.pool.waiting.length < s.free → es = [.accepted s.tickets])

theorem takesJobs (hsize : 0 < s.free + s.holders.length) (hopen : s.pool.closed = false) :
    s.TakesJobs := by
  by_cases hfree : s.pool.waiting.length < s.free
  · have hs := step_submit_of_free hopen hfree
    obtain ⟨s₂, hstart⟩ := accepted_of_entering
      (s := enter { s with tickets := s.tickets + 1 } s.tickets) (t := s.tickets) (by simp [enter])
    exact ⟨_, _, s₂, hs, hstart, List.mem_singleton_self _, fun _ => rfl⟩
  · have hs := step_submit_of_full hopen (Nat.le_of_not_lt hfree)
    obtain ⟨es, s₂, hrest, hmem⟩ := accepted_of_waiting
      (s := { s with
        pool := { s.pool with waiting := s.pool.waiting ++ [s.tickets] }
        tickets := s.tickets + 1 })
      (i := s.pool.waiting.length) (t := s.tickets) hsize hopen (by simp)
    exact ⟨_, es, s₂, hs, hrest, hmem, fun h => absurd h hfree⟩

/-! ### The discipline -/

structure Disciplined (size : ℕ) (es : List PoolEvent) (s : SharedPool) : Prop where
  /-- No more have a slot than the size says, where none counts as one; the other slots are free. -/
  slots : s.holders.length ≤ max size 1 ∧ s.free + s.holders.length = max size 1
  /-- A submission is counted before its job starts.  The counters differ by those whose jobs are
  not counted as completed. -/
  submitted : s.pool.submitted = es.countP PoolEvent.isAccepted + s.counted.length ∧
    s.pool.submitted = s.pool.completed + s.uncompleted.length + s.counted.length
  completed : s.pool.completed = es.countP PoolEvent.isCompletion
  /-- A panic is counted after it has happened.  Such counts exceed the completions at most by the
  jobs that stand between the two, so not at all where there are none. -/
  panicked : s.pool.panicked + s.broken.length = es.countP PoolEvent.isPanic ∧
    s.pool.panicked ≤ s.pool.completed + s.finished.countP Prod.snd
  /-- An accepted job runs or has ended once, and is counted as completed once after it has. -/
  once : ∀ t, .accepted t ∈ es → es.count (.accepted t) = 1 ∧
    s.pool.jobs.count t + endings es t = 1 ∧ s.uncompleted.count t + es.count (.completed t) = 1
  /-- No job runs, ends or is counted whose submission is not back, or is back with a failure. -/
  others : ∀ t, .accepted t ∉ es →
    t ∉ s.uncompleted ∧ endings es t = 0 ∧ es.count (.completed t) = 0
  /-- A job can end at any time, by a panic or not. -/
  ends : ∀ i t, s.pool.jobs[i]? = some t → ∀ panics, ∃ s₁,
    s.step (.finish i panics) = some (s₁, some (.ended t panics)) ∧
    s₁.broken = s.broken ++ (if panics then [t] else []) ∧
    s₁.finished = s.finished ++ (if panics then [] else [(t, false)])
  /-- The panic of a job can be counted then, after which the job is as good as any that is over. -/
  notes : ∀ i t, s.broken[i]? = some t → ∃ s₁,
    s.step (.countPanic i) = some (s₁, none) ∧
    s₁.pool.panicked = s.pool.panicked + 1 ∧ s₁.finished = s.finished ++ [(t, true)]
  /-- A job that is over can be counted as completed. -/
  completes : ∀ i t b, s.finished[i]? = some (t, b) → ∃ s₁,
    s.step (.complete i) = some (s₁, some (.completed t)) ∧
    s₁.pool.completed = s.pool.completed + 1 ∧ s₁.ended = s.ended ++ [t]
  /-- A job that is counted can give its slot back, after which that is free. -/
  frees : ∀ i t, s.ended[i]? = some t → ∃ s₁,
    s.step (.giveBack i) = some (s₁, none) ∧ s₁.free = s.free + 1 ∧
    s₁.ended = s.ended.eraseIdx i
  /-- When a drain returns, all jobs are counted as completed that were accepted before its call.
  The return opens the tracker and changes nothing else, and unless it is closed the pool takes
  jobs. -/
  drains : ∀ s₁ es₁ s₂ s₃, s.step .callDrain = some (s₁, none) → Leads s₁ es₁ s₂ →
    s₂.step (.proceed s.drains.length) = some (s₃, some (.drained s.drains.length)) →
    (∀ t, .accepted t ∈ es → t ∉ s₃.uncompleted ∧ endings (es ++ es₁) t = 1 ∧
      (es ++ es₁).count (.completed t) = 1) ∧
    s₃ = { s₂ with isShut := false, drains := s₂.drains.set s.drains.length .returned } ∧
    (s₃.pool.closed = false → s₃.TakesJobs)
  /-- A submission that fails leaves the jobs and the counters alone, and its job never runs. -/
  refusals : (∀ a s₁ t, s.step a = some (s₁, some (.refused t)) →
      s.pool.closed = true ∧ s₁.pool.jobs = s.pool.jobs ∧
      s₁.pool.submitted = s.pool.submitted ∧ s₁.pool.completed = s.pool.completed ∧
      s₁.pool.panicked = s.pool.panicked) ∧
    ∀ t, .refused t ∈ es → .accepted t ∉ es
  /-- Once the pool is closed, every submission fails, and those in line can only fail or be given
  up.  No job is accepted but those of submissions that had their slot by then. -/
  closed : s.pool.closed = true →
    s.step .submit = some ({ s with tickets := s.tickets + 1 }, some (.refused s.tickets)) ∧
    (∀ i t, s.pool.waiting[i]? = some t → s.step (.takeSlot i) = none ∧
      s.step (.turnAway i) =
        some ({ s with pool := s.pool.withdraw i }, some (.refused t))) ∧
    ∀ es₁ s₁, Leads s es₁ s₁ → s₁.pool.closed = true ∧
      (∀ t, .accepted t ∈ es₁ → t ∈ s.entering ++ s.counted) ∧
      (s.entering = [] → s₁.pool.submitted = s.pool.submitted)

namespace Leads

variable (hr : Leads (ofSize size) es s)
include hr

theorem slots_eq : s.free + s.holders.length = max size 1 := hr.slots

/-- Every submission is in one place, or has gone one way. -/
theorem placed_of_start (t : ℕ) :
    s.pool.waiting.count t + s.entering.count t + s.counted.count t + es.count (.accepted t) +
        es.count (.refused t) + es.count (.withdrawn t) = (List.range s.tickets).count t := by
  simpa [ofSize] using hr.placed t

theorem settled_of_accepted (ht : .accepted t ∈ es) : s.Settled t ∧ es.count (.accepted t) = 1 := by
  have hplaced := hr.placed_of_start t
  have hpos := List.count_pos_iff.mpr ht
  have hone := count_range_le_one s.tickets t
  refine ⟨⟨lt_of_count_range (by omega), ?_, ?_, ?_⟩, by omega⟩
  · exact List.count_eq_zero.mp (by omega)
  · exact List.count_eq_zero.mp (by omega)
  · exact List.count_eq_zero.mp (by omega)

theorem served_of_start (t : ℕ) :
    s.pool.jobs.count t + endings es t = es.count (.accepted t) := by
  simpa [ofSize] using hr.served t

theorem carried_of_start (t : ℕ) :
    s.uncompleted.count t + es.count (.completed t) = es.count (.accepted t) := by
  simpa [ofSize, uncompleted] using hr.carried t

theorem notMem_of_drained {s₁ s₂ s₃ : SharedPool} {es₁ : List PoolEvent}
    (hcall : s.step .callDrain = some (s₁, none)) (hr₁ : Leads s₁ es₁ s₂)
    (hs : s₂.step (.proceed s.drains.length) = some (s₃, some (.drained s.drains.length)))
    (ht : .accepted t ∈ es) : t ∉ s₃.uncompleted := by
  have hcalled : Leads (ofSize size) es s₁ := by simpa using hr.snoc hcall
  have hsettled := (hcalled.settled_of_accepted ht).1
  have hnot : ∀ p, s₁.drains[s.drains.length]? = some p → ¬ p.IsPast := by
    intro p hp
    cases hcall
    simp only [List.getElem?_concat_length, Option.some.injEq] at hp
    subst hp
    exact id
  -- a drain returns from past its wait
  have hlast := hsettled.notMem_of_past (hcalled.tracked rfl) hnot hr₁
  cases move_of_step hs with
  | drained hd => exact hlast _ hd trivial

end Leads

/-- Whatever the size of a pool, and in whatever order submissions, ends and panics of jobs, drains
and its closing take their steps: no more have a slot than there are slots; an accepted job runs or
has ended, is counted as completed once, and its slot comes free whichever way it ends; a drain
returns only when all jobs are counted that were accepted before its call, and the pool takes jobs
afterwards; once it is closed it takes none, and those it has taken can end. -/
theorem disciplined (hr : Leads (ofSize size) es s) : Disciplined size es s where
  slots := by
    have hslots := hr.slots_eq
    exact ⟨by omega, hslots⟩
  submitted := by
    have hsubmitted := hr.counters.1
    simp only [ofSize, Pool.ofSize, List.length_nil] at hsubmitted
    exact ⟨by omega, hr.submitted_eq rfl⟩
  completed := by
    have hcompleted := hr.counters.2.1
    simp only [ofSize, Pool.ofSize] at hcompleted
    omega
  panicked := by
    have hpanicked := hr.counters.2.2
    simp only [ofSize, Pool.ofSize, List.length_nil] at hpanicked
    exact ⟨by omega, hr.panicked_le (Nat.zero_le _)⟩
  once t ht := by
    have hone := (hr.settled_of_accepted ht).2
    exact ⟨hone, (hr.served_of_start t).trans hone, (hr.carried_of_start t).trans hone⟩
  others t ht := by
    have hserved := hr.served_of_start t
    have hcarried := hr.carried_of_start t
    rw [List.count_eq_zero.mpr ht] at hserved hcarried
    exact ⟨List.count_eq_zero.mp (by omega), by omega, by omega⟩
  ends i t ht panics := by
    refine ⟨_, step_finish ht panics, ?_, ?_⟩
    · cases panics <;> simp [endJob]
    · cases panics <;> simp [endJob]
  notes i t ht := ⟨_, step_countPanic ht, rfl, rfl⟩
  completes i t b ht := ⟨_, step_complete ht, rfl, rfl⟩
  frees i t ht := ⟨_, step_giveBack ht, rfl, rfl⟩
  drains s₁ es₁ s₂ s₃ hcall hr₁ hs := by
    have hall : Leads (ofSize size) (es ++ es₁) s₂ := by
      simpa using (hr.snoc hcall).trans hr₁
    have hreturned : s₃ =
        { s₂ with isShut := false, drains := s₂.drains.set s.drains.length .returned } := by
      cases move_of_step hs
      rfl
    refine ⟨fun t ht => ?_, hreturned, fun hopen => ?_⟩
    · have hgone := hr.notMem_of_drained hcall hr₁ hs ht
      have hone := (hall.settled_of_accepted (List.mem_append_left es₁ ht)).2
      have hserved := hall.served_of_start t
      have hcarried := hall.carried_of_start t
      rw [hreturned] at hgone
      have hzero : s₂.uncompleted.count t = 0 := List.count_eq_zero.mpr hgone
      have hjobs : s₂.pool.jobs.count t = 0 := by
        simp only [uncompleted, List.count_append] at hzero
        omega
      rw [hreturned]
      exact ⟨hgone, by omega, by omega⟩
    · have hslots := (hall.snoc hs).slots_eq
      exact takesJobs (by omega) hopen
  refusals := by
    refine ⟨fun a s₁ t hs => (move_of_step hs).of_refused, fun t href hacc => ?_⟩
    have hplaced := hr.placed_of_start t
    have hrefused := List.count_pos_iff.mpr href
    have haccepted := List.count_pos_iff.mpr hacc
    have hone := count_range_le_one s.tickets t
    omega
  closed hc := by
    refine ⟨step_submit_of_closed hc, fun i t ht => ⟨?_, step_turnAway ht hc⟩, ?_⟩
    · simp [step, ht, hc]
    intro es₁ s₁ hr₁
    obtain ⟨hclosed, -, hsubmitted⟩ := hr₁.closed_entering hc 0
    refine ⟨hclosed, fun t ht => ?_, fun hnone => ?_⟩
    · have hcount := (hr₁.closed_entering hc t).2.1
      have hpos := List.count_pos_iff.mpr ht
      rw [← List.count_pos_iff, List.count_append]
      omega
    · rw [hnone, List.length_nil] at hsubmitted
      have hle := hr₁.submitted_le
      omega

namespace Sample

/-- What the users of a pool with one slot do.  The first job panics while a drain waits and another
submission is in line; the drain waits for both jobs.  After it a third job is accepted, and the
pool is closed while that runs. -/
def busyDay : List PoolAction :=
  [.submit, .count 0, .start 0, .submit, .callDrain, .proceed 0, .proceed 0, .finish 0 true,
    .countPanic 0, .complete 0, .giveBack 0, .takeSlot 0, .count 0, .start 0, .leave 0,
    .finish 0 false, .complete 0, .giveBack 0, .leave 0, .proceed 0, .proceed 0, .submit, .count 0,
    .start 0, .close, .submit]

def report : List PoolEvent :=
  [.accepted 0, .ended 0 true, .completed 0, .accepted 1, .ended 1 false, .completed 1, .drained 0,
    .accepted 2, .refused 3]

def atDusk : SharedPool :=
  ⟨⟨1, [2], [], 3, 2, 1, true⟩, 0, [], [], [], [], [], [], 1, false, [.returned], 4⟩

/-- One job runs and two have ended; a submission has failed, and so does the next. -/
theorem disciplined_of_busyDay : Leads (ofSize 0) report atDusk ∧ Disciplined 0 report atDusk ∧
    endings report 0 = 1 ∧
    atDusk.step .submit =
      some ({ atDusk with tickets := atDusk.tickets + 1 }, some (.refused 4)) := by
  have hr : Leads (ofSize 0) report atDusk := .of_follow busyDay rfl
  have hd := disciplined hr
  exact ⟨hr, hd, (hd.once 0 (by decide)).2.1, (hd.closed rfl).1⟩

/-- Neither relation holds at every moment: a submission is counted before its job is accepted, and
a panic before the job is counted as completed. -/
theorem counted_apart :
    (∃ s, Leads (ofSize 1) [] s ∧ s.pool.submitted = 1 ∧ s.pool.completed = 0 ∧
      s.pool.jobs = []) ∧
    ∃ s, Leads (ofSize 1) [.accepted 0, .ended 0 true] s ∧ s.pool.panicked = 1 ∧
      s.pool.completed = 0 := by
  refine ⟨⟨_, .of_follow [.submit, .count 0] rfl, rfl, rfl, rfl⟩, ?_⟩
  exact ⟨_, .of_follow [.submit, .count 0, .start 0, .finish 0 true, .countPanic 0] rfl, rfl, rfl⟩

end Sample

end SharedPool

end Recon
