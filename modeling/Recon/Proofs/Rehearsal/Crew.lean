import Recon.Proofs.Task.Discipline
import Recon.Rehearsal.Crew

/-!
# Rehearsed pools are pools in shared use

A rehearsed pool goes from one point to the next at which no submission is about to start its job
and no job is about to be counted or to give its slot back.  A pool in shared use can come to rest
at each of these points with the same jobs, the same line and the same counters, if its users take
their steps one after the other.  So what holds of every run in shared use holds of rehearsals.
-/

namespace Recon

/-! ### Names of jobs -/

namespace Pool

variable {α β : Type} {p q : Pool α} {a b : α} {i : ℕ}

def map (f : α → β) (p : Pool α) : Pool β :=
  ⟨p.size, p.jobs.map f, p.waiting.map f, p.submitted, p.completed, p.panicked, p.closed⟩

theorem hasRoom_map (f : α → β) (p : Pool α) : (p.map f).hasRoom = p.hasRoom := by
  simp [map, hasRoom]

theorem isEmpty_waiting_map (f : α → β) (p : Pool α) :
    (p.map f).waiting.isEmpty = p.waiting.isEmpty :=
  List.isEmpty_map

theorem map_submit (f : α → β) (p : Pool α) (a : α) :
    (p.map f).submit (f a) = ((p.submit a).1, (p.submit a).2.map f) := by
  have hclosed : (p.map f).closed = p.closed := rfl
  simp only [submit, hclosed, isEmpty_waiting_map, hasRoom_map]
  split_ifs <;> simp only [start, map, List.map_append, List.map_cons, List.map_nil]

theorem admit?_eq_some_iff :
    p.admit? = some (a, q) ↔ ∃ rest, p.waiting = a :: rest ∧ p.closed = false ∧
      p.hasRoom = true ∧ q = start { p with waiting := rest } a := by
  unfold admit?
  cases hw : p.waiting with
  | nil => simp
  | cons b rest =>
    cases p.closed <;> cases p.hasRoom <;> simp
    grind

theorem reject?_eq_some_iff :
    p.reject? = some (a, q) ↔ ∃ rest, p.waiting = a :: rest ∧ p.closed = true ∧
      q = { p with waiting := rest } := by
  unfold reject?
  cases hw : p.waiting with
  | nil => simp
  | cons b rest =>
    cases p.closed <;> simp
    grind

theorem map_admit? (f : α → β) (h : p.admit? = some (a, q)) :
    (p.map f).admit? = some (f a, q.map f) := by
  obtain ⟨rest, hw, hopen, hroom, rfl⟩ := admit?_eq_some_iff.mp h
  refine admit?_eq_some_iff.mpr ⟨rest.map f, by simp [map, hw], hopen, ?_, ?_⟩
  · rwa [hasRoom_map]
  · simp [start, map]

theorem map_reject? (f : α → β) (h : p.reject? = some (a, q)) :
    (p.map f).reject? = some (f a, q.map f) := by
  obtain ⟨rest, hw, hc, rfl⟩ := reject?_eq_some_iff.mp h
  exact reject?_eq_some_iff.mpr ⟨rest.map f, by simp [map, hw], hc, rfl⟩

theorem map_finish (f : α → β) (p : Pool α) (i : ℕ) (panicked : Bool) :
    (p.map f).finish i panicked = (p.finish i panicked).map f := by
  simp only [finish, map, List.length_map]
  split_ifs <;> simp only [List.eraseIdx_map]

/-- A job that keeps its name may change. -/
theorem map_update (f : α → β) (h : p.jobs[i]? = some a) (hf : f b = f a) :
    (p.update i b).map f = p.map f := by
  obtain ⟨hi, rfl⟩ := List.getElem?_eq_some_iff.mp h
  have hset : (p.jobs.set i b).map f = p.jobs.map f := by
    apply List.ext_getElem (by simp)
    intro k hk hk'
    by_cases hik : i = k
    · subst hik
      simp [hf]
    · simp [hik]
  simp [update, map, hset]

end Pool

/-! ### Pools at rest -/

namespace SharedPool

/-- Nobody is between two steps but the drains. -/
structure AtRest (s : SharedPool) : Prop where
  entering : s.entering = []
  counted : s.counted = []
  broken : s.broken = []
  finished : s.finished = []
  ended : s.ended = []
  parting : s.parting = []
  free : s.free + s.pool.jobs.length = s.pool.size

section Paths

variable {s : SharedPool} {es : List PoolEvent} {i t size : ℕ}

/-- At rest nothing is counted apart from what it counts. -/
theorem AtRest.counters (hs : s.AtRest) (hr : Leads (ofSize size) es s) :
    s.pool.submitted = s.pool.completed + s.pool.jobs.length ∧
      s.pool.panicked ≤ s.pool.completed := by
  have hsubmitted := hr.submitted_eq rfl
  have hpanicked := hr.panicked_le (Nat.zero_le _)
  simp only [uncompleted, hs.counted, hs.broken, hs.finished, List.map_nil, List.append_nil,
    List.length_nil, List.countP_nil] at hsubmitted hpanicked
  exact ⟨hsubmitted, hpanicked⟩

/-- The only submission with a slot goes on to start its job. -/
theorem leads_begin (hentering : s.entering = [t]) (hcounted : s.counted = []) :
    Leads s [.accepted t] { s with
      pool := s.pool.start t
      entering := []
      counted := []
      inside := s.inside + 1 } := by
  have hcount := step_count (s := s) (i := 0) (t := t) (by simp [hentering])
  have hstart := (Leads.of_step hcount).snoc
    (step_start (i := 0) (t := t) (by simp [hcounted]))
  simpa [hentering, hcounted, Pool.start] using hstart

/-- The only job that is over goes on to leave. -/
theorem leads_leave {b : Bool} (hfinished : s.finished = [(t, b)]) (hended : s.ended = [])
    (hparting : s.parting = []) :
    Leads s [.completed t] (notify { s with
      pool := { s.pool with completed := s.pool.completed + 1 }
      free := s.free + 1
      finished := []
      ended := []
      parting := []
      inside := s.inside - 1 }) := by
  have hcomplete := step_complete (s := s) (i := 0) (t := t) (b := b) (by simp [hfinished])
  have hback := (Leads.of_step hcomplete).snoc
    (step_giveBack (i := 0) (t := t) (by simp [hended]))
  have hleave := hback.snoc (step_leave (i := 0) (by simp [hparting]))
  simpa [hfinished, hended, hparting] using hleave

/-- At rest a job ends, is counted, gives its slot back and leaves. -/
theorem AtRest.leads_end (hs : s.AtRest) (ht : s.pool.jobs[i]? = some t) (panics : Bool) :
    Leads s [.ended t panics, .completed t] (notify { s with
      pool := s.pool.finish i panics
      free := s.free + 1
      broken := []
      finished := []
      ended := []
      parting := []
      inside := s.inside - 1 }) := by
  have hi := (List.getElem?_eq_some_iff.mp ht).1
  have hfinish := Leads.of_step (step_finish ht panics)
  cases panics with
  | false =>
    have hleave := hfinish.trans (leads_leave (t := t) (b := false)
      (by simp [endJob, hs.finished]) hs.ended hs.parting)
    simpa [endJob, Pool.finish, hi, hs.broken] using hleave
  | true =>
    have hcount := hfinish.snoc (step_countPanic (i := 0) (t := t) (by simp [endJob, hs.broken]))
    have hleave := hcount.trans (leads_leave (t := t) (b := true)
      (by simp [endJob, hs.finished]) hs.ended hs.parting)
    simpa [endJob, Pool.finish, hi, hs.broken] using hleave

end Paths

def Rests (size : ℕ) (p : Pool ℕ) (tickets : ℕ) : Prop :=
  ∃ es s, Leads (ofSize size) es s ∧ s.AtRest ∧ s.pool = p ∧ s.tickets = tickets

namespace Rests

variable {size i k t : ℕ} {p q : Pool ℕ} {answer : Pool.Answer}

theorem ofSize (size : ℕ) : Rests size (.ofSize size) 0 :=
  ⟨[], .ofSize size, .refl, ⟨rfl, rfl, rfl, rfl, rfl, rfl, rfl⟩, rfl, rfl⟩

theorem close (h : Rests size p k) : Rests size p.close k := by
  obtain ⟨es, s, hr, hs, rfl, rfl⟩ := h
  have hstep : s.step .close = some ({ s with pool := s.pool.close }, none) := rfl
  exact ⟨_, _, hr.snoc hstep, { hs with }, rfl, rfl⟩

/-- A job ends, gives its slot back and leaves. -/
theorem finish (h : Rests size p k) (ht : p.jobs[i]? = some t) (panics : Bool) :
    Rests size (p.finish i panics) k := by
  obtain ⟨es, s, hr, hs, rfl, rfl⟩ := h
  have hi := (List.getElem?_eq_some_iff.mp ht).1
  have hlength := length_eraseIdx_add_one ht
  have hfree := hs.free
  refine ⟨_, _, hr.trans (hs.leads_end ht panics), ?_, rfl, rfl⟩
  refine ⟨hs.entering, hs.counted, rfl, rfl, rfl, rfl, ?_⟩
  simp only [notify, Pool.finish, if_pos hi]
  omega

/-- The first in line takes the next slot and starts his job. -/
theorem letIn (h : Rests size p k) (ha : p.admit? = some (t, q)) : Rests size q k := by
  obtain ⟨es, s, hr, hs, rfl, rfl⟩ := h
  obtain ⟨rest, hw, hopen, hroom, rfl⟩ := Pool.admit?_eq_some_iff.mp ha
  have hfree := hs.free
  simp only [Pool.hasRoom, decide_eq_true_eq] at hroom
  have htake := step_takeSlot (s := s) (i := 0) (t := t) (by simp [hw]) hopen (by omega)
  have hstart := (hr.snoc htake).trans
    (leads_begin (t := t) (by simp [enter, hs.entering]) hs.counted)
  refine ⟨_, _, hstart, ⟨rfl, rfl, hs.broken, hs.finished, hs.ended, hs.parting, ?_⟩, ?_, rfl⟩
  · simp only [enter, Pool.start, Pool.withdraw, List.length_append, List.length_singleton]
    omega
  · simp [enter, Pool.withdraw, hw]

/-- The first in line is turned away. -/
theorem reject (h : Rests size p k) (ha : p.reject? = some (t, q)) : Rests size q k := by
  obtain ⟨es, s, hr, hs, rfl, rfl⟩ := h
  obtain ⟨rest, hw, hc, rfl⟩ := Pool.reject?_eq_some_iff.mp ha
  have haway := step_turnAway (s := s) (i := 0) (t := t) (by simp [hw]) hc
  refine ⟨_, _, hr.snoc haway, { hs with }, ?_, rfl⟩
  simp [Pool.withdraw, hw]

/-- A submission is answered or joins the line, if nobody in line could have a slot. -/
theorem submit (h : Rests size p k) (ha : p.submit k = (answer, q))
    (hline : p.waiting = [] ∨ p.hasRoom = false) : Rests size q (k + 1) := by
  obtain ⟨es, s, hr, hs, rfl, rfl⟩ := h
  have hfree := hs.free
  unfold Pool.submit at ha
  split at ha
  · next hc =>
    cases ha
    exact ⟨_, _, hr.snoc (step_submit_of_closed hc), { hs with }, rfl, rfl⟩
  · next hc =>
    have hopen := eq_false_of_ne_true hc
    simp only [Pool.hasRoom, decide_eq_false_iff_not] at hline
    split at ha <;> cases ha
    · next hguard =>
      simp only [Bool.and_eq_true, List.isEmpty_iff, Pool.hasRoom, decide_eq_true_eq] at hguard
      obtain ⟨hw, hroom⟩ := hguard
      have hpos : s.pool.waiting.length < s.free := by
        rw [hw, List.length_nil]
        omega
      have hstart := (hr.snoc (step_submit_of_free hopen hpos)).trans
        (leads_begin (t := s.tickets) (by simp [enter, hs.entering]) hs.counted)
      refine ⟨_, _, hstart, ⟨rfl, rfl, hs.broken, hs.finished, hs.ended, hs.parting, ?_⟩, rfl, rfl⟩
      simp only [enter, Pool.start, List.length_append, List.length_singleton]
      omega
    · next hguard =>
      simp only [Bool.and_eq_true, List.isEmpty_iff, Pool.hasRoom, decide_eq_true_eq] at hguard
      -- with nobody in line there is no slot, and with somebody there is none by assumption
      have hfull : s.free ≤ s.pool.waiting.length := by
        have hroom : ¬ s.pool.jobs.length < s.pool.size := by
          rcases hline with hw | hroom
          · exact fun hroom => hguard ⟨hw, hroom⟩
          · exact hroom
        omega
      exact ⟨_, _, hr.snoc (step_submit_of_full hopen hfull), { hs with }, rfl, rfl⟩

end Rests

end SharedPool

/-! ### Rehearsals -/

namespace Crew

inductive Rehearsed (size : ℕ) : Crew → Prop
  | start : Rehearsed size (.ofSize size)
  | submit {c : Crew} (h : Rehearsed size c) (chore : Chore) (isAwaited : Bool) :
      Rehearsed size (c.submit chore isAwaited).2
  | pass {c : Crew} (h : Rehearsed size c) (millis : ℕ) : Rehearsed size (c.pass millis)
  | drain {c : Crew} (h : Rehearsed size c) : Rehearsed size c.drain
  | close {c : Crew} (h : Rehearsed size c) : Rehearsed size c.close

variable {size : ℕ} {c c' : Crew} {shift : Shift}

def Sound (size : ℕ) (c : Crew) : Prop :=
  SharedPool.Rests size (c.pool.map Shift.ticket) c.tickets

def IsSettled (c : Crew) : Prop := c.pool.waiting = [] ∨ c.pool.hasRoom = false

theorem end?_eq_some (h : c.end? = some c') :
    ∃ i s, c.pool.jobs[i]? = some s ∧ c'.pool = c.pool.finish i s.chore.breaks ∧
      c'.tickets = c.tickets := by
  unfold end? at h
  split at h
  · cases h
  · next i hi =>
    obtain ⟨s, hs, rfl⟩ := Option.map_eq_some_iff.mp h
    exact ⟨i, s, hs, rfl, rfl⟩

theorem Sound.end? (hc : c.Sound size) (h : c.end? = some c') :
    c'.Sound size ∧ c'.pool.waiting = c.pool.waiting := by
  obtain ⟨i, s, hs, hpool, htickets⟩ := end?_eq_some h
  refine ⟨?_, by simp [hpool]⟩
  have hjob : (c.pool.map Shift.ticket).jobs[i]? = some s.ticket := by simp [Pool.map, hs]
  rw [Sound, hpool, htickets, ← Pool.map_finish]
  exact hc.finish hjob _

theorem Sound.endWithin (hc : c.Sound size) (fuel : ℕ) :
    (c.endWithin fuel).Sound size ∧ (c.endWithin fuel).pool.waiting = c.pool.waiting := by
  induction fuel generalizing c with
  | zero => exact ⟨hc, rfl⟩
  | succ fuel ih =>
    unfold Crew.endWithin
    split
    · next c' h =>
      obtain ⟨hc', hw⟩ := hc.end? h
      obtain ⟨hsound, hwaiting⟩ := ih hc'
      exact ⟨hsound, hwaiting.trans hw⟩
    · exact ⟨hc, rfl⟩

theorem Sound.endAll (hc : c.Sound size) :
    c.endAll.Sound size ∧ c.endAll.pool.waiting = c.pool.waiting :=
  hc.endWithin _

/-- A job that has just begun is told when it is due, and keeps its ticket. -/
theorem map_begin {jobs : List Shift} (h : c.pool.jobs = jobs ++ [shift]) :
    (c.begin shift).pool.map Shift.ticket = c.pool.map Shift.ticket := by
  have hlast : c.pool.jobs[c.pool.jobs.length - 1]? = some shift := by simp [h]
  exact Pool.map_update Shift.ticket hlast rfl

theorem Sound.answer? (hc : c.Sound size) (h : c.answer? = some c') :
    c'.Sound size ∧ c'.pool.waiting.length + 1 = c.pool.waiting.length := by
  unfold Crew.answer? at h
  split at h
  · next shift pool hreject =>
    cases h
    refine ⟨hc.reject (Pool.map_reject? Shift.ticket hreject), ?_⟩
    obtain ⟨rest, hw, -, rfl⟩ := Pool.reject?_eq_some_iff.mp hreject
    simp [answer, hw]
  · obtain ⟨⟨shift, pool⟩, hfirst, rfl⟩ := Option.map_eq_some_iff.mp h
    obtain ⟨rest, hw, -, -, hpool⟩ := Pool.admit?_eq_some_iff.mp hfirst
    have hjobs : pool.jobs = c.pool.jobs ++ [shift] := by rw [hpool]; rfl
    refine ⟨?_, ?_⟩
    · have hrests := hc.letIn (Pool.map_admit? Shift.ticket hfirst)
      rwa [Sound, map_begin (c := { c with pool }) hjobs]
    · simp [begin, answer, hw, hpool, Pool.start]

theorem isSettled_of_answer? (h : c.answer? = none) : c.IsSettled := by
  unfold Crew.answer? at h
  split at h
  · cases h
  · next hreject =>
    have hfirst := Option.map_eq_none_iff.mp h
    cases hw : c.pool.waiting with
    | nil => exact .inl hw
    | cons shift rest =>
      -- it could be turned away if the pool were closed, and let in if there were room
      refine .inr (eq_false_of_ne_true fun hroom => ?_)
      cases hc : c.pool.closed with
      | true =>
        rw [Pool.reject?_eq_some_iff.mpr ⟨rest, hw, hc, rfl⟩] at hreject
        cases hreject
      | false =>
        rw [Pool.admit?_eq_some_iff.mpr ⟨rest, hw, hc, hroom, rfl⟩] at hfirst
        cases hfirst

theorem Sound.settleWithin (hc : c.Sound size) {fuel : ℕ} (hf : c.pool.waiting.length ≤ fuel) :
    (c.settleWithin fuel).Sound size ∧ (c.settleWithin fuel).IsSettled := by
  induction fuel generalizing c with
  | zero =>
    obtain ⟨hsound, hwaiting⟩ := hc.endAll
    have hnone := List.eq_nil_of_length_eq_zero (Nat.le_zero.mp hf)
    exact ⟨hsound, .inl (hwaiting.trans hnone)⟩
  | succ fuel ih =>
    obtain ⟨hsound, hwaiting⟩ := hc.endAll
    simp only [Crew.settleWithin]
    split
    · next c' h =>
      obtain ⟨hc', hlength⟩ := hsound.answer? h
      rw [hwaiting] at hlength
      exact ih hc' (by omega)
    · next h => exact ⟨hsound, isSettled_of_answer? h⟩

theorem Sound.settle (hc : c.Sound size) : c.settle.Sound size ∧ c.settle.IsSettled :=
  hc.settleWithin le_rfl

theorem Sound.runUntil (hc : c.Sound size) (hs : c.IsSettled) (limit : ℕ)
    (isEnough : Crew → Bool) (fuel : ℕ) :
    (c.runUntil limit isEnough fuel).Sound size ∧ (c.runUntil limit isEnough fuel).IsSettled := by
  induction fuel generalizing c with
  | zero => exact ⟨hc, hs⟩
  | succ fuel ih =>
    unfold Crew.runUntil
    split
    · next due hdue =>
      split
      · have hended : ({ c with now := max c.now due }.endAll).Sound size :=
          (Sound.endAll (c := { c with now := max c.now due }) hc).1
        have hsettled := hended.settle
        simp only
        split
        · exact hsettled
        · split
          · exact hsettled
          · exact ih hsettled.1 hsettled.2
      · exact ⟨hc, hs⟩
    · exact ⟨hc, hs⟩

theorem Sound.await (hc : c.Sound size) (hs : c.IsSettled) (isEnough : Crew → Bool) :
    (c.await isEnough).Sound size ∧ (c.await isEnough).IsSettled := by
  unfold Crew.await
  split
  · exact ⟨hc, hs⟩
  · exact hc.runUntil hs _ _ _

/-- The pool after a submission, before anything else happens. -/
theorem Sound.afterSubmit (hc : c.Sound size) (hs : c.IsSettled) (hshift : shift.ticket = c.tickets)
    {answer : Pool.Answer} {pool : Pool Shift} (h : c.pool.submit shift = (answer, pool)) :
    SharedPool.Rests size (pool.map Shift.ticket) (c.tickets + 1) := by
  have hmap := Pool.map_submit Shift.ticket c.pool shift
  rw [h, hshift] at hmap
  refine SharedPool.Rests.submit hc hmap ?_
  rw [Pool.hasRoom_map]
  exact hs.imp_left fun hw => by simp [Pool.map, hw]

/-- Everything happens that needs no time, and if need be time passes. -/
theorem Sound.goOn (hc : c.Sound size) (isAwaited : Bool) (isEnough : Crew → Bool) :
    (if isAwaited = true then c.settle.await isEnough else c.settle).Sound size ∧
      (if isAwaited = true then c.settle.await isEnough else c.settle).IsSettled := by
  have hsettled := hc.settle
  split
  · exact hsettled.1.await hsettled.2 isEnough
  · exact hsettled

theorem Sound.submit (hc : c.Sound size) (hs : c.IsSettled) (chore : Chore) (isAwaited : Bool) :
    (c.submit chore isAwaited).2.Sound size ∧ (c.submit chore isAwaited).2.IsSettled := by
  cases h : c.pool.submit ⟨c.tickets, chore, isAwaited, 0⟩ with
  | mk answer pool =>
    have hrests := hc.afterSubmit hs rfl h
    cases answer with
    | accepted =>
      obtain ⟨-, hjobs, -⟩ := Pool.submit_accepted h
      rw [← map_begin (c := { c with pool, tickets := c.tickets + 1 }) hjobs] at hrests
      simp only [Crew.submit, h]
      exact Sound.goOn hrests isAwaited _
    | queued =>
      simp only [Crew.submit, h]
      exact Sound.goOn (c := { c with pool, tickets := c.tickets + 1 }) hrests isAwaited _
    | refused =>
      rw [(Pool.submit_refused h).1] at hrests
      simp only [Crew.submit, h]
      exact Sound.goOn
        (c := answer { c with tickets := c.tickets + 1 } ⟨c.tickets, chore, isAwaited, 0⟩ false)
        hrests isAwaited _

theorem Sound.close (hc : c.Sound size) : c.close.Sound size ∧ c.close.IsSettled := by
  have hclosed : ({ c with pool := c.pool.close } : Crew).Sound size := SharedPool.Rests.close hc
  exact hclosed.settle

theorem Rehearsed.sound (h : Rehearsed size c) : c.Sound size ∧ c.IsSettled := by
  induction h with
  | start => exact ⟨.ofSize size, .inl rfl⟩
  | submit _ chore isAwaited ih => exact ih.1.submit ih.2 chore isAwaited
  | pass _ millis ih => exact ih.1.runUntil ih.2 _ _ _
  | drain _ ih => exact ih.1.await ih.2 _
  | close _ ih => exact ih.1.close

/-- However a pool is rehearsed, some run of it in shared use comes to rest with the same jobs, the
same line and the same counters. -/
theorem Rehearsed.leads (h : Rehearsed size c) :
    ∃ es s, SharedPool.Leads (.ofSize size) es s ∧ s.AtRest ∧
      s.pool = c.pool.map Shift.ticket := by
  obtain ⟨es, s, hr, hs, hpool, -⟩ := h.sound.1
  exact ⟨es, s, hr, hs, hpool⟩

/-- So no more jobs run than the size allows, and the counters differ by those that run. -/
theorem Rehearsed.bounded (h : Rehearsed size c) :
    c.pool.jobs.length ≤ max size 1 ∧
      c.pool.submitted = c.pool.completed + c.pool.jobs.length ∧
      c.pool.panicked ≤ c.pool.completed := by
  obtain ⟨es, s, hr, hs, hpool⟩ := h.leads
  have hslots := hr.slots_eq
  have hcounters := hs.counters hr
  simp only [SharedPool.holders, SharedPool.uncompleted, hpool, Pool.map, List.length_append,
    List.length_map] at hslots hcounters
  exact ⟨by omega, hcounters⟩

end Crew

end Recon
