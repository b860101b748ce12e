import Mathlib.Data.List.Count
import Mathlib.Data.List.Perm.Basic
import Recon.Proofs.Task.Pool
import Recon.Task.SharedPool

/-!
# Moves of a pool in shared use

Each step of `SharedPool.step` is one of the moves of `SharedPool.Move`, with the guard under which
it is possible.  No move loses a slot or a submission: what one list has less another has more, or
an event tells where it went.  So a run keeps the same balances, from whichever state it sets out.
-/

namespace Recon

namespace PoolEvent

def isAccepted : PoolEvent → Bool
  | .accepted _ => true
  | _ => false

def isPanic : PoolEvent → Bool
  | .ended _ panicked => panicked
  | _ => false

def isCompletion : PoolEvent → Bool
  | .completed _ => true
  | _ => false

end PoolEvent

def DrainPhase.IsPast : DrainPhase → Prop
  | .waiting isDue => isDue = true
  | .leaving | .returned => True
  | .called | .shut => False

namespace SharedPool

inductive Move (s : SharedPool) : PoolAction → SharedPool → Option PoolEvent → Prop
  | refused (hc : s.pool.closed = true) :
      Move s .submit { s with tickets := s.tickets + 1 } (some (.refused s.tickets))
  | entered (hc : s.pool.closed = false) (h : s.pool.waiting.length < s.free) :
      Move s .submit (enter { s with tickets := s.tickets + 1 } s.tickets) none
  | queued (hc : s.pool.closed = false) (h : s.free ≤ s.pool.waiting.length) :
      Move s .submit { s with
        pool := { s.pool with waiting := s.pool.waiting ++ [s.tickets] }
        tickets := s.tickets + 1 } none
  | admitted {i t} (ht : s.pool.waiting[i]? = some t) (hc : s.pool.closed = false)
      (h : i < s.free) :
      Move s (.takeSlot i) (enter { s with pool := s.pool.withdraw i } t) none
  | turnedAway {i t} (ht : s.pool.waiting[i]? = some t) (hc : s.pool.closed = true) :
      Move s (.turnAway i) { s with pool := s.pool.withdraw i } (some (.refused t))
  | withdrawn {i t} (ht : s.pool.waiting[i]? = some t) :
      Move s (.withdraw i) { s with pool := s.pool.withdraw i } (some (.withdrawn t))
  | counted {i t} (ht : s.entering[i]? = some t) :
      Move s (.count i) { s with
        pool := { s.pool with submitted := s.pool.submitted + 1 }
        entering := s.entering.eraseIdx i
        counted := s.counted ++ [t] } none
  | started {i t} (ht : s.counted[i]? = some t) :
      Move s (.start i) { s with
        pool := { s.pool with jobs := s.pool.jobs ++ [t] }
        counted := s.counted.eraseIdx i
        inside := s.inside + 1 } (some (.accepted t))
  | broke {i t} (ht : s.pool.jobs[i]? = some t) :
      Move s (.finish i true) { s with
        pool := { s.pool with jobs := s.pool.jobs.eraseIdx i }
        broken := s.broken ++ [t] } (some (.ended t true))
  | returned {i t} (ht : s.pool.jobs[i]? = some t) :
      Move s (.finish i false) { s with
        pool := { s.pool with jobs := s.pool.jobs.eraseIdx i }
        finished := s.finished ++ [(t, false)] } (some (.ended t false))
  | panicCounted {i t} (ht : s.broken[i]? = some t) :
      Move s (.countPanic i) { s with
        pool := { s.pool with panicked := s.pool.panicked + 1 }
        broken := s.broken.eraseIdx i
        finished := s.finished ++ [(t, true)] } none
  | completed {i t panicked} (ht : s.finished[i]? = some (t, panicked)) :
      Move s (.complete i) { s with
        pool := { s.pool with completed := s.pool.completed + 1 }
        finished := s.finished.eraseIdx i
        ended := s.ended ++ [t] } (some (.completed t))
  | gaveBack {i t} (ht : s.ended[i]? = some t) :
      Move s (.giveBack i) { s with
        free := s.free + 1
        ended := s.ended.eraseIdx i
        parting := s.parting ++ [t] } none
  | left {i} (hi : i < s.parting.length) :
      Move s (.leave i)
        (notify { s with parting := s.parting.eraseIdx i, inside := s.inside - 1 }) none
  | drainCalled : Move s .callDrain { s with drains := s.drains ++ [.called] } none
  | drainShut {d} (hd : s.drains[d]? = some .called) :
      Move s (.proceed d) (s.shutTracker.put d .shut) none
  | drainWaits {d} (hd : s.drains[d]? = some .shut) :
      Move s (.proceed d) (s.put d (.waiting (s.isShut && s.inside == 0))) none
  | drainSaw {d} (hd : s.drains[d]? = some (.waiting true)) :
      Move s (.proceed d) (s.put d .leaving) none
  | drained {d} (hd : s.drains[d]? = some .leaving) :
      Move s (.proceed d) ({ s with isShut := false }.put d .returned) (some (.drained d))
  | closed : Move s .close { s with pool := s.pool.close } none
  | shut (hc : s.pool.closed = true) : Move s .shut s.shutTracker none

variable {s s' s'' : SharedPool} {a : PoolAction} {e : Option PoolEvent} {es es' : List PoolEvent}
  {i d t : ℕ}

theorem move_of_stepDrain {phase : DrainPhase} (hd : s.drains[d]? = some phase)
    (hs : s.stepDrain d phase = some (s', e)) : Move s (.proceed d) s' e := by
  cases phase with
  | called =>
    cases hs
    exact .drainShut hd
  | shut =>
    cases hs
    exact .drainWaits hd
  | waiting isDue =>
    cases isDue <;> cases hs
    exact .drainSaw hd
  | leaving =>
    cases hs
    exact .drained hd
  | returned => cases hs

/-- Every step is one of the moves. -/
theorem move_of_step (hs : s.step a = some (s', e)) : Move s a s' e := by
  cases a
  case submit =>
    simp only [step, submit] at hs
    split at hs
    · next hc =>
      cases hs
      exact .refused hc
    · next hc =>
      have hopen : s.pool.closed = false := by simpa using hc
      split at hs <;> cases hs
      · exact .entered hopen ‹_›
      · exact .queued hopen (by omega)
  case takeSlot i =>
    simp only [step] at hs
    split at hs <;> try cases hs
    next ht =>
      split at hs <;> cases hs
      next hguard =>
        simp only [Bool.and_eq_true, Bool.not_eq_true', decide_eq_true_eq] at hguard
        exact .admitted ht hguard.1 hguard.2
  case turnAway i =>
    simp only [step] at hs
    split at hs <;> try cases hs
    split at hs <;> cases hs
    exact .turnedAway ‹_› ‹_›
  case withdraw i =>
    simp only [step] at hs
    split at hs <;> cases hs
    exact .withdrawn ‹_›
  case count i =>
    simp only [step] at hs
    split at hs <;> cases hs
    exact .counted ‹_›
  case start i =>
    simp only [step] at hs
    split at hs <;> cases hs
    exact .started ‹_›
  case finish i panics =>
    simp only [step] at hs
    split at hs <;> cases hs
    cases panics
    · exact .returned ‹_›
    · exact .broke ‹_›
  case countPanic i =>
    simp only [step] at hs
    split at hs <;> cases hs
    exact .panicCounted ‹_›
  case complete i =>
    simp only [step] at hs
    split at hs <;> cases hs
    exact .completed ‹_›
  case giveBack i =>
    simp only [step] at hs
    split at hs <;> cases hs
    exact .gaveBack ‹_›
  case leave i =>
    simp only [step] at hs
    split at hs <;> cases hs
    exact .left ‹_›
  case callDrain =>
    cases hs
    exact .drainCalled
  case proceed d =>
    simp only [step] at hs
    split at hs <;> try cases hs
    exact move_of_stepDrain ‹_› hs
  case close =>
    cases hs
    exact .closed
  case shut =>
    simp only [step] at hs
    split at hs <;> cases hs
    exact .shut ‹_›

/-! ### Balances -/

/-- Jobs that run, or are over and not counted as completed. -/
def uncompleted (s : SharedPool) : List ℕ := s.pool.jobs ++ s.broken ++ s.finished.map Prod.fst

theorem count_eraseIdx {l : List ℕ} (h : l[i]? = some t) (u : ℕ) :
    l.count u = (l.eraseIdx i).count u + [t].count u := by
  obtain ⟨hi, rfl⟩ := List.getElem?_eq_some_iff.mp h
  rw [← (List.getElem_cons_eraseIdx_perm hi).count_eq, ← List.singleton_append, List.count_append,
    add_comm]

theorem length_eraseIdx_add_one {α : Type} {a : α} {l : List α} (h : l[i]? = some a) :
    (l.eraseIdx i).length + 1 = l.length :=
  List.length_eraseIdx_add_one (List.getElem?_eq_some_iff.mp h).1

/-- A job among those that are over, by its ticket alone. -/
theorem getElem?_fst {l : List (ℕ × Bool)} {panicked : Bool} (h : l[i]? = some (t, panicked)) :
    (l.map Prod.fst)[i]? = some t := by
  rw [List.getElem?_map, h]
  rfl

namespace Move

/-- Slots that are taken and slots that are free. -/
theorem slots (hm : Move s a s' e) :
    s'.free + s'.entering.length + s'.counted.length + s'.uncompleted.length + s'.ended.length =
      s.free + s.entering.length + s.counted.length + s.uncompleted.length + s.ended.length := by
  simp only [uncompleted, List.length_append, List.length_map]
  cases hm with
  | entered hc h =>
    simp only [enter, List.length_append, List.length_singleton]
    omega
  | admitted ht hc h =>
    simp only [enter, Pool.jobs_withdraw, List.length_append, List.length_singleton]
    omega
  | gaveBack ht =>
    have hlength := length_eraseIdx_add_one ht
    simp only
    omega
  | counted ht | started ht | broke ht | returned ht | panicCounted ht | completed ht =>
    -- one list hands its element on to another
    have hlength := length_eraseIdx_add_one ht
    simp only [List.length_append, List.length_singleton]
    omega
  | _ => rfl

/-- The tracker counts the jobs that run, those that are over and those that part. -/
theorem tracked (hm : Move s a s' e)
    (h : s.inside = s.uncompleted.length + s.ended.length + s.parting.length) :
    s'.inside = s'.uncompleted.length + s'.ended.length + s'.parting.length := by
  simp only [uncompleted, List.length_append, List.length_map] at h ⊢
  cases hm with
  | started ht =>
    simp only [List.length_append, List.length_singleton]
    omega
  | broke ht | returned ht | panicCounted ht | completed ht | gaveBack ht =>
    have hlength := length_eraseIdx_add_one ht
    simp only [List.length_append, List.length_singleton]
    omega
  | left hi =>
    have hlength := List.length_eraseIdx_add_one hi
    simp only [notify]
    omega
  | _ => exact h

/-- Where submissions are and where they have gone. -/
theorem placed (hm : Move s a s' e) (u : ℕ) :
    s'.pool.waiting.count u + s'.entering.count u + s'.counted.count u +
        e.toList.count (.accepted u) + e.toList.count (.refused u) +
        e.toList.count (.withdrawn u) + (List.range s.tickets).count u =
      s.pool.waiting.count u + s.entering.count u + s.counted.count u +
        (List.range s'.tickets).count u := by
  -- a submission that is made gets the next number; every other step moves it on by one place
  cases hm with
  | refused hc =>
    simp [List.range_succ, List.count_singleton]
    omega
  | entered hc h =>
    simp [enter, List.range_succ]
    omega
  | queued hc h =>
    simp [List.range_succ]
    omega
  | admitted ht hc h =>
    have hcount := count_eraseIdx ht u
    simp [enter]
    omega
  | turnedAway ht hc =>
    have hcount := count_eraseIdx ht u
    simp [List.count_singleton] at hcount ⊢
    omega
  | withdrawn ht =>
    have hcount := count_eraseIdx ht u
    simp [List.count_singleton] at hcount ⊢
    omega
  | counted ht =>
    have hcount := count_eraseIdx ht u
    simp
    omega
  | started ht =>
    have hcount := count_eraseIdx ht u
    simp [List.count_singleton] at hcount ⊢
    omega
  | broke ht | returned ht | completed ht => simp
  | drained hd => simp [put]
  | _ => rfl

/-- Which jobs run and which have ended. -/
theorem served (hm : Move s a s' e) (u : ℕ) :
    s'.pool.jobs.count u + e.toList.count (.ended u true) + e.toList.count (.ended u false) =
      s.pool.jobs.count u + e.toList.count (.accepted u) := by
  cases hm with
  | broke ht =>
    have hcount := count_eraseIdx ht u
    simp [List.count_singleton] at hcount ⊢
    omega
  | returned ht =>
    have hcount := count_eraseIdx ht u
    simp [List.count_singleton] at hcount ⊢
    omega
  | started ht => simp [List.count_singleton]
  | refused hc => simp
  | turnedAway ht hc => simp
  | withdrawn ht => simp
  | completed ht => simp
  | drained hd => simp [put]
  | _ => rfl

/-- Which jobs that were accepted are counted as completed. -/
theorem carried (hm : Move s a s' e) (u : ℕ) :
    s'.uncompleted.count u + e.toList.count (.completed u) =
      s.uncompleted.count u + e.toList.count (.accepted u) := by
  simp only [uncompleted, List.count_append]
  cases hm with
  | started ht =>
    simp [List.count_singleton]
    omega
  | broke ht | returned ht | panicCounted ht =>
    have hcount := count_eraseIdx ht u
    simp
    omega
  | completed ht =>
    have hcount := count_eraseIdx (getElem?_fst ht) u
    simp [List.count_singleton, List.eraseIdx_map] at hcount ⊢
    omega
  | refused hc => simp
  | turnedAway ht hc => simp
  | withdrawn ht => simp
  | drained hd => simp [put]
  | _ => rfl

/-- The counters count events, but for submissions that are counted before their job starts and
panics that are counted after they happen. -/
theorem counters (hm : Move s a s' e) :
    s'.pool.submitted + s.counted.length =
        s.pool.submitted + s'.counted.length + e.toList.countP PoolEvent.isAccepted ∧
      s'.pool.completed = s.pool.completed + e.toList.countP PoolEvent.isCompletion ∧
      s'.pool.panicked + s'.broken.length =
        s.pool.panicked + s.broken.length + e.toList.countP PoolEvent.isPanic := by
  cases hm with
  | counted ht =>
    simp only [List.length_append, List.length_singleton]
    refine ⟨?_, rfl, rfl⟩
    simp only [Option.toList, List.countP_nil]
    omega
  | started ht =>
    have hlength := length_eraseIdx_add_one ht
    refine ⟨?_, rfl, rfl⟩
    simp [PoolEvent.isAccepted]
    omega
  | broke ht =>
    refine ⟨rfl, rfl, ?_⟩
    simp [PoolEvent.isPanic]
    omega
  | panicCounted ht =>
    have hlength := length_eraseIdx_add_one ht
    refine ⟨rfl, rfl, ?_⟩
    simp
    omega
  | _ => exact ⟨rfl, rfl, rfl⟩

/-- A submission that is counted has its job before it, or has one that is not counted as completed,
or one that is. -/
theorem submitted_eq (hm : Move s a s' e)
    (h : s.pool.submitted = s.pool.completed + s.uncompleted.length + s.counted.length) :
    s'.pool.submitted = s'.pool.completed + s'.uncompleted.length + s'.counted.length := by
  simp only [uncompleted, List.length_append, List.length_map] at h ⊢
  cases hm with
  | counted ht =>
    simp only [List.length_append, List.length_singleton]
    omega
  | started ht | broke ht | returned ht | panicCounted ht | completed ht =>
    have hlength := length_eraseIdx_add_one ht
    simp only [List.length_append, List.length_singleton]
    omega
  | _ => exact h

theorem submitted_le (hm : Move s a s' e) : s.pool.submitted ≤ s'.pool.submitted := by
  cases hm with
  | counted ht => exact Nat.le_succ _
  | _ => exact Nat.le_refl _

/-- A panic that is counted is one of a job that is counted as completed or about to be. -/
theorem panicked_le (hm : Move s a s' e)
    (h : s.pool.panicked ≤ s.pool.completed + s.finished.countP Prod.snd) :
    s'.pool.panicked ≤ s'.pool.completed + s'.finished.countP Prod.snd := by
  cases hm with
  | returned ht => simpa using h
  | panicCounted ht =>
    simp
    omega
  | @completed i t panicked ht =>
    obtain ⟨hi, hjob⟩ := List.getElem?_eq_some_iff.mp ht
    have hone : [(t, panicked)].countP Prod.snd ≤ 1 := List.countP_le_length
    have hcount := (List.getElem_cons_eraseIdx_perm hi).countP_eq Prod.snd
    rw [hjob, ← List.singleton_append, List.countP_append] at hcount
    simp only
    omega
  | _ => exact h

/-- A failure concerns a closed pool only, and leaves its jobs and counters as they are. -/
theorem of_refused (hm : Move s a s' (some (.refused t))) :
    s.pool.closed = true ∧ s'.pool.jobs = s.pool.jobs ∧ s'.pool.submitted = s.pool.submitted ∧
      s'.pool.completed = s.pool.completed ∧ s'.pool.panicked = s.pool.panicked := by
  cases hm with
  | refused hc => exact ⟨hc, rfl, rfl, rfl, rfl⟩
  | turnedAway ht hc => exact ⟨hc, rfl, rfl, rfl, rfl⟩

/-- A closed pool stays closed, and nobody takes a slot any more. -/
theorem closed_entering (hm : Move s a s' e) (hc : s.pool.closed = true) (u : ℕ) :
    s'.pool.closed = true ∧
      s'.entering.count u + s'.counted.count u + e.toList.count (.accepted u) =
        s.entering.count u + s.counted.count u ∧
      s'.pool.submitted + s'.entering.length = s.pool.submitted + s.entering.length := by
  -- what takes a slot needs an open pool
  cases hm with
  | entered hopen h => simp [hc] at hopen
  | queued hopen h => simp [hc] at hopen
  | admitted ht hopen h => simp [hc] at hopen
  | counted ht =>
    have hcount := count_eraseIdx ht u
    have hlength := length_eraseIdx_add_one ht
    refine ⟨hc, ?_, ?_⟩
    · simp
      omega
    · simp only
      omega
  | started ht =>
    have hcount := count_eraseIdx ht u
    refine ⟨hc, ?_, rfl⟩
    simp [List.count_singleton] at hcount ⊢
    omega
  | closed => exact ⟨rfl, rfl, rfl⟩
  | refused _ => simp [hc]
  | turnedAway ht _ => simp [hc, Pool.withdraw]
  | withdrawn ht => simp [hc, Pool.withdraw]
  | broke ht | returned ht | completed ht => simp [hc]
  | drained hd => simp [put, hc]
  | _ => exact ⟨hc, rfl, rfl⟩

end Move

/-! ### Drains -/

theorem getElem?_put {p q : DrainPhase} {c : ℕ} (h : (s.put c q).drains[d]? = some p) :
    (c = d ∧ p = q) ∨ (c ≠ d ∧ s.drains[d]? = some p) := by
  by_cases hc : c = d
  · subst hc
    have hlt := (List.getElem?_eq_some_iff.mp h).1
    simp only [put, List.length_set] at hlt
    simp only [put, List.getElem?_set_self hlt, Option.some.injEq] at h
    exact .inl ⟨rfl, h.symm⟩
  · simp only [put, List.getElem?_set_ne hc] at h
    exact .inr ⟨hc, h⟩

/-- A wait that is over now was so before, or nothing is in the tracker. -/
theorem past_of_notify {p : DrainPhase} (h : s.notify.drains[d]? = some p) (hp : p.IsPast) :
    s.inside = 0 ∨ ∃ q, s.drains[d]? = some q ∧ q.IsPast := by
  simp only [notify, List.getElem?_map, Option.map_eq_some_iff] at h
  obtain ⟨q, hq, rfl⟩ := h
  cases q with
  | waiting isDue =>
    simp only [DrainPhase.notify, DrainPhase.IsPast, Bool.or_eq_true, Bool.and_eq_true,
      beq_iff_eq] at hp
    rcases hp with hdue | ⟨-, hinside⟩
    · exact .inr ⟨_, hq, hdue⟩
    · exact .inl hinside
  | _ => exact .inr ⟨_, hq, hp⟩

/-- A drain reaches the end of its wait only when nothing is in the tracker. -/
theorem Move.past (hm : Move s a s' e) {p : DrainPhase} (h : s'.drains[d]? = some p)
    (hp : p.IsPast) : s'.inside = 0 ∨ ∃ q, s.drains[d]? = some q ∧ q.IsPast := by
  -- only a notice and a look at the shut tracker bring a drain past its wait
  cases hm with
  | left hi => exact past_of_notify h hp
  | shut hc => exact past_of_notify h hp
  | drainCalled =>
    rw [List.getElem?_append] at h
    split at h
    · exact .inr ⟨p, h, hp⟩
    · obtain rfl := List.mem_singleton.mp (List.mem_of_getElem? h)
      exact hp.elim
  | drainShut hd =>
    rcases getElem?_put h with ⟨-, rfl⟩ | ⟨-, h⟩
    · exact hp.elim
    · exact past_of_notify h hp
  | drainWaits hd =>
    rcases getElem?_put h with ⟨-, rfl⟩ | ⟨-, h⟩
    · simp only [DrainPhase.IsPast, Bool.and_eq_true, beq_iff_eq] at hp
      exact .inl hp.2
    · exact .inr ⟨p, h, hp⟩
  | drainSaw hd =>
    rcases getElem?_put h with ⟨rfl, -⟩ | ⟨-, h⟩
    · exact .inr ⟨_, hd, rfl⟩
    · exact .inr ⟨p, h, hp⟩
  | drained hd =>
    rcases getElem?_put h with ⟨rfl, -⟩ | ⟨-, h⟩
    · exact .inr ⟨_, hd, trivial⟩
    · exact .inr ⟨p, h, hp⟩
  | _ => exact .inr ⟨p, h, hp⟩

end SharedPool

end Recon
