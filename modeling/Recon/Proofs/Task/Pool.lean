import Mathlib.Data.Multiset.Bind
import Mathlib.Tactic.Abel
import Recon.Proofs.List.Sum
import Recon.Task.Pool

/-!
# Jobs and weights of pools

What each operation does to the lists of a pool, and what its jobs are worth together, those in
line included.  Starting, changing and ending a job moves its own weight only, and a job that gets
room from the line moves none.
-/

namespace Recon.Pool

section Lists

variable {α : Type} {p q : Pool α} {a : α}

@[simp] theorem jobs_ofSize (n : ℕ) : (ofSize n : Pool α).jobs = [] := rfl
@[simp] theorem waiting_ofSize (n : ℕ) : (ofSize n : Pool α).waiting = [] := rfl
@[simp] theorem closed_ofSize (n : ℕ) : (ofSize n : Pool α).closed = false := rfl

@[simp] theorem jobs_update (p : Pool α) (i : ℕ) (a : α) :
    (p.update i a).jobs = p.jobs.set i a := rfl
@[simp] theorem waiting_update (p : Pool α) (i : ℕ) (a : α) :
    (p.update i a).waiting = p.waiting := rfl
@[simp] theorem closed_update (p : Pool α) (i : ℕ) (a : α) :
    (p.update i a).closed = p.closed := rfl

@[simp] theorem jobs_withdraw (p : Pool α) (i : ℕ) : (p.withdraw i).jobs = p.jobs := rfl
@[simp] theorem waiting_withdraw (p : Pool α) (i : ℕ) :
    (p.withdraw i).waiting = p.waiting.eraseIdx i := rfl
@[simp] theorem closed_withdraw (p : Pool α) (i : ℕ) : (p.withdraw i).closed = p.closed := rfl

@[simp] theorem jobs_close (p : Pool α) : p.close.jobs = p.jobs := rfl
@[simp] theorem waiting_close (p : Pool α) : p.close.waiting = p.waiting := rfl

@[simp] theorem jobs_finish (p : Pool α) (i : ℕ) (panicked : Bool) :
    (p.finish i panicked).jobs = p.jobs.eraseIdx i := by
  unfold finish
  split
  · rfl
  · next hi => exact (List.eraseIdx_of_length_le (Nat.le_of_not_lt hi)).symm

@[simp] theorem waiting_finish (p : Pool α) (i : ℕ) (panicked : Bool) :
    (p.finish i panicked).waiting = p.waiting := by
  unfold finish
  split <;> rfl

@[simp] theorem closed_finish (p : Pool α) (i : ℕ) (panicked : Bool) :
    (p.finish i panicked).closed = p.closed := by
  unfold finish
  split <;> rfl

@[simp] theorem closed_submit (p : Pool α) (a : α) : (p.submit a).2.closed = p.closed := by
  unfold submit
  split
  · rfl
  · split <;> rfl

theorem closed_of_submit {answer : Answer} (h : p.submit a = (answer, q)) :
    q.closed = p.closed := by
  rw [← closed_submit p a, h]

theorem open_of_submit {answer : Answer} (h : p.submit a = (answer, q))
    (ha : answer ≠ .refused) : p.closed = false := by
  by_contra hc
  rw [submit, if_pos (eq_true_of_ne_false hc)] at h
  cases h
  exact ha rfl

theorem submit_accepted (h : p.submit a = (.accepted, q)) :
    p.waiting = [] ∧ q.jobs = p.jobs ++ [a] ∧ q.waiting = [] := by
  unfold submit at h
  split at h
  · cases h
  · split at h
    · next hw =>
      cases h
      have hw := List.isEmpty_iff.mp (Bool.and_eq_true_iff.mp hw).1
      exact ⟨hw, rfl, hw⟩
    · cases h

theorem submit_queued (h : p.submit a = (.queued, q)) :
    q.jobs = p.jobs ∧ q.waiting = p.waiting ++ [a] := by
  unfold submit at h
  split at h
  · cases h
  · split at h <;> cases h
    exact ⟨rfl, rfl⟩

theorem submit_refused (h : p.submit a = (.refused, q)) : q = p ∧ p.closed = true := by
  unfold submit at h
  split at h
  · next hc =>
    cases h
    exact ⟨rfl, hc⟩
  · split at h <;> cases h

/-- What `admit?` asks for and gives. -/
theorem admit?_eq_some (h : p.admit? = some (a, q)) :
    ∃ rest, p.waiting = a :: rest ∧ q.waiting = rest ∧ q.jobs = p.jobs ++ [a] ∧
      q.closed = p.closed := by
  unfold admit? at h
  split at h
  · cases h
  · next job rest hw =>
    split at h
    · cases h
      exact ⟨rest, hw, rfl, rfl, rfl⟩
    · cases h

theorem closed_of_admit (h : p.admit? = some (a, q)) : q.closed = p.closed := by
  obtain ⟨_, _, _, _, hq⟩ := admit?_eq_some h
  exact hq

end Lists

variable {α M : Type} [AddCommMonoid M] {f : α → M} {p q : Pool α} {a b : α} {i : ℕ}

def weigh (f : α → M) (p : Pool α) : M := (p.jobs.map f).sum + (p.waiting.map f).sum

@[simp] theorem weigh_ofSize (f : α → M) (n : ℕ) : weigh f (ofSize n) = 0 := by
  simp [weigh, ofSize]

@[simp] theorem weigh_close (f : α → M) (p : Pool α) : weigh f p.close = weigh f p := rfl

theorem weigh_eq_zero (h : p.jobs = []) (hw : p.waiting = []) : weigh f p = 0 := by
  simp [weigh, h, hw]

theorem mem_weigh {β : Type} {f : α → Multiset β} {b : β} :
    b ∈ weigh f p ↔ (∃ a ∈ p.jobs, b ∈ f a) ∨ ∃ a ∈ p.waiting, b ∈ f a := by
  have hb (as : List α) : (as.map f).sum = (as : Multiset α).bind f := rfl
  rw [weigh, Multiset.mem_add, hb, hb, Multiset.mem_bind, Multiset.mem_bind]
  simp only [Multiset.mem_coe]

/-- A job that runs is a part of the weight; a change replaces this part and an end removes it. -/
theorem weigh_split (f : α → M) (h : p.jobs[i]? = some a) :
    ∃ m, weigh f p = f a + m ∧ (∀ b, weigh f (p.update i b) = f b + m) ∧
      ∀ panicked, weigh f (p.finish i panicked) = m := by
  obtain ⟨m, h0, hs, he⟩ := sum_map_split f h
  refine ⟨m + (p.waiting.map f).sum, ?_, ?_, ?_⟩
  · rw [weigh, h0, add_assoc]
  · intro b
    rw [weigh, jobs_update, waiting_update, hs, add_assoc]
  · intro panicked
    rw [weigh, jobs_finish, waiting_finish, he]

theorem weigh_update_eq (h : p.jobs[i]? = some a) (hf : f b = f a) :
    weigh f (p.update i b) = weigh f p := by
  obtain ⟨m, h0, hu, _⟩ := weigh_split f h
  rw [hu, h0, hf]

theorem weigh_finish_eq {panicked : Bool} (h : p.jobs[i]? = some a) (hf : f a = 0) :
    weigh f (p.finish i panicked) = weigh f p := by
  obtain ⟨m, h0, _, hd⟩ := weigh_split f h
  rw [hd, h0, hf, zero_add]

theorem weigh_start (f : α → M) (p : Pool α) (a : α) : weigh f (p.start a) = f a + weigh f p := by
  simp only [weigh, start, List.map_append, List.sum_append, List.map_cons, List.map_nil,
    List.sum_cons, List.sum_nil]
  abel

theorem weigh_submit {answer : Answer} (f : α → M) (h : p.submit a = (answer, q))
    (ha : answer ≠ .refused) : weigh f q = f a + weigh f p := by
  unfold submit at h
  split at h
  · cases h
    exact absurd rfl ha
  · split at h
    · cases h
      exact weigh_start f p a
    · cases h
      simp only [weigh, List.map_append, List.sum_append, List.map_cons, List.map_nil,
        List.sum_cons, List.sum_nil]
      abel

/-- A job that gets room is worth as much as it was in line. -/
theorem weigh_admit (f : α → M) (h : p.admit? = some (a, q)) : weigh f q = weigh f p := by
  obtain ⟨rest, hw, hq, hj, _⟩ := admit?_eq_some h
  simp only [weigh, hw, hq, hj, List.map_append, List.sum_append, List.map_cons, List.map_nil,
    List.sum_cons, List.sum_nil]
  abel

theorem weigh_withdraw (f : α → M) {rest : List α} (h : p.waiting = a :: rest) :
    f a + weigh f (p.withdraw 0) = weigh f p := by
  simp only [weigh, withdraw, h, List.eraseIdx_cons_zero, List.map_cons, List.sum_cons]
  abel

end Recon.Pool
