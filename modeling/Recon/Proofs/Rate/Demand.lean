import Mathlib.Algebra.Order.Field.Rat
import Mathlib.Tactic.Linarith
import Mathlib.Tactic.Ring
import Recon.Rate.Meter

/-!
# What a demand does to a bucket

In exact numbers a demand fills a bucket up to the moment, and then either takes a token or is
refused.  The tokens that came in and are no more at hand are never fewer than before, and one more
with each token that is taken; when it is due depends on them alone, unless it is at hand.
-/

namespace Recon.Meter

def between (start stop : ℚ) : ℚ := max 0 (stop - start)

def level (m : Meter ℚ ℚ) (now : ℚ) : ℚ :=
  min (m.bucket.tokens + between m.filled now * m.bucket.rate) m.bucket.burst

/-- The tokens that came in since moment zero and are no more at hand: those taken, and those for
which there was no room. -/
def spent (m : Meter ℚ ℚ) : ℚ := m.bucket.rate * m.filled - m.bucket.tokens

/-- The bucket gives tokens, and holds no more of them than it has room for. -/
structure Sound (m : Meter ℚ ℚ) : Prop where
  rate : 0 < m.bucket.rate
  tokens : m.bucket.tokens ≤ m.bucket.burst

def taken (m : Meter ℚ ℚ) (now : ℚ) : Meter ℚ ℚ := ⟨⟨m.bucket.rate, m.level now - 1⟩, now⟩

/-- When a token that is taken at a moment is due: what is missing of it has come in by then. -/
def due (m : Meter ℚ ℚ) (now : ℚ) : ℚ := now + max 0 (1 - m.level now) / m.bucket.rate

variable {m m' : Meter ℚ ℚ} {now start : ℚ} {d : Demand}

theorem refilled_eq (m : Meter ℚ ℚ) (now : ℚ) :
    m.refilled between now = ⟨⟨m.bucket.rate, m.level now⟩, now⟩ := by
  rw [level, min_def]
  rfl

theorem reserve_eq (m : Meter ℚ ℚ) (now : ℚ) : m.reserve between now =
    (max 0 (1 - m.level now) / m.bucket.rate, m.taken now) := by
  rw [reserve, refilled_eq]
  by_cases h : 1 ≤ m.level now
  · simp [Bucket.reserve, taken, h]
  · have hmax : max 0 (1 - m.level now) = 1 - m.level now := max_eq_right (by linarith)
    simp [Bucket.reserve, taken, h, hmax]

theorem attempt_eq (m : Meter ℚ ℚ) (now : ℚ) : m.attempt between now =
    if 1 ≤ m.level now then (true, m.taken now) else (false, m.refilled between now) := by
  rw [attempt, refilled_eq]
  by_cases h : 1 ≤ m.level now <;> simp [Bucket.take?, taken, h]

/-- A demand either takes a token, or is an attempt that finds none and leaves what there is. -/
theorem serve_cases (m : Meter ℚ ℚ) (now : ℚ) (d : Demand) :
    m.serve between now d = (some (max 0 (1 - m.level now) / m.bucket.rate), m.taken now) ∨
      d = .attempt ∧ m.level now < 1 ∧ m.serve between now d = (none, m.refilled between now) := by
  cases d with
  | reserve =>
    refine .inl ?_
    rw [serve, reserve_eq]
  | attempt =>
    rw [serve, attempt_eq]
    by_cases h : 1 ≤ m.level now
    · simp [h]
    · simp [h, not_le.mp h]

/-- Who is refused takes nothing. -/
theorem refilled_of_refused (h : (m.serve between now d).1 = none) :
    m.serve between now d = (none, m.refilled between now) := by
  rcases m.serve_cases now d with hs | ⟨-, -, hs⟩
  · rw [hs] at h
    cases h
  · exact hs

theorem level_le_burst (m : Meter ℚ ℚ) (now : ℚ) : m.level now ≤ m.bucket.burst := min_le_right _ _

theorem level_le_add (h : m.filled ≤ now) :
    m.level now ≤ m.bucket.tokens + m.bucket.rate * (now - m.filled) := by
  have hbetween : between m.filled now = now - m.filled := max_eq_right (by linarith)
  calc m.level now ≤ m.bucket.tokens + between m.filled now * m.bucket.rate := min_le_left _ _
    _ = m.bucket.tokens + m.bucket.rate * (now - m.filled) := by rw [hbetween, mul_comm]

theorem one_le_burst (m : Meter ℚ ℚ) : (1 : ℚ) ≤ m.bucket.burst :=
  Nat.one_le_cast.mpr (Nat.le_max_right _ _)

theorem Sound.taken (hm : m.Sound) (now : ℚ) : (m.taken now).Sound where
  rate := hm.rate
  tokens := (sub_le_self _ zero_le_one).trans (m.level_le_burst now)

theorem Sound.refilled (hm : m.Sound) (now : ℚ) : (m.refilled between now).Sound := by
  rw [refilled_eq]
  exact ⟨hm.rate, m.level_le_burst now⟩

@[simp] theorem rate_taken (m : Meter ℚ ℚ) (now : ℚ) :
    (m.taken now).bucket.rate = m.bucket.rate := rfl

@[simp] theorem filled_taken (m : Meter ℚ ℚ) (now : ℚ) : (m.taken now).filled = now := rfl

@[simp] theorem burst_taken (m : Meter ℚ ℚ) (now : ℚ) :
    (m.taken now).bucket.burst = m.bucket.burst := rfl

@[simp] theorem rate_refilled (m : Meter ℚ ℚ) (now : ℚ) :
    (m.refilled between now).bucket.rate = m.bucket.rate := rfl

@[simp] theorem filled_refilled (m : Meter ℚ ℚ) (now : ℚ) :
    (m.refilled between now).filled = now := rfl

/-! ### Filling up -/

/-- What is done depends only on what there is when the bucket is filled up. -/
theorem serve_congr (h : m.refilled between now = m'.refilled between now)
    (d : Demand) : m.serve between now d = m'.serve between now d := by
  have hreserve : m.reserve between now = m'.reserve between now := by rw [reserve, h, reserve]
  have hattempt : m.attempt between now = m'.attempt between now := by rw [attempt, h, attempt]
  cases d with
  | reserve => rw [serve, hreserve, serve]
  | attempt => rw [serve, hattempt, serve]

/-- Filling up earlier as well changes nothing. -/
theorem refilled_refilled (hstart : m.filled ≤ start) (hnow : start ≤ now) :
    (m.refilled between start).refilled between now = m.refilled between now := by
  have hfirst : between m.filled start = start - m.filled := max_eq_right (by linarith)
  have hsecond : between start now = now - start := max_eq_right (by linarith)
  have hboth : between m.filled now = now - m.filled := max_eq_right (by linarith)
  have hlater : 0 ≤ (now - start) * m.bucket.rate :=
    mul_nonneg (by linarith) (Nat.cast_nonneg _)
  have hsum : (start - m.filled) * m.bucket.rate + (now - start) * m.bucket.rate =
      (now - m.filled) * m.bucket.rate := by ring
  have hlevel : (m.refilled between start).level now = m.level now := by
    have hburst : Bucket.burst ⟨m.bucket.rate, m.level start⟩ = m.bucket.burst := rfl
    rw [refilled_eq, level, hburst, hsecond, level, level, hfirst, hboth, ← hsum, ← add_assoc]
    -- a bucket that was full is full again
    rcases le_total (m.bucket.tokens + (start - m.filled) * m.bucket.rate) m.bucket.burst with
      hle | hle
    · rw [min_eq_left hle]
    · rw [min_eq_right hle, min_eq_right (by linarith), min_eq_right (by linarith)]
  rw [refilled_eq (m.refilled between start), hlevel, refilled_eq m now]
  rfl

theorem sound_ofRate (rate : ℕ) (start : ℚ) : (ofRate rate start : Meter ℚ ℚ).Sound :=
  ⟨Nat.lt_of_lt_of_le Nat.zero_lt_one (Nat.le_max_right _ _), le_refl _⟩

/-- A full bucket stays full, whenever it was filled up. -/
theorem refilled_ofRate (rate : ℕ) (start now : ℚ) :
    (ofRate rate start : Meter ℚ ℚ).refilled between now = ofRate rate now := by
  have hmore : 0 ≤ between start now * (max rate 1 : ℕ) :=
    mul_nonneg (le_max_left _ _) (Nat.cast_nonneg _)
  have hlevel : (ofRate rate start : Meter ℚ ℚ).level now = Bucket.burstOf (max rate 1) :=
    min_eq_right (le_add_of_nonneg_right hmore)
  rw [refilled_eq, hlevel]
  rfl

/-! ### What a demand spends -/

theorem spent_taken (m : Meter ℚ ℚ) (now : ℚ) :
    (m.taken now).spent = m.bucket.rate * now - (m.level now - 1) := rfl

/-- Taking a token spends at least that one. -/
theorem spent_add_one_le_taken (h : m.filled ≤ now) : m.spent + 1 ≤ (m.taken now).spent := by
  have hle := level_le_add h
  rw [spent_taken, spent]
  linarith

/-- Filling up brings no more than comes in. -/
theorem spent_le_refilled (h : m.filled ≤ now) : m.spent ≤ (m.refilled between now).spent := by
  have hle := level_le_add h
  rw [refilled_eq, spent, spent]
  linarith

theorem le_due (m : Meter ℚ ℚ) (now : ℚ) : now ≤ m.due now :=
  le_add_of_nonneg_right (div_nonneg (le_max_left _ _) (Nat.cast_nonneg _))

/-- A token is due when as many have come in as are spent with it, and not before it is taken. -/
theorem rate_mul_due (hm : m.Sound) (now : ℚ) :
    m.bucket.rate * m.due now = max (m.bucket.rate * now) (m.taken now).spent := by
  have hrate : (m.bucket.rate : ℚ) ≠ 0 := Nat.cast_ne_zero.mpr hm.rate.ne'
  rw [due, mul_add, mul_div_cancel₀ _ hrate, spent_taken, ← max_add_add_left, add_zero]
  congr 1
  ring

theorem spent_le_rate_mul_due (hm : m.Sound) (now : ℚ) :
    (m.taken now).spent ≤ m.bucket.rate * m.due now := by
  rw [rate_mul_due hm]
  exact le_max_right _ _

/-- By the time it is due no more than a full bucket, less this token, has come in that is not
spent. -/
theorem rate_mul_due_le (hm : m.Sound) (now : ℚ) :
    m.bucket.rate * m.due now ≤ (m.taken now).spent + (m.bucket.burst - 1) := by
  have hlevel := m.level_le_burst now
  have hburst := m.one_le_burst
  have hnow : m.bucket.rate * now ≤ (m.taken now).spent + (m.bucket.burst - 1) := by
    rw [spent_taken]
    linarith
  rw [rate_mul_due hm]
  exact max_le hnow (by linarith)

end Recon.Meter
