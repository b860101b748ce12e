import Mathlib.Data.Nat.ModEq
import Mathlib.Data.Set.Finite.Basic
import Mathlib.Order.Interval.Set.Basic
import Recon.Proofs.Random.Traversal
import Recon.Random.Word

/-!
# Drawn traversals

Whatever is drawn, a traversal starts below its size and its step has no common divisor with the
size, so it visits every index below the size once and then starts over.  For sizes of sixty-four
bits all numbers on the way fit into words, and no draw is from an empty range.
-/

namespace Recon

variable {σ : Type}

namespace Traversal

/-- What is required of a step: it has no common divisor with the size, and lies in the middle half
or is the last resort. -/
def IsStep (size step : ℕ) : Prop :=
  Nat.gcd step size = 1 ∧
    (max (size / 4) 1 ≤ step ∧ step < size - size / 4 ∨ step = size - 1)

/-- The number before another has no common divisor with it. -/
theorem gcd_pred {size : ℕ} (h : 0 < size) : Nat.gcd (size - 1) size = 1 := by
  have hc : Nat.Coprime (size - 1) (size - 1 + 1) := by simp
  rwa [Nat.sub_add_cancel h] at hc

theorem isStep_drawStep (d : Draws σ) {size : ℕ} (h : 2 < size) (tries : ℕ) (s : σ) :
    IsStep size (drawStep d size h tries s).1 := by
  induction tries generalizing s with
  | zero => exact ⟨gcd_pred (by omega), .inr rfl⟩
  | succ tries ih =>
    rw [drawStep]
    have hlo := d.le_between s _ _ (lowStep_lt_highStep h)
    have hhi := d.between_lt s _ _ (lowStep_lt_highStep h)
    dsimp only
    split
    · next hg => exact ⟨Nat.gcd_comm _ _ ▸ hg, .inl ⟨hlo, hhi⟩⟩
    · exact ih _

theorem size_draw (d : Draws σ) (size : ℕ) (s : σ) : (draw d size s).1.size = size := by
  unfold draw
  split
  · rfl
  · dsimp only
    split <;> rfl

theorem first_draw_lt (d : Draws σ) {size : ℕ} (h : 0 < size) (s : σ) :
    (draw d size s).1.first < size := by
  rw [draw, dif_neg (by omega)]
  dsimp only
  split <;> exact (d.below s size h).1.isLt

theorem isStep_draw (d : Draws σ) {size : ℕ} (h : 2 < size) (s : σ) :
    IsStep size (draw d size s).1.step := by
  rw [draw, dif_neg (by omega)]
  dsimp only
  rw [dif_pos h]
  exact isStep_drawStep d h _ _

theorem gcd_step_draw (d : Draws σ) {size : ℕ} (h : 0 < size) (s : σ) :
    Nat.gcd (draw d size s).1.step size = 1 := by
  by_cases h2 : 2 < size
  · exact (isStep_draw d h2 s).1
  · -- the step of a small size is one
    rw [draw, dif_neg (by omega)]
    dsimp only
    rw [dif_neg h2]
    exact Nat.gcd_one_left size

/-- A drawn traversal visits every index below its size once. -/
theorem covers_draw (d : Draws σ) (size : ℕ) (s : σ) :
    (draw d size s).1.covers size = true := by
  rw [covers_iff]
  refine ⟨size_draw d size s, ?_⟩
  rcases Nat.eq_zero_or_pos size with hz | hpos
  · exact .inl hz
  · exact .inr ⟨first_draw_lt d hpos s, Nat.coprime_comm.mp (gcd_step_draw d hpos s)⟩

theorem range?_eq (d : Draws σ) (s : σ) {lo hi : ℕ} (h : lo < hi) :
    d.range? s lo hi = some (d.between s lo hi h) :=
  dif_pos h

theorem tryStep?_eq (d : Draws σ) {size : ℕ} (h : 2 < size) (tries : ℕ) (s : σ) :
    tryStep? d size (lowStep size) (highStep size) tries s = some (drawStep d size h tries s) := by
  induction tries generalizing s with
  | zero =>
    have hle : 1 ≤ size := by omega
    simp [tryStep?, drawStep, minus?, hle]
  | succ tries ih =>
    rw [tryStep?, range?_eq d s (lowStep_lt_highStep h), Option.bind_eq_bind, Option.bind_some,
      drawStep]
    dsimp only
    split
    · rfl
    · exact ih _

theorem drawStep?_eq (d : Draws σ) {size : ℕ} (h : 2 < size) (s : σ) :
    drawStep? d size s = some (drawStep d size h maxTries s) := by
  have hq : size / 4 ≤ size := Nat.div_le_self size 4
  have hhi : minus? size (size / 4) = some (highStep size) := if_pos hq
  rw [drawStep?, if_neg (by omega), hhi]
  exact tryStep?_eq d h maxTries s

/-- No draw is from an empty range, and no difference is below zero. -/
theorem draw?_eq (d : Draws σ) (size : ℕ) (s : σ) : draw? d size s = some (draw d size s) := by
  unfold draw? draw
  by_cases hz : size = 0
  · simp [hz]
  · have hpos : 0 < size := by omega
    rw [if_neg hz, dif_neg hz, range?_eq d s hpos]
    by_cases h2 : 2 < size
    · simp [Draws.between, drawStep?_eq d h2, h2]
    · simp [Draws.between, drawStep?, h2, Nat.le_of_not_lt h2]

theorem bijOn_get (t : Traversal) (hc : 0 < t.size → Nat.Coprime t.size t.step) :
    Set.BijOn t.get (Set.Iio t.size) (Set.Iio t.size) := by
  have hmaps : Set.MapsTo t.get (Set.Iio t.size) (Set.Iio t.size) :=
    fun i hi => t.get_lt i (Nat.zero_lt_of_lt hi)
  have hinj : Set.InjOn t.get (Set.Iio t.size) :=
    fun i hi j hj h => t.get_injective (hc (Nat.zero_lt_of_lt hi)) hi hj h
  -- a finite set that is mapped into itself without repetition is filled
  exact ((Set.finite_lt_nat t.size).injOn_iff_bijOn_of_mapsTo hmaps).mp hinj

theorem get_add_size (t : Traversal) (i : ℕ) : t.get (i + t.size) = t.get i := by
  unfold get
  split
  · rfl
  · rw [Nat.add_mul, ← Nat.add_assoc, Nat.add_mul_mod_self_left]

/-- In words no number of a visit is too large. -/
theorem get?_eq (t : Traversal) (hs : t.size < 2 ^ 64) (hf : t.first < 2 ^ 64)
    (hp : t.step < 2 ^ 64) {i : ℕ} (hi : i < 2 ^ 64) : t.get? i = some (t.get i) := by
  unfold get? get
  by_cases hz : t.size = 0
  · simp [hz]
  · have hway : i * t.step ≤ (2 ^ 64 - 1) * (2 ^ 64 - 1) := Nat.mul_le_mul (by omega) (by omega)
    have hwide : t.first + i * t.step < wideSize := by
      have hsize : wideSize = 2 ^ 128 := rfl
      omega
    have hindex : (t.first + i * t.step) % t.size < wordSize := by
      have hsize : wordSize = 2 ^ 64 := rfl
      have hlt := Nat.mod_lt (t.first + i * t.step) (Nat.pos_of_ne_zero hz)
      omega
    simp [fitting, modulo?, hz, hwide, hindex, Nat.lt_of_le_of_lt (Nat.le_add_left _ _) hwide]

theorem step_draw_lt (d : Draws σ) {size : ℕ} (h : size < 2 ^ 64) (s : σ) :
    (draw d size s).1.step < 2 ^ 64 := by
  by_cases h2 : 2 < size
  · rcases (isStep_draw d h2 s).2 with ⟨_, hlt⟩ | heq <;> omega
  · unfold draw
    split
    · exact Nat.one_lt_two_pow (by decide)
    · exact Nat.one_lt_two_pow (by decide)

/-- Whatever numbers are drawn, the first index is below the size, and the step has no common
divisor with the size and lies in its middle half, or is the last resort.  In words no draw is from
an empty range and no number is too large.  The visits below the size reach every index below the
size once, and go round after that. -/
theorem drawn_bijective {d : Draws σ} {size : ℕ} {s s' : σ} {t : Traversal}
    (h : size < 2 ^ 64) (hd : draw d size s = (t, s')) :
    t.size = size ∧
    (0 < size → t.first < size ∧ Nat.gcd t.step size = 1) ∧
    (2 < size →
      max (size / 4) 1 ≤ t.step ∧ t.step < size - size / 4 ∨ t.step = size - 1) ∧
    draw? d size s = some (t, s') ∧
    Set.BijOn t.get (Set.Iio size) (Set.Iio size) ∧
    (∀ i, i + size < 2 ^ 64 → t.get (i + size) = t.get i) ∧
    ∀ i < 2 ^ 64, t.get? i = some (t.get i) := by
  have ht : (draw d size s).1 = t := congrArg Prod.fst hd
  have hsize : t.size = size := ht ▸ size_draw d size s
  have hstep : t.step < 2 ^ 64 := ht ▸ step_draw_lt d h s
  refine ⟨hsize, ?_, ?_, ?_, ?_, ?_, ?_⟩
  · intro hpos
    rw [← ht]
    exact ⟨first_draw_lt d hpos s, gcd_step_draw d hpos s⟩
  · intro h2
    rw [← ht]
    exact (isStep_draw d h2 s).2
  · rw [draw?_eq, hd]
  · have hb : Set.BijOn t.get (Set.Iio t.size) (Set.Iio t.size) := by
      refine t.bijOn_get fun hpos => ?_
      rw [hsize] at hpos
      rw [Nat.coprime_comm, hsize, ← ht]
      exact gcd_step_draw d hpos s
    rwa [hsize] at hb
  · intro i _
    rw [← hsize]
    exact t.get_add_size i
  · intro i hi
    refine t.get?_eq (by omega) ?_ hstep hi
    -- without any index the first one is zero
    rcases Nat.eq_zero_or_pos size with rfl | hpos
    · have hz : t.first = 0 := by rw [← ht]; rfl
      omega
    · have hf : t.first < size := ht ▸ first_draw_lt d hpos s
      omega

namespace Sample

def lowest : Draws Unit := ⟨fun _ _ h => (⟨0, h⟩, ())⟩

/-- With the lowest numbers all ten candidates for a step of twelve indices are three, so the step
is the last resort, and the visits go backwards. -/
theorem drawn_bijective_of_last_resort :
    draw lowest 12 () = (⟨12, 0, 11⟩, ()) ∧ draw? lowest 12 () = some (⟨12, 0, 11⟩, ()) ∧
    Set.BijOn (get ⟨12, 0, 11⟩) (Set.Iio 12) (Set.Iio 12) ∧
    get? ⟨12, 0, 11⟩ (2 ^ 64 - 1) = some 9 := by
  have hd : draw lowest 12 () = (⟨12, 0, 11⟩, ()) := rfl
  obtain ⟨_, _, _, hword, hbij, _, hget⟩ := drawn_bijective (by decide) hd
  exact ⟨hd, hword, hbij, (hget _ (by decide)).trans rfl⟩

end Sample

end Traversal

end Recon
