import Recon.Proofs.Rate.Demand

/-!
# Leave is given at the rate and in order

In exact numbers, whatever is asked of a bucket and whenever, leave is given in the order in which
it is asked for, and no more often than the rate allows beyond one full bucket.
-/

namespace Recon.Meter

variable {m : Meter ℚ ℚ} {now start x y : ℚ} {d : Demand} {ds : List (ℚ × Demand)}

/-! ### Demands one after another -/

def after (m : Meter ℚ ℚ) : List (ℚ × Demand) → Meter ℚ ℚ
  | [] => m
  | (now, d) :: ds => (m.serve between now d).2.after ds

/-- The moments at which leave is given, in the order in which it is asked for.  An attempt that is
refused is given none. -/
def grants (m : Meter ℚ ℚ) : List (ℚ × Demand) → List ℚ
  | [] => []
  | (now, d) :: ds =>
    match m.serve between now d with
    | (some delay, m) => (now + delay) :: grants m ds
    | (none, m) => grants m ds

/-- The demands are made one after another, and not before the bucket was filled up last. -/
def Ascends (m : Meter ℚ ℚ) (ds : List (ℚ × Demand)) : Prop :=
  (m.filled :: ds.map Prod.fst).Pairwise (· ≤ ·)

theorem grants_cons (m : Meter ℚ ℚ) (now : ℚ) (d : Demand) (ds : List (ℚ × Demand)) :
    m.grants ((now, d) :: ds) = m.due now :: (m.taken now).grants ds ∨
      m.grants ((now, d) :: ds) = (m.refilled between now).grants ds := by
  rw [grants]
  rcases m.serve_cases now d with h | ⟨-, -, h⟩
  · exact .inl (by rw [h, due])
  · exact .inr (by rw [h])

theorem Ascends.filled_le (h : m.Ascends ((now, d) :: ds)) : m.filled ≤ now :=
  (List.pairwise_cons.mp h).1 now (List.mem_cons_self ..)

theorem Ascends.taken (h : m.Ascends ((now, d) :: ds)) : (m.taken now).Ascends ds :=
  (List.pairwise_cons.mp h).2

theorem Ascends.refilled (h : m.Ascends ((now, d) :: ds)) :
    (m.refilled between now).Ascends ds :=
  (List.pairwise_cons.mp h).2

/-- Leave is not given before it is asked for, nor before as many tokens have come in as are spent
on it and on what was asked for earlier. -/
theorem spent_add_le (hm : m.Sound) (h : m.Ascends ds) {k : ℕ} (hk : (m.grants ds)[k]? = some x) :
    m.filled ≤ x ∧ m.spent + (k + 1) ≤ m.bucket.rate * x := by
  induction ds generalizing m k with
  | nil => simp [grants] at hk
  | cons demand ds ih =>
    obtain ⟨now, d⟩ := demand
    have hnow := h.filled_le
    -- either the first demand is given leave, or it changes nothing but the moment
    rcases m.grants_cons now d ds with hg | hg
    · rw [hg] at hk
      have hspent := spent_add_one_le_taken hnow
      cases k with
      | zero =>
        obtain rfl : m.due now = x := by simpa using hk
        -- what has been spent by then has come in
        have hdue := spent_le_rate_mul_due hm now
        refine ⟨hnow.trans (m.le_due now), ?_⟩
        push_cast
        linarith
      | succ k =>
        obtain ⟨hfilled, hlate⟩ := ih (hm.taken now) h.taken (by simpa using hk)
        rw [filled_taken] at hfilled
        rw [rate_taken] at hlate
        refine ⟨hnow.trans hfilled, ?_⟩
        push_cast
        linarith
    · rw [hg] at hk
      obtain ⟨hfilled, hlate⟩ := ih (hm.refilled now) h.refilled hk
      have hspent := spent_le_refilled hnow
      rw [filled_refilled] at hfilled
      rw [rate_refilled] at hlate
      refine ⟨hnow.trans hfilled, ?_⟩
      linarith

/-- Leave that is given for a demand is not given before what is given for an earlier one. -/
theorem due_le (hm : m.Sound) (h : m.Ascends ((now, d) :: ds)) (hx : x ∈ (m.taken now).grants ds) :
    m.due now ≤ x := by
  have hrate : (0 : ℚ) < m.bucket.rate := Nat.cast_pos.mpr hm.rate
  obtain ⟨k, hk⟩ := List.mem_iff_getElem?.mp hx
  obtain ⟨hnow, hlate⟩ := spent_add_le (hm.taken now) h.taken hk
  rw [filled_taken] at hnow
  rw [rate_taken] at hlate
  have hk : (0 : ℚ) ≤ k := Nat.cast_nonneg k
  refine le_of_mul_le_mul_left ?_ hrate
  rw [rate_mul_due hm]
  exact max_le (mul_le_mul_of_nonneg_left hnow hrate.le) (by linarith)

theorem pairwise_grants (hm : m.Sound) (h : m.Ascends ds) : (m.grants ds).Pairwise (· ≤ ·) := by
  induction ds generalizing m with
  | nil => exact List.Pairwise.nil
  | cons demand ds ih =>
    obtain ⟨now, d⟩ := demand
    rcases m.grants_cons now d ds with hg | hg
    · rw [hg]
      exact List.pairwise_cons.mpr ⟨fun _ => due_le hm h, ih (hm.taken now) h.taken⟩
    · rw [hg]
      exact ih (hm.refilled now) h.refilled

/-- Between two moments at which leave is given, it is given no more often than a full bucket and
what comes in between them allow. -/
theorem count_le (hm : m.Sound) (h : m.Ascends ds) {i j : ℕ} (hij : i ≤ j)
    (hi : (m.grants ds)[i]? = some x) (hj : (m.grants ds)[j]? = some y) :
    (j - i + 1 : ℚ) ≤ m.bucket.burst + m.bucket.rate * (y - x) := by
  induction ds generalizing m i j with
  | nil => simp [grants] at hi
  | cons demand ds ih =>
    obtain ⟨now, d⟩ := demand
    rcases m.grants_cons now d ds with hg | hg
    · rw [hg] at hi hj
      match i, j, hij with
      | 0, 0, _ =>
        obtain rfl : x = y := by simpa using hi.symm.trans hj
        have hone := m.one_le_burst
        simpa using hone
      -- from the first leave on what is spent is bounded below, and up to it above
      | 0, j + 1, _ =>
        obtain rfl : m.due now = x := by simpa using hi
        obtain ⟨-, hlate⟩ := spent_add_le (hm.taken now) h.taken (by simpa using hj)
        rw [rate_taken] at hlate
        have hearly := rate_mul_due_le hm now
        push_cast
        linarith
      | i + 1, j + 1, hij =>
        have hle := ih (hm.taken now) h.taken (Nat.le_of_succ_le_succ hij) (by simpa using hi)
          (by simpa using hj)
        rw [burst_taken, rate_taken] at hle
        push_cast
        linarith
    · rw [hg] at hi hj
      exact ih (hm.refilled now) h.refilled hij hi hj

theorem Sound.after (hm : m.Sound) (ds : List (ℚ × Demand)) :
    (m.after ds).Sound ∧ (m.after ds).bucket.rate = m.bucket.rate := by
  induction ds generalizing m with
  | nil => exact ⟨hm, rfl⟩
  | cons demand ds ih =>
    obtain ⟨now, d⟩ := demand
    rw [Meter.after]
    rcases m.serve_cases now d with hs | ⟨-, -, hs⟩
    · rw [hs]
      exact ih (hm.taken now)
    · rw [hs]
      exact ih (hm.refilled now)

/-! ### Refused attempts -/

theorem grants_refilled (hstart : m.filled ≤ start) (h : (m.refilled between start).Ascends ds) :
    (m.refilled between start).grants ds = m.grants ds := by
  cases ds with
  | nil => rfl
  | cons demand ds =>
    obtain ⟨now, d⟩ := demand
    rw [grants, grants, serve_congr (refilled_refilled hstart h.filled_le)]

theorem grants_append (m : Meter ℚ ℚ) (xs ys : List (ℚ × Demand)) :
    m.grants (xs ++ ys) = m.grants xs ++ (m.after xs).grants ys := by
  induction xs generalizing m with
  | nil => rfl
  | cons demand xs ih =>
    obtain ⟨now, d⟩ := demand
    rw [List.cons_append, grants, grants, after]
    rcases m.serve between now d with ⟨_ | delay, m'⟩
    · exact ih m'
    · exact congrArg _ (ih m')

theorem Ascends.after {xs ys : List (ℚ × Demand)} (h : m.Ascends (xs ++ ys)) :
    (m.after xs).Ascends ys := by
  induction xs generalizing m with
  | nil => exact h
  | cons demand xs ih =>
    obtain ⟨now, d⟩ := demand
    rw [Meter.after]
    rcases m.serve_cases now d with hs | ⟨-, -, hs⟩
    · rw [hs]
      exact ih h.taken
    · rw [hs]
      exact ih h.refilled

/-- All leave is given as without an attempt that is refused. -/
theorem grants_of_refused {xs ys : List (ℚ × Demand)} (h : m.Ascends (xs ++ (now, d) :: ys))
    (hnone : ((m.after xs).serve between now d).1 = none) :
    m.grants (xs ++ (now, d) :: ys) = m.grants (xs ++ ys) := by
  have hafter : (m.after xs).Ascends ((now, d) :: ys) := h.after
  rw [grants_append, grants_append, grants, refilled_of_refused hnone]
  exact congrArg _ (grants_refilled hafter.filled_le hafter.refilled)

/-! ### Buckets that were full -/

theorem grants_ofRate (rate : ℕ) (start start' : ℚ) (ds : List (ℚ × Demand)) :
    (ofRate rate start : Meter ℚ ℚ).grants ds = (ofRate rate start' : Meter ℚ ℚ).grants ds := by
  cases ds with
  | nil => rfl
  | cons demand ds =>
    obtain ⟨now, d⟩ := demand
    rw [grants, grants,
      serve_congr ((refilled_ofRate rate start now).trans (refilled_ofRate rate start' now).symm)]

theorem serve_after_ofRate (rate : ℕ) (start start' now : ℚ) (d : Demand)
    (ds : List (ℚ × Demand)) :
    ((ofRate rate start : Meter ℚ ℚ).after ds).serve between now d =
      ((ofRate rate start' : Meter ℚ ℚ).after ds).serve between now d := by
  have hfull (now : ℚ) : (ofRate rate start : Meter ℚ ℚ).refilled between now =
      (ofRate rate start' : Meter ℚ ℚ).refilled between now :=
    (refilled_ofRate rate start now).trans (refilled_ofRate rate start' now).symm
  cases ds with
  | nil => exact serve_congr (hfull now) d
  | cons demand ds =>
    obtain ⟨before, d'⟩ := demand
    rw [after, after, serve_congr (hfull before)]

theorem ascends_ofRate (rate : ℕ) (h : (ds.map Prod.fst).Pairwise (· ≤ ·))
    (hstart : ∀ demand ∈ ds, start ≤ demand.1) : (ofRate rate start : Meter ℚ ℚ).Ascends ds := by
  refine List.pairwise_cons.mpr ⟨fun t ht => ?_, h⟩
  obtain ⟨demand, hmem, rfl⟩ := List.mem_map.mp ht
  exact hstart demand hmem

theorem exists_le_of_pairwise (h : (ds.map Prod.fst).Pairwise (· ≤ ·)) :
    ∃ start : ℚ, ∀ demand ∈ ds, start ≤ demand.1 := by
  cases ds with
  | nil => exact ⟨0, by simp⟩
  | cons demand ds =>
    refine ⟨demand.1, fun later hlater => ?_⟩
    rcases List.mem_cons.mp hlater with rfl | hmem
    · exact le_refl _
    · exact (List.pairwise_cons.mp h).1 _ (List.mem_map_of_mem hmem)

theorem pairwise_grants_ofRate (rate : ℕ) (start : ℚ) (h : (ds.map Prod.fst).Pairwise (· ≤ ·)) :
    ((ofRate rate start : Meter ℚ ℚ).grants ds).Pairwise (· ≤ ·) := by
  obtain ⟨s, hs⟩ := exists_le_of_pairwise h
  rw [grants_ofRate rate start s]
  exact pairwise_grants (sound_ofRate rate s) (ascends_ofRate rate h hs)

theorem le_of_mem_grants_ofRate (rate : ℕ) (start : ℚ) (h : (ds.map Prod.fst).Pairwise (· ≤ ·))
    {first : ℚ} (hfirst : ∀ demand ∈ ds, first ≤ demand.1)
    (hx : x ∈ (ofRate rate start : Meter ℚ ℚ).grants ds) : first ≤ x := by
  rw [grants_ofRate rate start first] at hx
  obtain ⟨k, hk⟩ := List.mem_iff_getElem?.mp hx
  exact (spent_add_le (sound_ofRate rate first) (ascends_ofRate rate h hfirst) hk).1

theorem count_le_ofRate (rate : ℕ) (start : ℚ) (h : (ds.map Prod.fst).Pairwise (· ≤ ·)) {i j : ℕ}
    (hij : i ≤ j) (hi : ((ofRate rate start : Meter ℚ ℚ).grants ds)[i]? = some x)
    (hj : ((ofRate rate start : Meter ℚ ℚ).grants ds)[j]? = some y) :
    (j - i + 1 : ℚ) ≤ Bucket.burstOf (max rate 1) + (max rate 1 : ℕ) * (y - x) := by
  obtain ⟨s, hs⟩ := exists_le_of_pairwise h
  rw [grants_ofRate rate start s] at hi hj
  exact count_le (sound_ofRate rate s) (ascends_ofRate rate h hs) hij hi hj

/-- As many times as the rate, and some more, take as long as those beyond a full bucket need. -/
theorem div_rate_le_ofRate (rate : ℕ) (start : ℚ)
    (h : (ds.map Prod.fst).Pairwise (· ≤ ·)) {i n : ℕ}
    (hi : ((ofRate rate start : Meter ℚ ℚ).grants ds)[i]? = some x)
    (hj : ((ofRate rate start : Meter ℚ ℚ).grants ds)[i + (max rate 1 + n - 1)]? = some y) :
    (max rate 1 + n - Bucket.burstOf (max rate 1) : ℚ) / (max rate 1 : ℕ) ≤ y - x := by
  have hrate : 1 ≤ max rate 1 := Nat.le_max_right _ _
  have hpos : (0 : ℚ) < (max rate 1 : ℕ) := Nat.cast_pos.mpr hrate
  have hcount : ((i + (max rate 1 + n - 1) : ℕ) - i + 1 : ℚ) = (max rate 1 : ℕ) + n := by
    rw [Nat.cast_add, Nat.cast_sub (by omega)]
    push_cast
    ring
  have hle := count_le_ofRate rate start h (Nat.le_add_right i _) hi hj
  rw [hcount] at hle
  rw [div_le_iff₀ hpos]
  push_cast at hle ⊢
  linarith

theorem grants_ofRate_of_refused (rate : ℕ) (start : ℚ) {xs ys : List (ℚ × Demand)}
    (h : ((xs ++ (now, d) :: ys).map Prod.fst).Pairwise (· ≤ ·))
    (hnone : (((ofRate rate start : Meter ℚ ℚ).after xs).serve between now d).1 = none) :
    (ofRate rate start : Meter ℚ ℚ).grants (xs ++ (now, d) :: ys) =
      (ofRate rate start : Meter ℚ ℚ).grants (xs ++ ys) := by
  obtain ⟨s, hs⟩ := exists_le_of_pairwise h
  have hserve := serve_after_ofRate rate start s now d xs
  rw [grants_ofRate rate start s, grants_ofRate rate start s]
  exact grants_of_refused (ascends_ofRate rate h hs) (hserve ▸ hnone)

/-- How a meter gives leave for some demands, with a rate and the tokens of a full bucket. -/
structure Paces (rate burst : ℕ) (m : Meter ℚ ℚ) (calls : List (ℚ × Demand)) : Prop where
  tokens : ∀ xs, xs <+: calls → (m.after xs).bucket.tokens ≤ burst ∧
    ∀ now, ((m.after xs).refilled between now).bucket.tokens ≤ burst
  /-- Leave is given in the order in which it is asked for, and not before the first demand. -/
  ordered : (m.grants calls).Pairwise (· ≤ ·)
  notBefore : ∀ first, (∀ call ∈ calls, first ≤ call.1) → ∀ x ∈ m.grants calls, first ≤ x
  /-- Between two moments leave is given no more often than a full bucket and the rate allow. -/
  spaced : ∀ (i j : ℕ) (x y : ℚ), i ≤ j → (m.grants calls)[i]? = some x →
    (m.grants calls)[j]? = some y → (j - i + 1 : ℚ) ≤ burst + rate * (y - x)
  /-- As many times as the rate and more take as long as those beyond a full bucket need. -/
  sustained : ∀ (i d : ℕ) (x y : ℚ), (m.grants calls)[i]? = some x →
    (m.grants calls)[i + (rate + d - 1)]? = some y → (rate + d - burst : ℚ) / rate ≤ y - x
  /-- An attempt that is refused takes no token, and all leave is given as without it. -/
  refused : ∀ xs now ys, calls = xs ++ (now, .attempt) :: ys →
    ((m.after xs).serve between now .attempt).1 = none →
      ((m.after xs).serve between now .attempt).2 = (m.after xs).refilled between now ∧
        m.grants calls = m.grants (xs ++ ys)

/-- A bucket that was full at some moment gives leave at its rate, whatever is asked of it, with
demands of which none is made before an earlier one.  Full it holds a tenth of its rate, or one. -/
theorem admitted_in_order (rate : ℕ) (start : ℚ) (calls : List (ℚ × Demand))
    (h : (calls.map Prod.fst).Pairwise (· ≤ ·)) :
    Paces (max rate 1) (max 1 (max rate 1 / 10)) (ofRate rate start) calls := by
  have hburst : max 1 (max rate 1 / 10) = Bucket.burstOf (max rate 1) := max_comm _ _
  rw [hburst]
  refine {
    tokens := fun xs _ => ?_
    ordered := pairwise_grants_ofRate rate start h
    notBefore := fun first hfirst x => le_of_mem_grants_ofRate rate start h hfirst
    spaced := fun i j x y hij hi hj => count_le_ofRate rate start h hij hi hj
    sustained := fun i d x y hi hj => ?_
    refused := fun xs now ys hcalls hnone => ?_ }
  · obtain ⟨hafter, hrate⟩ := (sound_ofRate rate start).after xs
    have hsame : ((ofRate rate start : Meter ℚ ℚ).after xs).bucket.burst =
        Bucket.burstOf (max rate 1) := congrArg Bucket.burstOf hrate
    rw [← hsame]
    exact ⟨hafter.tokens, fun now => (hafter.refilled now).tokens⟩
  · simpa using div_rate_le_ofRate rate start h hi hj
  · subst hcalls
    exact ⟨congrArg Prod.snd (refilled_of_refused hnone),
      grants_ofRate_of_refused rate start h hnone⟩

namespace Sample

def rush : List (ℚ × Demand) :=
  [(0, .reserve), (0, .reserve), (0, .attempt), (0, .reserve), (1 / 10, .attempt)]

/-- At twenty a second two tokens are at hand, so the third demand waits and the attempt beside it
is refused.  Four times in a tenth of a second is as often as leave can be given. -/
theorem admitted_in_order_of_rush :
    (rush.map Prod.fst).Pairwise (· ≤ ·) ∧
      (ofRate 20 0 : Meter ℚ ℚ).grants rush = [0, 0, 1 / 20, 1 / 10] ∧
      ((3 : ℕ) - (0 : ℕ) + 1 : ℚ) ≤ (2 : ℕ) + (20 : ℕ) * (1 / 10 - 0) ∧
      (ofRate 20 0 : Meter ℚ ℚ).grants (rush.take 2 ++ rush.drop 3) = [0, 0, 1 / 20, 1 / 10] := by
  have hsorted : (rush.map Prod.fst).Pairwise (· ≤ ·) := by decide +kernel
  have hgrants : (ofRate 20 0 : Meter ℚ ℚ).grants rush = [0, 0, 1 / 20, 1 / 10] := by
    decide +kernel
  have hpaces := admitted_in_order 20 0 rush hsorted
  refine ⟨hsorted, hgrants, ?_, ?_⟩
  · exact hpaces.spaced 0 3 0 (1 / 10) (by decide) (by rw [hgrants]; rfl) (by rw [hgrants]; rfl)
  · obtain ⟨-, hsame⟩ := hpaces.refused (rush.take 2) 0 (rush.drop 3) rfl (by decide +kernel)
    exact hsame.symm.trans hgrants

end Sample

end Recon.Meter
