import Mathlib.Data.Nat.Notation
import Recon.Text.Blank
import Recon.Text.Digits

/-!
# Numbers as text

A number that is written in decimal or in hexadecimal reads back as itself.  Reading within a limit
is reading without one, followed by a comparison.
-/

namespace Recon.Text

variable {b n acc limit : ℕ} {value? : Char → Option ℕ} {c : Char} {cs : List Char}

/-! ### Digits of numbers -/

theorem foldDigits_concat (base acc : ℕ) (value? : Char → Option ℕ) (cs : List Char) (c : Char) :
    foldDigits base value? acc (cs ++ [c]) =
      (foldDigits base value? acc cs).bind fun m => (value? c).map fun d => m * base + d := by
  induction cs generalizing acc with
  | nil =>
    rw [List.nil_append, foldDigits, foldDigits, Option.bind_some]
    cases value? c <;> rfl
  | cons d cs ih =>
    rw [List.cons_append, foldDigits, foldDigits]
    cases value? d with
    | none => rfl
    | some k => exact ih (acc * base + k)

/-- What is written in a base reads back, if each digit does. -/
theorem foldDigits_toDigits (hb : 1 < b) (hv : ∀ d < b, value? d.digitChar = some d) (n : ℕ) :
    foldDigits b value? 0 (Nat.toDigits b n) = some n := by
  -- the last digit is the remainder, and the others are those of the quotient
  induction n using Nat.strongRecOn with
  | ind n ih =>
    rw [Nat.toDigits_eq_if hb]
    split
    · next hn => simp [foldDigits, hv n hn]
    · next hn =>
      have hrest := ih (n / b) (Nat.div_lt_self (by omega) hb)
      have hlast := hv (n % b) (Nat.mod_lt n (by omega))
      rw [foldDigits_concat, hrest, hlast, Option.bind_some, Option.map_some, Nat.div_add_mod']

theorem foldDigits_decimal (n : ℕ) : foldDigits 10 digitValue? 0 (decimal n) = some n :=
  foldDigits_toDigits (by decide) (by decide) n

theorem foldDigits_hexadecimal (n : ℕ) : foldDigits 16 hexValue? 0 (hexadecimal n) = some n :=
  foldDigits_toDigits (by decide) (by decide) n

theorem isSome_of_foldDigits (h : foldDigits b value? acc cs = some n) :
    ∀ c ∈ cs, (value? c).isSome = true := by
  induction cs generalizing acc with
  | nil => simp
  | cons d cs ih =>
    rw [foldDigits] at h
    split at h
    · cases h
    · next k hk =>
      rw [List.forall_mem_cons, hk]
      exact ⟨rfl, ih h⟩

theorem le_of_foldDigits (hb : 0 < b) (h : foldDigits b value? acc cs = some n) : acc ≤ n := by
  induction cs generalizing acc with
  | nil =>
    cases h
    exact Nat.le_refl _
  | cons d cs ih =>
    rw [foldDigits] at h
    split at h
    · cases h
    · next k _ =>
      calc acc ≤ acc * b := Nat.le_mul_of_pos_right acc hb
        _ ≤ acc * b + k := Nat.le_add_right _ _
        _ ≤ n := ih h

/-! ### Numbers within a limit -/

theorem readDigits_eq (ha : acc ≤ limit) (h : foldDigits 10 digitValue? acc cs = some n) :
    readDigits limit acc cs = if n ≤ limit then .ok n else .error .tooLarge := by
  induction cs generalizing acc with
  | nil =>
    cases h
    rw [readDigits, if_pos ha]
  | cons c cs ih =>
    cases hd : digitValue? c with
    | none => simp [foldDigits, hd] at h
    | some d =>
      simp only [foldDigits, hd] at h
      simp only [readDigits, hd]
      by_cases hle : acc * 10 + d ≤ limit
      · rw [if_pos hle, ih hle h]
      · -- the number only grows from here on
        have hn := le_of_foldDigits (by decide) h
        rw [if_neg hle, if_neg (by omega)]

theorem readNumber_of_ne_plus (hne : cs ≠ []) (hplus : cs.head? ≠ some '+') :
    readNumber limit cs = readDigits limit 0 cs := by
  unfold readNumber
  split
  · exact absurd rfl hne
  · exact absurd rfl hplus
  · exact absurd rfl hplus
  · rfl

theorem decimal_ne_nil (n : ℕ) : decimal n ≠ [] := Nat.toDigits_ne_nil

theorem hexadecimal_ne_nil (n : ℕ) : hexadecimal n ≠ [] := Nat.toDigits_ne_nil

theorem isSome_of_mem_decimal (hc : c ∈ decimal n) : (digitValue? c).isSome = true :=
  isSome_of_foldDigits (foldDigits_decimal n) c hc

theorem isSome_of_mem_hexadecimal (hc : c ∈ hexadecimal n) : (hexValue? c).isSome = true :=
  isSome_of_foldDigits (foldDigits_hexadecimal n) c hc

theorem readNumber_decimal (limit n : ℕ) :
    readNumber limit (decimal n) = if n ≤ limit then .ok n else .error .tooLarge := by
  -- so no sign is skipped
  have hplus : (decimal n).head? ≠ some '+' := by
    intro h
    have hsome := isSome_of_mem_decimal (List.mem_of_mem_head? h)
    exact absurd hsome (by decide)
  rw [readNumber_of_ne_plus (decimal_ne_nil n) hplus]
  exact readDigits_eq (Nat.zero_le _) (foldDigits_decimal n)

/-- A text is a numeral: at least one digit, with a plus sign before them if need be. -/
def IsNumeral (cs : List Char) (n : ℕ) : Prop :=
  ∃ ds, (cs = ds ∨ cs = '+' :: ds) ∧ ds ≠ [] ∧ foldDigits 10 digitValue? 0 ds = some n

theorem isNumeral_decimal (n : ℕ) : IsNumeral (decimal n) n :=
  ⟨decimal n, .inl rfl, decimal_ne_nil n, foldDigits_decimal n⟩

theorem readDigits_eq_ok_iff (ha : acc ≤ limit) :
    readDigits limit acc cs = .ok n ↔ foldDigits 10 digitValue? acc cs = some n ∧ n ≤ limit := by
  constructor
  · intro h
    induction cs generalizing acc with
    | nil =>
      cases h
      exact ⟨rfl, ha⟩
    | cons c cs ih =>
      rw [readDigits] at h
      rw [foldDigits]
      split at h
      · cases h
      · next d hd =>
        split at h
        · next hle => exact ih hle h
        · cases h
  · rintro ⟨hvalue, hle⟩
    rw [readDigits_eq ha hvalue, if_pos hle]

/-- What is read as a number within a limit is a numeral of that number. -/
theorem readNumber_eq_ok_iff : readNumber limit cs = .ok n ↔ IsNumeral cs n ∧ n ≤ limit := by
  -- a plus sign is no digit
  have hplus (ds : List Char) : foldDigits 10 digitValue? 0 ('+' :: ds) ≠ some n := by
    simp [foldDigits, show digitValue? '+' = none by decide]
  have hzero := Nat.zero_le limit
  unfold readNumber
  split
  · simp [IsNumeral, eq_comm]
  · constructor
    · rintro ⟨⟩
    · rintro ⟨⟨ds, rfl | hds, hne, hvalue⟩, -⟩
      · exact absurd hvalue (hplus [])
      · exact absurd (List.cons.inj hds).2.symm hne
  · next cs hne =>
    rw [readDigits_eq_ok_iff hzero]
    refine and_congr_left fun _ => ⟨fun hvalue => ⟨cs, .inr rfl, hne, hvalue⟩, ?_⟩
    rintro ⟨ds, rfl | hds, -, hvalue⟩
    · exact absurd hvalue (hplus cs)
    · rwa [(List.cons.inj hds).2]
  · next hnil _ hsign =>
    rw [readDigits_eq_ok_iff hzero]
    refine and_congr_left fun _ => ⟨fun hvalue => ⟨cs, .inl rfl, hnil, hvalue⟩, ?_⟩
    rintro ⟨ds, rfl | hds, -, hvalue⟩
    · exact hvalue
    · exact absurd hds (hsign ds)

/-- A numeral has digits only, but for a plus sign. -/
theorem IsNumeral.plus_or_digit (h : IsNumeral cs n) :
    ∀ c ∈ cs, c = '+' ∨ (digitValue? c).isSome = true := by
  obtain ⟨ds, hcs, -, hvalue⟩ := h
  have hdigits := isSome_of_foldDigits hvalue
  rcases hcs with rfl | rfl
  · exact fun c hc => .inr (hdigits c hc)
  · rw [List.forall_mem_cons]
    exact ⟨.inl rfl, fun c hc => .inr (hdigits c hc)⟩

/-- What is read as a number has digits only, but for a plus sign. -/
theorem plus_or_digit_of_readNumber (h : readNumber limit cs = .ok n) :
    ∀ c ∈ cs, c = '+' ∨ (digitValue? c).isSome = true :=
  (readNumber_eq_ok_iff.mp h).1.plus_or_digit

/-! ### Characters of numbers -/

/-- A hexadecimal digit is a decimal digit or a letter up to f. -/
theorem toNat_of_hexValue? (h : (hexValue? c).isSome = true) :
    48 ≤ c.toNat ∧ c.toNat ≤ 57 ∨ 97 ≤ c.toNat ∧ c.toNat ≤ 102 ∨ 65 ≤ c.toNat ∧ c.toNat ≤ 70 := by
  unfold hexValue? at h
  split at h
  · next hc => exact .inl hc
  · split at h
    · next hc => exact .inr (.inl hc)
    · split at h
      · next hc => exact .inr (.inr hc)
      · cases h

theorem toNat_of_digitValue? (h : (digitValue? c).isSome = true) :
    48 ≤ c.toNat ∧ c.toNat ≤ 57 := by
  unfold digitValue? at h
  split at h
  · next hc => exact hc
  · cases h

/-- A digit has no case. -/
theorem toLower_of_digitValue? (h : (digitValue? c).isSome = true) : c.toLower = c := by
  have hrange := toNat_of_digitValue? h
  have hnot : ¬ ('A'.val ≤ c.val ∧ c.val ≤ 'Z'.val) := by
    rintro ⟨hle, -⟩
    have hle : 65 ≤ c.toNat := hle
    omega
  exact dif_neg hnot

theorem isBlank_eq_false (hlo : 32 < c.toNat) (hhi : c.toNat < 128) : isBlank c = false := by
  simp only [isBlank, Bool.or_eq_false_iff, Bool.and_eq_false_iff, decide_eq_false_iff_not,
    beq_eq_false_iff_ne]
  omega

theorem isBlank_of_mem_decimal (hc : c ∈ decimal n) : isBlank c = false := by
  have hrange := toNat_of_digitValue? (isSome_of_mem_decimal hc)
  exact isBlank_eq_false (by omega) (by omega)

end Recon.Text
