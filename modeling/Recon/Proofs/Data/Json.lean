import Mathlib.Data.List.Basic
import Recon.Data.Json
import Recon.Proofs.Text.Digits

/-!
# Documents in JSON are read back

A value whose strings are texts and whose numbers are natural is what its own text stands for.
Every text that is written begins with a character that tells its kind, and nothing but a comma or a
closing bracket follows it inside another, so the reader knows where it ends.
-/

namespace Recon.Data

open Recon.Text

inductive Value.IsPlain : Value → Prop
  | null : IsPlain .null
  | bool (b : Bool) : IsPlain (.bool b)
  | nat (n : ℕ) : IsPlain (.nat n)
  | text (s : String) : IsPlain (.text s)
  | array {xs : List Value} (h : ∀ x ∈ xs, IsPlain x) : IsPlain (.array xs)
  | record {fs : List (String × Value)} (h : ∀ f ∈ fs, IsPlain f.2) : IsPlain (.record fs)

namespace Json

variable {c : Char} {cs rest : List Char} {n acc fuel : ℕ}

/-! ### Strings -/

theorem readUnits_short {e : Char} (h : shortEscape? e = some c) (cs : List Char) :
    readUnits ('\\' :: e :: cs) =
      (readUnits cs).map fun (units, rest) => (c.toNat :: units, rest) := by
  -- a letter for a number in four digits is none of the short ones
  have hu : e ≠ 'u' := by
    rintro rfl
    have hnone : shortEscape? 'u' = none := by decide
    rw [hnone] at h
    cases h
  simp [readUnits, hu, h]

/-- A control character is escaped by its number in four digits. -/
theorem escape_control : ∀ n < 32,
    (zeroFill 4 (hexadecimal n)).length = 4 ∧
      foldDigits 16 hexValue? 0 (zeroFill 4 (hexadecimal n)) = some n := by
  decide +kernel

theorem readUnits_control (h : c.toNat < 32) (cs : List Char) :
    readUnits ('\\' :: 'u' :: zeroFill 4 (hexadecimal c.toNat) ++ cs) =
      (readUnits cs).map fun (units, rest) => (c.toNat :: units, rest) := by
  obtain ⟨hlength, hvalue⟩ := escape_control c.toNat h
  obtain ⟨x, y, z, w, hdigits⟩ := List.length_eq_four.mp hlength
  rw [hdigits] at hvalue ⊢
  simp [readUnits, hvalue]

/-- A character that is written in a string is read as one unit. -/
theorem readUnits_escape (c : Char) (cs : List Char) :
    readUnits (escape c ++ cs) =
      (readUnits cs).map fun (units, rest) => (c.toNat :: units, rest) := by
  unfold escape
  split_ifs with hquote hslash hback hfeed hline hreturn htab hcontrol
  · subst hquote
    exact readUnits_short rfl cs
  · subst hslash
    exact readUnits_short rfl cs
  · subst hback
    exact readUnits_short rfl cs
  · subst hfeed
    exact readUnits_short rfl cs
  · subst hline
    exact readUnits_short rfl cs
  · subst hreturn
    exact readUnits_short rfl cs
  · subst htab
    exact readUnits_short rfl cs
  · exact readUnits_control hcontrol cs
  · rw [List.singleton_append, readUnits]
    · simp [hcontrol, hslash]
    all_goals simp [hquote, hslash]

theorem readUnits_flatMap_escape (cs rest : List Char) :
    readUnits (cs.flatMap escape ++ '"' :: rest) = some (cs.map Char.toNat, rest) := by
  induction cs with
  | nil => rfl
  | cons c cs ih =>
    rw [List.flatMap_cons, List.append_assoc, readUnits_escape, ih]
    rfl

/-- No character is half of a surrogate pair. -/
theorem toNat_lt_or_le (c : Char) : c.toNat < 0xD800 ∨ 0xE000 ≤ c.toNat := by
  have hvalid : c.toNat < 0xD800 ∨ 0xDFFF < c.toNat ∧ c.toNat < 0x110000 := c.valid
  omega

theorem characters_map_toNat (cs : List Char) : characters (cs.map Char.toNat) = some cs := by
  induction cs with
  | nil => rfl
  | cons c cs ih =>
    have hc := toNat_lt_or_le c
    cases cs with
    | nil =>
      rw [List.map_cons, List.map_nil, characters, if_neg (by omega), Char.ofNat_toNat]
    | cons d cs =>
      rw [List.map_cons] at ih
      rw [List.map_cons, List.map_cons, characters, if_neg (by omega), if_neg (by omega), ih,
        Option.map_some, Char.ofNat_toNat]

theorem readString_quoted (s : String) (rest : List Char) :
    readString (s.toList.flatMap escape ++ '"' :: rest) = some (some s, rest) := by
  simp only [readString, readUnits_flatMap_escape, Option.map_some, characters_map_toNat,
    String.ofList_toList]

/-! ### Numbers -/

def Closes (rest : List Char) : Prop := ∀ c ∈ rest.head?, c = ',' ∨ c = ']' ∨ c = '}'

theorem Closes.comma (cs : List Char) : Closes (',' :: cs) := by simp [Closes]

theorem Closes.bracket (cs : List Char) : Closes (']' :: cs) := by simp [Closes]

theorem Closes.brace (cs : List Char) : Closes ('}' :: cs) := by simp [Closes]

theorem readDigitRun_of_closes (h : Closes rest) : readDigitRun rest = ([], rest) := by
  cases rest with
  | nil => rfl
  | cons c cs =>
    have hdigit : digitValue? c = none := by
      rcases h c rfl with rfl | rfl | rfl <;> decide
    rw [readDigitRun, hdigit]

/-- A run of digits is read up to its end. -/
theorem readDigitRun_append (hr : Closes rest)
    (h : foldDigits 10 digitValue? acc cs = some n) :
    ∃ ds, readDigitRun (cs ++ rest) = (ds, rest) ∧
      ds.foldl (fun acc d => acc * 10 + d) acc = n ∧ ds.length = cs.length := by
  induction cs generalizing acc with
  | nil =>
    cases h
    exact ⟨[], readDigitRun_of_closes hr, rfl, rfl⟩
  | cons c cs ih =>
    rw [foldDigits] at h
    cases hd : digitValue? c with
    | none => simp [hd] at h
    | some d =>
      rw [hd] at h
      obtain ⟨ds, hrun, hvalue, hlength⟩ := ih h
      refine ⟨d :: ds, ?_, hvalue, congrArg Nat.succ hlength⟩
      simp [readDigitRun, hd, hrun]

/-- Only zero is written with a leading zero. -/
theorem head?_decimal_ne_zero (h : 0 < n) : (decimal n).head? ≠ some '0' := by
  induction n using Nat.strongRecOn with
  | ind n ih =>
    rw [decimal, Nat.toDigits_eq_if (by decide)]
    split
    · next hn => exact (by decide : ∀ n < 10, 0 < n → [Nat.digitChar n].head? ≠ some '0') n hn h
    · next hn =>
      have hrest := ih (n / 10) (by omega) (by omega)
      rwa [List.head?_append_of_ne_nil _ Nat.toDigits_ne_nil]

theorem readWhole_decimal (n : ℕ) (hr : Closes rest) :
    readWhole (decimal n ++ rest) = some (n, rest) := by
  rcases Nat.eq_zero_or_pos n with rfl | hpos
  · rfl
  · obtain ⟨ds, hrun, hvalue, hlength⟩ := readDigitRun_append hr (foldDigits_decimal n)
    have hne : ds ≠ [] := by
      rintro rfl
      exact decimal_ne_nil n (List.length_eq_zero_iff.mp hlength.symm)
    have hhead : ∀ cs, decimal n ++ rest ≠ '0' :: cs := by
      intro cs h
      apply head?_decimal_ne_zero hpos
      rw [← List.head?_append_of_ne_nil _ (decimal_ne_nil n), h]
      rfl
    rw [readWhole]
    · rw [hrun]
      cases ds with
      | nil => exact absurd rfl hne
      | cons d ds => exact congrArg (fun m => some (m, rest)) hvalue
    · exact hhead

theorem readFraction_of_closes (h : Closes rest) : readFraction rest = some ([], rest) := by
  unfold readFraction
  split
  · rcases h '.' rfl with h | h | h <;> cases h
  · rfl

theorem readExponent_of_closes (h : Closes rest) : readExponent rest = some (none, rest) := by
  cases rest with
  | nil => rfl
  | cons c cs =>
    have hne : ¬ (c = 'e' ∨ c = 'E') := by
      rcases h c rfl with rfl | rfl | rfl <;> decide
    simp [readExponent, hne]

theorem writeNumeral_ofNat (n : ℕ) : writeNumeral (.ofNat n) = decimal n := by
  simp [writeNumeral, Numeral.ofNat]

/-- A number begins with a digit. -/
theorem exists_decimal_eq_cons (n : ℕ) :
    ∃ c cs, decimal n = c :: cs ∧ (digitValue? c).isSome = true := by
  cases h : decimal n with
  | nil => exact absurd h (decimal_ne_nil n)
  | cons c cs =>
    have hmem : c ∈ decimal n := h ▸ List.mem_cons_self
    exact ⟨c, cs, rfl, isSome_of_mem_decimal hmem⟩

theorem readNumeral_decimal (n : ℕ) (hr : Closes rest) :
    readNumeral (decimal n ++ rest) = some (.ofNat n, rest) := by
  have hsign : ∀ cs, decimal n ++ rest ≠ '-' :: cs := by
    obtain ⟨c, cs, hn, hc⟩ := exists_decimal_eq_cons n
    intro ds h
    rw [hn, List.cons_append] at h
    injection h with hc'
    rw [hc'] at hc
    exact absurd hc (by decide)
  unfold readNumeral
  split
  next negative cs h =>
    split at h
    · next ds hds => exact absurd hds (hsign ds)
    · cases h
      simp only [readWhole_decimal n hr, readFraction_of_closes hr, readExponent_of_closes hr]
      rfl

/-! ### Values -/

theorem skip_cons (h : isSpace c = false) (cs : List Char) : skip (c :: cs) = c :: cs := by
  simp [skip, h]

/-- What begins with a digit is read as a number. -/
theorem readValue_of_digit (hc : (digitValue? c).isSome = true) (fuel : ℕ) (cs : List Char) :
    readValue (fuel + 1) (c :: cs) =
      (readNumeral (c :: cs)).map fun (n, rest) => (.number n, rest) := by
  have hskip : skip (c :: cs) = c :: cs := by
    have hdigit := toNat_of_digitValue? hc
    apply skip_cons
    have hne (d : Char) (hd : d.toNat < 48) : (c == d) = false := by
      rw [beq_eq_false_iff_ne]
      rintro rfl
      omega
    simp [isSpace, hne]
  rw [readValue, hskip]
  split <;> first | rfl | (next h => injection h with h; subst h; exact absurd hc (by decide))

@[simp] theorem skip_comma (cs : List Char) : skip (',' :: cs) = ',' :: cs := rfl
@[simp] theorem skip_colon (cs : List Char) : skip (':' :: cs) = ':' :: cs := rfl
@[simp] theorem skip_quote (cs : List Char) : skip ('"' :: cs) = '"' :: cs := rfl
@[simp] theorem skip_bracket (cs : List Char) : skip (']' :: cs) = ']' :: cs := rfl
@[simp] theorem skip_brace (cs : List Char) : skip ('}' :: cs) = '}' :: cs := rfl

/-- The text of a value shows where it begins, and reading it gives the value and what follows, if
there is fuel for every character. -/
structure IsReadBack (v : Value) : Prop where
  begins : ∃ c cs, write v = c :: cs ∧ isSpace c = false ∧ c ≠ ']'
  reads : ∀ fuel rest, 2 * (write v).length ≤ fuel → Closes rest →
    readValue fuel (write v ++ rest) = some (v, rest)

theorem IsReadBack.length_pos {v : Value} (h : IsReadBack v) : 0 < (write v).length := by
  obtain ⟨c, cs, hwrite, -, -⟩ := h.begins
  rw [hwrite]
  exact Nat.succ_pos _

theorem quote_eq (s : String) : quote s = '"' :: (s.toList.flatMap escape ++ ['"']) := rfl

theorem isReadBack_null : IsReadBack .null where
  begins := ⟨'n', _, rfl, rfl, by decide⟩
  reads fuel rest hf _ := by
    obtain ⟨fuel, rfl⟩ := Nat.exists_eq_add_of_le' (Nat.le_trans (by decide : 1 ≤ 8) hf)
    rfl

theorem isReadBack_bool (b : Bool) : IsReadBack (.bool b) where
  begins := by
    cases b
    · exact ⟨'f', _, rfl, rfl, by decide⟩
    · exact ⟨'t', _, rfl, rfl, by decide⟩
  reads fuel rest hf _ := by
    cases b
    · obtain ⟨fuel, rfl⟩ := Nat.exists_eq_add_of_le' (Nat.le_trans (by decide : 1 ≤ 10) hf)
      rfl
    · obtain ⟨fuel, rfl⟩ := Nat.exists_eq_add_of_le' (Nat.le_trans (by decide : 1 ≤ 8) hf)
      rfl

theorem isReadBack_text (s : String) : IsReadBack (.text s) where
  begins := ⟨'"', _, quote_eq s, rfl, by decide⟩
  reads fuel rest hf _ := by
    have hwrite : write (.text s) = '"' :: (s.toList.flatMap escape ++ ['"']) := quote_eq s
    rw [hwrite] at hf ⊢
    obtain ⟨fuel, rfl⟩ := Nat.exists_eq_add_of_le' (show 1 ≤ fuel by simp at hf; omega)
    rw [List.cons_append, List.append_assoc, List.singleton_append, readValue, skip_quote]
    simp [readString_quoted, Value.text]

theorem isReadBack_nat (n : ℕ) : IsReadBack (.nat n) := by
  have hwrite : write (.nat n) = decimal n := writeNumeral_ofNat n
  obtain ⟨c, cs, hn, hc⟩ := exists_decimal_eq_cons n
  have hrange := toNat_of_digitValue? hc
  have hne (d : Char) (hd : d.toNat < 48 ∨ 57 < d.toNat) : c ≠ d := by
    rintro rfl
    omega
  constructor
  · refine ⟨c, cs, hwrite.trans hn, ?_, hne ']' (by decide)⟩
    simp [isSpace, hne]
  · intro fuel rest hf hr
    rw [hwrite] at hf ⊢
    rw [hn, List.length_cons] at hf
    obtain ⟨fuel, rfl⟩ := Nat.exists_eq_add_of_le' (show 1 ≤ fuel by omega)
    have hread := readValue_of_digit hc fuel (cs ++ rest)
    rw [← List.cons_append, ← hn, readNumeral_decimal n hr] at hread
    exact hread

/-! ### Lists and records -/

/-- The elements of a list are read one after the other, up to the closing bracket. -/
theorem readElements_join {xs : List Value} (hne : xs ≠ []) (h : ∀ x ∈ xs, IsReadBack x)
    (hf : 2 * (join [','] (writeElements xs)).length + 1 ≤ fuel) :
    readElements fuel (join [','] (writeElements xs) ++ ']' :: rest) = some (xs, rest) := by
  induction xs generalizing fuel with
  | nil => exact absurd rfl hne
  | cons x xs ih =>
    obtain ⟨fuel, rfl⟩ := Nat.exists_eq_add_of_le' (show 1 ≤ fuel by omega)
    obtain ⟨hx, hxs⟩ := List.forall_mem_cons.mp h
    cases xs with
    | nil =>
      have hwrite : join [','] (writeElements [x]) = write x := rfl
      rw [hwrite] at hf ⊢
      have hread := hx.reads fuel (']' :: rest) (by omega) (.bracket rest)
      simp [readElements, hread]
    | cons y ys =>
      have hwrite : join [','] (writeElements (x :: y :: ys)) =
          write x ++ ',' :: join [','] (writeElements (y :: ys)) := by
        simp [writeElements, join]
      rw [hwrite, List.length_append, List.length_cons] at hf
      rw [hwrite, List.append_assoc, List.cons_append, readElements]
      have hpos := hx.length_pos
      have hread := hx.reads fuel
        (',' :: (join [','] (writeElements (y :: ys)) ++ ']' :: rest)) (by omega) (.comma _)
      have hrest := ih (List.cons_ne_nil y ys) hxs (show _ ≤ fuel by omega)
      simp [hread, hrest]

theorem isReadBack_array {xs : List Value} (h : ∀ x ∈ xs, IsReadBack x) :
    IsReadBack (.array xs) where
  begins := ⟨'[', _, rfl, rfl, by decide⟩
  reads fuel rest hf _ := by
    have hwrite : write (.array xs) ++ rest =
        '[' :: (join [','] (writeElements xs) ++ ']' :: rest) := by
      simp [write]
    have hlength : (write (.array xs)).length = (join [','] (writeElements xs)).length + 2 := by
      simp [write]
    rw [hlength] at hf
    obtain ⟨fuel, rfl⟩ := Nat.exists_eq_add_of_le' (show 1 ≤ fuel by omega)
    rw [hwrite, readValue, skip_cons rfl]
    cases xs with
    | nil => rfl
    | cons x xs =>
      have hread : readElements fuel (join [','] (writeElements (x :: xs)) ++ ']' :: rest) =
          some (x :: xs, rest) :=
        readElements_join (List.cons_ne_nil x xs) h (by omega)
      -- the first element does not look like the end of the list
      obtain ⟨c, cs, hc, hspace, hend⟩ := (h x List.mem_cons_self).begins
      have hfirst : ∃ ds, join [','] (writeElements (x :: xs)) ++ ']' :: rest = c :: ds := by
        cases xs <;> simp [writeElements, join, hc]
      obtain ⟨ds, hds⟩ := hfirst
      rw [hds] at hread ⊢
      simp [skip_cons hspace, hend, hread]

def named (fs : List (String × Value)) : List (Option String × Value) :=
  fs.map fun (k, v) => (some k, v)

def fieldsFrom (fuel : ℕ) (field : Option String × Value) :
    List Char → Option (List (Option String × Value) × List Char)
  | ',' :: rest => (readFields fuel rest).map fun (fs, rest) => (field :: fs, rest)
  | '}' :: rest => some ([field], rest)
  | _ => none

/-- A field is read up to the end of its value. -/
theorem readFields_quote (name : String) {v : Value} {tail : List Char} (hv : IsReadBack v)
    (hf : 2 * (write v).length ≤ fuel) (ht : Closes tail) :
    readFields (fuel + 1) (quote name ++ ':' :: (write v ++ tail)) =
      fieldsFrom fuel (some name, v) (skip tail) := by
  rw [quote_eq, List.cons_append, List.append_assoc, List.singleton_append, readFields, skip_quote]
  simp only [readString_quoted, skip_colon, hv.reads fuel tail hf ht]
  rfl

/-- The fields of a record are read one after the other, up to the closing brace. -/
theorem readFields_join {fs : List (String × Value)} (hne : fs ≠ [])
    (h : ∀ f ∈ fs, IsReadBack f.2)
    (hf : 2 * (join [','] (writeFields (named fs))).length + 1 ≤ fuel) :
    readFields fuel (join [','] (writeFields (named fs)) ++ '}' :: rest) =
      some (named fs, rest) := by
  induction fs generalizing fuel with
  | nil => exact absurd rfl hne
  | cons f fs ih =>
    obtain ⟨name, v⟩ := f
    obtain ⟨fuel, rfl⟩ := Nat.exists_eq_add_of_le' (show 1 ≤ fuel by omega)
    obtain ⟨hfirst, hfs⟩ := List.forall_mem_cons.mp h
    have hv : IsReadBack v := hfirst
    -- the last field is followed by the brace, any other by a comma
    cases fs with
    | nil =>
      have hwrite : join [','] (writeFields (named [(name, v)])) = quote name ++ ':' :: write v :=
        rfl
      rw [hwrite, List.length_append, List.length_cons] at hf
      rw [hwrite, List.append_assoc, List.cons_append,
        readFields_quote name hv (by omega) (.brace rest)]
      rfl
    | cons g gs =>
      have hwrite : join [','] (writeFields (named ((name, v) :: g :: gs))) =
          quote name ++ ':' :: (write v ++ ',' :: join [','] (writeFields (named (g :: gs)))) := by
        simp [named, writeFields, writeString, join]
      rw [hwrite] at hf ⊢
      simp only [List.length_append, List.length_cons] at hf
      have hrest := ih (List.cons_ne_nil g gs) hfs (show _ ≤ fuel by omega)
      rw [List.append_assoc, List.cons_append, List.append_assoc, List.cons_append,
        readFields_quote name hv (by omega) (.comma _), skip_comma]
      exact congrArg (Option.map _) hrest

theorem isReadBack_record {fs : List (String × Value)} (h : ∀ f ∈ fs, IsReadBack f.2) :
    IsReadBack (.record fs) where
  begins := ⟨'{', _, rfl, rfl, by decide⟩
  reads fuel rest hf _ := by
    have hwrite : write (.record fs) ++ rest =
        '{' :: (join [','] (writeFields (named fs)) ++ '}' :: rest) := by
      simp [Value.record, write, named]
    have hlength : (write (.record fs)).length =
        (join [','] (writeFields (named fs))).length + 2 := by
      simp [Value.record, write, named]
    rw [hlength] at hf
    obtain ⟨fuel, rfl⟩ := Nat.exists_eq_add_of_le' (show 1 ≤ fuel by omega)
    rw [hwrite, readValue, skip_cons rfl]
    cases fs with
    | nil => rfl
    | cons f fs =>
      have hread : readFields fuel (join [','] (writeFields (named (f :: fs))) ++ '}' :: rest) =
          some (named (f :: fs), rest) :=
        readFields_join (List.cons_ne_nil f fs) h (by omega)
      have hfirst :
          ∃ ds, join [','] (writeFields (named (f :: fs))) ++ '}' :: rest = '"' :: ds := by
        cases fs <;> simp [named, writeFields, writeString, join, quote_eq]
      obtain ⟨ds, hds⟩ := hfirst
      rw [hds] at hread ⊢
      simp [hread, Value.record, named]

theorem isReadBack_of_isPlain {v : Value} (h : v.IsPlain) : IsReadBack v := by
  induction h with
  | null => exact isReadBack_null
  | bool b => exact isReadBack_bool b
  | nat n => exact isReadBack_nat n
  | text s => exact isReadBack_text s
  | array _ ih => exact isReadBack_array ih
  | record _ ih => exact isReadBack_record ih

/-- What is written is read back. -/
theorem ofString?_toString {v : Value} (h : v.IsPlain) : ofString? (toString v) = some v := by
  have hread := (isReadBack_of_isPlain h).reads (2 * (write v).length + 2) [] (by omega)
    (by simp [Closes])
  rw [List.append_nil] at hread
  rw [ofString?, Json.toString, String.toList_ofList, read, hread]
  rfl

end Json

end Recon.Data
