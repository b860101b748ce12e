import Mathlib.Tactic.SplitIfs
import Recon.Proofs.Address.Text
import Recon.Proofs.Target.Block

/-!
# What items denote

An item is an address, two addresses with a dash between them, or an address with a slash and a
number of bits.  The block that is read from it has exactly the addresses that this says.  The text
of an address may be any that is read as it; one of them is the text that is written of it.
-/

namespace Recon

open Recon.Text

namespace Address

def bit : Address → ℕ → Bool
  | .v4 bits, i => bits.getMsbD i
  | .v6 bits, i => bits.getMsbD i

theorem bit_eq (a : Address) {i : ℕ} (h : i < a.family.width) :
    a.bit i = a.value.testBit (a.family.width - 1 - i) := by
  have hmsb {w : ℕ} (bits : BitVec w) (hw : i < w) :
      bits.getMsbD i = bits.toNat.testBit (w - 1 - i) := by
    rw [BitVec.getMsbD_eq_getLsbD, decide_eq_true hw, Bool.true_and]
    rfl
  cases a with
  | v4 bits => exact hmsb bits h
  | v6 bits => exact hmsb bits h

/-- Two addresses agree on their first bits if nothing is left of their difference when the other
bits are dropped. -/
theorem bits_agree_iff {a x : Address} {p : ℕ} (hf : x.family = a.family)
    (hp : p ≤ a.family.width) :
    (∀ i < p, x.bit i = a.bit i) ↔
      x.value / 2 ^ (a.family.width - p) = a.value / 2 ^ (a.family.width - p) := by
  have hbit (b : Address) (hb : b.family = a.family) {i : ℕ} (hi : i < p) :
      b.bit i = (b.value / 2 ^ (a.family.width - p)).testBit (p - 1 - i) := by
    rw [bit_eq b (by rw [hb]; omega), hb, Nat.testBit_div_two_pow]
    congr 1
    omega
  constructor
  · intro h
    -- the quotients have the first bits, and only these
    apply Nat.eq_of_testBit_eq
    intro j
    by_cases hj : j < p
    · have hi : p - 1 - (p - 1 - j) = j := by omega
      have hsame := h (p - 1 - j) (by omega)
      rw [hbit x hf (by omega), hbit a rfl (by omega), hi] at hsame
      exact hsame
    · -- no bit is left beyond the width
      have hnone (b : Address) (hb : b.family = a.family) :
          (b.value / 2 ^ (a.family.width - p)).testBit j = false := by
        have hlt : b.value < 2 ^ a.family.width := by
          rw [← hb, ← Family.size_eq]
          exact b.value_lt
        rw [Nat.testBit_div_two_pow]
        apply Nat.testBit_lt_two_pow
        exact Nat.lt_of_lt_of_le hlt (Nat.pow_le_pow_right (by decide) (by omega))
      rw [hnone x hf, hnone a rfl]
  · intro h i hi
    rw [hbit x hf hi, hbit a rfl hi, h]

theorem letters_solid {t : List Char} {a : Address} (h : read t = some a) :
    (∀ c ∈ t, isBlank c = false) ∧ '/' ∉ t ∧ '-' ∉ t := by
  have hletters := letters_of_read h
  exact ⟨fun c hc => (hletters c hc).solid.1, fun hc => (hletters _ hc).solid.2.1 rfl,
    fun hc => (hletters _ hc).solid.2.2 rfl⟩

/-- A number alone is no address. -/
theorem read_eq_none_of_readNumber {limit n : ℕ} {t : List Char}
    (h : readNumber limit t = .ok n) : read t = none := by
  have hchars := plus_or_digit_of_readNumber h
  have hdot : '.' ∉ t := fun hc => absurd (hchars _ hc) (by decide)
  have hcolon : ':' ∉ t := fun hc => absurd (hchars _ hc) (by decide)
  have hquad : readQuad t = none := readQuad_of_notMem hdot
  have hcut : cutGap t = none := by
    have happend := cutGap_append hcolon []
    rwa [List.append_nil] at happend
  -- it would be a single group
  have hside : readSide true t = some [] ∨ readSide true t = (readGroup t).map fun g => [g] := by
    unfold readSide
    split
    · exact .inl rfl
    · rw [fields_of_notMem hcolon, readGroups]
      simp [hquad]
  have height : readEight t = none := by
    rw [readEight, hcut]
    rcases hside with hside | hside
    · simp [hside]
    · cases hg : readGroup t <;> simp [hside, hg]
  simp [read, readV4, hquad, readV6, height]

end Address

namespace Block

/-- An item is accepted under a condition, and then names so many addresses, which are those with a
property. -/
def Denotes (s : List Char) (accepted : Prop) (n : ℕ) (member : Address → Prop) : Prop :=
  ((∃ t, read s = .ok t) ↔ accepted) ∧
    ∀ t, read s = .ok t → t.size = n ∧ ∀ x, t.contains x = true ↔ member x

variable {a b x : Address} {ta tb s s' : List Char} {source : String} {t : Block}

theorem denotes_of_read {accepted : Prop} {n : ℕ} {member : Address → Prop} {u : Block}
    (h : ∀ t, read s = .ok t ↔ accepted ∧ t = u) (hn : accepted → u.size = n)
    (hmem : accepted → ∀ x, u.contains x = true ↔ member x) : Denotes s accepted n member := by
  refine ⟨⟨?_, fun hacc => ⟨u, (h u).mpr ⟨hacc, rfl⟩⟩⟩, ?_⟩
  · rintro ⟨t, ht⟩
    exact ((h t).mp ht).1
  · intro t ht
    obtain ⟨hacc, rfl⟩ := (h t).mp ht
    exact ⟨hn hacc, hmem hacc⟩

/-- An address alone is a block of one. -/
theorem read_single (ha : Address.read ta = some a) (hs : Padded ta s) :
    read s = .ok ⟨String.ofList ta, a, 1⟩ := by
  obtain ⟨hsolid, hslash, hdash⟩ := Address.letters_solid ha
  have hcontains : ta.contains '/' = false := by simpa using hslash
  rw [read, hs.trim_eq hsolid, readTrimmed, hcontains]
  simp [cut_of_notMem hdash, ha]

/-- Two texts with a dash between them are read as the ends of a range. -/
theorem read_dashed (ha : Address.read ta = some a) (hs : Padded ta s) (hs' : Padded tb s')
    (hsolid' : ∀ c ∈ tb, isBlank c = false) (hslash' : '/' ∉ tb) (hne' : tb ≠ []) :
    ∃ source, read (s ++ '-' :: s') = match readEnd a tb with
      | none => .error (.badRange source)
      | some b => ofBounds source a b := by
  obtain ⟨hsolid, hslash, hdash⟩ := Address.letters_solid ha
  have hne : ta ≠ [] := by
    rintro rfl
    cases ha
  -- trimming leaves the blanks beside the dash, which the parts lose when they are read
  obtain ⟨before, after, htrim, hs, hs'⟩ := hs.trim_append_cons hs' hsolid hsolid' hne hne' '-'
  have hcut : cut '-' (before ++ '-' :: after) = some (before, after) :=
    cut_append_cons (hs.notMem (by decide) hdash)
  have hcontains : (before ++ '-' :: after).contains '/' = false := by
    simp [hs.notMem (by decide) hslash, hs'.notMem (by decide) hslash']
  have hbefore : trim before = ta := hs.trim_eq hsolid
  have hafter : trim after = tb := hs'.trim_eq hsolid'
  refine ⟨String.ofList (before ++ '-' :: after), ?_⟩
  rw [read, htrim, readTrimmed, hcontains, hcut]
  cases hend : readEnd a tb <;> simp [hbefore, hafter, ha, hend]

/-- Two addresses with a dash between them are a range. -/
theorem read_range (ha : Address.read ta = some a) (hb : Address.read tb = some b)
    (hs : Padded ta s) (hs' : Padded tb s') :
    ∃ source, read (s ++ '-' :: s') = ofBounds source a b := by
  obtain ⟨hsolid, hslash, _⟩ := Address.letters_solid hb
  have hne : tb ≠ [] := by
    rintro rfl
    cases hb
  obtain ⟨source, hread⟩ := read_dashed ha hs hs' hsolid hslash hne
  have hend : readEnd a tb = some b := by simp only [readEnd, hb]
  exact ⟨source, by rw [hread, hend]⟩

/-- A number after the dash stands for the last octet. -/
theorem read_short {bits : BitVec 32} {n : ℕ} (ha : Address.read ta = some (.v4 bits))
    (hn : n ≤ 255) (hs : Padded ta s) (hs' : Padded (decimal n) s') :
    ∃ source, read (s ++ '-' :: s') =
      ofBounds source (.v4 bits) (.v4 (BitVec.ofNat 32 (bits.toNat / 256 * 256 + n))) := by
  have hnumber : readNumber 255 (decimal n) = .ok n := by
    rw [readNumber_decimal, if_pos hn]
  have hsolid : ∀ c ∈ decimal n, isBlank c = false := fun c hc => isBlank_of_mem_decimal hc
  have hslash : '/' ∉ decimal n := fun hc => absurd (isSome_of_mem_decimal hc) (by decide)
  obtain ⟨source, hread⟩ := read_dashed ha hs hs' hsolid hslash (decimal_ne_nil n)
  have hend : readEnd (.v4 bits) (decimal n) =
      some (.v4 (BitVec.ofNat 32 (bits.toNat / 256 * 256 + n))) := by
    simp only [readEnd, Address.read_eq_none_of_readNumber hnumber, hnumber]
  exact ⟨source, by rw [hread, hend]⟩

theorem ofBounds_eq_ok_iff :
    ofBounds source a b = .ok t ↔
      a.family = b.family ∧ a.value ≤ b.value ∧
        (a.family = .v6 → b.value - a.value < 2 ^ 32) ∧ t = ⟨source, a, b.value - a.value + 1⟩ := by
  have hmax : maxSize = 2 ^ 32 := rfl
  -- the three refusals come one after the other
  unfold ofBounds
  split
  · next hf => simp [hf]
  · next hf =>
    split
    · next hv => simp [Nat.not_le.mpr hv]
    · next hv =>
      split
      · next hwide =>
        have hw := hwide.2
        rw [hmax] at hw
        constructor
        · intro h
          cases h
        · rintro ⟨-, -, hnarrow, -⟩
          have := hnarrow hwide.1
          omega
      · next hwide =>
        have hnarrow : a.family = .v6 → b.value - a.value < 2 ^ 32 := by
          intro h6
          by_contra hc
          exact hwide ⟨h6, by omega⟩
        simp only [Except.ok.injEq]
        constructor
        · rintro rfl
          exact ⟨not_not.mp hf, Nat.le_of_not_lt hv, hnarrow, rfl⟩
        · exact fun h => h.2.2.2.symm

/-- Only the refusal of a wide range, and the block itself, hold the text of the item. -/
theorem map_ofBounds_eq {source' : String} (h4 : a.family = .v4) :
    (ofBounds source a b).map (fun t => (t.first, t.size)) =
      (ofBounds source' a b).map fun t => (t.first, t.size) := by
  have hnarrow : ¬(a.family = .v6 ∧ maxSize ≤ b.value - a.value) := by
    rw [h4]
    rintro ⟨⟨⟩, _⟩
  unfold ofBounds
  rw [if_neg hnarrow]
  split_ifs <;> rfl

/-- The block between two addresses has the addresses between them. -/
theorem contains_bounds (hle : a.value ≤ b.value) :
    contains ⟨source, a, b.value - a.value + 1⟩ x = true ↔
      x.family = a.family ∧ a.value ≤ x.value ∧ x.value ≤ b.value := by
  rw [contains_eq_true_iff]
  refine and_congr_right fun _ => ?_
  show a.value ≤ x.value ∧ x.value < a.value + (b.value - a.value + 1) ↔ _
  omega

/-! ### Networks -/

/-- An address with a slash and a number is a network. -/
theorem read_network (ha : Address.read ta = some a) {p : ℕ}
    (hs : Padded (ta ++ '/' :: decimal p) s) :
    read s =
      if p ≤ a.family.width then ofNetwork (String.ofList (ta ++ '/' :: decimal p)) ⟨a, p⟩
      else .error (.badNetwork (String.ofList (ta ++ '/' :: decimal p))) := by
  obtain ⟨hsolid, hslash, _⟩ := Address.letters_solid ha
  have hdecimal : ∀ c ∈ decimal p, isBlank c = false := fun c hc => isBlank_of_mem_decimal hc
  have htrim : trim s = ta ++ '/' :: decimal p := by
    apply hs.trim_eq
    rw [List.forall_mem_append, List.forall_mem_cons]
    exact ⟨hsolid, by decide, hdecimal⟩
  have hcontains : (ta ++ '/' :: decimal p).contains '/' = true := by simp
  have hnetwork : Network.read (ta ++ '/' :: decimal p) =
      if p ≤ a.family.width then some ⟨a, p⟩ else none := by
    have hnumber := readNumber_decimal
    rw [Network.read, cut_append_cons hslash]
    cases a with
    | v4 bits =>
      -- a number of bits is not taken for a mask
      have hmask : Address.readV4 (decimal p) = none := by
        rw [Address.readV4, Address.readQuad_of_notMem (Address.dot_notMem_decimal p),
          Option.map_none]
      by_cases hp : p ≤ 32 <;>
        simp [ha, Network.readBitsV4, hmask, hnumber, Address.family, Address.Family.width, hp,
          Except.toOption]
    | v6 bits =>
      by_cases hp : p ≤ 128 <;>
        simp [ha, hnumber, Address.family, Address.Family.width, hp, Except.toOption]
  rw [read, htrim, readTrimmed, hcontains, hnetwork]
  by_cases hp : p ≤ a.family.width <;> simp [hp]

theorem ofNetwork_eq_ok_iff {n : Network} (hp : n.bits ≤ n.address.family.width) :
    ofNetwork source n = .ok t ↔
      (n.address.family = .v6 → 96 ≤ n.bits) ∧ t = ⟨source, n.first, n.size⟩ := by
  have hmax : maxSize = 2 ^ 32 := rfl
  unfold ofNetwork
  split
  · next hf => simp [hf, eq_comm]
  · next hf =>
    have hwidth : n.address.family.width = 128 := by rw [hf]; rfl
    -- a network is small enough if no more than thirty-two bits are left
    have hsize : n.size ≤ maxSize ↔ 96 ≤ n.bits := by
      rw [Network.size_eq, hmax, Nat.pow_le_pow_iff_right (by decide)]
      omega
    split
    · next hle => simp [hsize.mp hle, eq_comm]
    · next hle => simp [hf, mt hsize.mpr hle]

/-- A network has the addresses that agree with its own on the bits that they share. -/
theorem contains_network {n : Network} (hp : n.bits ≤ n.address.family.width) :
    contains ⟨source, n.first, n.size⟩ x = true ↔
      x.family = n.address.family ∧ ∀ i < n.bits, x.bit i = n.address.bit i := by
  have hfirst : n.first.value = n.address.value / n.size * n.size := by
    have hle : n.address.value / n.size * n.size ≤ n.address.value := Nat.div_mul_le_self _ _
    rw [Network.first, Address.value_ofValue, Nat.mod_eq_of_lt]
    exact Nat.lt_of_le_of_lt hle n.address.value_lt
  have hpos := n.size_pos
  -- the addresses from the first one on, as many as the size, have one quotient
  have hdiv : (n.first.value ≤ x.value ∧ x.value < n.first.value + n.size) ↔
      x.value / n.size = n.address.value / n.size := by
    rw [hfirst, Nat.div_eq_iff hpos]
    omega
  rw [contains_eq_true_iff, Network.family_first, hdiv]
  refine and_congr_right fun hf => ?_
  rw [Address.bits_agree_iff hf hp, Network.size_eq]

/-! ### Items -/

theorem denotes_single (ha : Address.read ta = some a) (hs : Padded ta s) :
    Denotes s True 1 (· = a) := by
  have hread := read_single ha hs
  apply denotes_of_read (u := ⟨String.ofList ta, a, 1⟩)
  · intro t
    rw [hread, Except.ok.injEq, true_and, eq_comm]
  · exact fun _ => rfl
  · intro _ x
    rw [contains_eq_true_iff]
    constructor
    · rintro ⟨hf, hle, hlt⟩
      exact Address.ext_value hf (Nat.le_antisymm (Nat.le_of_lt_succ hlt) hle)
    · rintro rfl
      exact ⟨rfl, Nat.le_refl _, Nat.lt_succ_self _⟩

theorem denotes_range (ha : Address.read ta = some a) (hb : Address.read tb = some b)
    (hs : Padded ta s) (hs' : Padded tb s') (hf : a.family = b.family) :
    Denotes (s ++ '-' :: s') (a.value ≤ b.value ∧ (a.family = .v6 → b.value - a.value < 2 ^ 32))
      (b.value - a.value + 1)
      fun x => x.family = a.family ∧ a.value ≤ x.value ∧ x.value ≤ b.value := by
  obtain ⟨source, hread⟩ := read_range ha hb hs hs'
  apply denotes_of_read (u := ⟨source, a, b.value - a.value + 1⟩)
  · intro t
    rw [hread, ofBounds_eq_ok_iff, and_assoc]
    exact and_iff_right hf
  · exact fun _ => rfl
  · exact fun hacc x => contains_bounds hacc.1

theorem denotes_network (ha : Address.read ta = some a) {p : ℕ}
    (hs : Padded (ta ++ '/' :: decimal p) s) :
    Denotes s (p ≤ a.family.width ∧ (a.family = .v6 → 96 ≤ p)) (2 ^ (a.family.width - p))
      fun x => x.family = a.family ∧ ∀ i < p, x.bit i = a.bit i := by
  have hread := read_network ha hs
  apply denotes_of_read (u := ⟨_, Network.first ⟨a, p⟩, Network.size ⟨a, p⟩⟩)
  · intro t
    by_cases hp : p ≤ a.family.width
    · rw [hread, if_pos hp, ofNetwork_eq_ok_iff hp, and_assoc]
      exact (and_iff_right hp).symm
    · simp [hread, hp]
  · exact fun _ => Network.size_eq _
  · exact fun hacc x => contains_network (n := ⟨a, p⟩) hacc.1

/-- A short end names what the address that it stands for does, or is refused like it. -/
theorem read_short_eq {n : ℕ} {sn : List Char} (ha : Address.read ta = some a)
    (hb : Address.read tb = some b) (hs : Padded ta s) (hs' : Padded tb s')
    (hsn : Padded (decimal n) sn) (hn : n ≤ 255) (ha4 : a.family = .v4) (hb4 : b.family = .v4)
    (hfirst : b.value / 256 = a.value / 256) (hlast : b.value % 256 = n) :
    (read (s ++ '-' :: sn)).map (fun t => (t.first, t.size)) =
      (read (s ++ '-' :: s')).map fun t => (t.first, t.size) := by
  cases a with
  | v6 bits => cases ha4
  | v4 bits =>
    obtain ⟨source, hshort⟩ := read_short ha hn hs hsn
    obtain ⟨source', hrange⟩ := read_range ha hb hs hs'
    -- the octets before the last one are those of the first address
    have hend : Address.v4 (BitVec.ofNat 32 (bits.toNat / 256 * 256 + n)) = b := by
      have hvalue : bits.toNat / 256 * 256 + n = b.value := by
        have hbits : (Address.v4 bits).value = bits.toNat := rfl
        omega
      calc Address.v4 (BitVec.ofNat 32 (bits.toNat / 256 * 256 + n))
          = Address.ofValue b.family b.value := by rw [hvalue, hb4]; rfl
        _ = b := Address.ofValue_value b
    rw [hshort, hrange, hend]
    exact map_ofBounds_eq ha4

/-- Items denote the addresses that they spell.  The texts `ta` and `tb` are any that are read as
the addresses `a` and `b`, and `s` and `s'` are these texts with blanks around them. -/
theorem read_denotes (ha : Address.read ta = some a) (hb : Address.read tb = some b)
    (hs : Padded ta s) (hs' : Padded tb s') :
    Address.read a.write = some a ∧
    Denotes s True 1 (· = a) ∧
    (a.family = b.family →
      Denotes (s ++ '-' :: s') (a.value ≤ b.value ∧ (a.family = .v6 → b.value - a.value < 2 ^ 32))
        (b.value - a.value + 1)
        fun x => x.family = a.family ∧ a.value ≤ x.value ∧ x.value ≤ b.value) ∧
    (a.family ≠ b.family → read (s ++ '-' :: s') = .error .mixedFamilies) ∧
    (∀ p sp, Padded (ta ++ '/' :: decimal p) sp →
      Denotes sp (p ≤ a.family.width ∧ (a.family = .v6 → 96 ≤ p)) (2 ^ (a.family.width - p))
        fun x => x.family = a.family ∧ ∀ i < p, x.bit i = a.bit i) ∧
    (∀ n sn, Padded (decimal n) sn → n ≤ 255 → a.family = .v4 → b.family = .v4 →
      b.value / 256 = a.value / 256 → b.value % 256 = n →
      (read (s ++ '-' :: sn)).map (fun t => (t.first, t.size)) =
        (read (s ++ '-' :: s')).map fun t => (t.first, t.size)) ∧
    (∀ (t : Block) x, t.contains x = true → x.family = t.first.family) := by
  refine ⟨Address.read_write a, denotes_single ha hs, denotes_range ha hb hs hs', ?_,
    fun p sp => denotes_network ha, fun n sn hsn hn => read_short_eq ha hb hs hs' hsn hn, ?_⟩
  · intro hf
    obtain ⟨source, hread⟩ := read_range ha hb hs hs'
    rw [hread, ofBounds, if_pos hf]
  · exact fun t x h => (contains_eq_true_iff.mp h).1

namespace Sample

/-- A range with blanks around its ends, the same range with a short end, and the network around
its first address. -/
theorem read_denotes_last_six :
    (∃ t, read " 10.0.0.250 - 10.0.0.255 ".toList = .ok t ∧ t.size = 6 ∧
      (read " 10.0.0.250 - 255".toList).map (fun t => (t.first, t.size)) =
        .ok (t.first, t.size)) ∧
    ∃ t, read "10.0.0.250/30".toList = .ok t ∧ t.size = 4 ∧
      t.contains (.v4 0x0A0000F8) = true ∧ t.contains (.v4 0x0A0000FC) = false := by
  have hlow : Address.read "10.0.0.250".toList = some (.v4 0x0A0000FA) := by decide
  have hhigh : Address.read "10.0.0.255".toList = some (.v4 0x0A0000FF) := by decide
  have hone : ∀ c ∈ [' '], isBlank c = true := List.forall_mem_singleton.mpr rfl
  have hnil : ∀ c ∈ [], isBlank c = true := List.forall_mem_nil _
  have hs : Padded "10.0.0.250".toList " 10.0.0.250 ".toList := ⟨[' '], [' '], hone, hone, rfl⟩
  have hs' : Padded "10.0.0.255".toList " 10.0.0.255 ".toList := ⟨[' '], [' '], hone, hone, rfl⟩
  have hshort : Padded (decimal 255) " 255".toList := ⟨[' '], [], hone, hnil, rfl⟩
  have hnetwork : Padded ("10.0.0.250".toList ++ '/' :: decimal 30) "10.0.0.250/30".toList :=
    ⟨[], [], hnil, hnil, rfl⟩
  obtain ⟨-, -, hrange, -, hnetworks, hshorts, -⟩ := read_denotes hlow hhigh hs hs'
  constructor
  · obtain ⟨haccepted, hblock⟩ := hrange rfl
    obtain ⟨t, ht⟩ := haccepted.mpr ⟨by decide, by rintro ⟨⟩⟩
    have hsame := hshorts 255 _ hshort (by decide) rfl rfl rfl rfl
    rw [ht] at hsame
    exact ⟨t, ht, (hblock t ht).1, hsame⟩
  · obtain ⟨haccepted, hblock⟩ := hnetworks 30 _ hnetwork
    obtain ⟨t, ht⟩ := haccepted.mpr ⟨by decide, by rintro ⟨⟩⟩
    obtain ⟨hsize, hmember⟩ := hblock t ht
    refine ⟨t, ht, hsize, (hmember _).mpr (by decide), ?_⟩
    rw [Bool.eq_false_iff, ne_eq, hmember]
    decide

end Sample

end Block

end Recon
