import Mathlib.Algebra.Group.Nat.Defs
import Recon.Address.Text
import Recon.Proofs.Text.Digits
import Recon.Proofs.Text.Split

/-!
# Addresses read back

What is written of an address reads as that address, in either family and wherever the gap of a long
address falls.  Whatever is read as an address consists of hexadecimal digits, colons and dots.
-/

namespace Recon.Address

open Recon.Text

/-! ### Four octets -/

set_option maxRecDepth 4000 in
theorem readOctet_decimal {n : ℕ} (h : n < 256) : readOctet (decimal n) = some n := by
  have hall : ∀ n < 256, readOctet (decimal n) = some n := by decide
  exact hall n h

theorem dot_notMem_decimal (n : ℕ) : '.' ∉ decimal n :=
  fun h => absurd (isSome_of_mem_decimal h) (by decide)

theorem colon_notMem_decimal (n : ℕ) : ':' ∉ decimal n :=
  fun h => absurd (isSome_of_mem_decimal h) (by decide)

theorem dot_notMem_hexadecimal (n : ℕ) : '.' ∉ hexadecimal n :=
  fun h => absurd (isSome_of_mem_hexadecimal h) (by decide)

theorem colon_notMem_hexadecimal (n : ℕ) : ':' ∉ hexadecimal n :=
  fun h => absurd (isSome_of_mem_hexadecimal h) (by decide)

theorem readQuad_quad {n : ℕ} (h : n < 2 ^ 32) : readQuad (quad n) = some n := by
  have hfields : fields '.' (quad n) = [decimal (n >>> 24 % 256), decimal (n >>> 16 % 256),
      decimal (n >>> 8 % 256), decimal (n % 256)] := by
    apply fields_join (by simp)
    simp [dot_notMem_decimal]
  have hoctet (k : ℕ) : readOctet (decimal (k % 256)) = some (k % 256) :=
    readOctet_decimal (Nat.mod_lt k (by decide))
  rw [readQuad, hfields]
  simp only [hoctet, Nat.shiftRight_eq_div_pow]
  congr 1
  omega

theorem readQuad_of_notMem {cs : List Char} (h : '.' ∉ cs) : readQuad cs = none := by
  rw [readQuad, fields_of_notMem h]

theorem readQuad_colon_cons (cs : List Char) : readQuad (':' :: cs) = none := by
  have hoctet (f : List Char) : readOctet (':' :: f) = none := by
    unfold readOctet
    split
    · rfl
    · rfl
    · split
      · simp [foldDigits, digitValue?]
      · rfl
  unfold readQuad
  rw [fields, if_neg (by decide)]
  cases fields '.' cs with
  | nil => rfl
  | cons f fs =>
    rcases fs with _ | ⟨b, _ | ⟨c, _ | ⟨d, _ | ⟨e, fs⟩⟩⟩⟩ <;> simp [hoctet]

/-! ### Groups -/

theorem readGroup_hexadecimal {g : ℕ} (h : g < 65536) : readGroup (hexadecimal g) = some g := by
  have hlength : (hexadecimal g).length ≤ 4 :=
    (Nat.length_toDigits_le_iff (by decide) (by decide)).mpr h
  rw [readGroup, if_neg, foldDigits_hexadecimal]
  simp [hexadecimal_ne_nil, Nat.not_lt.mpr hlength]

theorem readGroups_hexadecimal (ends : Bool) {gs : List ℕ} (h : ∀ g ∈ gs, g < 65536) :
    readGroups ends (gs.map hexadecimal) = some gs := by
  induction gs with
  | nil => rfl
  | cons g gs ih =>
    have hg := readGroup_hexadecimal (h g List.mem_cons_self)
    have hrest := ih fun k hk => h k (List.mem_cons_of_mem g hk)
    cases gs with
    | nil =>
      have hquad : readQuad (hexadecimal g) = none := readQuad_of_notMem (dot_notMem_hexadecimal g)
      cases ends <;> simp [readGroups, hquad, hg]
    | cons k ks =>
      rw [List.map_cons] at hrest
      simp [readGroups, hg, hrest]

theorem fields_writeGroups {gs : List ℕ} (hne : gs ≠ []) :
    fields ':' (writeGroups gs) = gs.map hexadecimal := by
  apply fields_join (by simpa using hne)
  simp [colon_notMem_hexadecimal]

theorem writeGroups_cons_cons (g k : ℕ) (gs : List ℕ) :
    writeGroups (g :: k :: gs) = hexadecimal g ++ ':' :: writeGroups (k :: gs) := by
  simp [writeGroups, join_cons_cons]

theorem writeGroups_ne_nil {gs : List ℕ} (hne : gs ≠ []) : writeGroups gs ≠ [] := by
  intro h
  rcases gs with _ | ⟨g, _ | ⟨k, gs⟩⟩
  · exact hne rfl
  · exact hexadecimal_ne_nil g h
  · rw [writeGroups_cons_cons] at h
    simp at h

theorem readSide_writeGroups (ends : Bool) {gs : List ℕ} (h : ∀ g ∈ gs, g < 65536) :
    readSide ends (writeGroups gs) = some gs := by
  by_cases hne : gs = []
  · rw [hne]
    rfl
  · rw [readSide, if_neg (by simpa using writeGroups_ne_nil hne), fields_writeGroups hne,
      readGroups_hexadecimal ends h]

/-! ### The gap -/

theorem cutGap_append {f : List Char} (hf : ':' ∉ f) (cs : List Char) :
    cutGap (f ++ cs) = (cutGap cs).map fun (before, after) => (f ++ before, after) := by
  induction f with
  | nil => cases h : cutGap cs <;> simp [h]
  | cons c f ih =>
    obtain ⟨hc, hf⟩ := not_or.mp (mt List.mem_cons.mpr hf)
    have hcut : cutGap (c :: (f ++ cs)) =
        (cutGap (f ++ cs)).map fun (before, after) => (c :: before, after) := by
      rw [cutGap]
      intro ds hcolon _
      exact hc hcolon.symm
    rw [List.cons_append, hcut, ih hf, Option.map_map]
    rfl

theorem cutGap_colon_cons {cs : List Char} (h : cs.head? ≠ some ':') :
    cutGap (':' :: cs) = (cutGap cs).map fun (before, after) => (':' :: before, after) := by
  rw [cutGap]
  rintro ds _ rfl
  exact h rfl

theorem head?_writeGroups (g : ℕ) (gs : List ℕ) (cs : List Char) :
    (writeGroups (g :: gs) ++ cs).head? ≠ some ':' := by
  have hfirst (ds : List Char) : (hexadecimal g ++ ds).head? ≠ some ':' := by
    obtain ⟨c, hc⟩ : ∃ c, (hexadecimal g).head? = some c :=
      Option.isSome_iff_exists.mp (by simpa using hexadecimal_ne_nil g)
    rw [List.head?_append, hc, Option.some_or]
    rintro ⟨⟩
    exact colon_notMem_hexadecimal g (List.mem_of_mem_head? hc)
  cases gs with
  | nil => exact hfirst cs
  | cons k gs =>
    rw [writeGroups_cons_cons, List.append_assoc]
    exact hfirst _

/-- A gap behind groups is the first one. -/
theorem cutGap_writeGroups (gs : List ℕ) (cs : List Char) :
    cutGap (writeGroups gs ++ ':' :: ':' :: cs) = some (writeGroups gs, cs) := by
  induction gs with
  | nil => rfl
  | cons g gs ih =>
    cases gs with
    | nil =>
      have hwrite : writeGroups [g] = hexadecimal g := rfl
      rw [hwrite, cutGap_append (colon_notMem_hexadecimal g), cutGap]
      simp
    | cons k gs =>
      -- the colon behind a group is no gap, since the next group begins with a digit
      rw [writeGroups_cons_cons, List.append_assoc, cutGap_append (colon_notMem_hexadecimal g),
        List.cons_append, cutGap_colon_cons (head?_writeGroups k gs _), ih]
      rfl

theorem cutGap_writeGroups_eq_none (gs : List ℕ) : cutGap (writeGroups gs) = none := by
  induction gs with
  | nil => rfl
  | cons g gs ih =>
    cases gs with
    | nil =>
      have hwrite : writeGroups [g] = hexadecimal g ++ [] := (List.append_nil _).symm
      rw [hwrite, cutGap_append (colon_notMem_hexadecimal g)]
      rfl
    | cons k gs =>
      have hhead := head?_writeGroups k gs []
      rw [List.append_nil] at hhead
      rw [writeGroups_cons_cons, cutGap_append (colon_notMem_hexadecimal g),
        cutGap_colon_cons hhead, ih]
      rfl

/-- The longest run is a run of zeros inside the list. -/
theorem longestRun_eq (gs : List ℕ) (k : ℕ) :
    ∃ i, (longestRun k gs).1 = k + i ∧ i + (longestRun k gs).2 ≤ gs.length ∧
      (gs.drop i).take (longestRun k gs).2 = List.replicate (longestRun k gs).2 0 := by
  induction gs generalizing k with
  | nil => exact ⟨0, rfl, Nat.le_refl _, rfl⟩
  | cons g gs ih =>
    rw [longestRun]
    split
    · -- the zeros that the list starts with
      have hzeros : (g :: gs).takeWhile (· = 0) = List.replicate (leadingZeros (g :: gs)) 0 := by
        apply List.eq_replicate_iff.mpr
        exact ⟨rfl, fun x hx => by simpa using List.mem_takeWhile_imp hx⟩
      have hlength : leadingZeros (g :: gs) ≤ (g :: gs).length :=
        (List.takeWhile_sublist _).length_le
      refine ⟨0, rfl, by omega, ?_⟩
      dsimp only
      rw [List.drop_zero, ← hzeros, leadingZeros]
      exact (List.prefix_iff_eq_take.mp (List.takeWhile_prefix _)).symm
    · obtain ⟨i, hi, hlength, hrun⟩ := ih (k + 1)
      refine ⟨i + 1, by omega, ?_, ?_⟩
      · rw [List.length_cons]
        omega
      · rwa [List.drop_succ_cons]

/-- A list falls into what is before a run of zeros, the run, and what is after it. -/
theorem eq_append_of_run {gs : List ℕ} {i len : ℕ} (h : i + len ≤ gs.length)
    (hrun : (gs.drop i).take len = List.replicate len 0) :
    gs.take i ++ List.replicate (gs.length - ((gs.take i).length + (gs.drop (i + len)).length)) 0 ++
      gs.drop (i + len) = gs := by
  have hcount : gs.length - ((gs.take i).length + (gs.drop (i + len)).length) = len := by
    rw [List.length_take, List.length_drop]
    omega
  calc gs.take i ++ List.replicate _ 0 ++ gs.drop (i + len)
      = gs.take i ++ ((gs.drop i).take len ++ (gs.drop i).drop len) := by
        rw [hcount, ← hrun, List.append_assoc, List.drop_drop]
    _ = gs := by rw [List.take_append_drop, List.take_append_drop]

/-! ### Long addresses -/

theorem length_groups (n : ℕ) : (groups n).length = 8 := rfl

theorem groups_lt (n : ℕ) : ∀ g ∈ groups n, g < 65536 := by
  simp only [groups, List.forall_mem_cons, List.not_mem_nil, false_implies, implies_true, and_true]
  omega

theorem ofGroups_groups {n : ℕ} (h : n < 2 ^ 128) : ofGroups (groups n) = n := by
  simp only [ofGroups, groups, List.foldl_cons, List.foldl_nil, Nat.shiftRight_eq_div_pow]
  omega

/-- Groups with a gap in the place of a run of zeros. -/
theorem readEight_gap {gs : List ℕ} {i len : ℕ} (hgs : gs.length = 8)
    (hlt : ∀ g ∈ gs, g < 65536) (hlen : 2 ≤ len) (h : i + len ≤ gs.length)
    (hrun : (gs.drop i).take len = List.replicate len 0) :
    readEight (writeGroups (gs.take i) ++ [':', ':'] ++ writeGroups (gs.drop (i + len))) =
      some gs := by
  have hcut := cutGap_writeGroups (gs.take i) (writeGroups (gs.drop (i + len)))
  have hbefore : readSide false (writeGroups (gs.take i)) = some (gs.take i) :=
    readSide_writeGroups false fun g hg => hlt g (List.mem_of_mem_take hg)
  have hafter : readSide true (writeGroups (gs.drop (i + len))) = some (gs.drop (i + len)) :=
    readSide_writeGroups true fun g hg => hlt g (List.mem_of_mem_drop hg)
  -- a gap stands for one group at least
  have hfew : (gs.take i).length + (gs.drop (i + len)).length ≤ 7 := by
    rw [List.length_take, List.length_drop]
    omega
  have heq := eq_append_of_run h hrun
  rw [hgs] at heq
  rw [readEight, List.append_assoc, List.cons_append, List.cons_append, List.nil_append, hcut]
  simp only [hbefore, hafter, if_pos hfew, heq]

theorem readEight_writeGroups {gs : List ℕ} (hgs : gs.length = 8) (hlt : ∀ g ∈ gs, g < 65536) :
    readEight (writeGroups gs) = some gs := by
  rw [readEight, cutGap_writeGroups_eq_none]
  simp [readSide_writeGroups true hlt, hgs]

theorem readEight_mapped {n : ℕ} (h : n < 2 ^ 32) :
    readEight (':' :: ':' :: 'f' :: 'f' :: 'f' :: 'f' :: ':' :: quad n) =
      some [0, 0, 0, 0, 0, 65535, n / 65536, n % 65536] := by
  have hcolon : ':' ∉ quad n := by
    simp [quad, join, colon_notMem_decimal]
  have hfields : fields ':' ('f' :: 'f' :: 'f' :: 'f' :: ':' :: quad n) =
      [['f', 'f', 'f', 'f'], quad n] := by
    have hffff : ':' ∉ ['f', 'f', 'f', 'f'] := by decide
    have happend : fields ':' (['f', 'f', 'f', 'f'] ++ ':' :: quad n) =
        ['f', 'f', 'f', 'f'] :: fields ':' (quad n) := fields_append_cons hffff
    rwa [fields_of_notMem hcolon] at happend
  have hgroup : readGroup ['f', 'f', 'f', 'f'] = some 65535 := by decide
  have hside : readSide true ('f' :: 'f' :: 'f' :: 'f' :: ':' :: quad n) =
      some [65535, n / 65536, n % 65536] := by
    simp [readSide, hfields, readGroups, hgroup, readQuad_quad h]
  have hempty : readSide false [] = some [] := rfl
  simp [readEight, cutGap, hside, hempty, List.replicate]

theorem readV6_writeV6 {n : ℕ} (h : n < 2 ^ 128) :
    readV6 (writeV6 n) = some (BitVec.ofNat 128 n) := by
  suffices height : ∃ gs, readEight (writeV6 n) = some gs ∧ ofGroups gs = n by
    obtain ⟨gs, hgs, hn⟩ := height
    rw [readV6, hgs, Option.map_some, hn]
  unfold writeV6
  split
  · -- the last two groups are written as four octets
    next hmapped =>
    refine ⟨_, readEight_mapped (Nat.mod_lt n (by decide)), ?_⟩
    rw [Nat.shiftRight_eq_div_pow] at hmapped
    have hsize : UInt32.size = 4294967296 := rfl
    simp only [ofGroups, List.foldl_cons, List.foldl_nil, hsize]
    omega
  · -- a run of at least two zeros has become the gap, or all groups are written
    refine ⟨groups n, ?_, ofGroups_groups h⟩
    obtain ⟨i, hi, hlength, hrun⟩ := longestRun_eq (groups n) 0
    dsimp only
    split
    · next hlen =>
      rw [hi, Nat.zero_add]
      exact readEight_gap (length_groups n) (groups_lt n) hlen hlength hrun
    · exact readEight_writeGroups (length_groups n) (groups_lt n)

theorem readV4_writeV6 (n : ℕ) : readV4 (writeV6 n) = none := by
  have hgroups (gs : List ℕ) : '.' ∉ writeGroups gs := by
    induction gs with
    | nil => exact List.not_mem_nil
    | cons g gs ih =>
      cases gs with
      | nil => exact dot_notMem_hexadecimal g
      | cons k gs =>
        rw [writeGroups_cons_cons]
        simp [dot_notMem_hexadecimal, ih]
  suffices hquad : readQuad (writeV6 n) = none by rw [readV4, hquad, Option.map_none]
  unfold writeV6
  split
  · -- an embedded address has dots, but starts with a colon
    exact readQuad_colon_cons _
  · apply readQuad_of_notMem
    dsimp only
    split
    · simp [hgroups]
    · exact hgroups _

/-- An address is read back from its text. -/
theorem read_write (a : Address) : read a.write = some a := by
  cases a with
  | v4 bits => simp [read, write, readV4, readQuad_quad bits.isLt]
  | v6 bits => simp [read, write, readV4_writeV6, readV6_writeV6 bits.isLt]

/-! ### What addresses consist of -/

def IsLetter (c : Char) : Prop := (hexValue? c).isSome = true ∨ c = ':' ∨ c = '.'

/-- A character of an address is neither blank nor a slash nor a dash. -/
theorem IsLetter.solid {c : Char} (h : IsLetter c) : isBlank c = false ∧ c ≠ '/' ∧ c ≠ '-' := by
  rcases h with h | rfl | rfl
  · have hrange := toNat_of_hexValue? h
    refine ⟨isBlank_eq_false (by omega) (by omega), ?_, ?_⟩ <;>
      · rintro rfl
        exact absurd h (by decide)
  · decide
  · decide

theorem hexValue?_of_digitValue? {c : Char} (h : (digitValue? c).isSome = true) :
    (hexValue? c).isSome = true := by
  unfold digitValue? at h
  split at h
  · next hc =>
    rw [hexValue?, if_pos hc]
    rfl
  · cases h

theorem letters_of_readOctet {cs : List Char} {n : ℕ} (h : readOctet cs = some n) :
    ∀ c ∈ cs, IsLetter c := by
  unfold readOctet at h
  split at h
  · cases h
  · cases h
  · split at h
    · obtain ⟨m, hm, _⟩ := Option.bind_eq_some_iff.mp h
      exact fun c hc => .inl (hexValue?_of_digitValue? (isSome_of_foldDigits hm c hc))
    · cases h

theorem letters_of_readGroup {cs : List Char} {n : ℕ} (h : readGroup cs = some n) :
    ∀ c ∈ cs, IsLetter c := by
  unfold readGroup at h
  split at h
  · cases h
  · exact fun c hc => .inl (isSome_of_foldDigits h c hc)

/-- A text whose fields consist of characters of addresses does so itself. -/
theorem letters_of_fields {sep : Char} {cs : List Char} (hsep : IsLetter sep)
    (h : ∀ f ∈ fields sep cs, ∀ c ∈ f, IsLetter c) : ∀ c ∈ cs, IsLetter c := by
  have hjoin (fs : List (List Char)) (hfs : ∀ f ∈ fs, ∀ c ∈ f, IsLetter c) :
      ∀ c ∈ join [sep] fs, IsLetter c := by
    induction fs with
    | nil => simp [join]
    | cons f fs ih =>
      obtain ⟨hf, hfs⟩ := List.forall_mem_cons.mp hfs
      cases fs with
      | nil => exact hf
      | cons g gs =>
        intro c hc
        rw [join_cons_cons, List.mem_append, List.mem_append, List.mem_singleton] at hc
        rcases hc with (hc | rfl) | hc
        · exact hf c hc
        · exact hsep
        · exact ih hfs c hc
  have hcs := hjoin _ h
  rwa [join_fields] at hcs

theorem letters_of_readQuad {cs : List Char} {n : ℕ} (h : readQuad cs = some n) :
    ∀ c ∈ cs, IsLetter c := by
  have hdot : IsLetter '.' := .inr (.inr rfl)
  apply letters_of_fields hdot
  unfold readQuad at h
  split at h
  · next a b c d hfields =>
    split at h
    · next ha hb hc hd =>
      rw [hfields]
      simp only [List.forall_mem_cons, List.not_mem_nil, false_implies, implies_true, and_true]
      exact ⟨letters_of_readOctet ha, letters_of_readOctet hb, letters_of_readOctet hc,
        letters_of_readOctet hd⟩
    · cases h
  · cases h

theorem letters_of_readGroups {ends : Bool} {fs : List (List Char)} {gs : List ℕ}
    (h : readGroups ends fs = some gs) : ∀ f ∈ fs, ∀ c ∈ f, IsLetter c := by
  induction fs generalizing gs with
  | nil => simp
  | cons f fs ih =>
    cases fs with
    | nil =>
      rw [List.forall_mem_singleton]
      rw [readGroups] at h
      split at h
      · next n hn =>
        cases ends
        · cases hn
        · exact letters_of_readQuad hn
      · obtain ⟨g, hg, _⟩ := Option.map_eq_some_iff.mp h
        exact letters_of_readGroup hg
    | cons k ks =>
      unfold readGroups at h
      split at h
      · next g gs' hg hgs =>
        exact List.forall_mem_cons.mpr ⟨letters_of_readGroup hg, ih hgs⟩
      · cases h

theorem letters_of_readSide {ends : Bool} {cs : List Char} {gs : List ℕ}
    (h : readSide ends cs = some gs) : ∀ c ∈ cs, IsLetter c := by
  unfold readSide at h
  split at h
  · next hnil => simp [List.isEmpty_iff.mp hnil]
  · exact letters_of_fields (.inr (.inl rfl)) (letters_of_readGroups h)

theorem eq_of_cutGap {cs before after : List Char} (h : cutGap cs = some (before, after)) :
    cs = before ++ ':' :: ':' :: after := by
  induction cs using cutGap.induct generalizing before with
  | case1 cs =>
    cases h
    rfl
  | case2 => cases h
  | case3 c cs hne ih =>
    rw [cutGap.eq_3 _ _ hne] at h
    obtain ⟨⟨before', after'⟩, hcut, heq⟩ := Option.map_eq_some_iff.mp h
    cases heq
    rw [ih hcut, List.cons_append]

/-- Whatever is read as an address consists of the characters of addresses. -/
theorem letters_of_read {cs : List Char} {a : Address} (h : read cs = some a) :
    ∀ c ∈ cs, IsLetter c := by
  unfold read at h
  split at h
  · next bits hbits =>
    obtain ⟨n, hn, _⟩ := Option.map_eq_some_iff.mp hbits
    exact letters_of_readQuad hn
  · obtain ⟨bits, hbits, _⟩ := Option.map_eq_some_iff.mp h
    obtain ⟨gs, hgs, _⟩ := Option.map_eq_some_iff.mp hbits
    unfold readEight at hgs
    split at hgs
    · obtain ⟨gs', hside, _⟩ := Option.bind_eq_some_iff.mp hgs
      exact letters_of_readSide hside
    · next before after hcut =>
      split at hgs
      · next hbefore hafter =>
        rw [eq_of_cutGap hcut]
        intro c hc
        simp only [List.mem_append, List.mem_cons] at hc
        rcases hc with hc | rfl | rfl | hc
        · exact letters_of_readSide hbefore c hc
        · exact .inr (.inl rfl)
        · exact .inr (.inl rfl)
        · exact letters_of_readSide hafter c hc
      · cases hgs

end Recon.Address
