import Recon.Proofs.Port.Spec
import Recon.Proofs.Text.Digits
import Recon.Proofs.Text.Split

/-!
# The grammar of port specifications

An item is the name of a preset, a port, or two ports around a dash.  Which of these it is can be
told from the item alone, and so can the words in which it is refused if it is none of them.
-/

namespace Recon

open Recon.Text

namespace PortSpec

/-- The texts that are items, and what they stand for: the name of a preset in either case, a port,
or two ports, not the higher one first, around the first dash and with blanks beside it if need be.
-/
inductive Item.Spelled : List Char → Item → Prop
  | preset {cs : List Char} {p : Preset} (h : cs.map Char.toLower = p.name.toList) :
      Spelled cs (.preset p)
  | port {cs : List Char} {p : Port} (h : IsNumeral cs p.toNat) : Spelled cs (.range ⟨p, p⟩)
  | range {before after : List Char} {lo hi : Port} (hdash : '-' ∉ before)
      (hlo : IsNumeral (trim before) lo.toNat) (hhi : IsNumeral (trim after) hi.toNat)
      (hle : lo ≤ hi) : Spelled (before ++ '-' :: after) (.range ⟨lo, hi⟩)

def Portless (cs : List Char) : Prop := ∀ p : Port, ¬ IsNumeral cs p.toNat

/-- The texts that are no items, and the faults that are found in them.  Of the two sides of a dash
the left one is looked at first. -/
inductive Item.Refused : List Char → PortFault → Prop
  | port {cs : List Char} (hdash : '-' ∉ cs)
      (hpreset : ∀ p : Preset, cs.map Char.toLower ≠ p.name.toList) (hport : Portless cs) :
      Refused cs (.notAPort (String.ofList cs) (String.ofList cs))
  | start {before after : List Char} (hdash : '-' ∉ before) (hlo : Portless (trim before)) :
      Refused (before ++ '-' :: after)
        (.notAPort (String.ofList before) (String.ofList (before ++ '-' :: after)))
  | stop {before after : List Char} {lo : Port} (hdash : '-' ∉ before)
      (hlo : IsNumeral (trim before) lo.toNat) (hhi : Portless (trim after)) :
      Refused (before ++ '-' :: after)
        (.notAPort (String.ofList after) (String.ofList (before ++ '-' :: after)))
  | reversed {before after : List Char} {lo hi : Port} (hdash : '-' ∉ before)
      (hlo : IsNumeral (trim before) lo.toNat) (hhi : IsNumeral (trim after) hi.toNat)
      (hlt : hi < lo) :
      Refused (before ++ '-' :: after) (.reversedRange (String.ofList (before ++ '-' :: after)))

end PortSpec

variable {cs x before after : List Char} {p : Preset} {lo : Port} {r : PortRange} {f : PortFault}

/-! ### Names of presets -/

namespace Preset

/-- A preset is read from its name in either case. -/
theorem read_eq_some_iff : read cs = some p ↔ (trim cs).map Char.toLower = p.name.toList := by
  have hname : (trim cs).map Char.toLower = p.name.toList ↔
      p.name = String.ofList ((trim cs).map Char.toLower) := by
    rw [eq_comm, ← String.toList_inj, String.toList_ofList]
  rw [hname, read]
  constructor
  · intro h
    simpa using List.find?_some h
  · intro h
    rw [← h]
    cases p <;> rfl

theorem read_eq_none_iff :
    read cs = none ↔ ∀ p : Preset, (trim cs).map Char.toLower ≠ p.name.toList := by
  simp only [ne_eq, ← read_eq_some_iff, Option.eq_none_iff_forall_ne_some]

/-- No preset has a dash in its name. -/
theorem read_eq_none_of_dash (h : '-' ∈ trim cs) : read cs = none := by
  rw [read_eq_none_iff]
  intro p hp
  have hdash : '-' ∈ p.name.toList := hp ▸ List.mem_map_of_mem (f := Char.toLower) h
  cases p <;> revert hdash <;> decide

/-- A number is not the name of a preset. -/
theorem read_eq_none_of_numeral {n : ℕ} (h : IsNumeral (trim cs) n) : read cs = none := by
  rw [read_eq_none_iff]
  intro p hp
  -- every name has a letter, which no sign and no digit is turned into
  have hletter : 't' ∈ (trim cs).map Char.toLower := by
    rw [hp]
    cases p <;> decide
  obtain ⟨c, hc, hlower⟩ := List.mem_map.mp hletter
  rcases h.plus_or_digit c hc with rfl | hdigit
  · revert hlower
    decide
  · rw [toLower_of_digitValue? hdigit] at hlower
    subst hlower
    revert hdigit
    decide

end Preset

/-! ### Ports and ranges -/

namespace PortSpec

theorem readPort_eq_ok_iff (item : List Char) :
    PortRange.readPort item cs = .ok lo ↔ IsNumeral (trim cs) lo.toNat := by
  have hword := lo.toNat_lt
  have hread : readNumber 65535 (trim cs) = .ok lo.toNat ↔ IsNumeral (trim cs) lo.toNat := by
    rw [readNumber_eq_ok_iff]
    exact and_iff_left (by omega)
  rw [← hread, PortRange.readPort]
  cases hn : readNumber 65535 (trim cs) with
  | error fault => simp
  | ok n =>
    have hlt : n < UInt16.size := Nat.lt_succ_of_le (readNumber_eq_ok_iff.mp hn).2
    rw [Except.ok.injEq, Except.ok.injEq, ← UInt16.toNat_inj, UInt16.toNat_ofNat_of_lt' hlt]

theorem readPort_eq_error_iff (item : List Char) :
    PortRange.readPort item cs = .error f ↔
      Portless (trim cs) ∧ f = .notAPort (String.ofList cs) (String.ofList item) := by
  have hnone : Portless (trim cs) ↔ ∀ p, PortRange.readPort item cs ≠ .ok p := by
    simp only [Portless, ← readPort_eq_ok_iff item, ne_eq]
  rw [hnone, PortRange.readPort]
  cases readNumber 65535 (trim cs) with
  | error fault => simp [eq_comm]
  | ok n => simp

theorem range_read_of_notMem (h : '-' ∉ x) :
    PortRange.read x = (PortRange.readPort x x).map fun p => ⟨p, p⟩ := by
  rw [PortRange.read, cut_of_notMem h]

theorem range_read_dashed (h : '-' ∉ before) :
    PortRange.read (before ++ '-' :: after) =
      (PortRange.readPort (before ++ '-' :: after) before).bind fun lo =>
        (PortRange.readPort (before ++ '-' :: after) after).bind fun hi =>
          if hi < lo then .error (.reversedRange (String.ofList (before ++ '-' :: after)))
          else .ok ⟨lo, hi⟩ := by
  rw [PortRange.read, cut_append_cons h]
  dsimp only
  cases PortRange.readPort (before ++ '-' :: after) before with
  | error fault => rfl
  | ok lo => cases PortRange.readPort (before ++ '-' :: after) after <;> rfl

/-- Around a dash a range is read just if its ends are ports in their order. -/
theorem range_read_eq_ok_iff (h : '-' ∉ before) :
    PortRange.read (before ++ '-' :: after) = .ok r ↔
      IsNumeral (trim before) r.lo.toNat ∧ IsNumeral (trim after) r.hi.toNat ∧ r.lo ≤ r.hi := by
  rw [range_read_dashed h]
  constructor
  · intro hread
    obtain ⟨lo, hlo, hread⟩ := Except.bind_eq_ok_iff.mp hread
    obtain ⟨hi, hhi, hread⟩ := Except.bind_eq_ok_iff.mp hread
    split at hread
    · cases hread
    · next hle =>
      cases hread
      exact ⟨(readPort_eq_ok_iff _).mp hlo, (readPort_eq_ok_iff _).mp hhi, UInt16.not_lt.mp hle⟩
  · rintro ⟨hlo, hhi, hle⟩
    rw [(readPort_eq_ok_iff _).mpr hlo, (readPort_eq_ok_iff _).mpr hhi]
    exact if_neg (UInt16.not_lt.mpr hle)

/-- Around a dash the first fault is reported. -/
theorem refused_of_range_read (h : '-' ∉ before)
    (hread : PortRange.read (before ++ '-' :: after) = .error f) :
    Item.Refused (before ++ '-' :: after) f := by
  rw [range_read_dashed h] at hread
  rcases Except.bind_eq_error_iff.mp hread with hbefore | ⟨lo, hbefore, hread⟩
  · obtain ⟨hlo, rfl⟩ := (readPort_eq_error_iff _).mp hbefore
    exact .start h hlo
  · have hlo := (readPort_eq_ok_iff _).mp hbefore
    rcases Except.bind_eq_error_iff.mp hread with hafter | ⟨hi, hafter, hread⟩
    · obtain ⟨hhi, rfl⟩ := (readPort_eq_error_iff _).mp hafter
      exact .stop h hlo hhi
    · split at hread
      · next hlt =>
        cases hread
        exact .reversed h hlo ((readPort_eq_ok_iff _).mp hafter) hlt
      · cases hread

/-! ### Items -/

theorem item_read_of_dash (h : '-' ∈ trim x) : Item.read x = (PortRange.read x).map .range := by
  rw [Item.read, Preset.read_eq_none_of_dash h]

theorem item_read_of_numeral {n : ℕ} (h : IsNumeral (trim x) n) :
    Item.read x = (PortRange.read x).map .range := by
  rw [Item.read, Preset.read_eq_none_of_numeral h]

/-- Without blanks around it, an item is read as what it spells. -/
theorem item_read_eq_ok_iff {i : Item} (hx : trim x = x) :
    Item.read x = .ok i ↔ Item.Spelled x i := by
  constructor
  · intro h
    unfold Item.read at h
    split at h
    · next p hpreset =>
      cases h
      exact .preset (hx ▸ Preset.read_eq_some_iff.mp hpreset)
    · obtain ⟨r, hread, rfl⟩ := Except.map_eq_ok_iff.mp h
      -- a dash makes it a range, and nothing else does
      by_cases hdash : '-' ∈ x
      · obtain ⟨before, after, rfl, hbefore⟩ := List.eq_append_cons_of_mem hdash
        obtain ⟨hlo, hhi, hle⟩ := (range_read_eq_ok_iff hbefore).mp hread
        exact .range hbefore hlo hhi hle
      · rw [range_read_of_notMem hdash] at hread
        obtain ⟨p, hport, rfl⟩ := Except.map_eq_ok_iff.mp hread
        exact .port (hx ▸ (readPort_eq_ok_iff x).mp hport)
  · intro h
    cases h with
    | preset hname => rw [Item.read, Preset.read_eq_some_iff.mpr (hx.symm ▸ hname)]
    | port hport =>
      -- a numeral has no dash
      have hdash : '-' ∉ x := fun hc => absurd (hport.plus_or_digit _ hc) (by decide)
      have htrim : IsNumeral (trim x) _ := hx.symm ▸ hport
      rw [item_read_of_numeral htrim, range_read_of_notMem hdash, (readPort_eq_ok_iff x).mpr htrim]
      rfl
    | @range before after lo hi hdash hlo hhi hle =>
      have hmem : '-' ∈ trim (before ++ '-' :: after) := by simp [hx]
      have hread : PortRange.read (before ++ '-' :: after) = .ok ⟨lo, hi⟩ :=
        (range_read_eq_ok_iff hdash).mpr ⟨hlo, hhi, hle⟩
      rw [item_read_of_dash hmem, hread]
      rfl

/-- Without blanks around it, an item that spells nothing is refused for its first fault. -/
theorem item_read_eq_error_iff (hx : trim x = x) :
    Item.read x = .error f ↔ Item.Refused x f := by
  constructor
  · intro h
    unfold Item.read at h
    split at h
    · cases h
    · next hpreset =>
      have hread : PortRange.read x = .error f := Except.map_eq_error_iff.mp h
      by_cases hdash : '-' ∈ x
      · obtain ⟨before, after, rfl, hbefore⟩ := List.eq_append_cons_of_mem hdash
        exact refused_of_range_read hbefore hread
      · rw [range_read_of_notMem hdash] at hread
        have hport : PortRange.readPort x x = .error f := Except.map_eq_error_iff.mp hread
        obtain ⟨hnone, rfl⟩ := (readPort_eq_error_iff x).mp hport
        exact .port hdash (hx ▸ Preset.read_eq_none_iff.mp hpreset) (hx ▸ hnone)
  · intro h
    cases h with
    | port hdash hpreset hport =>
      have hnone : Preset.read x = none := Preset.read_eq_none_iff.mpr (hx.symm ▸ hpreset)
      have htrim : Portless (trim x) := hx.symm ▸ hport
      rw [Item.read, hnone, range_read_of_notMem hdash, (readPort_eq_error_iff x).mpr ⟨htrim, rfl⟩]
      rfl
    | start hdash hlo =>
      rw [item_read_of_dash (by simp [hx]), range_read_dashed hdash,
        (readPort_eq_error_iff _).mpr ⟨hlo, rfl⟩]
      rfl
    | stop hdash hlo hhi =>
      rw [item_read_of_dash (by simp [hx]), range_read_dashed hdash,
        (readPort_eq_ok_iff _).mpr hlo, (readPort_eq_error_iff _).mpr ⟨hhi, rfl⟩]
      rfl
    | reversed hdash hlo hhi hlt =>
      rw [item_read_of_dash (by simp [hx]), range_read_dashed hdash,
        (readPort_eq_ok_iff _).mpr hlo, (readPort_eq_ok_iff _).mpr hhi]
      exact congrArg (Except.map Item.range) (if_pos hlt)

theorem Item.Refused.not_spelled (h : Item.Refused x f) (hx : trim x = x) (i : Item) :
    ¬ Item.Spelled x i := by
  intro hi
  have hread := (item_read_eq_ok_iff hx).mpr hi
  rw [(item_read_eq_error_iff hx).mpr h] at hread
  cases hread

/-! ### Specifications -/

theorem read_eq_ok_iff {spec : PortSpec} :
    read cs = .ok spec ↔
      ∃ is, List.Forall₂ Item.Spelled (items cs) is ∧ spec = ⟨presetOf is, rangesOf is⟩ := by
  have hspelled (is : List Item) :
      readItems (items cs) = .ok is ↔ List.Forall₂ Item.Spelled (items cs) is := by
    rw [readItems_eq_mapM]
    apply mapM_eq_ok_iff_forall₂
    intro x hx i
    exact item_read_eq_ok_iff (trim_of_mem_items hx).1
  rw [read, Except.map_eq_ok_iff]
  simp only [hspelled, eq_comm]

/-- A specification is refused for the leftmost item that spells nothing. -/
theorem read_eq_error_iff :
    read cs = .error f ↔
      ∃ before item after, items cs = before ++ item :: after ∧
        (∀ x ∈ before, ∃ i, Item.Spelled x i) ∧ Item.Refused item f := by
  have hread : read cs = .error f ↔ (items cs).mapM Item.read = .error f := by
    rw [read, readItems_eq_mapM, Except.map_eq_error_iff]
  have htrim : ∀ x ∈ items cs, trim x = x := fun x hx => (trim_of_mem_items hx).1
  rw [hread, mapM_eq_error_iff]
  constructor
  · rintro ⟨before, item, after, hcs, hbefore, hitem⟩
    rw [hcs] at htrim
    refine ⟨before, item, after, hcs, fun x hx => ?_,
      (item_read_eq_error_iff (htrim item (by simp))).mp hitem⟩
    obtain ⟨i, hi⟩ := hbefore x hx
    exact ⟨i, (item_read_eq_ok_iff (htrim x (by simp [hx]))).mp hi⟩
  · rintro ⟨before, item, after, hcs, hbefore, hitem⟩
    rw [hcs] at htrim
    refine ⟨before, item, after, hcs, fun x hx => ?_,
      (item_read_eq_error_iff (htrim item (by simp))).mpr hitem⟩
    obtain ⟨i, hi⟩ := hbefore x hx
    exact ⟨i, (item_read_eq_ok_iff (htrim x (by simp [hx]))).mpr hi⟩

theorem presetOf_eq_some_iff {is : List Item} :
    presetOf is = some p ↔
      .preset p ∈ is ∧ ∀ q, .preset q ∈ is → p.ports.length ≤ q.ports.length := by
  rw [presetOf, Preset.find?_all_eq_some]
  simp only [List.contains_iff_mem]

/-! ### Written specifications -/

theorem dash_or_digit_of_mem_write {c : Char} (hc : c ∈ r.write) :
    c = '-' ∨ (digitValue? c).isSome = true := by
  unfold PortRange.write at hc
  split at hc
  · exact .inr (isSome_of_mem_decimal hc)
  · rcases List.mem_append.mp hc with hc | hc
    · exact .inr (isSome_of_mem_decimal hc)
    · rcases List.mem_cons.mp hc with rfl | hc
      · exact .inl rfl
      · exact .inr (isSome_of_mem_decimal hc)

/-- A range in its order spells itself. -/
theorem spelled_write (h : r.lo ≤ r.hi) : Item.Spelled r.write (.range r) := by
  have htrim (n : ℕ) : trim (decimal n) = decimal n :=
    trim_of_solid fun _ => isBlank_of_mem_decimal
  have hnumeral (n : ℕ) : IsNumeral (trim (decimal n)) n := (htrim n).symm ▸ isNumeral_decimal n
  obtain ⟨lo, hi⟩ := r
  unfold PortRange.write
  split
  · next heq =>
    cases heq
    exact .port (isNumeral_decimal _)
  · have hdash : '-' ∉ decimal lo.toNat := fun hc =>
      absurd (isSome_of_mem_decimal hc) (by decide)
    exact .range hdash (hnumeral _) (hnumeral _) h

theorem write_ne_nil (r : PortRange) : r.write ≠ [] := by
  unfold PortRange.write
  split
  · exact decimal_ne_nil _
  · simp

/-- The items of a written specification are its preset and its ranges. -/
theorem items_write (spec : PortSpec) :
    items spec.write =
      spec.preset.toList.map (·.name.toList) ++ spec.ranges.map PortRange.write := by
  apply items_join
  intro f hf
  rcases List.mem_append.mp hf with hf | hf
  · obtain ⟨p, -, rfl⟩ := List.mem_map.mp hf
    cases p <;> decide
  · obtain ⟨r, -, rfl⟩ := List.mem_map.mp hf
    refine ⟨trim_of_solid fun c hc => ?_, write_ne_nil r, fun hc => ?_⟩
    · rcases dash_or_digit_of_mem_write hc with rfl | hdigit
      · decide
      · have hrange := toNat_of_digitValue? hdigit
        exact isBlank_eq_false (by omega) (by omega)
    · have hcomma := dash_or_digit_of_mem_write hc
      revert hcomma
      decide

theorem rangesOf_append (ps : List Preset) (rs : List PortRange) :
    rangesOf (ps.map .preset ++ rs.map .range) = rs := by
  simp [rangesOf, List.filterMap_append, List.filterMap_map]

theorem presetOf_append (o : Option Preset) (rs : List PortRange) :
    presetOf (o.toList.map .preset ++ rs.map .range) = o := by
  have hmem (p : Preset) :
      (.preset p : Item) ∈ o.toList.map .preset ++ rs.map .range ↔ o = some p := by
    simp
  ext p
  simp only [presetOf_eq_some_iff, hmem]
  refine ⟨fun h => h.1, fun h => ⟨h, fun q hq => ?_⟩⟩
  cases h.symm.trans hq
  exact le_rfl

/-- What is written is read back, if every range is in its order. -/
theorem read_write {spec : PortSpec} (h : ∀ r ∈ spec.ranges, r.lo ≤ r.hi) :
    read spec.write = .ok spec := by
  rw [read_eq_ok_iff, items_write]
  refine ⟨spec.preset.toList.map .preset ++ spec.ranges.map .range, ?_, ?_⟩
  · refine List.rel_append ?_ ?_
    · rw [List.forall₂_map_left_iff, List.forall₂_map_right_iff, List.forall₂_same]
      rintro p -
      exact .preset (by cases p <;> decide)
    · rw [List.forall₂_map_left_iff, List.forall₂_map_right_iff, List.forall₂_same]
      exact fun r hr => spelled_write (h r hr)
  · rw [presetOf_append, rangesOf_append]

/-! ### What is accepted, as what, and what is refused -/

/-- The ranges of a specification that is read are in their order. -/
theorem le_of_read {spec : PortSpec} (h : read cs = .ok spec) (hr : r ∈ spec.ranges) :
    r.lo ≤ r.hi := by
  obtain ⟨is, his, rfl⟩ := read_eq_ok_iff.mp h
  obtain ⟨i, hi, hir⟩ := List.mem_filterMap.mp hr
  obtain ⟨x, -, hx⟩ : ∃ x ∈ items cs, Item.Spelled x i := by
    have hmem := List.forall₂_iff_get.mp his
    obtain ⟨n, hn, rfl⟩ := List.getElem_of_mem hi
    exact ⟨_, List.getElem_mem (hmem.1.symm ▸ hn), hmem.2 n _ hn⟩
  cases hx with
  | preset hname => cases hir
  | port hport =>
    cases hir
    exact UInt16.le_refl _
  | range hdash hlo hhi hle =>
    cases hir
    exact hle

/-- A port specification is accepted if each item spells something; then its ranges are those
spelled, in order, and its preset is the smallest of those spelled.  No range ends before it starts
or past the last port, and what the specification is written as is read as that specification.  Else
it is refused as a range of ports, for the leftmost item that spells nothing and for the first fault
of that. -/
theorem spelled_by_items (s : String) :
    ((∃ spec, ofString s = .ok spec) ↔ ∀ x ∈ items s.toList, ∃ i, Item.Spelled x i) ∧
    (∀ spec, ofString s = .ok spec ↔
      ∃ is, List.Forall₂ Item.Spelled (items s.toList) is ∧ spec.ranges = rangesOf is ∧
        ∀ p, spec.preset = some p ↔
          .preset p ∈ is ∧ ∀ q, .preset q ∈ is → p.ports.length ≤ q.ports.length) ∧
    (∀ spec, ofString s = .ok spec →
      (∀ r ∈ spec.ranges, r.lo ≤ r.hi ∧ r.hi.toNat ≤ 65535) ∧
        ofString (String.ofList spec.write) = .ok spec) ∧
    ∀ f, (ofString s = .error f ↔
        ∃ before item after, items s.toList = before ++ item :: after ∧
          (∀ x ∈ before, ∃ i, Item.Spelled x i) ∧ (∀ i, ¬ Item.Spelled item i) ∧
            Item.Refused item f) ∧
      f.toError.kind = .portRange := by
  refine ⟨?_, ?_, ?_, fun f => ⟨?_, rfl⟩⟩
  · refine exists_read.trans (forall₂_congr fun x hx => exists_congr fun i => ?_)
    exact item_read_eq_ok_iff (trim_of_mem_items hx).1
  · intro spec
    refine read_eq_ok_iff.trans (exists_congr fun is => and_congr_right fun _ => ?_)
    obtain ⟨preset, ranges⟩ := spec
    rw [PortSpec.mk.injEq, and_comm]
    refine and_congr_right fun _ => ?_
    simp only [← presetOf_eq_some_iff]
    exact Option.ext_iff
  · intro spec hread
    have hle : ∀ r ∈ spec.ranges, r.lo ≤ r.hi := fun r hr => le_of_read hread hr
    refine ⟨fun r hr => ⟨hle r hr, Nat.le_of_lt_succ r.hi.toNat_lt⟩, ?_⟩
    rw [ofString, String.toList_ofList]
    exact read_write hle
  · rw [ofString, read_eq_error_iff]
    constructor
    · rintro ⟨before, item, after, hcs, hbefore, hitem⟩
      have hmem : item ∈ items s.toList := by simp [hcs]
      have htrim : trim item = item := (trim_of_mem_items hmem).1
      exact ⟨before, item, after, hcs, hbefore, hitem.not_spelled htrim, hitem⟩
    · rintro ⟨before, item, after, hcs, hbefore, -, hitem⟩
      exact ⟨before, item, after, hcs, hbefore, hitem⟩

namespace Sample

def mixed : String := " TOP200, +080,90 - 100 ,top1000,,65535-065535"

/-- The smaller preset counts and the specification is written without ornaments; of two bad items
the left one is reported, which is cut at its first dash. -/
theorem spelled_by_items_mixed :
    (∀ x ∈ items mixed.toList, ∃ i, Item.Spelled x i) ∧
    ofString "top200,80,90-100,65535" =
      .ok ⟨some .top200, [⟨80, 80⟩, ⟨90, 100⟩, ⟨65535, 65535⟩]⟩ ∧
    ofString "80,1-2-3,90-80" = .error (.notAPort "2-3" "1-2-3") := by
  obtain ⟨haccepted, -, hread, -⟩ := spelled_by_items mixed
  obtain ⟨-, -, -, hrefused⟩ := spelled_by_items "80,1-2-3,90-80"
  have hmixed : ofString mixed =
      .ok ⟨some .top200, [⟨80, 80⟩, ⟨90, 100⟩, ⟨65535, 65535⟩]⟩ := rfl
  refine ⟨haccepted.mp ⟨_, hmixed⟩, (hread _ hmixed).2, ?_⟩
  have hitem : Item.Refused "1-2-3".toList (.notAPort "2-3" "1-2-3") :=
    (item_read_eq_error_iff rfl).mp rfl
  refine (hrefused _).1.mpr ⟨["80".toList], _, ["90-80".toList], rfl, ?_,
    hitem.not_spelled rfl, hitem⟩
  intro x hx
  rw [List.mem_singleton.mp hx]
  exact ⟨_, (item_read_eq_ok_iff rfl).mp rfl⟩

end Sample

end PortSpec

end Recon
