import Mathlib.Algebra.GroupWithZero.Nat
import Recon.Proofs.List.Traverse
import Recon.Proofs.Target.Exclusion
import Recon.Proofs.Text.Split
import Recon.Target.Word

/-!
# Target lists are put together from items

The items of a target list are read one by one, so the blocks of two lists with a comma between them
are those of the one and then those of the other.  Blank items do not show, and a list is refused
for the leftmost item that is no block.
-/

namespace Recon

open Recon.Text

namespace TargetList

variable {cs : List Char} {t : TargetList} {f : TargetFault}

theorem readItems_eq_mapM (xs : List (List Char)) : readItems xs = xs.mapM Block.read := by
  induction xs with
  | nil => rfl
  | cons x xs ih =>
    rw [readItems]
    cases hx : Block.read x with
    | error f => rw [mapM_cons_of_error hx]
    | ok b => rw [mapM_cons_of_ok hx, ih]

theorem read_eq (cs : List Char) :
    read cs =
      if items cs = [] then .error .noTargets
      else ((items cs).mapM Block.read).map TargetList.mk := by
  rw [read, readItems_eq_mapM]
  split
  · next f hread =>
    -- no item is refused where there is none
    have hne : items cs ≠ [] := by
      intro hnil
      rw [hnil] at hread
      cases hread
    rw [if_neg hne, hread]
    rfl
  · next hread =>
    have hmap : (items cs).map Block.read = [] := mapM_eq_ok_iff.mp hread
    rw [if_pos (List.map_eq_nil_iff.mp hmap)]
  · next bs hbs hread =>
    have hne : items cs ≠ [] := by
      intro hnil
      rw [hnil] at hread
      cases hread
      exact hbs rfl
    rw [if_neg hne, hread]
    rfl

/-- A list is accepted if it has an item and each of its items is a block. -/
theorem read_eq_ok_iff :
    read cs = .ok t ↔ items cs ≠ [] ∧ (items cs).map Block.read = t.blocks.map .ok := by
  rw [read_eq, ← mapM_eq_ok_iff]
  by_cases hnil : items cs = []
  · simp [hnil]
  · rw [if_neg hnil]
    cases (items cs).mapM Block.read with
    | error f => simp [Except.map]
    | ok bs =>
      obtain ⟨blocks⟩ := t
      simp [Except.map, hnil]

/-- A list is refused for having no item, or for the leftmost one that is no block. -/
theorem read_eq_error_iff :
    read cs = .error f ↔
      (items cs = [] ∧ f = .noTargets) ∨
        ∃ before item after, items cs = before ++ item :: after ∧
          (∀ x ∈ before, ∃ b, Block.read x = .ok b) ∧ Block.read item = .error f := by
  rw [read_eq, ← mapM_eq_error_iff]
  by_cases hnil : items cs = []
  · simp [hnil, eq_comm, pure, Except.pure]
  · rw [if_neg hnil]
    cases (items cs).mapM Block.read <;> simp [Except.map, hnil]

theorem exists_read_iff :
    (∃ t, read cs = .ok t) ↔ items cs ≠ [] ∧ ∀ x ∈ items cs, ∃ b, Block.read x = .ok b := by
  rw [← exists_mapM_iff, read_eq]
  by_cases hnil : items cs = []
  · simp [hnil]
  · rw [if_neg hnil]
    cases (items cs).mapM Block.read <;> simp [Except.map, hnil]

theorem read_congr {cs' : List Char} (h : items cs = items cs') : read cs = read cs' := by
  rw [read_eq, read_eq, h]

/-- A blank field more anywhere in a text does not change what the text is read as. -/
theorem read_insert {before after : List (List Char)} {blank : List Char}
    (hblank : ∀ c ∈ blank, isBlank c = true) (hcs : fields ',' cs = before ++ after) :
    read (join [','] (before ++ blank :: after)) = read cs := by
  have hcomma : ∀ g ∈ before ++ after, ',' ∉ g := hcs ▸ notMem_of_mem_fields
  have hne : before ++ after ≠ [] := hcs ▸ fields_ne_nil ',' cs
  apply read_congr
  rw [items_join_insert hblank hcomma hne, ← hcs, join_fields]

theorem read_append_comma {a b : List Char} {ta tb : TargetList} (ha : read a = .ok ta)
    (hb : read b = .ok tb) : read (a ++ ',' :: b) = .ok ⟨ta.blocks ++ tb.blocks⟩ := by
  obtain ⟨hne, hblocks⟩ := read_eq_ok_iff.mp ha
  obtain ⟨-, hblocks'⟩ := read_eq_ok_iff.mp hb
  rw [read_eq_ok_iff, items_append_comma, List.map_append, hblocks, hblocks', List.map_append]
  exact ⟨by simp [hne], rfl⟩

/-! ### Sizes -/

theorem size_eq_sum (t : TargetList) : t.size = (t.blocks.map Block.size).sum := by
  obtain ⟨blocks⟩ := t
  induction blocks with
  | nil => rfl
  | cons b bs ih =>
    rw [List.map_cons, List.sum_cons, ← ih]
    rfl

theorem size_append (bs bs' : List Block) : size ⟨bs ++ bs'⟩ = size ⟨bs⟩ + size ⟨bs'⟩ := by
  simp [size_eq_sum]

/-- A list that is read has an address. -/
theorem one_le_size (h : read cs = .ok t) : 1 ≤ t.size := by
  obtain ⟨hne, hblocks⟩ := read_eq_ok_iff.mp h
  have hfits := fits_of_read h
  obtain ⟨blocks⟩ := t
  cases blocks with
  | nil => exact absurd (List.map_eq_nil_iff.mp hblocks) hne
  | cons b bs =>
    have hpos := (hfits b List.mem_cons_self).pos
    calc 1 ≤ b.size := hpos
      _ ≤ b.size + Block.total bs := Nat.le_add_right _ _

theorem foldlM_fitting (bs : List Block) {n : ℕ} (h : n + Block.total bs < UInt64.size) :
    bs.foldlM (fun n b => fitting UInt64.size (n + b.size)) n = some (n + Block.total bs) := by
  induction bs generalizing n with
  | nil => rfl
  | cons b bs ih =>
    rw [Block.total, ← Nat.add_assoc] at h ⊢
    have hfirst : fitting UInt64.size (n + b.size) = some (n + b.size) := if_pos (by omega)
    rw [List.foldlM_cons, hfirst]
    exact ih h

/-- In words the sizes add up as long as their sum is a word. -/
theorem size?_eq (h : t.size < UInt64.size) : t.size? = some t.size := by
  have hsum := foldlM_fitting t.blocks (n := 0) (by rwa [Nat.zero_add])
  rwa [Nat.zero_add] at hsum

end TargetList

namespace Exclusions

theorem read_of_targets {cs : List Char} {t : TargetList} (h : TargetList.read cs = .ok t) :
    read cs = .ok (ofBlocks t.blocks) := by
  have hblank : ¬ (trim cs).isEmpty = true := by
    intro hempty
    obtain ⟨hne, -⟩ := TargetList.read_eq_ok_iff.mp h
    exact hne (items_of_trim_eq_nil (List.isEmpty_iff.mp hempty))
  rw [read, if_neg hblank, h]
  rfl

/-- The blocks of two lists exclude what either of them does. -/
theorem excludes_append {bs bs' : List Block} (h : ∀ b ∈ bs, b.Fits) (h' : ∀ b ∈ bs', b.Fits)
    (a : Address) :
    (ofBlocks (bs ++ bs')).excludes a =
      ((ofBlocks bs).excludes a || (ofBlocks bs').excludes a) := by
  have hall : ∀ b ∈ bs ++ bs', b.Fits := by
    intro b hb
    exact (List.mem_append.mp hb).elim (h b) (h' b)
  rw [excludes_ofBlocks _ hall, excludes_ofBlocks _ h, excludes_ofBlocks _ h', List.any_append]

end Exclusions

namespace TargetList

theorem toList_append_comma (s s' : String) :
    (s ++ "," ++ s').toList = s.toList ++ ',' :: s'.toList := by
  simp

/-- A target list is accepted if it has an item and each of them is a block; then its blocks are
theirs in order, and its size, which in words is the same as long as it is one, is the sum of their
sizes and not zero.  Else it is refused for the leftmost item that is no block, or for having none.
A blank item more, wherever it stands, changes nothing.  Two lists with a comma between them have
the blocks of both, and exclude what either of them excludes. -/
theorem composed_of_items (s : String) :
    ((∃ t, ofString s = .ok t) ↔
      items s.toList ≠ [] ∧ ∀ x ∈ items s.toList, ∃ b, Block.read x = .ok b) ∧
    (∀ t, ofString s = .ok t →
      (items s.toList).map Block.read = t.blocks.map .ok ∧
        t.size = (t.blocks.map Block.size).sum ∧ 1 ≤ t.size ∧
        (t.size < 2 ^ 64 → t.size? = some t.size)) ∧
    (∀ f, ofString s = .error f ↔
      (items s.toList = [] ∧ f = .noTargets) ∨
        ∃ before item after, items s.toList = before ++ item :: after ∧
          (∀ x ∈ before, ∃ b, Block.read x = .ok b) ∧ Block.read item = .error f) ∧
    TargetFault.toError .noTargets = ⟨.invalidTarget, "target is empty"⟩ ∧
    (∀ before blank after, fields ',' s.toList = before ++ after →
      (∀ c ∈ blank, isBlank c = true) →
        ofString (String.ofList (join [','] (before ++ blank :: after))) = ofString s) ∧
    ∀ s' t t', ofString s = .ok t → ofString s' = .ok t' →
      (∃ both, ofString (s ++ "," ++ s') = .ok both ∧ both.blocks = t.blocks ++ t'.blocks ∧
        both.size = t.size + t'.size) ∧
      ∃ e e' both, Exclusions.ofString s = .ok e ∧ Exclusions.ofString s' = .ok e' ∧
        Exclusions.ofString (s ++ "," ++ s') = .ok both ∧
        ∀ a, both.excludes a = true ↔ e.excludes a = true ∨ e'.excludes a = true := by
  refine ⟨exists_read_iff, ?_, fun f => read_eq_error_iff, rfl, ?_, ?_⟩
  · intro t ht
    exact ⟨(read_eq_ok_iff.mp ht).2, t.size_eq_sum, one_le_size ht, size?_eq⟩
  · intro before blank after hfields hblank
    rw [ofString, String.toList_ofList, read_insert hblank hfields, ofString]
  · intro s' t t' ht ht'
    have hboth : ofString (s ++ "," ++ s') = .ok ⟨t.blocks ++ t'.blocks⟩ := by
      rw [ofString, toList_append_comma]
      exact read_append_comma ht ht'
    refine ⟨⟨_, hboth, rfl, size_append _ _⟩, _, _, _, Exclusions.read_of_targets ht,
      Exclusions.read_of_targets ht', Exclusions.read_of_targets hboth, fun a => ?_⟩
    rw [Exclusions.excludes_append (fits_of_read ht) (fits_of_read ht'), Bool.or_eq_true]

namespace Sample

def spaced : String := " 10.0.0.1,\u3000, 10.0.0.8/30,"

def ranged : String := "10.0.0.9-12"

/-- The blocks follow each other and their sizes add up, also where they overlap; of two items that
are no blocks the left one is reported. -/
theorem composed_of_items_overlapping :
    (∃ t t', ofString spaced = .ok t ∧ ofString ranged = .ok t' ∧ t.size? = some 5 ∧
      ∃ both, ofString (spaced ++ "," ++ ranged) = .ok both ∧
        both.blocks = t.blocks ++ t'.blocks ∧ both.size = 9) ∧
    ofString (" ," ++ spaced) = ofString spaced ∧
    ofString "10.0.0.1,,x,10.0.0.9-1" = .error (.notAnAddress "x") := by
  obtain ⟨-, hread, -, -, hinsert, happend⟩ := composed_of_items spaced
  obtain ⟨-, -, hrefused, -⟩ := composed_of_items "10.0.0.1,,x,10.0.0.9-1"
  have hspaced : ofString spaced =
      .ok ⟨[⟨"10.0.0.1", .v4 0x0A000001, 1⟩, ⟨"10.0.0.8/30", .v4 0x0A000008, 4⟩]⟩ := rfl
  have hranged : ofString ranged = .ok ⟨[⟨"10.0.0.9-12", .v4 0x0A000009, 4⟩]⟩ := rfl
  obtain ⟨⟨both, hboth, hblocks, hsize⟩, -⟩ := happend ranged _ _ hspaced hranged
  obtain ⟨-, -, -, hword⟩ := hread _ hspaced
  have hinserted : String.ofList (join [','] ([' '] :: fields ',' spaced.toList)) =
      " ," ++ spaced := by decide
  refine ⟨⟨_, _, hspaced, hranged, ?_, both, hboth, hblocks, hsize⟩, ?_, ?_⟩
  · exact hword (by decide)
  · rw [← hinserted]
    exact hinsert [] [' '] _ rfl (List.forall_mem_singleton.mpr rfl)
  · have hitems : items "10.0.0.1,,x,10.0.0.9-1".toList =
        ["10.0.0.1".toList] ++ "x".toList :: ["10.0.0.9-1".toList] := by decide
    refine (hrefused _).mpr (.inr ⟨_, _, _, hitems, ?_, rfl⟩)
    intro x hx
    rw [List.mem_singleton.mp hx]
    exact ⟨_, rfl⟩

end Sample

end TargetList

end Recon
