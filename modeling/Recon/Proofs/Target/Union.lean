import Mathlib.Data.Set.Card
import Recon.Proofs.Target.Exclusion

/-!
# Exclusions count their blocks

Blocks can be added to exclusions one after the other, and each of them is listed or kept as a range
by its size alone.  What is excluded in the end is the union of all blocks.  The two counts speak of
the two kinds of blocks: every address of the small ones counts once, however many of them it is in,
and every wide block counts once for each time it was added.
-/

namespace Recon.Exclusions

open Set

def small (bs : List Block) : Set Address :=
  {a | ∃ b ∈ bs, b.size ≤ 65536 ∧ b.contains a = true}

theorem small_eq {bs : List Block} (hbs : ∀ b ∈ bs, b.Fits) :
    small bs = ((bs.filter (·.size ≤ 65536)).flatMap Block.addresses).toFinset := by
  ext a
  simp only [small, mem_ofPred_eq, List.coe_toFinset, List.mem_flatMap, List.mem_filter,
    decide_eq_true_eq, and_assoc]
  refine exists_congr fun b => and_congr_right fun hb => and_congr_right fun _ => ?_
  exact (Block.mem_addresses_iff (hbs b hb) a).symm

/-- A set of addresses has as many elements as are counted in it. -/
theorem size_eq_ncard (m : Std.HashSet Address) : m.size = {a | a ∈ m}.ncard := by
  have hnodup : m.toList.Nodup := by
    refine m.distinct_toList.imp ?_
    intro a b hab
    simpa using hab
  have hset : {a | a ∈ m} = (m.toList.toFinset : Set Address) := by
    ext a
    simp
  rw [hset, ncard_coe_finset, List.toFinset_card_of_nodup hnodup, Std.HashSet.length_toList]

/-- What one more block does to the list. -/
theorem mem_listed_add (e : Exclusions) (b : Block) (hb : b.Fits) (a : Address) :
    a ∈ (e.add b).listed ↔ a ∈ e.listed ∨ (b.size ≤ 65536 ∧ b.contains a = true) := by
  unfold add listLimit
  by_cases hs : b.size ≤ 65536
  · rw [if_pos hs]
    simp only [Std.HashSet.mem_insertMany_list, List.contains_iff_mem,
      Block.mem_addresses_iff hb a, hs, true_and]
  · simp only [hs, if_false, false_and, or_false]

theorem mem_listed_foldl_add (bs : List Block) (hbs : ∀ b ∈ bs, b.Fits) (e : Exclusions)
    (a : Address) : a ∈ (bs.foldl add e).listed ↔ a ∈ e.listed ∨ a ∈ small bs := by
  induction bs generalizing e with
  | nil => simp [small]
  | cons b bs ih =>
    have hsmall : a ∈ small (b :: bs) ↔ (b.size ≤ 65536 ∧ b.contains a = true) ∨ a ∈ small bs := by
      simp [small]
    rw [List.foldl_cons, ih (fun b' hb' => hbs b' (List.mem_cons_of_mem b hb')) (e.add b),
      mem_listed_add e b (hbs b List.mem_cons_self) a, hsmall, or_assoc]

theorem wide_add (e : Exclusions) (b : Block) :
    (e.add b).wide = e.wide ++ [b].filter (65536 < ·.size) := by
  unfold add listLimit
  by_cases hs : b.size ≤ 65536
  · simp [hs, Nat.not_lt.mpr hs]
  · simp [hs, Nat.lt_of_not_le hs]

theorem wide_foldl_add (bs : List Block) (e : Exclusions) :
    (bs.foldl add e).wide = e.wide ++ bs.filter (65536 < ·.size) := by
  induction bs generalizing e with
  | nil => simp
  | cons b bs ih =>
    rw [List.foldl_cons, ih (e.add b), wide_add, List.append_assoc, ← List.filter_append,
      List.singleton_append]

/-- After an exclusion list is read and further blocks are added, in any order and with any
repetitions, an address is excluded just where one of all these blocks contains it.  The addresses
listed one by one are counted once each, and so is every block that is kept as a range. -/
theorem union_of_blocks {spec : String} {e : Exclusions} {added : List Block}
    (he : ofString spec = .ok e) (hadd : ∀ b ∈ added, ∃ item, Block.ofString item = .ok b) :
    ∃ bs, blocksOf spec.toList = .ok bs ∧
      (∀ a, (added.foldl add e).excludes a = true ↔ ∃ b ∈ bs ++ added, b.contains a = true) ∧
      (added.foldl add e).listedCount = (small (bs ++ added)).ncard ∧
      (added.foldl add e).wideCount = ((bs ++ added).filter (65536 < ·.size)).length := by
  obtain ⟨bs, hbs, rfl, hfit⟩ := read_eq_ok he
  have hall : ∀ b ∈ bs ++ added, b.Fits := by
    intro b hb
    rcases List.mem_append.mp hb with hb | hb
    · exact hfit b hb
    · obtain ⟨item, hitem⟩ := hadd b hb
      exact Block.fits_of_read hitem
  -- the blocks of the list are added in the same way as the others
  have hfold : added.foldl add (ofBlocks bs) = (bs ++ added).foldl add empty := by
    rw [ofBlocks, List.foldl_append]
  rw [hfold]
  refine ⟨bs, hbs, ?_, ?_, ?_⟩
  · intro a
    rw [excludes_foldl_add _ hall, excludes_empty, Bool.false_or, List.any_eq_true]
  · have hset : {a | a ∈ ((bs ++ added).foldl add empty).listed} = small (bs ++ added) := by
      ext a
      have hnone : a ∉ empty.listed := Std.HashSet.not_mem_empty
      rw [mem_ofPred_eq, mem_listed_foldl_add _ hall empty a, or_iff_right hnone]
    rw [listedCount, size_eq_ncard, hset]
  · rw [wideCount, wide_foldl_add, empty, List.nil_append]

namespace Sample

def spec : String := "10.0.0.0/31,10.0.0.1"

def added : List Block :=
  [⟨"10.0.0.1-2", .v4 0x0A000001, 2⟩, ⟨"10.0.0.0/8", .v4 0x0A000000, 16777216⟩]

/-- The three small addresses are listed once each, and the others excluded by the wide block. -/
theorem union_of_overlapping : ∃ e, ofString spec = .ok e ∧
    (∀ b ∈ added, ∃ item, Block.ofString item = .ok b) ∧
    (added.foldl add e).excludes (.v4 0x0AC80304) = true ∧
    (added.foldl add e).excludes (.v4 0x0B000001) = false ∧
    (added.foldl add e).listedCount = 3 ∧ (added.foldl add e).wideCount = 1 := by
  have hadd : ∀ b ∈ added, ∃ item, Block.ofString item = .ok b := by
    intro b hb
    rcases List.mem_pair.mp hb with rfl | rfl
    · exact ⟨"10.0.0.1-2", rfl⟩
    · exact ⟨"10.0.0.0/8", rfl⟩
  have hread : blocksOf spec.toList =
      .ok [⟨"10.0.0.0/31", .v4 0x0A000000, 2⟩, ⟨"10.0.0.1", .v4 0x0A000001, 1⟩] := rfl
  obtain ⟨e, he⟩ : ∃ e, ofString spec = .ok e := ⟨_, rfl⟩
  obtain ⟨bs, hbs, hex, hlisted, hwide⟩ := union_of_blocks he hadd
  cases hread.symm.trans hbs
  refine ⟨e, he, hadd, ?_, ?_, ?_, ?_⟩
  · exact (hex _).mpr ⟨⟨"10.0.0.0/8", .v4 0x0A000000, 16777216⟩, by simp [added], by decide⟩
  · rw [Bool.eq_false_iff, Ne, hex]
    decide
  · have hfit : ∀ b ∈ [⟨"10.0.0.0/31", .v4 0x0A000000, 2⟩, ⟨"10.0.0.1", .v4 0x0A000001, 1⟩] ++
        added, b.Fits := by
      simp only [added, List.cons_append, List.nil_append, List.forall_mem_cons]
      exact ⟨⟨by decide, by decide, by decide⟩, ⟨by decide, by decide, by decide⟩,
        ⟨by decide, by decide, by decide⟩, ⟨by decide, by decide, by decide⟩, by simp⟩
    rw [hlisted, small_eq hfit, ncard_coe_finset]
    decide +kernel
  · rw [hwide]
    decide

end Sample

end Recon.Exclusions
