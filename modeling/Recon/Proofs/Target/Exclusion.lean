import Recon.Proofs.Target.Block
import Recon.Target.Exclusion

/-!
# Excluded addresses are the union of blocks

Whether a block is listed or kept as a range does not show: an address is excluded exactly when it
is an address of some block of the exclusion list.
-/

namespace Recon.Exclusions

def blocksOf (cs : List Char) : Except TargetFault (List Block) :=
  if (Text.trim cs).isEmpty then .ok [] else (TargetList.read cs).map TargetList.blocks

/-- An address is matched by an exclusion list if one of its blocks has it. -/
def Matches (s : String) (a : Address) : Prop :=
  ∃ bs, blocksOf s.toList = .ok bs ∧ ∃ b ∈ bs, a ∈ b.addresses

theorem excludes_empty (a : Address) : empty.excludes a = false := by
  simp [empty, excludes]

/-- One more block excludes its addresses, however it is kept. -/
theorem excludes_add (e : Exclusions) (b : Block) (hb : b.Fits) (a : Address) :
    (e.add b).excludes a = (e.excludes a || b.contains a) := by
  unfold add excludes
  split
  · -- a small block is listed address by address
    have hc : b.addresses.contains a = b.contains a := by
      rw [Bool.eq_iff_iff, List.contains_iff_mem]
      exact Block.mem_addresses_iff hb a
    simp only [Std.HashSet.contains_insertMany_list, hc]
    cases e.listed.contains a <;> cases b.contains a <;>
      cases e.wide.any (·.contains a) <;> rfl
  · simp only [List.any_append, List.any_cons, List.any_nil, Bool.or_false, Bool.or_assoc]

theorem excludes_foldl_add (bs : List Block) (hbs : ∀ b ∈ bs, b.Fits) (e : Exclusions)
    (a : Address) : (bs.foldl add e).excludes a = (e.excludes a || bs.any (·.contains a)) := by
  induction bs generalizing e with
  | nil => simp
  | cons b bs ih =>
    rw [List.foldl_cons, ih (fun b' hb' => hbs b' (List.mem_cons_of_mem b hb')) (e.add b),
      excludes_add e b (hbs b List.mem_cons_self) a, List.any_cons, Bool.or_assoc]

theorem excludes_ofBlocks (bs : List Block) (hbs : ∀ b ∈ bs, b.Fits) (a : Address) :
    (ofBlocks bs).excludes a = bs.any (·.contains a) := by
  rw [ofBlocks, excludes_foldl_add bs hbs empty a, excludes_empty, Bool.false_or]

/-- Reading an exclusion list is reading its blocks. -/
theorem read_eq_ok {cs : List Char} {e : Exclusions} (h : read cs = .ok e) :
    ∃ bs, blocksOf cs = .ok bs ∧ e = ofBlocks bs ∧ ∀ b ∈ bs, b.Fits := by
  unfold read at h
  split at h
  · next hblank =>
    cases h
    exact ⟨[], if_pos hblank, rfl, by simp⟩
  · next hblank =>
    cases ht : TargetList.read cs with
    | error f =>
      rw [ht] at h
      cases h
    | ok t =>
      rw [ht] at h
      cases h
      refine ⟨t.blocks, ?_, rfl, TargetList.fits_of_read ht⟩
      rw [blocksOf, if_neg hblank, ht]
      rfl

/-- What is read from an exclusion list excludes what the list matches. -/
theorem excludes_iff_matches {s : String} {e : Exclusions} (h : ofString s = .ok e)
    (a : Address) : e.excludes a = true ↔ Matches s a := by
  obtain ⟨bs, hbs, rfl, hfit⟩ := read_eq_ok h
  rw [excludes_ofBlocks bs hfit a, List.any_eq_true]
  constructor
  · rintro ⟨b, hb, hc⟩
    exact ⟨bs, hbs, b, hb, (Block.mem_addresses_iff (hfit b hb) a).mpr hc⟩
  · rintro ⟨bs', hbs', b, hb, hm⟩
    cases hbs.symm.trans hbs'
    exact ⟨b, hb, (Block.mem_addresses_iff (hfit b hb) a).mp hm⟩

end Recon.Exclusions
