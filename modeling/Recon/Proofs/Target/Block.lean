import Mathlib.Algebra.Group.Nat.Defs
import Mathlib.Data.List.Basic
import Recon.Target.Space

/-!
# Blocks that are read fit their family

A block that is read from an item is not empty, has at most two to the thirty-second addresses, and
ends inside its family, so that no address is reached by going round.  In such a block the addresses
that are listed are those that it contains.
-/

namespace Recon

namespace Address

theorem Family.size_eq (f : Family) : f.size = 2 ^ f.width := Nat.pow_eq

/-- Within the family, advancing adds to the value. -/
theorem value_advance (a : Address) (n : ℕ) (h : a.value + n < a.family.size) :
    (a.advance n).value = a.value + n := by
  rw [advance, value_ofValue, Nat.mod_eq_of_lt h]

@[simp] theorem family_advance (a : Address) (n : ℕ) : (a.advance n).family = a.family :=
  family_ofValue a.family (a.value + n)

end Address

namespace Network

theorem size_eq (n : Network) : n.size = 2 ^ (n.address.family.width - n.bits) := Nat.pow_eq

theorem size_pos (n : Network) : 0 < n.size := by
  rw [size_eq]
  exact Nat.two_pow_pos _

theorem size_dvd (n : Network) : n.size ∣ n.address.family.size := by
  rw [size_eq, Address.Family.size_eq]
  exact Nat.pow_dvd_pow 2 (Nat.sub_le _ _)

@[simp] theorem family_first (n : Network) : n.first.family = n.address.family :=
  Address.family_ofValue _ _

/-- A network starts at a multiple of its size, and so ends inside its family. -/
theorem first_add_size_le (n : Network) : n.first.value + n.size ≤ n.address.family.size := by
  obtain ⟨k, hk⟩ := n.size_dvd
  have hpos := n.size_pos
  have hv : n.address.value < n.size * k := hk ▸ n.address.value_lt
  have hd : n.address.value / n.size < k := Nat.div_lt_of_lt_mul hv
  have hle : n.address.value / n.size * n.size + n.size ≤ n.address.family.size := by
    rw [hk, ← Nat.succ_mul, Nat.mul_comm n.size k]
    exact Nat.mul_le_mul_right _ hd
  rw [first, Address.value_ofValue, Nat.mod_eq_of_lt (by omega)]
  exact hle

end Network

namespace Block

structure Fits (b : Block) : Prop where
  pos : 0 < b.size
  le : b.size ≤ 2 ^ 32
  inside : b.first.value + b.size ≤ b.first.family.size

theorem fits_single (source : String) (a : Address) : Fits ⟨source, a, 1⟩ where
  pos := Nat.one_pos
  le := Nat.one_le_two_pow
  inside := a.value_lt

theorem fits_of_ofNetwork {source : String} {n : Network} {b : Block}
    (h : ofNetwork source n = .ok b) : b.Fits := by
  have hin : n.first.value + n.size ≤ n.first.family.size := by
    rw [Network.family_first]
    exact n.first_add_size_le
  unfold ofNetwork at h
  split at h
  · next hf =>
    cases h
    have hle : n.size ≤ 2 ^ 32 := by
      rw [Network.size_eq, hf]
      exact Nat.pow_le_pow_right (by decide) (Nat.sub_le 32 n.bits)
    exact ⟨n.size_pos, hle, hin⟩
  · split at h
    · next hle =>
      cases h
      exact ⟨n.size_pos, hle, hin⟩
    · cases h

theorem fits_of_ofBounds {source : String} {lo hi : Address} {b : Block}
    (h : ofBounds source lo hi = .ok b) : b.Fits := by
  unfold ofBounds at h
  split at h
  · cases h
  · next hfam =>
    have hfam' : lo.family = hi.family := not_not.mp hfam
    split at h
    · cases h
    · split at h
      · cases h
      · next hwide =>
        cases h
        have hhi := hi.value_lt
        rw [← hfam'] at hhi
        refine ⟨Nat.succ_pos _, ?_, ?_⟩
        · show hi.value - lo.value + 1 ≤ 2 ^ 32
          cases hf : lo.family with
          | v4 =>
            have hs : lo.family.size = 2 ^ 32 := by rw [hf]; rfl
            omega
          | v6 =>
            -- only here is the width checked as such
            have hm : maxSize = 2 ^ 32 := rfl
            have hlt : hi.value - lo.value < maxSize := by
              by_contra hc
              exact hwide ⟨hf, by omega⟩
            omega
        · show lo.value + (hi.value - lo.value + 1) ≤ lo.family.size
          omega

/-- Whatever block is read fits. -/
theorem fits_of_read {cs : List Char} {b : Block} (h : read cs = .ok b) : b.Fits := by
  unfold read readTrimmed at h
  dsimp only at h
  split at h
  · split at h
    · exact fits_of_ofNetwork h
    · cases h
  · split at h
    · split at h
      · cases h
      · split at h
        · cases h
        · exact fits_of_ofBounds h
    · split at h
      · cases h
        exact fits_single _ _
      · cases h

/-- A block contains the addresses of its family from its first one up to its size. -/
theorem contains_eq_true_iff {b : Block} {x : Address} :
    b.contains x = true ↔
      x.family = b.first.family ∧ b.first.value ≤ x.value ∧ x.value < b.first.value + b.size := by
  simp only [contains, Bool.and_eq_true, decide_eq_true_eq, and_assoc]
  refine and_congr_right fun _ => and_congr_right fun hle => ?_
  omega

theorem nth_eq_some (b : Block) {i : ℕ} (h : i < b.size) : b.nth i = some (b.first.advance i) :=
  if_pos h

theorem addresses_eq (b : Block) : b.addresses = (List.range b.size).map b.first.advance := by
  have hnth : ∀ i ∈ List.range b.size, b.nth i = some (b.first.advance i) :=
    fun i hi => b.nth_eq_some (List.mem_range.mp hi)
  rw [addresses, List.filterMap_eq_map_iff_forall_eq_some]
  exact hnth

@[simp] theorem length_addresses (b : Block) : b.addresses.length = b.size := by
  rw [addresses_eq, List.length_map, List.length_range]

/-- The listed addresses of a block that fits are those that it contains. -/
theorem mem_addresses_iff {b : Block} (hb : b.Fits) (a : Address) :
    a ∈ b.addresses ↔ b.contains a = true := by
  have hin := hb.inside
  simp only [addresses_eq, List.mem_map, List.mem_range, contains_eq_true_iff]
  constructor
  · rintro ⟨i, hi, rfl⟩
    rw [Address.value_advance b.first i (by omega), Address.family_advance]
    exact ⟨rfl, by omega, by omega⟩
  · -- the index is the distance from the first address
    rintro ⟨hf, hle, hlt⟩
    refine ⟨a.value - b.first.value, by omega, ?_⟩
    apply Address.ext_value ((Address.family_advance _ _).trans hf.symm)
    rw [Address.value_advance b.first _ (by omega)]
    omega

/-- The size of some blocks is the number of their addresses. -/
theorem total_eq_length (bs : List Block) : total bs = (bs.flatMap addresses).length := by
  induction bs with
  | nil => rfl
  | cons b bs ih => rw [total, ih, List.flatMap_cons, List.length_append, length_addresses]

end Block

namespace TargetList

theorem fits_of_readItems {items : List (List Char)} {bs : List Block}
    (h : readItems items = .ok bs) : ∀ b ∈ bs, b.Fits := by
  induction items generalizing bs with
  | nil =>
    cases h
    simp
  | cons item rest ih =>
    unfold readItems at h
    split at h
    · cases h
    · next block hb =>
      cases hr : readItems rest with
      | error f =>
        rw [hr] at h
        cases h
      | ok bs' =>
        rw [hr] at h
        cases h
        intro b hm
        rcases List.mem_cons.mp hm with rfl | hm
        · exact Block.fits_of_read hb
        · exact ih hr b hm

/-- Every block of a target list fits. -/
theorem fits_of_read {cs : List Char} {t : TargetList} (h : read cs = .ok t) :
    ∀ b ∈ t.blocks, b.Fits := by
  unfold read at h
  split at h
  · cases h
  · cases h
  · next bs hbs =>
    cases h
    exact fits_of_readItems hbs

end TargetList

end Recon
