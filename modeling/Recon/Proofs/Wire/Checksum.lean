import Mathlib.Data.Nat.Notation
import Recon.Proofs.Wire.Number

/-!
# Checksums

Folding the sum of all words once gives the same as adding the words one by one in one's complement.
With the checksum in place of a zero word the sum is all ones.
-/

namespace Recon.Wire

/-- Addition in one's complement: a carry out of sixteen bits comes in again at the low end. -/
def onesAdd (a b : UInt16) : UInt16 :=
  if a.toNat + b.toNat < UInt16.size then a + b else a + b + 1

def words : Bytes → List UInt16
  | [] => []
  | [a] => [wordOf a 0]
  | a :: b :: bs => wordOf a b :: words bs

def onesTotal (bs : Bytes) : UInt16 := (words bs).foldl onesAdd 0

variable {pre : Bytes}

theorem fold_eq_self {n : ℕ} (h : n ≤ 65535) : fold n = n := by
  unfold fold
  split <;> omega

/-- Carries may be added as soon as they arise. -/
theorem fold_fold_add (n m : ℕ) : fold (fold n + m) = fold (n + m) := by
  by_cases hn : n = 0
  · rw [hn]
    rfl
  · have hfold : fold n = (n - 1) % 65535 + 1 := if_neg hn
    rw [hfold, fold, fold, if_neg (by omega), if_neg (by omega)]
    omega

theorem toNat_onesAdd (a b : UInt16) : (onesAdd a b).toNat = fold (a.toNat + b.toNat) := by
  have ha := a.toNat_lt
  have hb := b.toNat_lt
  have hsize : UInt16.size = 65536 := rfl
  unfold onesAdd
  split
  · rw [UInt16.toNat_add, fold_eq_self (by omega)]
    omega
  · rw [UInt16.toNat_add, UInt16.toNat_add, fold, if_neg (by omega), UInt16.toNat_one]
    omega

theorem toNat_foldl_words (bs : Bytes) (a : UInt16) :
    ((words bs).foldl onesAdd a).toNat = fold (a.toNat + wordSum bs) := by
  fun_induction wordSum bs generalizing a with
  | case1 =>
    have ha := a.toNat_lt
    rw [words, List.foldl_nil, Nat.add_zero, fold_eq_self (by omega)]
  | case2 b =>
    rw [words, List.foldl_cons, List.foldl_nil, toNat_onesAdd, toNat_wordOf, UInt8.toNat_zero,
      Nat.add_zero]
  | case3 b c bs ih =>
    rw [words, List.foldl_cons, ih, toNat_onesAdd, fold_fold_add, toNat_wordOf, Nat.add_assoc]

theorem toNat_onesTotal (bs : Bytes) : (onesTotal bs).toNat = onesSum bs := by
  rw [onesTotal, toNat_foldl_words, UInt16.toNat_zero, Nat.zero_add, onesSum]

/-- Behind whole words the other words are the same. -/
theorem wordSum_append (h : pre.length % 2 = 0) (bs : Bytes) :
    wordSum (pre ++ bs) = wordSum pre + wordSum bs := by
  fun_induction wordSum pre with
  | case1 => simp
  | case2 a => simp at h
  | case3 a b pre ih =>
    have hpre : pre.length % 2 = 0 := by
      simp only [List.length_cons] at h
      omega
    rw [List.cons_append, List.cons_append, wordSum, ih hpre]
    omega

theorem wordSum_word_append (n : UInt16) (bs : Bytes) :
    wordSum (word n ++ bs) = n.toNat + wordSum bs := by
  have hlength : (word n).length % 2 = 0 := by simp [word]
  have hsum : wordSum (word n) = n.toNat := by
    rw [word, wordSum, wordSum, Nat.add_zero, ← toNat_wordOf, wordOf_word]
  rw [wordSum_append hlength, hsum]

/-- What is missing from all ones completes a sum to all ones. -/
theorem fold_add_missing (n : ℕ) : fold (n + (65535 - fold n)) = 65535 := by
  unfold fold
  split <;> split <;> omega

/-- A checksum makes the sum all ones.  It stands at a whole word, and counts as zero where it is
computed. -/
theorem onesTotal_checksum (h : pre.length % 2 = 0) (bs : Bytes) :
    onesTotal (pre ++ word (checksum (pre ++ word 0 ++ bs)) ++ bs) = 0xFFFF := by
  have hzero : onesSum (pre ++ word 0 ++ bs) = fold (wordSum pre + wordSum bs) := by
    rw [onesSum, List.append_assoc, wordSum_append h, wordSum_word_append, UInt16.toNat_zero,
      Nat.zero_add]
  have hsum : (checksum (pre ++ word 0 ++ bs)).toNat = 65535 - fold (wordSum pre + wordSum bs) := by
    rw [checksum, hzero]
    exact UInt16.toNat_ofNat_of_lt' (Nat.lt_succ_of_le (Nat.sub_le _ _))
  apply UInt16.toNat_inj.mp
  calc (onesTotal (pre ++ word (checksum (pre ++ word 0 ++ bs)) ++ bs)).toNat
    _ = fold (wordSum pre + ((checksum (pre ++ word 0 ++ bs)).toNat + wordSum bs)) := by
      rw [toNat_onesTotal, onesSum, List.append_assoc, wordSum_append h, wordSum_word_append]
    _ = fold (wordSum pre + wordSum bs + (65535 - fold (wordSum pre + wordSum bs))) := by
      rw [hsum]
      congr 1
      omega
    _ = 65535 := fold_add_missing _

end Recon.Wire
