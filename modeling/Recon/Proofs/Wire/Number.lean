import Mathlib.Data.List.GetD
import Mathlib.Data.Nat.Notation
import Recon.Wire.Bytes

/-!
# Numbers in network order

The words at an offset are the numbers that the bytes there stand for, and a number that is written
as bytes is read back from them.
-/

namespace Recon.Wire

def number (bs : Bytes) : ℕ := bs.foldl (fun n b => n * 256 + b.toNat) 0

def part (bs : Bytes) (offset length : ℕ) : Bytes := (bs.drop offset).take length

variable {bs rest : Bytes} {i n : ℕ}

theorem part_succ (h : i < bs.length) : part bs i (n + 1) = byteAt bs i :: part bs (i + 1) n := by
  have hbyte : byteAt bs i = bs[i] := List.getD_eq_getElem bs 0 h
  rw [part, List.drop_eq_getElem_cons h, List.take_succ_cons, hbyte]
  rfl

theorem part_one (h : i < bs.length) : part bs i 1 = [byteAt bs i] := part_succ h

theorem part_two (h : i + 2 ≤ bs.length) : part bs i 2 = [byteAt bs i, byteAt bs (i + 1)] := by
  rw [part_succ (by omega), part_one (by omega)]

theorem part_four (h : i + 4 ≤ bs.length) :
    part bs i 4 = [byteAt bs i, byteAt bs (i + 1), byteAt bs (i + 2), byteAt bs (i + 3)] := by
  rw [part_succ (by omega), part_succ (by omega), part_two (by omega)]

theorem toNat_wordOf (a b : UInt8) : (wordOf a b).toNat = a.toNat * 256 + b.toNat := by
  have ha := a.toNat_lt
  have hb := b.toNat_lt
  have hshift : a.toNat <<< 8 % 2 ^ 16 = a.toNat <<< 8 := by
    rw [Nat.shiftLeft_eq]
    omega
  calc (wordOf a b).toNat = a.toNat <<< 8 % 2 ^ 16 ||| b.toNat := rfl
    _ = a.toNat <<< 8 + b.toNat := by rw [hshift, Nat.shiftLeft_add_eq_or_of_lt hb]
    _ = a.toNat * 256 + b.toNat := by rw [Nat.shiftLeft_eq]

theorem toNat_doubleWordOf (a b c d : UInt8) :
    (doubleWordOf a b c d).toNat =
      ((a.toNat * 256 + b.toNat) * 256 + c.toNat) * 256 + d.toNat := by
  have hhigh := (wordOf a b).toNat_lt
  have hlow := (wordOf c d).toNat_lt
  have hshift : (wordOf a b).toNat <<< 16 % 2 ^ 32 = (wordOf a b).toNat <<< 16 := by
    rw [Nat.shiftLeft_eq]
    omega
  calc (doubleWordOf a b c d).toNat
    _ = (wordOf a b).toNat <<< 16 % 2 ^ 32 ||| (wordOf c d).toNat := rfl
    _ = (wordOf a b).toNat * 2 ^ 16 + (wordOf c d).toNat := by
      rw [hshift, ← Nat.shiftLeft_add_eq_or_of_lt hlow, Nat.shiftLeft_eq]
    _ = ((a.toNat * 256 + b.toNat) * 256 + c.toNat) * 256 + d.toNat := by
      rw [toNat_wordOf, toNat_wordOf]
      omega

/-! ### Numbers at an offset -/

theorem toNat_wordAt (h : i + 2 ≤ bs.length) : (wordAt bs i).toNat = number (part bs i 2) := by
  rw [wordAt, toNat_wordOf, part_two h]
  simp [number]

theorem toNat_doubleWordAt (h : i + 4 ≤ bs.length) :
    (doubleWordAt bs i).toNat = number (part bs i 4) := by
  rw [doubleWordAt, toNat_doubleWordOf, part_four h]
  simp [number]

theorem toNat_addressAt (h : i + 4 ≤ bs.length) :
    (addressAt bs i).toNat = number (part bs i 4) :=
  toNat_doubleWordAt h

/-! ### Bytes before others -/

theorem byteAt_append (h : i < bs.length) : byteAt (bs ++ rest) i = byteAt bs i :=
  List.getD_append bs rest 0 i h

theorem wordAt_append (h : i + 2 ≤ bs.length) : wordAt (bs ++ rest) i = wordAt bs i := by
  rw [wordAt, byteAt_append (by omega), byteAt_append (by omega)]
  rfl

theorem addressAt_append (h : i + 4 ≤ bs.length) : addressAt (bs ++ rest) i = addressAt bs i := by
  rw [addressAt, doubleWordAt, byteAt_append (by omega), byteAt_append (by omega),
    byteAt_append (by omega), byteAt_append (by omega)]
  rfl

theorem wordOf_word (n : UInt16) : wordOf (n >>> 8).toUInt8 n.toUInt8 = n := by
  apply UInt16.toNat_inj.mp
  have hn := n.toNat_lt
  rw [toNat_wordOf]
  simp only [UInt16.toNat_toUInt8, UInt16.toNat_shiftRight, Nat.shiftRight_eq_div_pow,
    UInt16.reduceToNat, Nat.reduceMod, Nat.reducePow]
  omega

theorem doubleWordOf_doubleWord (n : UInt32) :
    doubleWordOf (n >>> 24).toUInt8 (n >>> 16).toUInt8 (n >>> 8).toUInt8 n.toUInt8 = n := by
  apply UInt32.toNat_inj.mp
  have hn := n.toNat_lt
  rw [toNat_doubleWordOf]
  simp only [UInt32.toNat_toUInt8, UInt32.toNat_shiftRight, Nat.shiftRight_eq_div_pow,
    UInt32.reduceToNat, Nat.reduceMod, Nat.reducePow]
  omega

/-! ### The first byte of a datagram -/

def version (bs : Bytes) : ℕ := (byteAt bs 0).toNat / 16

def headerWords (bs : Bytes) : ℕ := (byteAt bs 0).toNat % 16

theorem toNat_low_eq_headerWords (bs : Bytes) : (byteAt bs 0 &&& 0x0F).toNat = headerWords bs :=
  Nat.and_two_pow_sub_one_eq_mod _ 4

theorem headerWords_append (h : 0 < bs.length) : headerWords (bs ++ rest) = headerWords bs := by
  rw [headerWords, byteAt_append h]
  rfl

end Recon.Wire
