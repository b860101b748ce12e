import Recon.Text.Digits

/-!
# Bytes on the wire

Numbers in network order, the sum in one's complement that checksums are made of, and bytes as
hexadecimal text.
-/

namespace Recon.Wire

abbrev Bytes := List UInt8

def word (n : UInt16) : Bytes := [(n >>> 8).toUInt8, n.toUInt8]

def doubleWord (n : UInt32) : Bytes :=
  [(n >>> 24).toUInt8, (n >>> 16).toUInt8, (n >>> 8).toUInt8, n.toUInt8]

def address (a : BitVec 32) : Bytes := doubleWord (UInt32.ofBitVec a)

def wordOf (high low : UInt8) : UInt16 := high.toUInt16 <<< 8 ||| low.toUInt16

def doubleWordOf (a b c d : UInt8) : UInt32 :=
  (wordOf a b).toUInt32 <<< 16 ||| (wordOf c d).toUInt32

/-- The byte at an offset, zero beyond the end. -/
def byteAt (bs : Bytes) (i : Nat) : UInt8 := bs.getD i 0

def wordAt (bs : Bytes) (i : Nat) : UInt16 := wordOf (byteAt bs i) (byteAt bs (i + 1))

def doubleWordAt (bs : Bytes) (i : Nat) : UInt32 :=
  doubleWordOf (byteAt bs i) (byteAt bs (i + 1)) (byteAt bs (i + 2)) (byteAt bs (i + 3))

def addressAt (bs : Bytes) (i : Nat) : BitVec 32 := (doubleWordAt bs i).toBitVec

/-- The sum of the words of some bytes; a last byte alone is the high half of a word. -/
def wordSum : Bytes → Nat
  | [] => 0
  | [a] => a.toNat * 256
  | a :: b :: bs => a.toNat * 256 + b.toNat + wordSum bs

/-- A sum in one's complement: carries beyond sixteen bits are added at the low end, so only zero
stays zero. -/
def fold (n : Nat) : Nat := if n = 0 then 0 else (n - 1) % 65535 + 1

def onesSum (bs : Bytes) : Nat := fold (wordSum bs)

/-- The word that makes the sum of some bytes, in which it counts as zero, all ones. -/
def checksum (bs : Bytes) : UInt16 := UInt16.ofNat (65535 - onesSum bs)

def hexByte (b : UInt8) : List Char := Text.zeroFill 2 (Text.hexadecimal b.toNat)

def toHex (bs : Bytes) : String := String.ofList (bs.flatMap hexByte)

def readHex : List Char → Option Bytes
  | [] => some []
  | [_] => none
  | a :: b :: cs =>
    match Text.hexValue? a, Text.hexValue? b, readHex cs with
    | some a, some b, some bs => some (UInt8.ofNat (a * 16 + b) :: bs)
    | _, _, _ => none

def ofHex? (s : String) : Option Bytes := readHex s.toList

end Recon.Wire
