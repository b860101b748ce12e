import Recon.Address.Basic
import Recon.Text.Split
import Recon.Text.Digits

/-!
# Addresses as text

An address of thirty-two bits is written as four decimal octets.  One of a hundred and twenty-eight
bits is written as groups of four hexadecimal digits without leading zeros, where the longest run
of at least two zero groups (the first of equally long ones) is left out between two colons; an
address that embeds one of thirty-two bits keeps its octets.

The reader also accepts longer forms: leading zeros and upper case in a group, a gap of any
length, and octets in place of the last two groups.
-/

namespace Recon.Address

open Recon.Text

/-- An octet: one to three digits, no leading zero, at most 255. -/
def readOctet (cs : List Char) : Option Nat :=
  match cs with
  | [] => none
  | '0' :: _ :: _ => none
  | _ =>
    if cs.length ≤ 3 then
      (foldDigits 10 digitValue? 0 cs).bind fun n => if n < 256 then some n else none
    else none

def readQuad (cs : List Char) : Option Nat :=
  match fields '.' cs with
  | [a, b, c, d] =>
    match readOctet a, readOctet b, readOctet c, readOctet d with
    | some a, some b, some c, some d => some (((a * 256 + b) * 256 + c) * 256 + d)
    | _, _, _, _ => none
  | _ => none

def readGroup (cs : List Char) : Option Nat :=
  if cs.isEmpty || 4 < cs.length then none else foldDigits 16 hexValue? 0 cs

def readGroups (ends : Bool) : List (List Char) → Option (List Nat)
  | [] => some []
  | [last] =>
    match (if ends then readQuad last else none) with
    | some n => some [n / 65536, n % 65536]
    | none => (readGroup last).map fun g => [g]
  | piece :: pieces =>
    match readGroup piece, readGroups ends pieces with
    | some g, some gs => some (g :: gs)
    | _, _ => none

def readSide (ends : Bool) (cs : List Char) : Option (List Nat) :=
  if cs.isEmpty then some [] else readGroups ends (fields ':' cs)

def cutGap : List Char → Option (List Char × List Char)
  | ':' :: ':' :: cs => some ([], cs)
  | [] => none
  | c :: cs => (cutGap cs).map fun (before, after) => (c :: before, after)

def ofGroups (gs : List Nat) : Nat := gs.foldl (fun acc g => acc * 65536 + g) 0

/-- The eight groups of a text: all of them written out, or at most seven around a gap. -/
def readEight (cs : List Char) : Option (List Nat) :=
  match cutGap cs with
  | none =>
    (readSide true cs).bind fun gs => if gs.length = 8 then some gs else none
  | some (before, after) =>
    match readSide false before, readSide true after with
    | some gs, some hs =>
      if gs.length + hs.length ≤ 7 then
        some (gs ++ List.replicate (8 - (gs.length + hs.length)) 0 ++ hs)
      else none
    | _, _ => none

def readV4 (cs : List Char) : Option (BitVec 32) := (readQuad cs).map (BitVec.ofNat 32)

def readV6 (cs : List Char) : Option (BitVec 128) :=
  (readEight cs).map fun gs => BitVec.ofNat 128 (ofGroups gs)

def read (cs : List Char) : Option Address :=
  match readV4 cs with
  | some bits => some (.v4 bits)
  | none => (readV6 cs).map .v6

def quad (n : Nat) : List Char :=
  join ['.'] [decimal (n >>> 24 % 256), decimal (n >>> 16 % 256), decimal (n >>> 8 % 256),
    decimal (n % 256)]

def groups (n : Nat) : List Nat :=
  [n >>> 112 % 65536, n >>> 96 % 65536, n >>> 80 % 65536, n >>> 64 % 65536,
    n >>> 48 % 65536, n >>> 32 % 65536, n >>> 16 % 65536, n % 65536]

def leadingZeros (gs : List Nat) : Nat := (gs.takeWhile (· = 0)).length

/-- Start and length of the longest run of zeros, the first of equally long ones.  Positions count
from `start`. -/
def longestRun (start : Nat) : List Nat → Nat × Nat
  | [] => (start, 0)
  | g :: gs =>
    let here := leadingZeros (g :: gs)
    let later := longestRun (start + 1) gs
    if later.2 ≤ here then (start, here) else later

def writeGroups (gs : List Nat) : List Char := join [':'] (gs.map hexadecimal)

def writeV6 (n : Nat) : List Char :=
  if n >>> 32 = 0xFFFF then ':' :: ':' :: 'f' :: 'f' :: 'f' :: 'f' :: ':' :: quad (n % UInt32.size)
  else
    let gs := groups n
    let (start, len) := longestRun 0 gs
    if 2 ≤ len then
      writeGroups (gs.take start) ++ [':', ':'] ++ writeGroups (gs.drop (start + len))
    else writeGroups gs

def write : Address → List Char
  | .v4 bits => quad bits.toNat
  | .v6 bits => writeV6 bits.toNat

def toString (a : Address) : String := String.ofList a.write

instance : ToString Address := ⟨toString⟩

def ofString? (s : String) : Option Address := read s.toList

end Recon.Address
