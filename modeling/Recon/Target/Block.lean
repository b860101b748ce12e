import Recon.Address.Text
import Recon.Error

/-!
# Blocks of addresses

A block is a contiguous run of addresses of one family, named by one item of a target list: a
single address, a network with its mask, or a range.  A block is indexed, so no list of its
addresses is ever needed to walk it.
-/

namespace Recon

/-- A contiguous run of addresses and the item it was read from. -/
structure Block where
  source : String
  first : Address
  size : Nat
deriving DecidableEq, Repr, Inhabited

inductive TargetFault where
  | notAnAddress (item : String)
  | badNetwork (item : String)
  | wideNetwork (item : String)
  | badRange (item : String)
  | reversedRange
  | wideRange (item : String)
  | mixedFamilies
  | noTargets
deriving DecidableEq, Repr

def TargetFault.message : TargetFault → String
  | .notAnAddress item => "Invalid IP address: " ++ item
  | .badNetwork item => "Invalid CIDR '" ++ item ++ "': invalid address: " ++ item
  | .wideNetwork item => "IPv6 block too large to scan: " ++ item
  | .badRange item => "Invalid range: " ++ item
  | .reversedRange => "Start IP must be less than or equal to end IP"
  | .wideRange item => "IPv6 range too large to scan: " ++ item
  | .mixedFamilies => "Start and end IP must be the same version"
  | .noTargets => "target is empty"

def TargetFault.toError (f : TargetFault) : Error := ⟨.invalidTarget, f.message⟩

/-- A network: an address in it and the number of leading bits its members share. -/
structure Network where
  address : Address
  bits : Nat
deriving DecidableEq, Repr

namespace Network

open Recon.Text

/-- The number of leading ones of a mask that is ones followed by zeros. -/
def maskBits? (mask : Nat) : Option Nat :=
  (List.range 33).find? fun bits => mask == UInt32.size - Nat.pow 2 (32 - bits)

def readBitsV4 (cs : List Char) : Option Nat :=
  match Address.readV4 cs with
  | some mask => maskBits? mask.toNat
  | none => (readNumber 32 cs).toOption

def read (cs : List Char) : Option Network :=
  match cut '/' cs with
  | none => (Address.read cs).map fun a => ⟨a, a.family.width⟩
  | some (before, after) =>
    match Address.read before with
    | some (.v4 b) => (readBitsV4 after).map fun bits => ⟨.v4 b, bits⟩
    | some (.v6 b) => (readNumber 128 after).toOption.map fun bits => ⟨.v6 b, bits⟩
    | none => none

def size (n : Network) : Nat := Nat.pow 2 (n.address.family.width - n.bits)

/-- The lowest address of a network: its address with the bits that are not shared cleared. -/
def first (n : Network) : Address :=
  Address.ofValue n.address.family (n.address.value / n.size * n.size)

end Network

namespace Block

open Recon.Text

/-- The most addresses a range or network of one hundred and twenty-eight bit addresses may have. -/
def maxSize : Nat := UInt32.size

/-- The block of a network, which for the long addresses must not be wider than `maxSize`. -/
def ofNetwork (source : String) (n : Network) : Except TargetFault Block :=
  match n.address.family with
  | .v4 => .ok ⟨source, n.first, n.size⟩
  | .v6 => if n.size ≤ maxSize then .ok ⟨source, n.first, n.size⟩ else .error (.wideNetwork source)

def ofBounds (source : String) (lo hi : Address) : Except TargetFault Block :=
  if lo.family ≠ hi.family then .error .mixedFamilies
  else if hi.value < lo.value then .error .reversedRange
  else if lo.family = .v6 ∧ maxSize ≤ hi.value - lo.value then .error (.wideRange source)
  else .ok ⟨source, lo, hi.value - lo.value + 1⟩

/-- The end of a range: an address, or for a short address its last octet alone. -/
def readEnd (lo : Address) (cs : List Char) : Option Address :=
  match Address.read cs with
  | some hi => some hi
  | none =>
    match lo with
    | .v4 bits =>
      match readNumber 255 cs with
      | .ok n => some (.v4 (BitVec.ofNat 32 (bits.toNat / 256 * 256 + n)))
      | .error _ => none
    | .v6 _ => none

def readTrimmed (cs : List Char) : Except TargetFault Block :=
  let source := String.ofList cs
  if cs.contains '/' then
    -- with a slash it is no range, even if there is a dash
    match Network.read cs with
    | some n => ofNetwork source n
    | none => .error (.badNetwork source)
  else
    match cut '-' cs with
    | some (before, after) =>
      match Address.read (trim before) with
      | none => .error (.badRange source)
      | some lo =>
        match readEnd lo (trim after) with
        | none => .error (.badRange source)
        | some hi => ofBounds source lo hi
    | none =>
      match Address.read cs with
      | some a => .ok ⟨source, a, 1⟩
      | none => .error (.notAnAddress source)

def read (cs : List Char) : Except TargetFault Block := readTrimmed (trim cs)

def ofString (s : String) : Except TargetFault Block := read s.toList

def nth (b : Block) (i : Nat) : Option Address :=
  if i < b.size then some (b.first.advance i) else none

def contains (b : Block) (a : Address) : Bool :=
  a.family = b.first.family && b.first.value ≤ a.value && a.value - b.first.value < b.size

def addresses (b : Block) : List Address := (List.range b.size).filterMap b.nth

/-- The number of addresses of some blocks.  An address counts once for every block it is in. -/
def total : List Block → Nat
  | [] => 0
  | b :: bs => b.size + total bs

def display (b : Block) : String := b.source ++ " (" ++ ToString.toString b.size ++ " addresses)"

end Block

end Recon
