import Recon.Error
import Recon.Port.Preset
import Recon.Text.Digits
import Recon.Text.Split

/-!
# Port specifications

A port specification is a comma separated list of ports, ranges of ports and presets.  Of several
presets the smallest counts.
-/

namespace Recon

open Recon.Text

structure PortRange where
  lo : Port
  hi : Port
deriving DecidableEq, Repr, Inhabited

def PortRange.contains (r : PortRange) (p : Port) : Bool := r.lo ≤ p && p ≤ r.hi

def PortRange.ports (r : PortRange) : List Port :=
  (List.range' r.lo.toNat (r.hi.toNat + 1 - r.lo.toNat)).map UInt16.ofNat

structure PortSpec where
  preset : Option Preset
  ranges : List PortRange
deriving DecidableEq, Repr, Inhabited

inductive PortFault where
  | notAPort (text item : String)
  | reversedRange (item : String)
  | noPorts
deriving DecidableEq, Repr

def PortFault.message : PortFault → String
  | .notAPort text item => "invalid port '" ++ text ++ "' in '" ++ item ++ "'"
  | .reversedRange item => "range start is after range end: " ++ item
  | .noPorts => "ports len is 0"

def PortFault.toError (f : PortFault) : Error := ⟨.portRange, f.message⟩

namespace PortRange

def readPort (item cs : List Char) : Except PortFault Port :=
  match readNumber 65535 (trim cs) with
  | .ok n => .ok (UInt16.ofNat n)
  | .error _ => .error (.notAPort (String.ofList cs) (String.ofList item))

def read (item : List Char) : Except PortFault PortRange :=
  match cut '-' item with
  | some (before, after) =>
    match readPort item before with
    | .error fault => .error fault
    | .ok lo =>
      match readPort item after with
      | .error fault => .error fault
      | .ok hi => if hi < lo then .error (.reversedRange (String.ofList item)) else .ok ⟨lo, hi⟩
  | none => (readPort item item).map fun p => ⟨p, p⟩

def write (r : PortRange) : List Char :=
  if r.lo = r.hi then decimal r.lo.toNat else decimal r.lo.toNat ++ '-' :: decimal r.hi.toNat

end PortRange

namespace PortSpec

inductive Item where
  | preset (p : Preset)
  | range (r : PortRange)
deriving DecidableEq, Repr

def Item.read (cs : List Char) : Except PortFault Item :=
  match Preset.read cs with
  | some p => .ok (.preset p)
  | none => (PortRange.read cs).map .range

def readItems : List (List Char) → Except PortFault (List Item)
  | [] => .ok []
  | cs :: rest =>
    match Item.read cs with
    | .error fault => .error fault
    | .ok item => (readItems rest).map (item :: ·)

def rangesOf (is : List Item) : List PortRange :=
  is.filterMap fun | .range r => some r | .preset _ => none

def presetOf (is : List Item) : Option Preset :=
  Preset.all.find? fun p => is.contains (.preset p)

def read (cs : List Char) : Except PortFault PortSpec :=
  (readItems (items cs)).map fun is => ⟨presetOf is, rangesOf is⟩

def ofString (s : String) : Except PortFault PortSpec := read s.toList

def write (s : PortSpec) : List Char :=
  join [','] (s.preset.toList.map (·.name.toList) ++ s.ranges.map PortRange.write)

def inRanges (s : PortSpec) (p : Port) : Bool := s.ranges.any (·.contains p)

end PortSpec

end Recon
