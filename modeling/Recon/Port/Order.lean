import Recon.Port.Spec
import Recon.Random.Traversal

/-!
# The order of probes

The ports of a specification in the order in which a host is probed.  The ports of the preset come
first and in the order of the preset; without a preset, those asked for that are among the top
thousand do.  The others follow in ascending order, or in the order of a traversal.  No port comes
twice and port zero never does.
-/

namespace Recon

open Recon.Text

/-- Ports in two parts: the head in preset order, and the others in ascending order. -/
structure PortOrder where
  head : List Port
  tail : List Port
deriving DecidableEq, Repr, Inhabited

namespace PortOrder

def ports (o : PortOrder) : List Port := o.head ++ o.tail

def headOf (s : PortSpec) : List Port :=
  match s.preset with
  | some p => p.ports
  | none => Preset.top1000.ports.filter s.inRanges

/-- The ports of a specification's ranges that come after some first ones.  They are gathered range
by range and so have to be sorted and rid of repetitions; zero is no port to probe. -/
def restOf (s : PortSpec) (first : List Port) : List Port :=
  let gathered := Port.without ((s.ranges.flatMap PortRange.ports).filter (· ≠ 0)) first
  (gathered.mergeSort (· ≤ ·)).eraseReps

def ofSpec (s : PortSpec) : PortOrder :=
  let head := headOf s
  ⟨head, restOf s head⟩

/-- Reads a specification and puts its ports in order.  A blank one asks for the top thousand; one
that asks for no port is refused. -/
def read (cs : List Char) : Except PortFault PortOrder :=
  if (trim cs).isEmpty then .ok ⟨Preset.top1000.ports, []⟩
  else
    match PortSpec.read cs with
    | .error fault => .error fault
    | .ok spec =>
      let order := ofSpec spec
      if order.ports.isEmpty then .error .noPorts else .ok order

def ofString (s : String) : Except PortFault PortOrder := read s.toList

def rearrange {α : Type} (t : Traversal) (xs : List α) : List α :=
  let array := xs.toArray
  t.order.filterMap fun i => array[i]?

/-- The ports with the tail in the order of a drawn traversal.  A tail of one port stays as it
is. -/
def shuffled {σ : Type} (d : Draws σ) (s : σ) (o : PortOrder) : List Port × σ :=
  if o.tail.length < 2 then (o.ports, s)
  else
    let (t, s) := Traversal.draw d o.tail.length s
    (o.head ++ rearrange t o.tail, s)

end PortOrder

end Recon
