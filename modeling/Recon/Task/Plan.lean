import Recon.Port.Order
import Recon.Settings.Engine
import Recon.Target.Exclusion

/-!
# Tasks and their plans

A task is fixed when it is made: its name, its settings with every number clamped, and how often it
looks at the clock.  Its plan is what the texts of the settings stand for.
-/

namespace Recon

structure Task where
  id : String
  name : String
  debug : Bool
  settings : Settings
  /-- Milliseconds between looks at the clock. -/
  interval : Nat
  /-- Milliseconds that a host has to show that it is up. -/
  livenessTimeout : Nat
deriving DecidableEq, Repr

/-- The task that settings ask for.  A blank name is made from that of the engine and the start of
the identifier. -/
def Task.make (e : EngineSettings) (id : String) (s : Settings) : Task where
  id := id
  name :=
    if Settings.isBlankText s.name then e.name ++ "-" ++ String.ofList (id.toList.take 8)
    else s.name
  debug := s.debug || e.debug
  settings := s.clamped
  interval := e.monitorMillis
  livenessTimeout := e.livenessTimeout.toNat

/-- What a task does: ports in the order of their probes, blocks of addresses, and addresses to
leave out. -/
structure Plan where
  ports : List Port
  blocks : List Block
  excluded : Exclusions

def Traversal.covers (t : Traversal) (size : Nat) : Bool :=
  t.size == size && (size == 0 || (t.first < size && Nat.gcd size t.step == 1))

def PortOrder.along (o : PortOrder) (t : Traversal) : List Port :=
  if o.tail.length < 2 then o.ports else o.head ++ rearrange t o.tail

namespace Plan

def empty : Plan := ⟨[], [], .empty⟩

/-- The parts of settings that are texts: ports, targets and exclusions, after a check of the
settings as such.  The first fault in this order is reported. -/
def parts (s : Settings) : Except Error (PortOrder × TargetList × Exclusions) :=
  match s.validate with
  | .error f => .error f.toError
  | .ok () =>
    match PortOrder.ofString s.ports with
    | .error f => .error f.toError
    | .ok ports =>
      match TargetList.ofString s.target with
      | .error f => .error f.toError
      | .ok targets =>
        match Exclusions.ofString s.excluded with
        | .error f => .error f.toError
        | .ok excluded => .ok (ports, targets, excluded)

/-- The number of pairs of an address and a port, capped at the largest number of sixty-four bits.
-/
def total (p : Plan) : Nat :=
  min (Block.total p.blocks * p.ports.length) (UInt64.size - 1)

end Plan

end Recon
