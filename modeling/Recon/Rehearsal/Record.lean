import Std.Data.HashMap
import Recon.Task.State

/-!
# Records of a rehearsal

What others have noticed of a task.  Every list has the latest entry first.
-/

namespace Recon

structure Record where
  opened : List (ScanMode × ScannerOption)
  asked : List Address
  awaited : Nat
  probed : List Endpoint
  received : List Endpoint
  drained : Nat
  released : Nat
  failures : List Error
  ends : List Status

namespace Record

def empty : Record := ⟨[], [], 0, [], [], 0, 0, [], []⟩

def note (r : Record) : Event → Record
  | .opened mode option => { r with opened := (mode, option) :: r.opened }
  | .asked host => { r with asked := host :: r.asked }
  | .awaited => { r with awaited := r.awaited + 1 }
  | .probed endpoint => { r with probed := endpoint :: r.probed }
  | .called _ => r
  | .drained => { r with drained := r.drained + 1 }
  | .released => { r with released := r.released + 1 }
  | .failed e => { r with failures := e :: r.failures }
  | .ended status => { r with ends := status :: r.ends }

def take (r : Record) (e : Endpoint) : Record := { r with received := e :: r.received }

/-- Values by their addresses, each address with its latest entry last, and the addresses in the
order of their first entries. -/
def group {α : Type} (entries : List (Address × α)) : List (Address × List α) :=
  let table := entries.foldl (fun (t : Std.HashMap Address (List α)) (a, x) =>
    t.insert a (x :: t.getD a [])) ∅
  let (order, _) := entries.foldr (fun (a, _) (order, seen) =>
    if seen.contains a then (order, seen) else (a :: order, seen.insert a ()))
    (([] : List Address), (∅ : Std.HashMap Address Unit))
  order.reverse.map fun a => (a, table.getD a [])

def asks (r : Record) : List (Address × Nat) :=
  (group (r.asked.map fun a => (a, ()))).map fun (a, xs) => (a, xs.length)

/-- The hosts that were probed, in the order of their first probes, each with its ports: the first
ones of an order as they came, the others by number. -/
def hosts (r : Record) (o : PortOrder) : List (Address × List Port) :=
  (group (r.probed.map fun e => (e.address, e.port))).map fun (a, ports) =>
    (a, ports.filter o.head.contains ++
      (ports.filter fun p => !o.head.contains p).mergeSort (· ≤ ·))

end Record

end Recon
