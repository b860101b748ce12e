import Recon.Report.Endpoint
import Recon.Task.Plan
import Recon.Task.Pool
import Recon.Task.Status

/-!
# States of a task

What changes while a task runs.  The run itself is at one `Stage`; the hosts it has handed on are
jobs of three pools, each at a phase of its own; and the scanner holds the probes it has taken and
not yet reported.
-/

namespace Recon

inductive AskPhase where
  | gate
  | ready
  | asked
  /-- It is up and to be handed on to the scanning pool. -/
  | up
  | inLine
  | handedOn
deriving DecidableEq, Repr

structure AskJob where
  host : Address
  phase : AskPhase
deriving DecidableEq, Repr

inductive ScanPhase where
  | gate
  /-- These ports are still to be probed; `admitted` once the rate allows the next probe. -/
  | probing (rest : List Port) (admitted : Bool)
deriving DecidableEq, Repr

structure ScanJob where
  host : Address
  phase : ScanPhase
deriving DecidableEq, Repr

/-- An open endpoint that is handed over; `called` once its receiver has it. -/
structure HandoverJob where
  endpoint : Endpoint
  called : Bool
deriving DecidableEq, Repr

/-- A block on the way: its addresses are visited in the order of a traversal, and other blocks
follow. -/
structure Walk where
  block : Block
  order : Traversal
  index : Nat
  rest : List Block
deriving DecidableEq, Repr

def Walk.next (w : Walk) : Walk := { w with index := w.index + 1 }

inductive Stage where
  | idle
  | planning
  | opening
  | launching
  /-- The schedule is to be applied for the first time. -/
  | scheduling
  | entering (rest : List Block)
  /-- The next address is to be taken, unless the task is cancelled. -/
  | checking (walk : Walk)
  | gating (walk : Walk)
  /-- The address is looked up, and left out if it is excluded. -/
  | visiting (walk : Walk)
  /-- The address is to be submitted, unless the task is cancelled. -/
  | offering (walk : Walk) (host : Address)
  | inLine (walk : Walk) (host : Address)
  | drainingAsks
  | drainingScans
  | drainingScanner
  | drainingHandovers
  | releasing
  | closing
  | stopping
  /-- The failure is to be told. -/
  | failing (e : Error)
  | ending (outcome : Status)
  /-- The outcome is to become the status. -/
  | publishing (outcome : Status)
  | returned (outcome : Status)
  /-- The run has broken off because its receiver did, when told of the failure or of the end. -/
  | collapsed
deriving DecidableEq, Repr

def Stage.isOver : Stage → Bool
  | .returned _ | .collapsed => true
  | _ => false

structure TaskState where
  status : Status
  cancelled : Bool
  stage : Stage
  plan : Plan
  /-- All pairs of an address and a port. -/
  total : Nat
  /-- The pairs that are accounted for. -/
  completed : Nat
  found : Nat
  message : String
  /-- Whether the beginning and the end of the run are on record. -/
  started : Bool
  ended : Bool
  asks : Pool AskJob
  scans : Pool ScanJob
  handovers : Pool HandoverJob
  /-- Probes that the scanner has taken and not yet reported. -/
  flying : List Endpoint
  /-- Whether the clock is looked at. -/
  monitored : Bool

namespace TaskState

def initial (t : Task) : TaskState where
  status := .init
  cancelled := false
  stage := .idle
  plan := .empty
  total := 0
  completed := 0
  found := 0
  message := ""
  started := false
  ended := false
  asks := .ofSize t.settings.pool.ping.toNat
  scans := .ofSize t.settings.pool.scan.toNat
  handovers := .ofSize t.settings.pool.finger.toNat
  flying := []
  monitored := false

def complete (s : TaskState) (n : Nat) : TaskState := { s with completed := s.completed + n }

def completeHost (s : TaskState) : TaskState := s.complete s.plan.ports.length

end TaskState

inductive Event where
  | opened (mode : ScanMode) (option : ScannerOption)
  | asked (host : Address)
  | awaited
  | probed (endpoint : Endpoint)
  | called (endpoint : Endpoint)
  | drained
  | released
  | failed (e : Error)
  /-- The end is told, while the status is this one. -/
  | ended (status : Status)
deriving DecidableEq, Repr

end Recon
