import Recon.Station.Slot
import Recon.Task.Status

/-!
# Callers of a station

Any number of callers use a station at once.  Each of them does one operation on the slot at a time
and may be overtaken by others between two of them; the tasks go on by themselves.  `Callers.step`
takes one such step.  Only tasks that the station has started are numbered.
-/

namespace Recon

inductive CallerPhase where
  | idle
  /-- It waits for the end of a task, on the handle of its run or else for its status. -/
  | waiting (task : Nat) (hasHandle : Bool)
  | seen (task : Nat) (status : Status)
  | asking (isWorking : Bool)
  | looking (isWorking : Bool) (task : Nat)
deriving DecidableEq, Repr

structure StartedTask where
  status : Status
  /-- Whether its run has come back, and no one can wait for it any more. -/
  isBack : Bool
deriving DecidableEq, Repr

/-- A station with its tasks and callers. -/
structure Callers where
  slot : Slot Nat
  tasks : List StartedTask
  phases : List CallerPhase
deriving DecidableEq, Repr

inductive CallerEvent where
  | started (task : Nat)
  | refused (f : StationFault)
  | noWait
  | waited (task : Nat) (status : Status)
  /-- Whether there is an active task, and the status of the active task or of the last one. -/
  | informed (isWorking : Bool) (status : Option Status)
deriving DecidableEq, Repr

inductive CallerAction where
  | offer
  | beginWait (caller : Nat)
  | seeEnd (caller : Nat)
  | endWait (caller : Nat)
  | abandon (caller : Nat)
  /-- Someone only looks at the slot, as every request to the active task does first. -/
  | look
  | ask (caller : Nat)
  | which (caller : Nat)
  | snapshot (caller : Nat)
  | turn (task : Nat) (status : Status)
  | comeBack (task : Nat)
deriving DecidableEq, Repr

namespace Callers

def start (callers : Nat) : Callers := ⟨.empty, [], List.replicate callers .idle⟩

def isOver (s : Callers) (task : Nat) : Bool :=
  ((s.tasks[task]?).map fun t => t.status.isTerminal).getD false

def put (s : Callers) (caller : Nat) (phase : CallerPhase) : Callers :=
  { s with phases := s.phases.set caller phase }

def stepCaller (s : Callers) (caller : Nat) (phase : CallerPhase) :
    CallerAction → Option (Callers × Option CallerEvent)
  | .beginWait _ =>
    if phase = .idle then
      match s.slot.beginWait with
      | some (task, hasHandle, slot) =>
        some ({ s with slot }.put caller (.waiting task hasHandle), none)
      | none => some (s, some .noWait)
    else none
  | .seeEnd _ =>
    match phase with
    | .waiting task hasHandle =>
      match s.tasks[task]? with
      | some t =>
        -- the handle tells when the run is back, even if it has broken off
        if (if hasHandle then t.isBack else t.status.isTerminal) then
          some (s.put caller (.seen task t.status), none)
        else none
      | none => none
    | _ => none
  | .endWait _ =>
    match phase with
    | .seen task status =>
      some ({ s with slot := s.slot.endWait task }.put caller .idle, some (.waited task status))
    | _ => none
  | .abandon _ =>
    match phase with
    -- the handle is gone with the one who gives up
    | .waiting _ _ | .seen _ _ => some (s.put caller .idle, none)
    | _ => none
  | .ask _ =>
    if phase = .idle then
      -- a look retires a task that is over
      let slot := s.slot.retire s.isOver
      some ({ s with slot }.put caller (.asking slot.active.isSome), none)
    else none
  | .which _ =>
    match phase with
    | .asking isWorking =>
      let slot := s.slot.retire s.isOver
      match slot.current? with
      | some task => some ({ s with slot }.put caller (.looking isWorking task), none)
      | none => some ({ s with slot }.put caller .idle, some (.informed isWorking none))
    | _ => none
  | .snapshot _ =>
    match phase with
    | .looking isWorking task =>
      let status := (s.tasks[task]?).map fun t => t.status
      some (s.put caller .idle, some (.informed isWorking status))
    | _ => none
  | _ => none

def step (s : Callers) (a : CallerAction) : Option (Callers × Option CallerEvent) :=
  match a with
  | .offer =>
    let task := s.tasks.length
    match s.slot.start s.isOver task with
    | .ok slot =>
      some ({ s with slot, tasks := s.tasks ++ [⟨.init, false⟩] }, some (.started task))
    | .error f => some ({ s with slot := s.slot.retire s.isOver }, some (.refused f))
  | .look => some ({ s with slot := s.slot.retire s.isOver }, none)
  | .turn task status =>
    match s.tasks[task]? with
    | some t =>
      -- the last status stays
      if t.status.isTerminal then none
      else some ({ s with tasks := s.tasks.set task { t with status } }, none)
    | none => none
  | .comeBack task =>
    match s.tasks[task]? with
    | some t =>
      -- a run comes back only when its outcome is known
      if t.status.isTerminal then
        some ({ s with tasks := s.tasks.set task { t with isBack := true } }, none)
      else none
    | none => none
  | .beginWait c | .seeEnd c | .endWait c | .abandon c | .ask c | .which c | .snapshot c =>
    match s.phases[c]? with
    | some phase => s.stepCaller c phase a
    | none => none

end Callers

end Recon
