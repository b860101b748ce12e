import Recon.Error

/-!
# The slot of a station

A station runs at most one task at a time.  Its slot holds the active task, the handle on which one
caller can wait for its run, and the task that was retired last.  Each operation here is one that is
done while the slot is locked, so callers can only take turns between them.
-/

namespace Recon

structure Slot (τ : Type) where
  active : Option τ
  runner : Option τ
  last : Option τ
deriving DecidableEq, Repr

inductive StationFault where
  | busy
  | noTask
deriving DecidableEq, Repr

def StationFault.message : StationFault → String
  | .busy => "there are already scanning tasks running"
  | .noTask => "no running task"

def StationFault.toError (f : StationFault) : Error := ⟨.taskState, f.message⟩

namespace Slot

variable {τ : Type}

def empty : Slot τ := ⟨none, none, none⟩

def retire (isOver : τ → Bool) (s : Slot τ) : Slot τ :=
  match s.active with
  | some t => if isOver t then ⟨none, none, some t⟩ else s
  | none => s

def start (isOver : τ → Bool) (t : τ) (s : Slot τ) : Except StationFault (Slot τ) :=
  let s := s.retire isOver
  match s.active with
  | some _ => .error .busy
  | none => .ok { s with active := some t, runner := some t }

/-- The active task, once a task at its end is retired. -/
def active? (isOver : τ → Bool) (s : Slot τ) : Except StationFault τ :=
  match (s.retire isOver).active with
  | some t => .ok t
  | none => .error .noTask

def isWorking (isOver : τ → Bool) (s : Slot τ) : Bool := (s.retire isOver).active.isSome

/-- The active task or else the one that was retired last. -/
def current? (s : Slot τ) : Option τ := s.active <|> s.last

/-- A caller begins to wait for the active task, and takes the handle on its run if it is there. -/
def beginWait (s : Slot τ) : Option (τ × Bool × Slot τ) :=
  s.active.map fun t => (t, s.runner.isSome, { s with runner := none })

/-- A caller has seen the end of a task, which is retired unless another has taken its place. -/
def endWait [DecidableEq τ] (t : τ) (s : Slot τ) : Slot τ :=
  if s.active = some t then { s with active := none, last := some t } else s

end Slot

end Recon
