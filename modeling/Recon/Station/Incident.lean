import Recon.Station.Callers

/-!
# Runs that break off

A run can come back before its task is at its end, as when whoever is told of the end breaks off.
Then the task keeps the status that it had.  Whoever waits on the handle of the run sees that it is
back and retires the task, as after any other run.
-/

namespace Recon

/-- What happens at a station: a step of a caller or of a task, or the breaking off of a run. -/
inductive Incident where
  | step (a : CallerAction)
  | breakOff (task : Nat)
deriving DecidableEq, Repr

namespace Callers

def breakOff (s : Callers) (task : Nat) : Option Callers :=
  match s.tasks[task]? with
  | some t =>
    if t.isBack then none else some { s with tasks := s.tasks.set task { t with isBack := true } }
  | none => none

def happen (s : Callers) : Incident → Option (Callers × Option CallerEvent)
  | .step a => s.step a
  | .breakOff task => (s.breakOff task).map fun s => (s, none)

end Callers

end Recon
