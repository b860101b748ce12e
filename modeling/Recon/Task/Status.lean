import Recon.Error

/-!
# Status of a task

The states of a task and the three requests that move it between running and resting: the owner's
`pause` and `resume`, and the `schedule`, which never overrides the owner's pause.
-/

namespace Recon

inductive Status where
  | init
  | running
  | success
  /-- Resting because of the exclusion window. -/
  | pausedByProgram
  /-- Resting because the owner asked for it. -/
  | pausedManually
  | error
deriving DecidableEq, Repr

namespace Status

def all : List Status := [.init, .running, .success, .pausedByProgram, .pausedManually, .error]

def name : Status → String
  | .init => "init"
  | .running => "running"
  | .success => "success"
  | .pausedByProgram => "paused_by_program"
  | .pausedManually => "paused_manually"
  | .error => "error"

def ofName? (s : String) : Option Status := all.find? fun status => status.name == s

def isPaused : Status → Bool
  | .pausedByProgram | .pausedManually => true
  | _ => false

def isTerminal : Status → Bool
  | .success | .error => true
  | _ => false

inductive Refusal where
  | alreadyPaused
  | alreadyRunning
  | cannotPause (status : Status)
  | cannotResume (status : Status)
deriving DecidableEq, Repr

def Refusal.message : Refusal → String
  | .alreadyPaused => "task is already paused"
  | .alreadyRunning => "task is already running"
  | .cannotPause s => "task can not be paused in state " ++ s.name
  | .cannotResume s => "task can not be resumed in state " ++ s.name

def Refusal.toError (r : Refusal) : Error := ⟨.taskState, r.message⟩

inductive Resumption where
  | resumed
  /-- The window is active, so the task goes on when it ends. -/
  | deferred
deriving DecidableEq, Repr

/-- The state after a look at the schedule, which moves a task between running and resting by
program. -/
def schedule (inWindow : Bool) : Status → Status
  | .running => if inWindow then .pausedByProgram else .running
  | .pausedByProgram => if inWindow then .pausedByProgram else .running
  | s => s

def pause : Status → Except Refusal Status
  | .running | .pausedByProgram => .ok .pausedManually
  | .pausedManually => .error .alreadyPaused
  | s => .error (.cannotPause s)

def resume (inWindow : Bool) : Status → Except Refusal (Status × Resumption)
  | .pausedManually =>
    if inWindow then .ok (.pausedByProgram, .deferred) else .ok (.running, .resumed)
  | .pausedByProgram => .ok (.pausedByProgram, .deferred)
  | .running => .error .alreadyRunning
  | s => .error (.cannotResume s)

end Status

end Recon
