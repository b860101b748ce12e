import Recon.Task.Info
import Recon.Task.State

/-!
# Snapshots of a running task

What a task tells about itself in one of its states.
-/

namespace Recon

open Time

def Time.Date.advance (d : Date) : Nat → Date
  | 0 => d
  | days + 1 => d.next.advance days

def Time.Stamp.advance (s : Stamp) (millis : Nat) : Stamp :=
  let nanos := s.nanos + millis % 1000 * 1000000
  let seconds := s.second.val + millis / 1000 + nanos / 1000000000
  ⟨s.date.advance (seconds / 86400), ⟨seconds % 86400, Nat.mod_lt _ (by decide)⟩,
    nanos % 1000000000⟩

def TaskState.progress (s : TaskState) : String :=
  formatProgress (.ofNat s.completed) (.ofNat s.total)

/-- What a task tells about itself in a state, when it was started at a point in time and has taken
some milliseconds. -/
def TaskState.info (t : Task) (s : TaskState) (start : Stamp) (millis : Nat) : TaskInfo where
  name := t.name
  id := t.id
  debug := t.debug
  status := s.status
  message := s.message
  started := if s.started then some start else none
  ended := if s.ended then some (start.advance millis) else none
  seconds := if s.started then Float.ofNat millis / 1000.0 else 0.0
  elapsed := formatElapsed (if s.started then millis else 0)
  total := .ofNat s.total
  completed := .ofNat s.completed
  found := .ofNat s.found
  progress := s.progress
  settings := t.settings

end Recon
