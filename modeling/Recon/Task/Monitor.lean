import Recon.Schedule.Window
import Recon.Task.Status

/-!
# Schedule monitors

A monitor looks at the clock at regular times and lets the schedule move a status.  Its first look
is at once.  A look that comes more than five milliseconds late puts all later ones off; any other
does not.  Without a window, or with no time between looks, there is nothing to look at.
-/

namespace Recon

open Time

structure Monitor where
  window : Option Window
  interval : Nat
  status : Status
  clock : Moment
  now : Nat
  next : Option Nat

namespace Monitor

def inWindow (m : Monitor) : Bool := isExcludedAt m.window m.clock

/-- The most that a look may come late without putting off the next. -/
def tolerance : Nat := 5

def look (m : Monitor) (due : Nat) : Monitor :=
  { m with
    status := m.status.schedule m.inWindow
    next := some ((if due + tolerance < m.now then m.now else due) + m.interval) }

def lookWithin : Nat → Monitor → Monitor
  | 0, m => m
  | fuel + 1, m =>
    match m.next with
    | some due => if due ≤ m.now then lookWithin fuel (m.look due) else m
    | none => m

def settle (m : Monitor) : Monitor := lookWithin (m.now + 1) m

def start (window : Option Window) (interval : Nat) (status : Status) (clock : Moment) : Monitor :=
  let next := if window.isSome && 0 < interval then some 0 else none
  settle ⟨window, interval, status, clock, 0, next⟩

def leap (m : Monitor) (millis : Nat) : Monitor := settle { m with now := m.now + millis }

def passWithin (limit : Nat) : Nat → Monitor → Monitor
  | 0, m => m
  | fuel + 1, m =>
    match m.next with
    | some due =>
      if due ≤ limit then passWithin limit fuel ({ m with now := max m.now due }.look due)
      else { m with now := limit }
    | none => { m with now := limit }

def pass (m : Monitor) (millis : Nat) : Monitor := passWithin (m.now + millis) (millis + 2) m

def stop (m : Monitor) : Monitor := { m with next := none }

def pause (m : Monitor) : Except Status.Refusal Monitor :=
  m.status.pause.map fun status => { m with status }

def resume (m : Monitor) : Except Status.Refusal (Status.Resumption × Monitor) :=
  (m.status.resume m.inWindow).map fun (status, how) => (how, { m with status })

end Monitor

end Recon
