import Recon.Schedule.Window

/-!
# Windows between seconds

A wall clock shows nanoseconds as well, and more than a whole second of them in a leap second.  Of
two readings the seconds are compared first, and the nanoseconds only if the seconds are the same.
-/

namespace Recon

open Recon.Time

/-- What a wall clock shows, down to the nanosecond. -/
structure Reading where
  moment : Moment
  /-- Nanoseconds since the second began. -/
  nanos : Nat
deriving DecidableEq, Repr

def isEarlier (a b : Nat × Nat) : Bool := a.1 < b.1 || (a.1 == b.1 && a.2 < b.2)

def Window.coversTime (w : Window) (time : Nat × Nat) : Bool :=
  let start := (w.start.secondOfDay, 0)
  let stop := (w.stop.secondOfDay, 0)
  if isEarlier stop start then !isEarlier time start || isEarlier time stop
  else !isEarlier time start && isEarlier time stop

/-- Whether scanning must rest when a clock shows a reading. -/
def Window.isActiveAt (w : Window) (now : Reading) : Bool :=
  let second := now.moment.second.val
  match w.recurrence with
  | .daily => w.coversTime (second, now.nanos)
  | .workdays =>
    match now.moment.date.weekday with
    | .saturday | .sunday => false
    | _ => w.coversTime (second, now.nanos)
  | .businessHours =>
    match now.moment.date.weekday with
    | .saturday => second / 3600 < 5
    | .sunday => false
    | _ => true

end Recon
