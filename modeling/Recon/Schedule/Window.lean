import Recon.Error
import Recon.Time.Clock

/-!
# Exclusion windows

A window names the times at which scanning must rest: a recurrence and the two times of day between
which it holds.  It is written as its three parts between commas; `Window.read` accepts blanks
around a part, older names of a recurrence, and times with single digits.
-/

namespace Recon

open Recon.Text Recon.Time

inductive Recurrence where
  | daily
  | workdays
  /-- All of Monday to Friday and Saturday before five. -/
  | businessHours
deriving DecidableEq, Repr

def Recurrence.name : Recurrence → String
  | .daily => "daily"
  | .workdays => "every-workday"
  | .businessHours => "business-hours-broad"

/-- A window: its recurrence, the time at which it begins and the one at which it ends. -/
structure Window where
  recurrence : Recurrence
  start : TimeOfDay
  stop : TimeOfDay
deriving DecidableEq, Repr

inductive WindowFault where
  | wrongParts (spec : List Char)
  | unknownRecurrence (name : List Char)
  | badTime (text : List Char) (fault : TimeFault)
deriving DecidableEq, Repr

def WindowFault.message : WindowFault → String
  | .wrongParts spec =>
    "exclusion window must be 'mode,begin,end', got '" ++ String.ofList spec ++ "'"
  | .unknownRecurrence name => "unknown exclusion window mode: " ++ String.ofList name
  | .badTime text fault => "invalid time '" ++ String.ofList text ++ "': " ++ fault.message

def WindowFault.toError (f : WindowFault) : Error := ⟨.schedule, f.message⟩

def Recurrence.read (cs : List Char) : Except WindowFault Recurrence :=
  let name := trim cs
  if ["daily".toList].contains name then .ok .daily
  else if ["every-workday".toList, "everyWorKDay".toList, "workday".toList].contains name then
    .ok .workdays
  else if ["business-hours-broad".toList, "OpeningtimeBroad".toList].contains name then
    .ok .businessHours
  else .error (.unknownRecurrence name)

/-- A time of day with blanks around it.  The fault quotes the text with its blanks. -/
def Window.readTime (cs : List Char) : Except WindowFault TimeOfDay :=
  match TimeOfDay.read (trim cs) with
  | .ok t => .ok t
  | .error f => .error (.badTime cs f)

def Window.ofParts (name start stop : List Char) : Except WindowFault Window := do
  let recurrence ← Recurrence.read name
  let start ← Window.readTime start
  let stop ← Window.readTime stop
  return ⟨recurrence, start, stop⟩

def Window.read (cs : List Char) : Except WindowFault Window :=
  match (fields ',' cs).map trim with
  | [name, start, stop] => Window.ofParts name start stop
  | _ => .error (.wrongParts cs)

def Window.ofString (s : String) : Except WindowFault Window := Window.read s.toList

def Window.write (w : Window) : List Char :=
  w.recurrence.name.toList ++ ',' :: w.start.write ++ ',' :: w.stop.write

def Window.toString (w : Window) : String := String.ofList w.write

instance : ToString Window := ⟨Window.toString⟩

/-- Whether a second of the day lies between the two times, the first included.  A window that
begins later than it ends runs past midnight. -/
def Window.covers (w : Window) (second : Nat) : Bool :=
  if w.start.secondOfDay ≤ w.stop.secondOfDay then
    w.start.secondOfDay ≤ second && second < w.stop.secondOfDay
  else w.start.secondOfDay ≤ second || second < w.stop.secondOfDay

def Window.isActive (w : Window) (now : Moment) : Bool :=
  match w.recurrence with
  | .daily => w.covers now.second
  | .workdays =>
    match now.date.weekday with
    | .saturday | .sunday => false
    | _ => w.covers now.second
  | .businessHours =>
    match now.date.weekday with
    | .saturday => now.second.val < 5 * 3600
    | .sunday => false
    | _ => true

/-- Whether scanning must rest at a moment, given the window of the task if it has one. -/
def isExcludedAt (window : Option Window) (now : Moment) : Bool :=
  match window with
  | some w => w.isActive now
  | none => false

end Recon
