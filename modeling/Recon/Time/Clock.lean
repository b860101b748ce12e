import Recon.Text.Split
import Recon.Time.Date

/-!
# Times of day and moments

A `TimeOfDay` has minutes as its finest part and is written as two numbers around a colon.  The
reader takes each number with one or two digits and allows blanks before it.  A `Moment` is a date
together with the second of that day, as a wall clock shows it.
-/

namespace Recon.Time

open Recon.Text

structure TimeOfDay where
  hour : Fin 24
  minute : Fin 60
deriving DecidableEq, Repr

def TimeOfDay.minuteOfDay (t : TimeOfDay) : Nat := t.hour.val * 60 + t.minute.val

/-- Seconds since midnight. -/
def TimeOfDay.secondOfDay (t : TimeOfDay) : Nat := t.minuteOfDay * 60

inductive TimeFault where
  | incomplete
  | invalid
  | outOfRange
  | trailing
deriving DecidableEq, Repr

def TimeFault.message : TimeFault → String
  | .incomplete => "premature end of input"
  | .invalid => "input contains invalid characters"
  | .outOfRange => "input is out of range"
  | .trailing => "trailing input"

/-- A number of one or two digits, with blanks before it, and the text after it. -/
def readPair (cs : List Char) : Except TimeFault (Nat × List Char) :=
  match cs.dropWhile isBlank with
  | [] => .error .incomplete
  | c :: rest =>
    match digitValue? c with
    | none => .error .invalid
    | some tens =>
      match rest with
      | [] => .ok (tens, [])
      | e :: rest' =>
        match digitValue? e with
        | none => .ok (tens, e :: rest')
        | some ones => .ok (tens * 10 + ones, rest')

/-- A time of day.  A number out of its range is reported before what follows it is looked at. -/
def TimeOfDay.read (cs : List Char) : Except TimeFault TimeOfDay :=
  match readPair cs with
  | .error f => .error f
  | .ok (hour, rest) =>
    if hh : hour < 24 then
      match rest with
      | [] => .error .incomplete
      | ':' :: rest =>
        match readPair rest with
        | .error f => .error f
        | .ok (minute, rest) =>
          if hm : minute < 60 then
            if rest.isEmpty then .ok ⟨⟨hour, hh⟩, ⟨minute, hm⟩⟩ else .error .trailing
          else .error .outOfRange
      | _ :: _ => .error .invalid
    else .error .outOfRange

def twoDigits (n : Nat) : List Char := zeroFill 2 (decimal n)

def TimeOfDay.write (t : TimeOfDay) : List Char :=
  twoDigits t.hour.val ++ ':' :: twoDigits t.minute.val

/-- What a wall clock shows: a date and the seconds since its midnight. -/
structure Moment where
  date : Date
  second : Fin 86400
deriving DecidableEq, Repr

def readExactly (width : Nat) (cs : List Char) : Option (Nat × List Char) :=
  let digits := cs.take width
  if digits.length = width then
    (foldDigits 10 digitValue? 0 digits).map fun n => (n, cs.drop width)
  else none

def Moment.at? (date : Date) (hour minute second : Nat) : Option Moment :=
  if h : hour < 24 ∧ minute < 60 ∧ second < 60 then
    some ⟨date, ⟨hour * 3600 + minute * 60 + second, by omega⟩⟩
  else none

def Moment.read (cs : List Char) : Option Moment := do
  let (year, rest) ← readExactly 4 cs
  let '-' :: rest := rest | none
  let (month, rest) ← readExactly 2 rest
  let '-' :: rest := rest | none
  let (day, rest) ← readExactly 2 rest
  let 'T' :: rest := rest | none
  let (hour, rest) ← readExactly 2 rest
  let ':' :: rest := rest | none
  let (minute, rest) ← readExactly 2 rest
  let ':' :: rest := rest | none
  let (second, []) ← readExactly 2 rest | none
  Moment.at? (← Date.ofParts? year month day) hour minute second

def Moment.ofString? (s : String) : Option Moment := Moment.read s.toList

end Recon.Time
