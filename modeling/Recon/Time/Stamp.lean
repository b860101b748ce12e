import Recon.Time.Clock

/-!
# Points in time

A `Stamp` is a point in time by the universal clock, down to the nanosecond; a leap second has
nanoseconds beyond a whole second.  The reader takes the common internet form and its looser
spellings, with any offset below a day.
-/

namespace Recon.Time

open Recon.Text

structure Stamp where
  date : Date
  second : Fin 86400
  nanos : Nat
deriving DecidableEq, Repr

def expect (c : Char) : List Char → Option (List Char)
  | [] => none
  | d :: rest => if d = c then some rest else none

/-- The digits that a text starts with, at most so many, as a number, and the text after them. -/
def readUpTo (limit : Nat) (cs : List Char) : Option (Nat × List Char) :=
  let digits := (cs.take limit).takeWhile fun c => (digitValue? c).isSome
  if digits.isEmpty then none
  else (foldDigits 10 digitValue? 0 digits).map fun n => (n, cs.drop digits.length)

/-- A number of one or two digits within bounds, with blanks before it, and the text after it and
the blanks behind it. -/
def readPart (lo hi : Nat) (cs : List Char) : Option (Nat × List Char) :=
  (readUpTo 2 (cs.dropWhile isBlank)).bind fun (n, rest) =>
    if lo ≤ n ∧ n ≤ hi then some (n, rest) else none

/-- A year: up to four digits, or a sign and any number of digits. -/
def readYear (cs : List Char) : Option (Int × List Char) :=
  match cs.dropWhile isBlank with
  | '-' :: rest => (readUpTo rest.length rest).map fun (n, rest) => (-(n : Int), rest)
  | '+' :: rest => (readUpTo rest.length rest).map fun (n, rest) => ((n : Int), rest)
  | cs => (readUpTo 4 cs).map fun (n, rest) => ((n : Int), rest)

def yearBounds : Int × Int := (-262143, 262142)

/-- The fraction of a second in nanoseconds, digits beyond the ninth ignored. -/
def readNanos (cs : List Char) : Option (Nat × List Char) :=
  match cs with
  | '.' :: rest =>
    let digits := rest.takeWhile fun c => (digitValue? c).isSome
    if digits.isEmpty then none
    else
      let nine := digits.take 9 ++ List.replicate (9 - digits.length) '0'
      (foldDigits 10 digitValue? 0 nine).map fun n => (n, rest.drop digits.length)
  | cs => some (0, cs)

/-- An offset in minutes and the text after it: a letter for none, or a sign, two digits of hours,
and two of minutes with colons or blanks between them. -/
def readOffset (cs : List Char) : Option (Int × List Char) :=
  match cs with
  | 'Z' :: rest | 'z' :: rest => some (0, rest)
  | sign :: rest =>
    if (cs.take 3).map Char.toUpper = ['U', 'T', 'C'] then some (0, cs.drop 3)
    else if sign ∉ ['+', '-', '\u2212'] then none
    else do
      let (hours, rest) ← readExactly 2 rest
      let (minutes, rest) ← readExactly 2 (rest.dropWhile fun c => c == ':' || isBlank c)
      if 60 ≤ minutes ∨ 24 ≤ hours then none
      else
        let total : Int := hours * 60 + minutes
        some (if sign = '+' then total else -total, rest)
  | [] => none

/-- The point in time at a second of a date counted from its midnight, which may lie on the day
before or after. -/
def Stamp.shifted (date : Date) (second : Int) (nanos : Nat) : Stamp :=
  let day := second / 86400
  ⟨if day < 0 then date.prev else if 0 < day then date.next else date,
    ⟨(second % 86400).toNat, by omega⟩, nanos⟩

def Stamp.read (cs : List Char) : Option Stamp := do
  let (year, rest) ← readYear cs
  let rest ← expect '-' (rest.dropWhile isBlank)
  let (month, rest) ← readPart 1 12 rest
  let rest ← expect '-' (rest.dropWhile isBlank)
  let (day, rest) ← readPart 1 31 rest
  let date ← Date.ofParts? year month day
  -- what stands between date and time is looked at in the end
  let separator :: rest := rest | none
  let (hour, rest) ← readPart 0 23 rest
  let rest ← expect ':' (rest.dropWhile isBlank)
  let (minute, rest) ← readPart 0 59 rest
  let rest ← expect ':' (rest.dropWhile isBlank)
  let (second, rest) ← readPart 0 60 rest
  let (nanos, rest) ← readNanos rest
  let (offset, rest) ← readOffset (rest.dropWhile isBlank)
  if !rest.all isBlank ∨ separator ∉ ['t', 'T', ' '] ∨
      year < yearBounds.1 ∨ yearBounds.2 < year then none
  else
    -- a leap second is kept as the second before it with a second of nanoseconds more
    let leap := second = 60
    let seconds : Int := hour * 3600 + minute * 60 + (if leap then 59 else second) - offset * 60
    return .shifted date seconds (if leap then nanos + 1000000000 else nanos)

def writeYear (year : Int) : List Char :=
  if 0 ≤ year ∧ year ≤ 9999 then zeroFill 4 (decimal year.toNat)
  else (if year < 0 then '-' else '+') :: zeroFill 4 (decimal year.natAbs)

/-- The fraction of a second with no, three, six or nine digits, as few as are exact. -/
def writeNanos (nanos : Nat) : List Char :=
  if nanos = 0 then []
  else if nanos % 1000000 = 0 then '.' :: zeroFill 3 (decimal (nanos / 1000000))
  else if nanos % 1000 = 0 then '.' :: zeroFill 6 (decimal (nanos / 1000))
  else '.' :: zeroFill 9 (decimal nanos)

/-- A point in time in the internet form.  A leap second is written as the sixtieth. -/
def Stamp.write (s : Stamp) : List Char :=
  let second := s.second.val
  let leap := if 1000000000 ≤ s.nanos then 1 else 0
  writeYear s.date.year ++ '-' :: twoDigits s.date.month ++ '-' :: twoDigits s.date.day ++
    'T' :: twoDigits (second / 3600) ++ ':' :: twoDigits (second / 60 % 60) ++
    ':' :: twoDigits (second % 60 + leap) ++ writeNanos (s.nanos % 1000000000) ++ ['Z']

end Recon.Time
