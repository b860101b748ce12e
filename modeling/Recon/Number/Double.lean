import Recon.Data.Value

/-!
# Doubles in decimal

Reading a numeral as a double, writing a double with the fewest digits that identify it, and
rounding a double to fixed places.  The reader keeps as many leading digits as fit into sixty-four
bits and scales them by powers of ten, so its last bit may differ from the nearest double.  The
writers work on the exact value of the double.
-/

namespace Recon.Double

open Recon.Data

/-- Adds decimal digits to a number while it fits into sixty-four bits.  Gives the number, how many
digits it took, and how many were left. -/
def takeDigits (acc : Nat) (taken : Nat) : List Nat → Nat × Nat × Nat
  | [] => (acc, taken, 0)
  | d :: ds =>
    if acc * 10 + d < UInt64.size then takeDigits (acc * 10 + d) (taken + 1) ds
    else (acc, taken, ds.length + 1)

/-- Ten to a power of at most 308. -/
def powerOfTen (e : Nat) : Float := Float.ofScientific 1 false e

/-- A number times a power of ten, `none` if it is too large.  A large negative power is taken in
steps. -/
def scale (f : Float) (exponent : Int) : Nat → Option Float
  | 0 => none
  | fuel + 1 =>
    if exponent.natAbs ≤ 308 then
      if 0 ≤ exponent then
        let g := f * powerOfTen exponent.toNat
        if g.isInf then none else some g
      else some (f / powerOfTen exponent.natAbs)
    else if f == 0.0 then some f
    else if 0 ≤ exponent then none
    else scale (f / powerOfTen 308) (exponent + 308) fuel

def isBeyond (e : Int) : Bool := 2147483648 ≤ e.natAbs

def ofNumeral? (n : Numeral) : Option Float :=
  -- a digit that does not fit into the whole part only scales it
  let (whole, _, spare) := takeDigits 0 0 ((Nat.toDigits 10 n.whole).filterMap Text.digitValue?)
  let (significand, places, _) := takeDigits whole 0 n.fraction
  let signed := fun (f : Float) => if n.negative then -f else f
  let exponent := n.exponent.getD 0
  if isBeyond exponent then
    if significand ≠ 0 ∧ 0 < exponent then none else some (signed 0.0)
  else
    let total := exponent + spare - places
    (scale (UInt64.ofNat significand).toFloat total 5).map signed

structure Binary where
  mantissa : Nat
  exponent : Int
  /-- Whether the next smaller double is only half as far away as the next larger one. -/
  atPower : Bool

def magnitude (f : Float) : Binary :=
  let bits := f.toBits.toNat % Nat.pow 2 63
  let field : Nat := bits / Nat.pow 2 52
  let low : Nat := bits % Nat.pow 2 52
  if field = 0 then ⟨low, -1074, false⟩
  else ⟨Nat.pow 2 52 + low, (field : Int) - 1075, low == 0 && field != 1⟩

def isNegative (f : Float) : Bool := f.toBits.toNat / Nat.pow 2 63 == 1

def ratio (n : Nat) (e : Int) : Nat × Nat :=
  if 0 ≤ e then (n * Nat.pow 2 e.toNat, 1) else (n, Nat.pow 2 e.natAbs)

/-- The least number of places by which a fraction has to be shifted up to reach one. -/
def shiftUp (num den : Nat) : Nat → Nat
  | 0 => 0
  | fuel + 1 => if den ≤ num then 0 else shiftUp (num * 10) den fuel + 1

def leadingPower (num den : Nat) : Int :=
  if den ≤ num then ((Nat.toDigits 10 (num / den)).length : Int) - 1
  else -(shiftUp num den 400 : Int)

/-- The multiple of a power of ten, among the two around a double, that is nearest to it and is read
as it.  A tie goes to the even one. -/
def onGrid (b : Binary) (power : Int) : Option Nat :=
  -- in quarters of the last place: the double and the bounds of what is read as it
  let (num, den) := ratio (4 * b.mantissa) (b.exponent - 2)
  let (hi, _) := ratio (4 * b.mantissa + 2) (b.exponent - 2)
  let (lo, _) := ratio (4 * b.mantissa - if b.atPower then 1 else 2) (b.exponent - 2)
  let (unit, part) :=
    if 0 ≤ power then (Nat.pow 10 power.toNat, 1) else (1, Nat.pow 10 power.natAbs)
  -- a bound itself is read as the double with the even mantissa
  let even := b.mantissa % 2 == 0
  let reads := fun (d : Nat) =>
    let x := d * unit * den
    (lo * part < x && x < hi * part) || (even && (x == lo * part || x == hi * part))
  let below := num * part / (unit * den)
  let above := below + 1
  let gapBelow := num * part - below * unit * den
  let gapAbove := above * unit * den - num * part
  let first :=
    if gapBelow < gapAbove ∨ (gapBelow = gapAbove ∧ below % 2 = 0) then below else above
  let second := if first = below then above else below
  if reads first then some first else if reads second then some second else none

def search (b : Binary) (top : Int) : Nat → Nat → Nat × Int
  | _, 0 => (b.mantissa, 0)
  | digits, fuel + 1 =>
    let power := top - digits + 1
    match onGrid b power with
    | some d => (d, power)
    | none => search b top (digits + 1) fuel

/-- The decimal digits of a number without the zeros at its end, and how many those were. -/
def trimZeros (n : Nat) : List Nat × Nat :=
  let ds := (Nat.toDigits 10 n).filterMap Text.digitValue?
  let zeros := (ds.reverse.takeWhile (· = 0)).length
  (ds.take (ds.length - zeros), zeros)

def ofDigits (ds : List Nat) : Nat := ds.foldl (fun acc d => acc * 10 + d) 0

/-- Digits and a power of ten as a numeral: with a point where it comes after at most sixteen digits
or at most four zeros, and with an exponent otherwise. -/
def toNumeral (negative : Bool) (ds : List Nat) (power : Int) : Numeral :=
  let point := (ds.length : Int) + power
  if 0 ≤ power ∧ point ≤ 16 then ⟨negative, ofDigits ds * Nat.pow 10 power.toNat, [0], none⟩
  else if 0 < point ∧ point ≤ 16 then
    ⟨negative, ofDigits (ds.take point.toNat), ds.drop point.toNat, none⟩
  else if -5 < point ∧ point ≤ 0 then
    ⟨negative, 0, List.replicate point.natAbs 0 ++ ds, none⟩
  else ⟨negative, ofDigits (ds.take 1), ds.drop 1, some (point - 1)⟩

def shortest (f : Float) : Numeral :=
  let b := magnitude f
  if b.mantissa = 0 then ⟨isNegative f, 0, [0], none⟩
  else
    let (num, den) := ratio b.mantissa b.exponent
    let (n, power) := search b (leadingPower num den) 1 17
    let (ds, zeros) := trimZeros n
    toNumeral (isNegative f) ds (power + zeros)

/-- The quotient of two numbers rounded to a whole number, a half to the even neighbour. -/
def roundDiv (num den : Nat) : Nat :=
  let q := num / den
  let r := num % den
  if den < 2 * r ∨ (2 * r = den ∧ q % 2 = 1) then q + 1 else q

def scaled (f : Float) (parts : Nat) : Nat :=
  let b := magnitude f
  let (num, den) := ratio b.mantissa b.exponent
  roundDiv (num * parts) den

def hundredths (f : Float) : Nat := scaled f 100

end Recon.Double
