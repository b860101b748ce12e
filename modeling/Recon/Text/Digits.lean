/-!
# Unsigned numbers as text

Reading and writing natural numbers in decimal, and reading hexadecimal groups.  A number may be
written with one leading plus sign and with leading zeros; nothing else is allowed around its
digits.
-/

namespace Recon.Text

inductive NumberFault where
  | empty
  | invalidDigit
  | tooLarge
deriving DecidableEq, Repr

def NumberFault.message : NumberFault → String
  | .empty => "cannot parse integer from empty string"
  | .invalidDigit => "invalid digit found in string"
  | .tooLarge => "number too large to fit in target type"

def digitValue? (c : Char) : Option Nat :=
  if '0' ≤ c ∧ c ≤ '9' then some (c.toNat - '0'.toNat) else none

def hexValue? (c : Char) : Option Nat :=
  if '0' ≤ c ∧ c ≤ '9' then some (c.toNat - '0'.toNat)
  else if 'a' ≤ c ∧ c ≤ 'f' then some (c.toNat - 'a'.toNat + 10)
  else if 'A' ≤ c ∧ c ≤ 'F' then some (c.toNat - 'A'.toNat + 10)
  else none

/-- The digits after a number read so far, faulting at the first digit that is none or that takes
the number past the limit. -/
def readDigits (limit : Nat) (acc : Nat) : List Char → Except NumberFault Nat
  | [] => .ok acc
  | c :: cs =>
    match digitValue? c with
    | none => .error .invalidDigit
    | some d =>
      if acc * 10 + d ≤ limit then readDigits limit (acc * 10 + d) cs else .error .tooLarge

/-- An unsigned number of at most `limit`: an optional plus sign and at least one digit. -/
def readNumber (limit : Nat) : List Char → Except NumberFault Nat
  | [] => .error .empty
  | ['+'] => .error .invalidDigit
  | '+' :: cs => readDigits limit 0 cs
  | cs => readDigits limit 0 cs

/-- The value of a run of digits in some base, `none` when one of them is no digit of it. -/
def foldDigits (base : Nat) (value? : Char → Option Nat) (acc : Nat) : List Char → Option Nat
  | [] => some acc
  | c :: cs =>
    match value? c with
    | none => none
    | some d => foldDigits base value? (acc * base + d) cs

def decimal (n : Nat) : List Char := Nat.toDigits 10 n

def hexadecimal (n : Nat) : List Char := Nat.toDigits 16 n

def zeroFill (width : Nat) (cs : List Char) : List Char :=
  List.replicate (width - cs.length) '0' ++ cs

end Recon.Text
