import Recon.Data.Value
import Recon.Number.Double

/-!
# Values in canonical form

A document that is kept whole, rather than read as a record, is kept in a canonical form: every
string has a text, a number is a whole number of sixty-four bits or a double, and the fields of a
record are sorted by name, the last of several fields with one name standing for all.
-/

namespace Recon.Data

/-- A number as a whole number of sixty-four bits or as a double, `none` if it is too large. -/
def Numeral.canonical? (n : Numeral) : Option Numeral :=
  let isWhole := n.fraction.isEmpty && n.exponent.isNone &&
    if n.negative then 0 < n.whole && n.whole ≤ Nat.pow 2 63 else n.whole < UInt64.size
  if isWhole then some n else (Double.ofNumeral? n).map Double.shortest

def putSorted (name : String) (v : Value) :
    List (Option String × Value) → List (Option String × Value)
  | [] => [(some name, v)]
  | (some other, w) :: fields =>
    if name = other then (some name, v) :: fields
    else if name < other then (some name, v) :: (some other, w) :: fields
    else (some other, w) :: putSorted name v fields
  | (none, _) :: fields => putSorted name v fields

mutual

/-- A value in canonical form, `none` if it has none or is nested deeper than the limit. -/
def Value.canonical? (limit : Nat) : Value → Option Value
  | .null => some .null
  | .bool b => some (.bool b)
  | .number n => n.canonical?.map .number
  | .special => none
  | .string s => s.map .text
  | .array xs => if limit = 0 then none else (canonicalElements? (limit - 1) xs).map .array
  | .object fs => if limit = 0 then none else (canonicalFields? (limit - 1) [] fs).map .object

def canonicalElements? (limit : Nat) : List Value → Option (List Value)
  | [] => some []
  | x :: xs =>
    match x.canonical? limit, canonicalElements? limit xs with
    | some x, some xs => some (x :: xs)
    | _, _ => none

def canonicalFields? (limit : Nat) (done : List (Option String × Value)) :
    List (Option String × Value) → Option (List (Option String × Value))
  | [] => some done
  | (name, x) :: fs =>
    match name, x.canonical? limit with
    | some name, some x => canonicalFields? limit (putSorted name x done) fs
    | _, _ => none

end

/-- The deepest nesting of a document that is kept whole. -/
def maxNesting : Nat := 127

end Recon.Data
