import Recon.Data.Value
import Recon.Text.Split

/-!
# Documents in JSON

`Json.read` takes a whole text as one JSON value and `Json.write` writes a value in one line, fields
in their order, with only the escapes that JSON demands.  The reader's recursion is bounded by fuel,
which `Json.read` derives from the length of the text: no step is taken without a character for it.
-/

namespace Recon.Data.Json

open Recon.Text

def isSpace (c : Char) : Bool := c == ' ' || c == '\n' || c == '\t' || c == '\r'

def skip (cs : List Char) : List Char := cs.dropWhile isSpace

def shortEscape? (c : Char) : Option Char :=
  if c = '"' ∨ c = '\\' ∨ c = '/' then some c
  else if c = 'b' then some '\x08'
  else if c = 'f' then some '\x0c'
  else if c = 'n' then some '\n'
  else if c = 'r' then some '\r'
  else if c = 't' then some '\t'
  else none

/-- The units of a string up to its closing quote and the text after it.  A character is one unit,
an escape of four hexadecimal digits may be half of a surrogate pair. -/
def readUnits : List Char → Option (List Nat × List Char)
  | [] => none
  | '"' :: rest => some ([], rest)
  | '\\' :: 'u' :: a :: b :: c :: d :: rest =>
    match foldDigits 16 hexValue? 0 [a, b, c, d] with
    | none => none
    | some unit => (readUnits rest).map fun (units, rest) => (unit :: units, rest)
  | '\\' :: c :: rest =>
    match shortEscape? c with
    | none => none
    | some c => (readUnits rest).map fun (units, rest) => (c.toNat :: units, rest)
  | c :: rest =>
    if c.toNat < 0x20 ∨ c = '\\' then none
    else (readUnits rest).map fun (units, rest) => (c.toNat :: units, rest)

/-- The characters that units stand for, `none` if half of a surrogate pair stands alone. -/
def characters : List Nat → Option (List Char)
  | [] => some []
  | [u] => if 0xD800 ≤ u ∧ u < 0xE000 then none else some [Char.ofNat u]
  | u :: v :: us =>
    if 0xD800 ≤ u ∧ u < 0xDC00 then
      if 0xDC00 ≤ v ∧ v < 0xE000 then
        (characters us).map fun cs =>
          Char.ofNat (0x10000 + (u - 0xD800) * 0x400 + (v - 0xDC00)) :: cs
      else none
    else if 0xDC00 ≤ u ∧ u < 0xE000 then none
    else (characters (v :: us)).map fun cs => Char.ofNat u :: cs

/-- A string after its opening quote: its text, if its units stand for one, and what follows. -/
def readString (cs : List Char) : Option (Option String × List Char) :=
  (readUnits cs).map fun (units, rest) =>
    ((characters units).map String.ofList, rest)

def readDigitRun : List Char → List Nat × List Char
  | [] => ([], [])
  | c :: cs =>
    match digitValue? c with
    | none => ([], c :: cs)
    | some d =>
      let (ds, rest) := readDigitRun cs
      (d :: ds, rest)

def ofDigits (ds : List Nat) : Nat := ds.foldl (fun acc d => acc * 10 + d) 0

/-- The whole part of a number: a zero alone, or digits of which the first is no zero. -/
def readWhole : List Char → Option (Nat × List Char)
  | '0' :: rest => some (0, rest)
  | cs =>
    match readDigitRun cs with
    | ([], _) => none
    | (ds, rest) => some (ofDigits ds, rest)

def readFraction : List Char → Option (List Nat × List Char)
  | '.' :: rest =>
    match readDigitRun rest with
    | ([], _) => none
    | (ds, rest) => some (ds, rest)
  | cs => some ([], cs)

def readExponentDigits (negative : Bool) (cs : List Char) : Option (Option Int × List Char) :=
  match readDigitRun cs with
  | ([], _) => none
  | (ds, rest) => some (some (if negative then -(ofDigits ds : Int) else ofDigits ds), rest)

def readExponent : List Char → Option (Option Int × List Char)
  | c :: rest =>
    if c = 'e' ∨ c = 'E' then
      match rest with
      | '+' :: rest => readExponentDigits false rest
      | '-' :: rest => readExponentDigits true rest
      | rest => readExponentDigits false rest
    else some (none, c :: rest)
  | [] => some (none, [])

def readNumeral (cs : List Char) : Option (Numeral × List Char) :=
  let (negative, cs) :=
    match cs with
    | '-' :: rest => (true, rest)
    | cs => (false, cs)
  match readWhole cs with
  | none => none
  | some (whole, cs) =>
    match readFraction cs with
    | none => none
    | some (fraction, cs) =>
      match readExponent cs with
      | none => none
      | some (exponent, cs) => some (⟨negative, whole, fraction, exponent⟩, cs)

mutual

def readValue : Nat → List Char → Option (Value × List Char)
  | 0, _ => none
  | fuel + 1, cs =>
    match skip cs with
    | 'n' :: 'u' :: 'l' :: 'l' :: rest => some (.null, rest)
    | 't' :: 'r' :: 'u' :: 'e' :: rest => some (.bool true, rest)
    | 'f' :: 'a' :: 'l' :: 's' :: 'e' :: rest => some (.bool false, rest)
    | '"' :: rest => (readString rest).map fun (s, rest) => (.string s, rest)
    | '[' :: rest =>
      match skip rest with
      -- the reader of elements expects at least one
      | ']' :: rest => some (.array [], rest)
      | rest => (readElements fuel rest).map fun (xs, rest) => (.array xs, rest)
    | '{' :: rest =>
      match skip rest with
      | '}' :: rest => some (.object [], rest)
      | rest => (readFields fuel rest).map fun (fs, rest) => (.object fs, rest)
    | rest => (readNumeral rest).map fun (n, rest) => (.number n, rest)

def readElements : Nat → List Char → Option (List Value × List Char)
  | 0, _ => none
  | fuel + 1, cs =>
    match readValue fuel cs with
    | none => none
    | some (x, rest) =>
      match skip rest with
      | ',' :: rest => (readElements fuel rest).map fun (xs, rest) => (x :: xs, rest)
      | ']' :: rest => some ([x], rest)
      | _ => none

def readFields : Nat → List Char → Option (List (Option String × Value) × List Char)
  | 0, _ => none
  | fuel + 1, cs =>
    match skip cs with
    | '"' :: rest =>
      match readString rest with
      | none => none
      | some (name, rest) =>
        match skip rest with
        | ':' :: rest =>
          match readValue fuel rest with
          | none => none
          | some (x, rest) =>
            match skip rest with
            | ',' :: rest => (readFields fuel rest).map fun (fs, rest) => ((name, x) :: fs, rest)
            | '}' :: rest => some ([(name, x)], rest)
            | _ => none
        | _ => none
    | _ => none

end

def read (cs : List Char) : Option Value :=
  match readValue (2 * cs.length + 2) cs with
  | some (v, rest) => if (skip rest).isEmpty then some v else none
  | none => none

def ofString? (s : String) : Option Value := read s.toList

def escape (c : Char) : List Char :=
  if c = '"' then ['\\', '"']
  else if c = '\\' then ['\\', '\\']
  else if c = '\x08' then ['\\', 'b']
  else if c = '\x0c' then ['\\', 'f']
  else if c = '\n' then ['\\', 'n']
  else if c = '\r' then ['\\', 'r']
  else if c = '\t' then ['\\', 't']
  else if c.toNat < 0x20 then '\\' :: 'u' :: zeroFill 4 (hexadecimal c.toNat)
  else [c]

def quote (s : String) : List Char := '"' :: s.toList.flatMap escape ++ ['"']

def writeNumeral (n : Numeral) : List Char :=
  (if n.negative then ['-'] else []) ++ decimal n.whole ++
    (if n.fraction.isEmpty then [] else '.' :: n.fraction.flatMap decimal) ++
    (match n.exponent with
    | none => []
    | some (.ofNat e) => 'e' :: decimal e
    | some (.negSucc e) => 'e' :: '-' :: decimal (e + 1))

/-- A string, which stands empty when no text is meant. -/
def writeString (s : Option String) : List Char := quote (s.getD "")

mutual

def write : Value → List Char
  | .null | .special => "null".toList
  | .bool true => "true".toList
  | .bool false => "false".toList
  | .number n => writeNumeral n
  | .string s => writeString s
  | .array xs => '[' :: join [','] (writeElements xs) ++ [']']
  | .object fs => '{' :: join [','] (writeFields fs) ++ ['}']

def writeElements : List Value → List (List Char)
  | [] => []
  | x :: xs => write x :: writeElements xs

def writeFields : List (Option String × Value) → List (List Char)
  | [] => []
  | (name, x) :: fs => (writeString name ++ ':' :: write x) :: writeFields fs

end

def newline (depth : Nat) : List Char := '\n' :: List.replicate (2 * depth) ' '

mutual

def writePretty (depth : Nat) : Value → List Char
  | .array (x :: xs) =>
    '[' :: newline (depth + 1) ++
      join (',' :: newline (depth + 1)) (writeElementsPretty (depth + 1) (x :: xs)) ++
      newline depth ++ [']']
  | .object (f :: fs) =>
    '{' :: newline (depth + 1) ++
      join (',' :: newline (depth + 1)) (writeFieldsPretty (depth + 1) (f :: fs)) ++
      newline depth ++ ['}']
  | .array [] => ['[', ']']
  | .object [] => ['{', '}']
  | .null | .special => "null".toList
  | .bool true => "true".toList
  | .bool false => "false".toList
  | .number n => writeNumeral n
  | .string s => writeString s

def writeElementsPretty (depth : Nat) : List Value → List (List Char)
  | [] => []
  | x :: xs => writePretty depth x :: writeElementsPretty depth xs

def writeFieldsPretty (depth : Nat) : List (Option String × Value) → List (List Char)
  | [] => []
  | (name, x) :: fs =>
    (writeString name ++ ':' :: ' ' :: writePretty depth x) :: writeFieldsPretty depth fs

end

def toString (v : Value) : String := String.ofList (write v)

def toPretty (v : Value) : String := String.ofList (writePretty 0 v)

/-- A list may not have more values than a record has fields, and null is empty content. -/
def convention : Convention where
  exact := true
  isUnit
    | .null => true
    | _ => false

end Recon.Data.Json
