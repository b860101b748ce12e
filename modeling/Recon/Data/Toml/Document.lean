import Recon.Data.Toml.Scalar
import Recon.Data.Toml.Table

/-!
# Documents in TOML

`Toml.read` takes a whole text as a TOML document: lines with a dotted name and its value, and lines
with the header of the table that the following lines belong to.  Lists and inline tables may be
nested less than `maxDepth` deep.
-/

namespace Recon.Data.Toml

open Recon.Text

/-- The depth that nested values and dotted names must stay below. -/
def maxDepth : Nat := 80

def isBare (c : Char) : Bool := c.isAlphanum || c == '_' || c == '-'

def readName (cs : List Char) : Option (String × List Char) :=
  match cs with
  | '"' :: _ | '\'' :: _ => (readQuoted cs).map fun (s, rest) => (String.ofList s, rest)
  | _ =>
    let name := cs.takeWhile isBare
    if name.isEmpty then none else some (String.ofList name, cs.dropWhile isBare)

def readNames : Nat → List Char → Option (List String × List Char)
  | 0, _ => none
  | fuel + 1, cs =>
    match readName (skip cs) with
    | none => none
    | some (name, rest) =>
      match skip rest with
      | '.' :: rest => (readNames fuel rest).map fun (names, rest) => (name :: names, rest)
      | rest => some ([name], rest)

def readPath (cs : List Char) : Option (List String × String × List Char) :=
  match readNames (cs.length + 1) cs with
  | none => none
  | some (names, rest) =>
    if maxDepth ≤ names.length then none
    else names.getLast?.map fun last => (names.dropLast, last, rest)

/-- The text after a comment, which ends with the line or at a character that no comment may hold.
-/
def skipComment : List Char → List Char
  | '#' :: rest => rest.dropWhile isPlain
  | cs => cs

def skipLines : Nat → List Char → List Char
  | 0, cs => cs
  | fuel + 1, cs =>
    match skip cs with
    | '#' :: rest => skipLines fuel (skipComment ('#' :: rest))
    | cs =>
      match lineBreak? cs with
      | some rest => skipLines fuel rest
      | none => cs

def skipBlank (cs : List Char) : List Char := skipLines (cs.length + 1) cs

/-- The elements of a list up to its closing bracket, given a reader of values.  The last element
may have a comma behind it. -/
def readElements (value : List Char → Option (Value × List Char)) :
    Nat → List Char → Option (List Value × List Char)
  | 0, _ => none
  | fuel + 1, cs =>
    match skipBlank cs with
    | ']' :: rest => some ([], rest)
    | cs =>
      match value cs with
      | none => none
      | some (v, rest) =>
        match skipBlank rest with
        | ',' :: rest => (readElements value fuel rest).map fun (vs, rest) => (v :: vs, rest)
        | ']' :: rest => some ([v], rest)
        | _ => none

def readPair (value : List Char → Option (Value × List Char)) (cs : List Char) :
    Option ((List String × String × Value) × List Char) :=
  match readPath cs with
  | some (path, name, '=' :: rest) =>
    (value (skip rest)).map fun (v, rest) => ((path, name, v), rest)
  | _ => none

/-- The entries of an inline table up to its closing brace, at least one, added to a table. -/
def readEntries (value : List Char → Option (Value × List Char)) :
    Nat → Table → List Char → Option (Table × List Char)
  | 0, _, _ => none
  | fuel + 1, t, cs =>
    match readPair value cs with
    | none => none
    | some ((path, name, v), rest) =>
      match t.insert path name v with
      | none => none
      | some t =>
        match skip rest with
        | ',' :: rest => readEntries value fuel t rest
        | '}' :: rest => some (t, rest)
        | _ => none

def readValue : Nat → List Char → Option (Value × List Char)
  | depth, '[' :: rest =>
    match depth with
    | 0 => none
    | depth + 1 =>
      -- an element takes a character at least, so the length is fuel enough
      (readElements (readValue depth) (rest.length + 1) rest).map fun (vs, rest) =>
        (.array vs, rest)
  | depth, '{' :: rest =>
    match depth with
    | 0 => none
    | depth + 1 =>
      match skip rest with
      | '}' :: rest => some (.object [], rest)
      | rest =>
        (readEntries (readValue depth) (rest.length + 1) (.empty .explicit) rest).map
          fun (t, rest) => (t.toValue, rest)
  | _, cs => readScalar cs

/-- The text after the end of a line: blanks, perhaps a comment, and a line break or the end. -/
def endLine (cs : List Char) : Option (List Char) :=
  match skipComment (skip cs) with
  | [] => some []
  | cs => lineBreak? cs

def readHeader (cs : List Char) : Option (Header × List Char) :=
  match cs with
  | '[' :: rest =>
    match readPath rest with
    | some (path, name, ']' :: ']' :: rest) => some (⟨path, name, true⟩, rest)
    | _ => none
  | _ =>
    match readPath cs with
    | some (path, name, ']' :: rest) => some (⟨path, name, false⟩, rest)
    | _ => none

def readFrom : Nat → Draft → List Char → Option Table
  | 0, _, _ => none
  | fuel + 1, draft, cs =>
    match skipBlank cs with
    | [] => draft.close
    | '[' :: rest =>
      match readHeader rest with
      | none => none
      | some (header, rest) =>
        match draft.open? header, endLine rest with
        | some draft, some rest => readFrom fuel draft rest
        | _, _ => none
    | cs =>
      match readPair (readValue (maxDepth - 1)) cs with
      | none => none
      | some ((path, name, v), rest) =>
        match draft.insert path name v, endLine rest with
        | some draft, some rest => readFrom fuel draft rest
        | _, _ => none

/-- The record of a whole text.  A byte order mark may stand at its start. -/
def read (cs : List Char) : Option Value :=
  let body :=
    match cs with
    | '\ufeff' :: rest => rest
    | cs => cs
  (readFrom (body.length + 1) .start body).map Table.toValue

def ofString? (s : String) : Option Value := read s.toList

/-- A list may have more values than a record has fields, and an empty record or list is empty
content. -/
def convention : Convention where
  exact := false
  isUnit
    | .object [] => true
    | .array [] => true
    | _ => false

end Recon.Data.Toml
