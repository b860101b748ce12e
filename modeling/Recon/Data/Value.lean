import Recon.Text.Digits

/-!
# Document values

The tree that a document in some notation stands for, and the questions a reader of settings asks of
it.  Names of a record are looked up one by one: a name that is wanted may stand once, other names
are passed over.  A record may also be written as the list of its values in a fixed order.
-/

namespace Recon.Data

/-- A number as it is written: sign, whole part, digits after the point, and exponent. -/
structure Numeral where
  negative : Bool
  whole : Nat
  fraction : List Nat
  exponent : Option Int
deriving DecidableEq, Repr

def Numeral.ofNat (n : Nat) : Numeral := ⟨false, n, [], none⟩

def Numeral.nat? (n : Numeral) : Option Nat :=
  if n.negative || !n.fraction.isEmpty || n.exponent.isSome then none else some n.whole

/-- The value of a document.  The text of a string is missing when its escapes leave half of a
surrogate pair alone, so that no text is meant. -/
inductive Value where
  | null
  | bool (b : Bool)
  | number (n : Numeral)
  | special
  | string (s : Option String)
  | array (xs : List Value)
  | object (fields : List (Option String × Value))

def Value.text (s : String) : Value := .string (some s)

def Value.nat (n : Nat) : Value := .number (.ofNat n)

def Value.record (fields : List (String × Value)) : Value :=
  .object (fields.map fun (k, v) => (some k, v))

def Value.text? : Value → Option String
  | .string s => s
  | _ => none

def Value.bool? : Value → Option Bool
  | .bool b => some b
  | _ => none

def Value.nat? (limit : Nat) : Value → Option Nat
  | .number n => n.nat?.bind fun n => if n ≤ limit then some n else none
  | _ => none

/-- What a value that may be missing is: nothing for null, and what `read` makes of any other. -/
def Value.optional {α : Type} (read : Value → Option α) : Value → Option (Option α)
  | .null => some none
  | v => (read v).map some

/-- The conventions in which notations differ when they are read as records and choices. -/
structure Convention where
  /-- Whether a list may have no more values than the record has fields. -/
  exact : Bool
  isUnit : Value → Bool

def namedFields : List (Option String × Value) → Option (List (String × Value))
  | [] => some []
  | (some name, v) :: fields => (namedFields fields).map ((name, v) :: ·)
  | (none, _) :: _ => none

/-- The fields of a record as a look-up table.  A wanted name that stands twice and a name that is
no text are refused. -/
def Value.fields? (style : Convention) (names : List String) :
    Value → Option (List (String × Value))
  | .object fields =>
    match namedFields fields with
    | some fields =>
      if names.all fun name => (fields.filter fun f => f.1 == name).length ≤ 1 then some fields
      else none
    | none => none
  | .array xs =>
    if style.exact && names.length < xs.length then none else some (names.zip xs)
  | _ => none

def Value.isComplete (names : List String) : Value → Bool
  | .array xs => names.length ≤ xs.length
  | _ => true

/-- The name of a choice: a text, or a record whose only field has empty content. -/
def Value.choice? (style : Convention) : Value → Option String
  | .string s => s
  | .object [(k, v)] => if style.isUnit v then k else none
  | _ => none

def field {α : Type} (fields : List (String × Value)) (name : String) (default : α)
    (read : Value → Option α) : Option α :=
  match fields.find? fun f => f.1 == name with
  | some (_, v) => read v
  | none => some default

def required {α : Type} (fields : List (String × Value)) (name : String)
    (read : Value → Option α) : Option α :=
  match fields.find? fun f => f.1 == name with
  | some (_, v) => read v
  | none => none

end Recon.Data
