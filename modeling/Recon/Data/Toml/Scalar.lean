import Recon.Data.Value
import Recon.Time.Clock

/-!
# Scalars of TOML

Strings in their four forms, numbers, truth values, dates and times.  A scalar other than a string
is a token up to the next blank, comment, separator or closing bracket, and the whole token has to
have one of the forms.
-/

namespace Recon.Data.Toml

open Recon.Text Recon.Time

def isSpace (c : Char) : Bool := c == ' ' || c == '\t'

def skip (cs : List Char) : List Char := cs.dropWhile isSpace

def lineBreak? : List Char → Option (List Char)
  | '\n' :: rest => some rest
  | '\r' :: '\n' :: rest => some rest
  | _ => none

def isPlain (c : Char) : Bool := c == '\t' || (0x20 ≤ c.toNat && c.toNat != 0x7F)

/-- The character whose code these hexadecimal digits give, unless it is half of a surrogate pair.
-/
def hexCharacter? (digits : List Char) : Option Char :=
  (foldDigits 16 hexValue? 0 digits).bind fun n =>
    if n < 0xD800 ∨ (0xE000 ≤ n ∧ n < 0x110000) then some (Char.ofNat n) else none

/-- The character that an escape stands for and the text after it, given the text after the
backslash. -/
def readEscape : List Char → Option (Char × List Char)
  | 'b' :: rest => some ('\x08', rest)
  | 't' :: rest => some ('\t', rest)
  | 'n' :: rest => some ('\n', rest)
  | 'f' :: rest => some ('\x0c', rest)
  | 'r' :: rest => some ('\r', rest)
  | '"' :: rest => some ('"', rest)
  | '\\' :: rest => some ('\\', rest)
  | 'u' :: rest =>
    if rest.length < 4 then none else (hexCharacter? (rest.take 4)).map fun c => (c, rest.drop 4)
  | 'U' :: rest =>
    if rest.length < 8 then none else (hexCharacter? (rest.take 8)).map fun c => (c, rest.drop 8)
  | _ => none

/-- A string of one line up to its closing quote and the text after it.  Only double quotes have
escapes. -/
def readLine (quote : Char) : Nat → List Char → Option (List Char × List Char)
  | 0, _ => none
  | _ + 1, [] => none
  | fuel + 1, c :: rest =>
    if c = quote then some ([], rest)
    else if c = '\\' ∧ quote = '"' then
      match readEscape rest with
      | none => none
      | some (c, rest) => (readLine quote fuel rest).map fun (cs, rest) => (c :: cs, rest)
    else if isPlain c then (readLine quote fuel rest).map fun (cs, rest) => (c :: cs, rest)
    else none

def skipBreaks : List Char → List Char
  | '\r' :: '\n' :: rest => skipBreaks rest
  | c :: rest => if isSpace c || c == '\n' then skipBreaks rest else c :: rest
  | [] => []

/-- The text after an escaped line break: the blanks behind the backslash, the break, and every
blank and break that follows. -/
def skipBreak (cs : List Char) : Option (List Char) := (lineBreak? (skip cs)).map skipBreaks

/-- A string of several lines up to its three closing quotes and the text after it.  One or two
quotes may stand before the closing ones. -/
def readLines (quote : Char) : Nat → List Char → Option (List Char × List Char)
  | 0, _ => none
  | _ + 1, [] => none
  | fuel + 1, c :: rest =>
    if c = quote then
      let run := ((c :: rest).takeWhile (· = quote)).length
      let after := (c :: rest).dropWhile (· = quote)
      -- fewer than three quotes do not close the string
      if 3 ≤ run then
        if run ≤ 5 then some (List.replicate (run - 3) quote, after) else none
      else
        (readLines quote fuel after).map fun (cs, rest) => (List.replicate run quote ++ cs, rest)
    else if c = '\\' ∧ quote = '"' then
      match skipBreak rest with
      | some rest => readLines quote fuel rest
      | none =>
        match readEscape rest with
        | none => none
        | some (c, rest) => (readLines quote fuel rest).map fun (cs, rest) => (c :: cs, rest)
    else
      match lineBreak? (c :: rest) with
      | some rest => (readLines quote fuel rest).map fun (cs, rest) => ('\n' :: cs, rest)
      | none =>
        if isPlain c then (readLines quote fuel rest).map fun (cs, rest) => (c :: cs, rest)
        else none

/-- A string of several lines after its opening quotes; a line break right behind them is no part of
it. -/
def readBlock (quote : Char) (cs : List Char) : Option (List Char × List Char) :=
  let body := (lineBreak? cs).getD cs
  readLines quote (body.length + 1) body

def readQuoted : List Char → Option (List Char × List Char)
  | '"' :: rest => readLine '"' (rest.length + 1) rest
  | '\'' :: rest => readLine '\'' (rest.length + 1) rest
  | _ => none

def readString : List Char → Option (List Char × List Char)
  | '"' :: '"' :: '"' :: rest => readBlock '"' rest
  | '\'' :: '\'' :: '\'' :: rest => readBlock '\'' rest
  | cs => readQuoted cs

/-- The digits of a number, between which single underscores may stand. -/
def groupedDigits (value? : Char → Option Nat) : List Char → Option (List Nat)
  | [] => none
  | [c] => (value? c).map fun d => [d]
  | c :: '_' :: cs =>
    match value? c, groupedDigits value? cs with
    | some d, some ds => some (d :: ds)
    | _, _ => none
  | c :: cs =>
    match value? c, groupedDigits value? cs with
    | some d, some ds => some (d :: ds)
    | _, _ => none

def ofDigits (base : Nat) (ds : List Nat) : Nat := ds.foldl (fun acc d => acc * base + d) 0

def octalValue? (c : Char) : Option Nat :=
  (digitValue? c).bind fun d => if d < 8 then some d else none

def binaryValue? (c : Char) : Option Nat :=
  (digitValue? c).bind fun d => if d < 2 then some d else none

def splitSign : List Char → Bool × List Char
  | '-' :: rest => (true, rest)
  | '+' :: rest => (false, rest)
  | cs => (false, cs)

/-- A decimal number without sign, which starts with a zero only if it is zero. -/
def decimal? (cs : List Char) : Option Nat :=
  match cs with
  | ['0'] => some 0
  | '0' :: _ => none
  | _ => (groupedDigits digitValue? cs).map (ofDigits 10)

/-- A whole number, which has to fit into sixty-four bits with its sign. -/
def integer? (cs : List Char) : Option Numeral :=
  let unsigned := fun (n : Option Nat) =>
    n.bind fun n => if n < Nat.pow 2 63 then some (Numeral.ofNat n) else none
  match cs with
  | '0' :: 'x' :: rest => unsigned ((groupedDigits hexValue? rest).map (ofDigits 16))
  | '0' :: 'o' :: rest => unsigned ((groupedDigits octalValue? rest).map (ofDigits 8))
  | '0' :: 'b' :: rest => unsigned ((groupedDigits binaryValue? rest).map (ofDigits 2))
  | _ =>
    let (negative, rest) := splitSign cs
    (decimal? rest).bind fun n =>
      if negative && n != 0 then
        if n ≤ Nat.pow 2 63 then some ⟨true, n, [], none⟩ else none
      else unsigned (some n)

/-- Whether a number with these decimal digits before an exponent is too large for the nearest
double to be finite.  A number of at most 300 or at least 310 places needs no comparison. -/
def isHuge (digits : List Nat) (exponent : Int) : Bool :=
  let digits := digits.dropWhile (· = 0)
  let places := (digits.length : Int) + exponent
  if digits.isEmpty || places ≤ 300 then false
  else if 310 ≤ places then true
  else
    let limit := Nat.pow 2 1024 - Nat.pow 2 970
    let n := ofDigits 10 digits
    if 0 ≤ exponent then limit ≤ n * Nat.pow 10 exponent.toNat
    else limit * Nat.pow 10 (-exponent).toNat ≤ n

def exponent? (cs : List Char) : Option Int :=
  let (negative, rest) := splitSign cs
  (groupedDigits digitValue? rest).map fun ds =>
    if negative then -(ofDigits 10 ds : Int) else ofDigits 10 ds

def float? (cs : List Char) : Option Numeral :=
  let (negative, rest) := splitSign cs
  let (mantissa, tail) := rest.span fun c => c ≠ 'e' ∧ c ≠ 'E'
  let (whole, point) := mantissa.span (· ≠ '.')
  let fraction : Option (List Nat) :=
    match point with
    -- without a point and an exponent it is a whole number
    | [] => if tail.isEmpty then none else some []
    | _ :: ds => groupedDigits digitValue? ds
  let exponent : Option (Option Int) :=
    match tail with
    | [] => some none
    | _ :: ds => (exponent? ds).map some
  match decimal? whole, fraction, exponent with
  | some whole, some fraction, some exponent =>
    let digits := (Nat.toDigits 10 whole).filterMap digitValue? ++ fraction
    if !negative && isHuge digits (exponent.getD 0 - fraction.length) then none
    else some ⟨negative, whole, fraction, exponent⟩
  | _, _, _ => none

/-- Whether a text is a time of day with seconds and, if it likes, digits after them. -/
def isTime (cs : List Char) : Bool :=
  match cs with
  | a :: b :: ':' :: c :: d :: ':' :: e :: f :: rest =>
    let part := fun (x y : Char) (limit : Nat) =>
      match digitValue? x, digitValue? y with
      | some x, some y => x * 10 + y < limit
      | _, _ => false
    part a b 24 && part c d 60 && part e f 61 &&
      match rest with
      | [] => true
      | '.' :: ds => !ds.isEmpty && ds.all fun c => (digitValue? c).isSome
      | _ => false
  | _ => false

def isOffset (cs : List Char) : Bool :=
  match cs with
  | [] | ['Z'] | ['z'] => true
  | s :: hour :: hour' :: ':' :: minute :: minute' :: [] =>
    (s = '+' || s = '-') && isTime [hour, hour', ':', minute, minute', ':', '0', '0']
  | _ => false

def isDate (cs : List Char) : Bool :=
  ((do
    let (year, rest) ← readExactly 4 cs
    let '-' :: rest := rest | none
    let (month, rest) ← readExactly 2 rest
    let '-' :: rest := rest | none
    let (day, []) ← readExactly 2 rest | none
    Date.ofParts? year month day) : Option Date).isSome

/-- Whether a text is a date, a time of day, or a date with a time and perhaps a time zone. -/
def isMoment (cs : List Char) : Bool :=
  isTime cs || isDate cs ||
    match cs.drop 10 with
    | c :: rest =>
      let (time, offset) := rest.span fun c => c ≠ 'Z' ∧ c ≠ 'z' ∧ c ≠ '+' ∧ c ≠ '-'
      isDate (cs.take 10) && (c = 'T' || c = 't' || c = ' ') && isTime time && isOffset offset
    | [] => false

/-- A scalar that is no string.  A date or time is a record of a single field that no settings
have. -/
def ofToken (cs : List Char) : Option Value :=
  if cs = "true".toList then some (.bool true)
  else if cs = "false".toList then some (.bool false)
  else if (splitSign cs).2 ∈ ["inf".toList, "nan".toList] then some .special
  else if isMoment cs then some (.record [("moment", .text (String.ofList cs))])
  else
    match float? cs with
    | some n => some (.number n)
    | none => (integer? cs).map .number

def endsToken (c : Char) : Bool := isSpace c || c ∈ ['\n', '\r', '#', ',', ']', '}']

/-- A scalar and the text after it.  A time may follow its date after a blank. -/
def readScalar (cs : List Char) : Option (Value × List Char) :=
  match cs with
  | '"' :: _ | '\'' :: _ =>
    (readString cs).map fun (s, rest) => (.text (String.ofList s), rest)
  | _ =>
    let token := cs.takeWhile (!endsToken ·)
    let rest := cs.dropWhile (!endsToken ·)
    match rest with
    | ' ' :: c :: rest' =>
      if isDate token && (digitValue? c).isSome then
        let time := (c :: rest').takeWhile (!endsToken ·)
        (ofToken (token ++ ' ' :: time)).map fun v => (v, (c :: rest').dropWhile (!endsToken ·))
      else (ofToken token).map fun v => (v, rest)
    | _ => (ofToken token).map fun v => (v, rest)

end Recon.Data.Toml
