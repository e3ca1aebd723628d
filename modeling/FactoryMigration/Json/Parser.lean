import FactoryMigration.Json.Basic
import FactoryMigration.Text.Count
import FactoryMigration.Text.Quoted

set_option autoImplicit false

/-! # Reading JSON

The reader accepts the standard grammar and nothing else. Arrays and objects nest at most
`maxDepth` deep, and the recursion is on that depth; the list of items of one array is read with
one step a character at most.

A literal without fraction and exponent is an integer if it fits into 64 bits, unsigned or signed.
Any other number is a binary fraction: as many of its digits as fit into 64 bits are taken as an
integer, and that integer is scaled by the power of ten that remains. -/

namespace FactoryMigration.Json

/-- How deep arrays and objects may nest. -/
def maxDepth : Nat := 127

/-- The four blanks of the JSON grammar. -/
def isSpace (c : Char) : Bool :=
  c == ' ' || c == '\n' || c == '\t' || c == '\r'

/-- Drops the blanks before a token. -/
def skipSpace (cs : List Char) : List Char :=
  cs.dropWhile isSpace

/-! ## Numbers -/

/-- Digits taken in so far: their value, and the power of ten that is still to be applied. -/
structure Intake where
  significand : Nat
  exponent : Int

/-- Takes digits in while the value stays below `2 ^ 64`; each adds `step` to the exponent. Answers
with the digits that did not fit. -/
def Intake.digits (step : Int) (taken : Intake) : List Char → Intake × List Char
  | [] => (taken, [])
  | c :: rest =>
    let grown := taken.significand * 10 + Text.digitValue c
    if grown < Text.limit64 then Intake.digits step ⟨grown, taken.exponent + step⟩ rest
    else (taken, c :: rest)

/-- Exponents are cut off here: every number that is not zero lies outside the range before. -/
def exponentLimit : Nat := 2147483648

/-- The exponent part, if there is one, and what follows it. None when its digits are missing. -/
def exponentPart? (cs : List Char) : Option (Int × List Char) :=
  match cs with
  | e :: rest =>
    if e = 'e' ∨ e = 'E' then
      let (negative, rest) : Bool × List Char := match rest with
        | '-' :: rest => (true, rest)
        | '+' :: rest => (false, rest)
        | _ => (false, rest)
      let digits := rest.takeWhile Char.isDigit
      if digits = [] then none
      else
        let size : Int := min (Text.ofDigits digits) exponentLimit
        some (if negative then -size else size, rest.dropWhile Char.isDigit)
    else some (0, cs)
  | [] => some (0, [])

/-- Whether the text goes on with a fraction or an exponent. -/
def isFractional : List Char → Bool
  | c :: _ => c == '.' || c == 'e' || c == 'E'
  | [] => false

/-- The fraction after its point: its digits and what follows them. -/
def fractionPart? (cs : List Char) : Option (List Char × List Char) :=
  match cs with
  | '.' :: rest =>
    let digits := rest.takeWhile Char.isDigit
    if digits = [] then none else some (digits, rest.dropWhile Char.isDigit)
  | _ => some ([], cs)

/-- A number without its sign. -/
def unsigned? (negative : Bool) (cs : List Char) : Option (Number × List Char) := do
  let whole := cs.takeWhile Char.isDigit
  let rest := cs.dropWhile Char.isDigit
  guard (whole ≠ [] ∧ (whole.head? = some '0' → whole.length = 1))
  let (intake, left) := Intake.digits 0 ⟨0, 0⟩ whole
  if left = [] ∧ !isFractional rest then
    let n := intake.significand
    if !negative then return (.int n, rest)
    -- Minus zero and what is below the signed range are binary fractions.
    else if 0 < n ∧ n ≤ Text.limit64 / 2 then return (.int (-n), rest)
    else return (.real (Binary64.ofNat true n), rest)
  else
    -- Each digit that did not fit is worth a power of ten.
    let intake := { intake with exponent := left.length }
    let (fraction, rest) ← fractionPart? rest
    let (intake, _) := Intake.digits (-1) intake fraction
    let (exponent, rest) ← exponentPart? rest
    let value ← (Binary64.ofNat negative intake.significand).scaleTen? (intake.exponent + exponent)
    return (.real value, rest)

/-- A number and what follows it. -/
def number? (cs : List Char) : Option (Number × List Char) :=
  match cs with
  | '-' :: rest => unsigned? true rest
  | _ => unsigned? false cs

/-! ## Values -/

/-- Entries up to the closing bracket, with a comma between neighbours and none at the end. The
first argument bounds the number of entries. -/
def entries? {α : Type} (entry : List Char → Option (α × List Char)) (close : Char) :
    Nat → List Char → Option (List α × List Char)
  | 0, _ => none
  | steps + 1, cs => do
    let (first, rest) ← entry (skipSpace cs)
    match skipSpace rest with
    | ',' :: rest =>
      let (others, rest) ← entries? entry close steps rest
      return (first :: others, rest)
    | c :: rest => if c = close then some ([first], rest) else none
    | [] => none

/-- Entries after the opening bracket, which may be none at all. -/
def bracketed? {α : Type} (entry : List Char → Option (α × List Char)) (close : Char)
    (cs : List Char) : Option (List α × List Char) :=
  match skipSpace cs with
  | c :: rest => if c = close then some ([], rest) else entries? entry close (cs.length) (c :: rest)
  | [] => none

/-- A field: a quoted key, a colon and a value. -/
def field? (value : List Char → Option (Json × List Char)) (cs : List Char) :
    Option ((String × Json) × List Char) :=
  match cs with
  | '"' :: rest => do
    let (key, rest) ← Text.scanQuoted rest
    match skipSpace rest with
    | ':' :: rest =>
      let (body, rest) ← value (skipSpace rest)
      return ((String.ofList key, body), rest)
    | _ => none
  | _ => none

/-- A value at the start of the text, and what follows it; `depth` more levels may be opened. -/
def value? : Nat → List Char → Option (Json × List Char)
  | _, 'n' :: 'u' :: 'l' :: 'l' :: rest => some (.null, rest)
  | _, 't' :: 'r' :: 'u' :: 'e' :: rest => some (.bool true, rest)
  | _, 'f' :: 'a' :: 'l' :: 's' :: 'e' :: rest => some (.bool false, rest)
  | _, '"' :: rest => (Text.scanQuoted rest).map fun (s, rest) => (.str (String.ofList s), rest)
  | depth + 1, '[' :: rest =>
    (bracketed? (value? depth) ']' rest).map fun (items, rest) => (.arr items, rest)
  | depth + 1, '\x7b' :: rest =>
    (bracketed? (field? (value? depth)) '\x7d' rest).map fun (fields, rest) =>
      (ofFields fields, rest)
  | _, cs => (number? cs).map fun (n, rest) => (.num n, rest)

/-- Reads a whole text: one value with blanks around it. -/
def parse? (text : String) : Option Json := do
  let (value, rest) ← value? maxDepth (skipSpace text.toList)
  guard (skipSpace rest = [])
  return value

end FactoryMigration.Json
