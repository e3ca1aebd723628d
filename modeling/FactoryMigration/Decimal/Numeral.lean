import FactoryMigration.Decimal.Shortest
import FactoryMigration.Text.Count

set_option autoImplicit false

/-! # Decimal numerals

The written form of a decimal: digits with an optional point, which has a digit on one side at
least, and an optional exponent. `Decimal.parse?` reads a numeral without its sign as an exact
decimal. -/

namespace FactoryMigration.Decimal

/-- The exponent after the digits: a letter e, an optional sign and digits; zero for no text. -/
def exponentPart? : List Char → Option Int
  | [] => some 0
  | e :: rest =>
    if e = 'e' ∨ e = 'E' then
      match rest with
      | '+' :: digits => (Text.digits? digits).map fun n => (n : Int)
      | '-' :: digits => (Text.digits? digits).map fun n => -(n : Int)
      | digits => (Text.digits? digits).map fun n => (n : Int)
    else none

/-- A decimal from its digits before and after the point, and what follows them. -/
def ofParts? (whole fraction rest : List Char) : Option Decimal :=
  if whole = [] ∧ fraction = [] then none
  else (exponentPart? rest).map fun exponent =>
    ⟨Text.ofDigits (whole ++ fraction), exponent - fraction.length⟩

/-- Reads a numeral without sign. -/
def parse? (cs : List Char) : Option Decimal :=
  let whole := cs.takeWhile Char.isDigit
  match cs.dropWhile Char.isDigit with
  | '.' :: rest =>
    ofParts? whole (rest.takeWhile Char.isDigit) (rest.dropWhile Char.isDigit)
  | rest => ofParts? whole [] rest

/-- Names of numbers that are not finite, in any case of ASCII letters. -/
def isNonFinite (cs : List Char) : Bool :=
  let lower := String.ofList (cs.map Char.toLower)
  lower == "inf" || lower == "infinity" || lower == "nan"

/-- Whether the text is a number as it may be written for a binary fraction, with an optional
sign. -/
def isNumeral (cs : List Char) : Bool :=
  let unsigned := match cs with
    | '+' :: rest => rest
    | '-' :: rest => rest
    | _ => cs
  (parse? unsigned).isSome || isNonFinite unsigned

end FactoryMigration.Decimal
