import FactoryMigration.Decimal.Numeral
import FactoryMigration.Json.Basic
import FactoryMigration.Text.Quoted
import FactoryMigration.Text.Segment

set_option autoImplicit false

/-! # YAML scalars

A scalar is text written in some style. Only plain text may stand for something else than itself:
null, a truth value or a number. Integers may be written in four bases; a decimal with a zero too
many in front is text, not a number. -/

namespace FactoryMigration.Yaml

/-- How a scalar is written. -/
inductive Style where
  | plain
  | singleQuoted
  | doubleQuoted
  /-- Lines after a bar, whose line ends are kept. -/
  | literal
  /-- Lines after an angle, which are folded. -/
  | folded
deriving DecidableEq

/-- A text and how it is written. -/
structure Scalar where
  style : Style
  text : String
deriving DecidableEq

/-- What a scalar stands for. -/
inductive Meaning where
  | null
  | bool (value : Bool)
  | number (value : Number)
  /-- An integer that fits into 128 bits but not into 64. -/
  | wideInteger
  /-- An infinity, or not a number. -/
  | nonFinite
  | text
deriving DecidableEq

/-! ## Plain text -/

def isNull (s : String) : Bool :=
  s = "" || s = "null" || s = "Null" || s = "NULL" || s = "~"

def bool? (s : String) : Option Bool :=
  if s = "true" ∨ s = "True" ∨ s = "TRUE" then some true
  else if s = "false" ∨ s = "False" ∨ s = "FALSE" then some false
  else none

/-- The value of a digit in a base. -/
def baseDigit? (base : Nat) (c : Char) : Option Nat :=
  (Text.hexValue? c).filter (· < base)

/-- One or more digits of a base. -/
def baseDigits? (base : Nat) : List Char → Option Nat
  | [] => none
  | cs => cs.foldl (fun value c => do return (← value) * base + (← baseDigit? base c)) (some 0)

/-- An integer with the mark of its base in front. -/
def markedInteger? : List Char → Option Nat
  | '0' :: 'x' :: digits => baseDigits? 16 digits
  | '0' :: 'o' :: digits => baseDigits? 8 digits
  | '0' :: 'b' :: digits => baseDigits? 2 digits
  | _ => none

/-- Text without a sign in front. -/
def dropSign : List Char → List Char
  | '+' :: rest => rest
  | '-' :: rest => rest
  | cs => cs

/-- Digits that begin with a zero, of which there are more; such text is no number. -/
def hasExtraZero (cs : List Char) : Bool :=
  match dropSign cs with
  | '0' :: c :: rest => (c :: rest).all Char.isDigit
  | _ => false

/-- The magnitude of an integer without sign, in any base. -/
def magnitude? (cs : List Char) : Option Nat :=
  markedInteger? cs <|> if hasExtraZero cs then none else Text.digits? cs

/-- An integer of at most the given number of bits: without a minus sign all of them count, with one
there is a bit less. -/
def integer? (bits : Nat) (cs : List Char) : Option Int :=
  match cs with
  | '-' :: rest => ((magnitude? rest).filter (· ≤ Nat.pow 2 (bits - 1))).map fun n => -(n : Int)
  | '+' :: rest => ((magnitude? rest).filter (· < Nat.pow 2 bits)).map fun n => (n : Int)
  | _ => ((magnitude? cs).filter (· < Nat.pow 2 bits)).map fun n => (n : Int)

def isNonFinite (cs : List Char) : Bool :=
  let s := String.ofList cs
  s = ".nan" || s = ".NaN" || s = ".NAN"
    || (let unsigned := String.ofList (dropSign cs)
        unsigned = ".inf" || unsigned = ".Inf" || unsigned = ".INF")

/-- A binary fraction inside the range. -/
def finite? (cs : List Char) : Option Binary64 := do
  let x ← Decimal.parse? (dropSign cs)
  Binary64.ofDecimal? (cs.head? = some '-') x.digits x.exponent

/-- A binary fraction in plain text. -/
def fraction? (cs : List Char) : Option Binary64 :=
  if hasExtraZero cs then none else finite? cs

/-- What plain text stands for. -/
def plainMeaning (s : String) : Meaning :=
  let cs := s.toList
  if isNull s then .null
  else
    match bool? s with
    | some b => .bool b
    | none =>
      match integer? 64 cs with
      | some n => .number (.int n)
      | none =>
        if (integer? 128 cs).isSome then .wideInteger
        else if isNonFinite cs then .nonFinite
        else
          match fraction? cs with
          | some x => .number (.real x)
          | none => .text

namespace Scalar

/-- The scalar of no text at all. -/
def empty : Scalar := ⟨.plain, ""⟩

/-- What a scalar stands for; text in quotes or in a block stands for itself. -/
def meaning (scalar : Scalar) : Meaning :=
  if scalar.style = .plain then plainMeaning scalar.text else .text

end Scalar

end FactoryMigration.Yaml
