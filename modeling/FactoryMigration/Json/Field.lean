import FactoryMigration.Json.Printer
import FactoryMigration.Text.Blank
import FactoryMigration.Text.Count

set_option autoImplicit false

/-! # Fields of a definition

Definitions are read leniently: a field of the wrong kind counts as missing, numbers may be written
as text, and values other than objects have no fields at all. -/

namespace FactoryMigration.Json

/-- A field that is text. -/
def text? (value : Json) (key : String) : Option String :=
  (value.get? key).bind asString?

/-- A field that is text and not empty. -/
def filledText? (value : Json) (key : String) : Option String :=
  (value.text? key).filter (· ≠ "")

theorem text?_eq_some_iff {value : Json} {key text : String} :
    value.text? key = some text ↔ value.get? key = some (.str text) := by
  unfold text?
  cases value.get? key with
  | none => simp
  | some field => cases field <;> simp [asString?]

theorem filledText?_eq_some_iff {value : Json} {key text : String} :
    value.filledText? key = some text ↔ value.get? key = some (.str text) ∧ text ≠ "" := by
  rw [filledText?, Option.filter_eq_some_iff, text?_eq_some_iff, decide_eq_true_eq]

/-- A field that is a list. -/
def items? (value : Json) (key : String) : Option (List Json) :=
  (value.get? key).bind asItems?

/-- The items of a field; a field that is no list has none. -/
def items (value : Json) (key : String) : List Json :=
  (value.items? key).getD []

/-- A field that is an object. -/
def fields? (value : Json) (key : String) : Option (List (String × Json)) :=
  (value.get? key).bind asFields?

/-- A field other than null. -/
def present? (value : Json) (key : String) : Option Json :=
  (value.get? key).filter (!·.isNull)

/-- A field of the value's properties, or else of the value itself, other than null. -/
def property? (value : Json) (key : String) : Option Json :=
  (value.get? "properties").bind (·.present? key) <|> value.present? key

/-- The count that a number stands for: a binary fraction loses its fraction and is kept within 64
bits, a number below zero is no count. -/
def numberCount? : Number → Option Nat
  | .int n => if 0 ≤ n then some n.toNat else none
  | .real x =>
    if x.negative ∧ x.significand ≠ 0 then none else some (min x.truncate (Text.limit64 - 1))

/-- A field that is a count, as a number or as text with blanks around it. -/
def count? (value : Json) (key : String) : Option Nat :=
  match value.get? key with
  | some (.num n) => numberCount? n
  | some (.str s) => Text.count? Text.limit64 (Text.trim s.toList)
  | _ => none

/-- The text that stands for a value in a setting: text as it is, nothing for null, and compact JSON
for all else. -/
def scalarText : Json → String
  | .str s => s
  | .null => ""
  | value => value.compact

end FactoryMigration.Json
