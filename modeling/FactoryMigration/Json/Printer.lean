import FactoryMigration.Decimal.Shortest
import FactoryMigration.Json.Basic
import FactoryMigration.Text.Quoted
import FactoryMigration.Text.Segment

set_option autoImplicit false

/-! # JSON text

Compact text has no blanks. Indented text has one item or field a line and two blanks a level; an
empty array or object stays on its line. Fields are written in the order in which they are
listed. -/

namespace FactoryMigration

/-- Numbers in JSON text are positional from `0.00001` up to `10 ^ 16`, and a greater exponent has a
sign of its own. -/
def Json.floatLayout : Decimal.Layout := ⟨-5, 16, true⟩

/-- An integer is written with its digits, a binary fraction with the fewest that read back. -/
def Number.text : Number → String
  | .int n => toString n
  | .real x => String.ofList (Json.floatLayout.text x)

namespace Json

mutual

/-- Text without blanks. -/
def compact : Json → String
  | .null => "null"
  | .bool b => if b then "true" else "false"
  | .num n => n.text
  | .str s => Text.quoted s
  | .arr items => "[" ++ Text.joinWith "," (compactItems items) ++ "]"
  | .obj fields => "\x7b" ++ Text.joinWith "," (compactFields fields) ++ "\x7d"

/-- The texts of the items. -/
def compactItems : List Json → List String
  | [] => []
  | item :: items => compact item :: compactItems items

/-- The texts of the fields. -/
def compactFields : List (String × Json) → List String
  | [] => []
  | (key, value) :: fields => (Text.quoted key ++ ":" ++ compact value) :: compactFields fields

end

/-- A bracketed list, one entry a line. -/
def block (left right margin : String) (entries : List String) : String :=
  match entries with
  | [] => left ++ right
  | _ =>
    left ++ "\n" ++ Text.joinWith ",\n" (entries.map (margin ++ "  " ++ ·)) ++ "\n" ++ margin
      ++ right

mutual

/-- Text with one item or field a line, continued at the given margin. -/
def indentedAt (margin : String) : Json → String
  | .arr items => block "[" "]" margin (indentedItems (margin ++ "  ") items)
  | .obj fields => block "\x7b" "\x7d" margin (indentedFields (margin ++ "  ") fields)
  | value => compact value

/-- The texts of the items, continued at the given margin. -/
def indentedItems (margin : String) : List Json → List String
  | [] => []
  | item :: items => indentedAt margin item :: indentedItems margin items

/-- The texts of the fields, continued at the given margin. -/
def indentedFields (margin : String) : List (String × Json) → List String
  | [] => []
  | (key, value) :: fields =>
    (Text.quoted key ++ ": " ++ indentedAt margin value) :: indentedFields margin fields

end

/-- Text with one item or field a line. -/
def indented (value : Json) : String :=
  indentedAt "" value

end Json

end FactoryMigration
