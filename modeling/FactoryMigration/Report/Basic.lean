import FactoryMigration.Json.Basic

set_option autoImplicit false

/-! # Reports

What is written out is a report: records list their fields in a fixed order, whereas the objects of
a definition are in key order. An alternative of several carries a tag, which JSON writes as the
only key of an object and YAML as a tag. -/

namespace FactoryMigration

/-- A value to be written out. -/
inductive Report where
  | json (value : Json)
  | list (items : List Report)
  | record (fields : List (String × Report))
  | tagged (tag : String) (body : Report)

namespace Report

def null : Report := json .null

def text (s : String) : Report := json (.str s)

def flag (b : Bool) : Report := json (.bool b)

def count (n : Nat) : Report := json (.num (.int n))

/-- A value, or null without one. -/
def orNull {α : Type} (report : α → Report) (value : Option α) : Report :=
  (value.map report).getD null

/-- A field that is left out without a value. -/
def field? {α : Type} (key : String) (report : α → Report) (value : Option α) :
    List (String × Report) :=
  (value.map fun value => (key, report value)).toList

/-- A field that is left out if its list is empty. -/
def filledField {α : Type} (key : String) (report : List α → Report) (values : List α) :
    List (String × Report) :=
  if values.isEmpty then [] else [(key, report values)]

/-- The texts of a table, in its order. -/
def texts (table : Table String) : Report :=
  json (.obj (table.map fun (key, value) => (key, .str value)))

/-- The values of a table, in its order. -/
def values (table : Table Json) : Report :=
  json (.obj table)

mutual

/-- The JSON value with the report's fields in the report's order. -/
def toJson : Report → Json
  | json value => value
  | list items => .arr (itemsToJson items)
  | record fields => .obj (fieldsToJson fields)
  | tagged tag body => .obj [(tag, toJson body)]

/-- The JSON values of the items. -/
def itemsToJson : List Report → List Json
  | [] => []
  | item :: items => toJson item :: itemsToJson items

/-- The JSON fields of a record. -/
def fieldsToJson : List (String × Report) → List (String × Json)
  | [] => []
  | (key, value) :: fields => (key, toJson value) :: fieldsToJson fields

end

end Report

end FactoryMigration
