import FactoryMigration.Json.Field

set_option autoImplicit false

/-! # Job parameters and tags

Parameters keep their names and get a default text; tags keep their names and get a text, and every
job and cluster carries one more tag that tells where it came from. -/

namespace FactoryMigration

/-- A job parameter with its default. -/
structure Parameter where
  name : String
  default : String
deriving DecidableEq

/-- The tag on every generated job and cluster. -/
def provenanceTag : String := "CREATED_BY_PIPEMIGRATE"

/-- Adds the provenance tag, with an empty text. -/
def withProvenance (tags : Table String) : Table String :=
  tags.insert provenanceTag ""

namespace Parameter

/-- Single quotes become double quotes in a default, so that a quoted text in it is JSON. -/
def doubleQuotes (s : String) : String :=
  String.ofList (s.toList.map fun c => if c = '\'' then '"' else c)

/-- The parameter of one entry; one without a default gets an empty text. -/
def ofField (name : String) (definition : Json) : Parameter :=
  ⟨name, ((definition.get? "default_value").map fun v => doubleQuotes v.scalarText).getD ""⟩

/-- The parameters of a pipeline, in the order of their names. -/
def ofValue (parameters : Option Json) : List Parameter :=
  ((parameters.bind Json.asFields?).getD []).map fun (name, definition) => ofField name definition

end Parameter

/-- Tags as texts, without the provenance tag. -/
def tagTexts (tags : Option Json) : Table String :=
  ((tags.bind Json.asFields?).getD []).map fun (name, value) => (name, value.scalarText)

/-- The tags of a job. -/
def jobTags (tags : Option Json) : Table String :=
  withProvenance (tagTexts tags)

end FactoryMigration
