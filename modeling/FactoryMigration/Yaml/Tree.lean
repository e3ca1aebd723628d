import FactoryMigration.Yaml.Scalar

set_option autoImplicit false

/-! # YAML trees

What a YAML text is written from: scalars, sequences, mappings whose keys are scalars, and values
with a tag. A tree has no aliases, so that every value is written where it stands. -/

namespace FactoryMigration.Yaml

/-- A value to be written. -/
inductive Tree where
  | scalar (scalar : Scalar)
  | sequence (items : List Tree)
  | mapping (entries : List (Scalar × Tree))
  | tagged (tag : String) (body : Tree)

end FactoryMigration.Yaml
