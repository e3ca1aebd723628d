import FactoryMigration.Yaml.Scalar
import FactoryMigration.Yaml.Tag

set_option autoImplicit false

/-! # Tokens of YAML text

A text as a row of tokens, in which the structure that indentation gives to blocks is made explicit:
every block collection has a token where it starts and one where it ends, and every key a token in
front of it. -/

namespace FactoryMigration.Yaml

inductive Token where
  | directive (directive : Directive)
  | documentStart
  | documentEnd
  | blockSequence
  | blockMapping
  /-- The end of a block collection. -/
  | blockEnd
  | flowSequence
  | flowSequenceEnd
  | flowMapping
  | flowMappingEnd
  /-- The dash before an item of a block sequence. -/
  | item
  | comma
  | key
  | value
  /-- An alias. -/
  | reference (name : String)
  | anchor (name : String)
  | tag (name : TagName)
  | scalar (scalar : Scalar)
deriving DecidableEq

end FactoryMigration.Yaml
