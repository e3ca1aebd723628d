import FactoryMigration.Copy

set_option autoImplicit false

/-! # Names in scripts

Script variables are named after datasets: every character that a name cannot have becomes an
underscore, and a name that would be empty or begin with a digit gets one in front. -/

namespace FactoryMigration.Script

/-- What a name may consist of. -/
def isNameCharacter (c : Char) : Bool :=
  c.isAlphanum || c == '_'

/-- The script name for a text. -/
def identifier (s : String) : String :=
  let cs := s.toList.map fun c => if isNameCharacter c then c else '_'
  match cs with
  | [] => "_"
  | c :: _ => String.ofList (if c.isDigit then '_' :: cs else cs)

/-- The names that a script's variables for source and sink begin with. -/
structure Names where
  source : String
  sink : String

/-- The names for a copy; the sink's gets an ending of its own if both are the same. -/
def Names.ofCopy (copy : Copy) : Names :=
  let source := identifier copy.source.name
  let sink := identifier copy.sink.name
  ⟨source, if sink = source then sink ++ "_sink" else sink⟩

end FactoryMigration.Script
