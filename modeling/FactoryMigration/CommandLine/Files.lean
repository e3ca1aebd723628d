import FactoryMigration.Template.Library
import FactoryMigration.Text.Blank

set_option autoImplicit false

/-! # Files

What the program needs of a file system, over any monad, and the paths it builds. -/

namespace FactoryMigration.CommandLine

/-- Access to files. -/
structure FileSystem (m : Type → Type) where
  /-- The text of a file; none if it cannot be read. -/
  read : String → m (Option String)
  /-- Whether there is a file of the path, also one that cannot be read. -/
  isFile : String → m Bool
  isDirectory : String → m Bool
  /-- Makes a directory and those above it; whether it exists afterwards. -/
  makeDirectories : String → m Bool
  /-- Writes a text to a file; whether this succeeded. -/
  write : String → String → m Bool
  home : String
  /-- Where the user's settings are. -/
  configDirectory : String

/-! ## Paths -/

/-- The last name of a path. -/
def fileName (path : String) : List Char :=
  let cs := Text.dropTrailing '/' path.toList
  (cs.reverse.takeWhile (· ≠ '/')).reverse

/-- The part of a name after its last point, unless the name begins with that point. -/
def extension? (path : String) : Option String :=
  let name := fileName path
  if name = ['.', '.'] then none
  else
    match name.reverse.dropWhile (· ≠ '.') with
    | '.' :: _ :: _ => some (String.ofList (name.reverse.takeWhile (· ≠ '.')).reverse)
    | _ => none

/-- Whether a file holds YAML, as its extension says in any case of ASCII letters. -/
def isYaml (path : String) : Bool :=
  match (extension? path).map fun s => String.ofList (s.toList.map Char.toLower) with
  | some "yml" | some "yaml" => true
  | _ => false

/-- A path, written backwards, without slashes at its end and without points for the directory
itself. -/
def dropEmptyNames : List Char → List Char
  | '/' :: rest => dropEmptyNames rest
  | '.' :: '/' :: rest => dropEmptyNames rest
  | cs => cs

/-- The directory that a path is in. -/
def parent (path : String) : String :=
  let directory := path.toList.reverse.dropWhile (· ≠ '/')
  let kept := dropEmptyNames directory
  if kept = [] ∧ directory ≠ [] then "/" else String.ofList kept.reverse

/-- The file of a notebook inside a directory. -/
def notebookFile (directory notebook : String) : String :=
  let relative := notebook.toList.dropWhile (· == '/')
  TemplateLibrary.joinPath directory (String.ofList relative ++ ".py")

end FactoryMigration.CommandLine
