import FactoryMigration.Report.Basic
import FactoryMigration.Workflow.Preparation
import FactoryMigration.Yaml.Parser

set_option autoImplicit false

/-! # Settings

Settings are read from a YAML document with a section for the conversion and one for the
preparation. What is not set keeps its default, and keys that are not known are ignored. A known key
that occurs twice, or a value of the wrong kind, makes the whole document unusable. -/

namespace FactoryMigration

/-- How pipelines are converted and prepared. -/
structure Settings where
  strict : Bool
  filesToDeltaSinks : Option Bool
  secretScope : String
  notebookRoot : String
  /-- The directory of template files, as it was set. -/
  templatesDirectory : Option String
  logLevel : Option String
deriving DecidableEq

namespace Settings

def default : Settings :=
  { strict := false
    filesToDeltaSinks := none
    secretScope := PreparationOptions.defaultSecretScope
    notebookRoot := PreparationOptions.defaultNotebookRoot
    templatesDirectory := none
    logLevel := none }

/-! ## Reading -/

/-- The text of a scalar, whatever its style. -/
def text? (document : Yaml.Document) (node : Yaml.Node) : Option String := do
  match ← document.target? node with
  | .scalar _ s => some s.text
  | _ => none

/-- A truth value in plain text, or in a literal block with its tag. -/
def bool? (document : Yaml.Document) (node : Yaml.Node) : Option Bool := do
  match ← document.target? node with
  | .scalar properties s =>
    let isTagged := properties.tag = some (.standard "bool")
    if s.style = .plain ∨ (s.style = .literal ∧ isTagged) then Yaml.bool? s.text else none
  | _ => none

/-- Whether a scalar is null. With another tag than that of null it is not; with that tag it has to
be. -/
def isNull? (properties : Yaml.Properties) (s : Yaml.Scalar) : Option Bool :=
  if s.style ≠ .plain then some false
  else
    match properties.tag with
    | none => some (Yaml.isNull s.text)
    | some tag =>
      if tag ≠ .standard "null" then some false
      else if Yaml.isNull s.text ∧ s.text ≠ "" then some true
      else none

/-- A value that may be null. -/
def optional? {α : Type} (read : Yaml.Document → Yaml.Node → Option α) (document : Yaml.Document)
    (node : Yaml.Node) : Option (Option α) := do
  let isNull ← match ← document.target? node with
    | .scalar properties s => isNull? properties s
    | _ => some false
  if isNull then return none else return some (← read document node)

/-- The entries of a document or a section by their keys; no text at all has none. -/
def entries? (document : Yaml.Document) (node : Yaml.Node) :
    Option (List (String × Yaml.Node)) := do
  match ← document.target? node with
  | .mapping _ entries =>
    entries.mapM fun (key, value) => do return (← text? document key, value)
  | .scalar _ s => if s = .empty then some [] else none
  | _ => none

/-- The value of a key, or its default; none if the key occurs twice or its value cannot be read. -/
def field? {α : Type} (entries : List (String × Yaml.Node)) (key : String)
    (read : Yaml.Node → Option α) (default : α) : Option α :=
  match entries.filter (·.1 == key) with
  | [] => some default
  | [(_, value)] => read value
  | _ => none

/-- Reads the settings of a document. -/
def ofDocument? (document : Yaml.Document) : Option Settings := do
  let entries ← entries? document document.root
  let translate ← field? entries "translate" (entries? document) []
  let prepare ← field? entries "prepare" (entries? document) []
  let optionalText := optional? text? document
  return {
    strict := ← field? translate "strict" (bool? document) default.strict
    filesToDeltaSinks := ← field? prepare "files-to-delta-sinks" (optional? bool? document) none
    secretScope := ← field? prepare "secret-scope" (text? document) default.secretScope
    notebookRoot := ← field? prepare "notebook-root" (text? document) default.notebookRoot
    templatesDirectory := ← field? prepare "templates-dir" optionalText none
    logLevel := ← field? entries "log-level" optionalText none }

/-- Reads the settings of a text. -/
def parse? (text : String) : Option Settings :=
  (Yaml.Document.parse? text).bind ofDocument?

/-! ## Use -/

/-- The directory of template files; a tilde and a slash in front stand for the home directory. -/
def templatesPath (home : String) (settings : Settings) : Option String :=
  settings.templatesDirectory.map fun path =>
    match path.toList with
    | '~' :: '/' :: rest => TemplateLibrary.joinPath home (String.ofList rest)
    | _ => path

/-- The options for a preparation with the given templates. -/
def preparation (settings : Settings) (library : TemplateLibrary) : PreparationOptions :=
  { filesToDeltaSinks := settings.filesToDeltaSinks
    secretScope := settings.secretScope
    notebookRoot := settings.notebookRoot
    library := library }

/-- The settings in the form in which they are set. -/
def report (settings : Settings) : Report :=
  .record [("translate", .record [("strict", .flag settings.strict)]),
    ("prepare", .record [
      ("files-to-delta-sinks", .orNull .flag settings.filesToDeltaSinks),
      ("secret-scope", .text settings.secretScope),
      ("notebook-root", .text settings.notebookRoot),
      ("templates-dir", .orNull .text settings.templatesDirectory)]),
    ("log-level", .orNull .text settings.logLevel)]

end Settings

end FactoryMigration
