import FactoryMigration.Script.Options
import FactoryMigration.Script.Projection
import FactoryMigration.Template.Library

set_option autoImplicit false

/-! # Notebooks

A copy becomes a notebook in one of two ways: it reads, projects and writes, or it declares the sink
as a table of a pipeline whose function reads and projects. -/

namespace FactoryMigration.Script

/-- Where scripts take templates and credentials from. -/
structure Generator where
  library : TemplateLibrary
  secretScope : String

/-- The variables that locate a file. -/
def fileVariables (dataset : FileDataset) : List (String × String) :=
  [("container", dataset.container), ("storage_account_name", dataset.service.account),
    ("folder_path", dataset.path)]

/-- Renders an expression without the blanks after it, or fails if there is no such template. -/
def renderExpression (library : TemplateLibrary) (template : String) (unsupported : Failure)
    (entries : List (String × String)) : Except Failure String :=
  if (library.find? template).isNone then .error unsupported
  else do
    let text ← library.render template (.ofEntries entries)
    return String.ofList (Text.trimEnd text.toList)

/-- The expression that reads a dataset. -/
def readExpression (library : TemplateLibrary) (name : String) (dataset : Dataset) :
    Except Failure String :=
  let unsupported := Failure.unsupportedSourceFormat dataset.format.name
  match dataset with
  | .file file =>
    renderExpression library "read-file" unsupported
      (("name", name) :: ("format", file.format.name) :: fileVariables file)
  | .delta table =>
    renderExpression library "read-delta" unsupported
      [("name", name), ("table", table.qualifiedName)]
  | .sql table =>
    renderExpression library "read-sqlserver" unsupported
      [("name", name), ("dbtable", table.qualifiedName)]

/-- The expression that writes a dataset. -/
def writeExpression (library : TemplateLibrary) (name : String) (dataset : Dataset) :
    Except Failure String :=
  let unsupported := Failure.unsupportedSinkFormat dataset.format.name
  let entries := match dataset with
    | .file file => ("name", name) :: fileVariables file
    | .delta table => [("name", name), ("table", table.qualifiedName)]
    | .sql _ => [("name", name)]
  renderExpression library ("write-" ++ dataset.format.name) unsupported entries

/-- Moves each line that is not empty four blanks to the right. -/
def indent (block : String) : String :=
  Text.joinWith "\n" ((Text.lines block.toList).map fun line =>
    if line = [] then "" else "    " ++ String.ofList line)

namespace Generator

/-- The option block of one side as text. -/
def options (generator : Generator) (name : String) (dataset : Dataset) (side : Side) : String :=
  Text.joinWith "\n" (optionBlock generator.secretScope name dataset side)

/-- The notebook that reads, projects and writes. -/
def copyNotebook (generator : Generator) (copy : Copy) : Noted (Except Failure String) :=
  let names := Names.ofCopy copy
  match readExpression generator.library names.source copy.source with
  | .error failure => .quiet (.error failure)
  | .ok read => do
    let mapping ← projection names copy.sink.format copy.columns
    return do
      let write ← writeExpression generator.library names.sink copy.sink
      generator.library.render "copy-notebook" (.ofEntries [
        ("source_options", generator.options names.source copy.source copy.sourceSide),
        ("sink_options", generator.options names.sink copy.sink copy.sinkSide),
        ("read", read), ("mapping", mapping), ("write", write)])

/-- The name of the declared table. -/
def tableName : Dataset → String
  | .delta table => table.table
  | dataset => identifier dataset.name

/-- The notebook that declares the sink as a table of a pipeline. -/
def declarativeNotebook (generator : Generator) (copy : Copy) : Noted (Except Failure String) :=
  let names := Names.ofCopy copy
  match readExpression generator.library names.source copy.source with
  | .error failure => .quiet (.error failure)
  | .ok read => do
    let mapping ← projection names copy.sink.format copy.columns
    return generator.library.render "dlt-notebook" (.ofEntries [
      ("source_options", generator.options names.source copy.source copy.sourceSide),
      ("table_name", tableName copy.sink),
      ("source_name", copy.source.name), ("sink_name", copy.sink.name),
      ("function_name", "load_" ++ names.sink),
      ("body", indent (read ++ "\n" ++ mapping)),
      ("result", names.sink ++ "_df")])

end Generator

end FactoryMigration.Script
