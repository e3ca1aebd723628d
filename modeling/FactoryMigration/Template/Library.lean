import FactoryMigration.Failure
import FactoryMigration.Template.Basic

set_option autoImplicit false

/-! # The template library

Twelve templates are built in: two notebooks, and the reading and writing of each format. A
directory of template files may override them by name. -/

namespace FactoryMigration

namespace Template

/-- A template that is one line after another. -/
def ofLines (lines : List Template) : Template :=
  lines.flatMap fun line => line ++ [.text "\n"]

/-- A notebook that copies: options of both sides, then read, project and write. -/
def copyNotebook : Template := ofLines [
  [.text "# Databricks notebook source"],
  [.text "import pyspark.sql.types as T"],
  [.text "import pyspark.sql.functions as F"],
  [],
  [.text "# Set the source options:"],
  [.hole "source_options"],
  [],
  [.text "# Set the target options:"],
  [.hole "sink_options"],
  [],
  [.text "# Read from the source:"],
  [.hole "read"],
  [],
  [.text "# Map the source columns to the target columns:"],
  [.hole "mapping"],
  [],
  [.text "# Write to the target:"],
  [.hole "write"]]

/-- A notebook that declares the sink as a table of a pipeline. -/
def declarativeNotebook : Template := ofLines [
  [.text "# Databricks notebook source"],
  [.text "import dlt"],
  [.text "import pyspark.sql.types as T"],
  [.text "import pyspark.sql.functions as F"],
  [],
  [.text "# Set the source options:"],
  [.hole "source_options"],
  [],
  [],
  [.text "# Load the data with DLT as a materialized view:"],
  [.text "@dlt.table("],
  [.text "    name=\"", .hole "table_name", .text "\","],
  [.text "    comment=\"Data copied from ", .hole "source_name", .text "; Previously targeted ",
    .hole "sink_name", .text ".\","],
  [.text "    tbl_properties=\x7b\"delta.createdBy.pipemigrate\": \"true\"\x7d,"],
  [.text ")"],
  [.text "def ", .hole "function_name", .text "():"],
  [.hole "body"],
  [.text "    return ", .hole "result"]]

/-- The address of a file in a storage container, in quotes. -/
def fileAddress : Template :=
  [.text "\"abfss://", .hole "container", .text "@", .hole "storage_account_name",
    .text ".dfs.core.windows.net/", .hole "folder_path", .text "\""]

def readFile : Template := ofLines [
  [.hole "name", .text "_df = ("],
  [.text "    spark.read.format(\"", .hole "format", .text "\")"],
  [.text "    .options(**", .hole "name", .text "_options)"],
  [.text "    .load("] ++ fileAddress ++ [.text ")"],
  [.text ")"]]

def readDelta : Template := ofLines [
  [.hole "name", .text "_df = spark.read.table(\"", .hole "table", .text "\")"]]

def readSqlServer : Template := ofLines [
  [.hole "name", .text "_df = ("],
  [.text "    spark.read.format(\"sqlserver\")"],
  [.text "    .options(**", .hole "name", .text "_options)"],
  [.text "    .option(\"dbtable\", \"", .hole "dbtable", .text "\")"],
  [.text "    .load()"],
  [.text ")"]]

/-- Writes files of a format. -/
def writeFile (format : String) : Template := ofLines [
  [.hole "name", .text "_df.write.format(\"", .text format, .text "\") \\"],
  [.text "    .options(**", .hole "name", .text "_options) \\"],
  [.text "    .mode(\"overwrite\") \\"],
  [.text "    .save("] ++ fileAddress ++ [.text ")"]]

def writeDelta : Template := ofLines [
  [.hole "name", .text "_df.write.format(\"delta\") \\"],
  [.text "    .mode(\"overwrite\") \\"],
  [.text "    .saveAsTable(\"", .hole "table", .text "\")"]]

def writeSqlServer : Template := ofLines [
  [.hole "name", .text "_df.write.format(\"jdbc\") \\"],
  [.text "    .options(**", .hole "name", .text "_options) \\"],
  [.text "    .save()"]]

/-- The built-in templates with their names, in the order in which they are listed. -/
def builtIn : List (String × Template) := [
  ("copy-notebook", copyNotebook),
  ("dlt-notebook", declarativeNotebook),
  ("read-file", readFile),
  ("read-delta", readDelta),
  ("read-sqlserver", readSqlServer),
  ("write-avro", writeFile "avro"),
  ("write-csv", writeFile "csv"),
  ("write-json", writeFile "json"),
  ("write-orc", writeFile "orc"),
  ("write-parquet", writeFile "parquet"),
  ("write-delta", writeDelta),
  ("write-sqlserver", writeSqlServer)]

end Template

/-- A file in the place of a template: its text, unless it cannot be read as text. -/
inductive TemplateFile where
  | text (text : String)
  | unreadable

/-- The built-in templates under a directory of overrides, if there is one: the path of the
directory, and the file in it that overrides the template of a name. -/
structure TemplateLibrary where
  directory : Option String
  override? : (name : String) → Option TemplateFile

namespace TemplateLibrary

/-- The built-in templates alone. -/
def builtIn : TemplateLibrary := ⟨none, fun _ => none⟩

/-- Where a template comes from. -/
inductive Origin where
  | override (path : String) (file : TemplateFile)
  | builtIn (template : Template)

/-- A path inside a directory; an absolute path stays as it is. -/
def joinPath (directory path : String) : String :=
  if directory = "" ∨ path.toList.head? = some '/' then path
  else if directory.toList.getLast? = some '/' then directory ++ path
  else directory ++ "/" ++ path

/-- The file that overrides a template; a name may be a path inside the directory. -/
def fileName (name : String) : String :=
  name ++ ".hbs"

/-- Where the template of the given name comes from, if there is one. -/
def find? (library : TemplateLibrary) (name : String) : Option Origin :=
  let override := do
    let directory ← library.directory
    let file ← library.override? name
    return Origin.override (joinPath directory (fileName name)) file
  override <|> (Template.builtIn.lookup name).map .builtIn

/-- The name of an origin: the path of a file, or a word for the built-in templates. -/
def Origin.name : Origin → String
  | .override path _ => path
  | .builtIn _ => "embedded"

/-- The template of the given name. -/
def load (library : TemplateLibrary) (name : String) : Except Failure Template :=
  match library.find? name with
  | none => .error (.template name "template not found")
  | some (.builtIn template) => .ok template
  | some (.override path .unreadable) => .error (.template name ("failed to read " ++ path))
  | some (.override _ (.text text)) =>
    match Template.parse? text with
    | some template => .ok template
    | none => .error (.template name "a hole is not closed or has no name")

/-- Renders the template of the given name. -/
def render (library : TemplateLibrary) (name : String) (scope : Template.Scope) :
    Except Failure String := do
  let template ← library.load name
  match template.fill scope with
  | .ok text => .ok text
  | .error missing => .error (.template name ("'" ++ missing ++ "' stands for nothing"))

end TemplateLibrary

end FactoryMigration
