import FactoryMigration.CommandLine.Files
import FactoryMigration.CommandLine.Help
import FactoryMigration.CommandLine.Invocation
import FactoryMigration.CommandLine.Summary
import FactoryMigration.Json.Parser
import FactoryMigration.Report.Workflow
import FactoryMigration.Settings
import FactoryMigration.Yaml.Printer

set_option autoImplicit false

/-! # Running the program

A run reads its arguments, then its settings, then does what the command says. All access to files
goes through a `FileSystem`, so that a run is a function of what is in the files. Output is printed
at the end of a run that succeeds. -/

namespace FactoryMigration.CommandLine

/-- Why a run fails. -/
inductive RunError where
  | configuration
  | unreadable (path : String)
  | malformedJson (path : String)
  | malformedYaml (path : String)
  | conversion (path : String) (failure : Failure)
  | preparation (path : String) (failure : Failure)
  | noDirectory (path : String)
  | unwritable (path : String)

namespace RunError

/-- The report of an error. -/
def message : RunError → String
  | configuration => "Failed to load configuration"
  | unreadable path => "Failed to read " ++ path
  | malformedJson path => "Failed to parse JSON from " ++ path
  | malformedYaml path => "Failed to parse YAML from " ++ path
  | conversion path _ => "Failed to translate " ++ path
  | preparation path _ => "Failed to prepare " ++ path
  | noDirectory path => "Failed to create " ++ path
  | unwritable path => "Failed to write " ++ path

/-- The failure behind an error. -/
def cause? : RunError → Option Failure
  | conversion _ failure => some failure
  | preparation _ failure => some failure
  | _ => none

end RunError

/-- How a run ends. -/
inductive Ending where
  | done (output : String)
  /-- The arguments were not understood. -/
  | refused (reason : ArgumentError)
  | failed (error : RunError)

namespace Ending

/-- The exit code of the program. -/
def exitCode : Ending → Nat
  | done _ => 0
  | refused _ => 2
  | failed _ => 1

/-- The text on standard output. -/
def output : Ending → String
  | done text => text
  | _ => ""

/-- The end of a run whose arguments ask for nothing else. -/
def ofArgumentError : ArgumentError → Ending
  | .help page => done page.page
  | .version => done (versionText ++ "\n")
  | reason => refused reason

end Ending

/-- A step of a run. -/
abbrev Run (m : Type → Type) (α : Type) : Type := ExceptT RunError m α

section

variable {m : Type → Type} [Monad m] (files : FileSystem m)

/-- Takes a value, or ends with an error without one. -/
def orFail {α : Type} (error : RunError) (value : Option α) : Run m α :=
  match value with
  | some value => pure value
  | none => throw error

/-- Ends with an error unless something succeeded. -/
def orStop (error : RunError) (succeeded : Bool) : Run m Unit :=
  if succeeded then pure () else throw error

/-! ## Settings -/

/-- The name of files with settings. -/
def settingsFile : String := "pipemigrate.yml"

/-- The settings in a file, if it can be used. -/
def settingsAt (path : String) : Run m (Option Settings) := do
  return (← files.read path).bind Settings.parse?

/-- The settings of a run: those in the given file, which has to be usable, or else those in the
first usable one of the working directory and the user's directory, or else the defaults. -/
def loadSettings (path : Option String) : Run m Settings := do
  match path with
  | some path => orFail .configuration (← settingsAt files path)
  | none =>
    match ← settingsAt files settingsFile with
    | some settings => return settings
    | none =>
      let user := files.configDirectory ++ "/pipemigrate/" ++ settingsFile
      return (← settingsAt files user).getD .default

/-- The templates of a run: those in the directory of the settings, if there is one, over the
built-in ones. -/
def loadTemplates (settings : Settings) : Run m TemplateLibrary := do
  match settings.templatesPath files.home with
  | none => return .builtIn
  | some directory =>
    if ← files.isDirectory directory then
      let found ← Template.builtIn.mapM fun (name, _) => do
        let path := TemplateLibrary.joinPath directory (TemplateLibrary.fileName name)
        if ← files.isFile path then
          let text ← files.read path
          return some (name, text.elim TemplateFile.unreadable .text)
        else return none
      return ⟨some directory, fun name => (found.filterMap id).lookup name⟩
    else return .builtIn

/-! ## Pipelines -/

/-- Reads a JSON or YAML document. -/
def readDocument (path : String) : Run m Json := do
  let text ← orFail (.unreadable path) (← files.read path)
  if isYaml path then
    orFail (.malformedYaml path) ((Yaml.Document.parse? text).bind Yaml.Document.toJson?)
  else orFail (.malformedJson path) (Json.parse? text)

/-- Reads, converts and prepares a pipeline. -/
def prepareFile (settings : Settings) (path : String) (trigger : Option String) (strict : Bool) :
    Run m Workflow := do
  let document ← readDocument files path
  let trigger ← match trigger with
    | some trigger => do pure (some (← readDocument files trigger))
    | none => pure none
  match Pipeline.ofDocument (strict || settings.strict) document trigger with
  | .error failure => throw (.conversion path failure)
  | .ok pipeline =>
    let options := settings.preparation (← loadTemplates files settings)
    match Workflow.ofPipeline options pipeline with
    | .error failure => throw (.preparation path failure)
    | .ok workflow => return workflow

/-- A report as indented JSON with a line end. -/
def jsonText (report : Report) : String :=
  report.toJson.indented ++ "\n"

/-- Writes a file. -/
def writeFile (path text : String) : Run m Unit := do
  orStop (.unwritable path) (← files.write path text)

/-- Writes the artifacts of a workflow into a directory. -/
def writeArtifacts (workflow : Workflow) (directory : String) : Run m Unit := do
  orStop (.noDirectory directory) (← files.makeDirectories directory)
  let inside := TemplateLibrary.joinPath directory
  writeFile files (inside "job.json") (jsonText workflow.job.report)
  writeFile files (inside "pipelines.json") (jsonText workflow.pipelineReport)
  writeFile files (inside "secrets.json") (jsonText workflow.secretReport)
  writeFile files (inside "not_translatable.json") (jsonText workflow.diagnosticReport)
  for notebook in workflow.notebooks do
    let path := notebookFile directory notebook.path
    orStop (.noDirectory (parent path)) (← files.makeDirectories (parent path))
    writeFile files path notebook.content

/-! ## Commands -/

/-- The text of some lines. -/
def linesText (lines : List String) : String :=
  String.join (lines.map (· ++ "\n"))

/-- The output of a workflow in a format, with a line end after it. -/
def OutputFormat.text (workflow : Workflow) : OutputFormat → String
  | json => jsonText workflow.report
  | yaml => workflow.report.yaml ++ "\n"

/-- Does what the arguments say, and gives the output. -/
def perform (invocation : Invocation) : Run m String := do
  let settings ← loadSettings files invocation.config
  match invocation.command with
  | none => return Level.top.page
  | some .templates =>
    let library ← loadTemplates files settings
    return linesText (Template.builtIn.map fun (name, _) =>
      name ++ " " ++ ((library.find? name).map TemplateLibrary.Origin.name).getD "missing")
  | some (.inspect pipeline strict) =>
    let workflow ← prepareFile files settings pipeline none strict
    return linesText (summary workflow)
  | some (.translate pipeline trigger output strict format) =>
    let workflow ← prepareFile files settings pipeline trigger strict
    match output with
    | none => return format.text workflow
    | some directory =>
      writeArtifacts files workflow directory
      return linesText (writtenLines workflow directory)

/-- Runs the program. -/
def run (arguments : List String) : m Ending := do
  match Invocation.ofArguments arguments with
  | .error reason => return .ofArgumentError reason
  | .ok invocation =>
    match ← (perform files invocation).run with
    | .ok output => return .done output
    | .error error => return .failed error

end

end FactoryMigration.CommandLine
