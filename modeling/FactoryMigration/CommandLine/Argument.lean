set_option autoImplicit false

/-! # Arguments of the command line

The program has three commands and a few options, of which two stand before or after the command. -/

namespace FactoryMigration.CommandLine

/-- A form of standard output. -/
inductive OutputFormat where
  | json
  | yaml
deriving DecidableEq

namespace OutputFormat

def name : OutputFormat → String
  | json => "json"
  | yaml => "yaml"

/-- The format with the given name, in any case of ASCII letters. -/
def ofName? (name : String) : Option OutputFormat :=
  match String.ofList (name.toList.map Char.toLower) with
  | "json" => some json
  | "yaml" => some yaml
  | "yml" => some yaml
  | _ => none

/-- What is said of an unknown format. -/
def unknown (name : String) : String :=
  "Unknown format: " ++ name ++ ". Use 'json' or 'yaml'"

end OutputFormat

/-- A place where arguments are read: before a command or after one. -/
inductive Level where
  | top
  | translate
  | inspect
  | templates
  | help
deriving DecidableEq

namespace Level

/-- The commands, in the order in which they are listed. -/
def commands : List Level :=
  [translate, inspect, templates, help]

def name : Level → String
  | top => "pm"
  | translate => "translate"
  | inspect => "inspect"
  | templates => "templates"
  | help => "help"

/-- The command with the given name. -/
def ofCommand? (name : String) : Option Level :=
  commands.find? (·.name == name)

def about : Level → String
  | top => "Translate Data Factory pipelines into Databricks jobs"
  | translate => "Translate a pipeline and prepare its job, scripts and secret instructions"
  | inspect => "Translate a pipeline and print a summary of its tasks and diagnostics"
  | templates => "List code generation templates and where each resolves from"
  | help => "Print this message or the help of the given subcommand(s)"

end Level

/-- An option, or the path of the pipeline. -/
inductive Argument where
  | pipeline
  | config
  | logLevel
  | trigger
  | output
  | strict
  | format
  | help
  | version
deriving DecidableEq

namespace Argument

/-- The letter of an option. -/
def short? : Argument → Option Char
  | config => some 'c'
  | logLevel => some 'l'
  | trigger => some 't'
  | output => some 'o'
  | format => some 'f'
  | help => some 'h'
  | version => some 'V'
  | pipeline | strict => none

/-- The long name of an option. -/
def long? : Argument → Option String
  | config => some "config"
  | logLevel => some "log-level"
  | trigger => some "trigger"
  | output => some "output"
  | strict => some "strict"
  | format => some "format"
  | help => some "help"
  | version => some "version"
  | pipeline => none

/-- What the value is called, if there is one. -/
def value? : Argument → Option String
  | pipeline => some "PIPELINE"
  | config => some "CONFIG"
  | logLevel => some "LOG_LEVEL"
  | trigger => some "FILE"
  | output => some "DIR"
  | format => some "FORMAT"
  | strict | help | version => none

/-- Whether the value is a path. -/
def isPath : Argument → Bool
  | pipeline | config | trigger | output => true
  | _ => false

def about : Argument → String
  | pipeline => "Pipeline definition (.json, .yml or .yaml)"
  | config => "Path to config file"
  | logLevel => "Log level (TRACE, DEBUG, INFO, WARN, ERROR)"
  | trigger => "Separate trigger definition; overrides one embedded in the pipeline"
  | output => "Directory to write artifacts to; prints to stdout when omitted"
  | strict => "Fail on untranslatable activities instead of substituting placeholders"
  | format => "Output format for stdout [default: json]"
  | help => "Print help"
  | version => "Print version"

end Argument

namespace Level

/-- The options of a level, in the order in which they are listed. -/
def options : Level → List Argument
  | top => [.config, .logLevel, .help, .version]
  | translate => [.config, .trigger, .logLevel, .output, .strict, .format, .help]
  | inspect => [.config, .strict, .logLevel, .help]
  | templates => [.config, .logLevel, .help]
  | help => []

/-- Whether a level needs the path of a pipeline. -/
def takesPipeline : Level → Bool
  | translate | inspect => true
  | _ => false

/-- The option with the given letter. -/
def ofShort? (level : Level) (letter : Char) : Option Argument :=
  level.options.find? (·.short? == some letter)

/-- The option with the given long name. -/
def ofLong? (level : Level) (name : String) : Option Argument :=
  level.options.find? (·.long? == some name)

end Level

/-- Why reading arguments ends without an invocation. -/
inductive ArgumentError where
  | missingPipeline
  | unknownArgument
  | unknownCommand
  /-- An option without its value, or an empty path. -/
  | missingValue
  | unknownFormat (name : String)
  | repeated (argument : Argument)
  | unexpectedValue (argument : Argument)
  /-- A page of help was asked for. -/
  | help (page : Level)
  /-- The version was asked for. -/
  | version
deriving DecidableEq

/-- What the program is to do. -/
inductive Command where
  | translate (pipeline : String) (trigger output : Option String) (strict : Bool)
      (format : OutputFormat)
  | inspect (pipeline : String) (strict : Bool)
  | templates
deriving DecidableEq

/-- The arguments of one run. -/
structure Invocation where
  config : Option String
  logLevel : Option String
  command : Option Command
deriving DecidableEq

end FactoryMigration.CommandLine
