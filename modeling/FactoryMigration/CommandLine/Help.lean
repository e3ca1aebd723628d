import FactoryMigration.CommandLine.Argument
import FactoryMigration.Text.Segment

set_option autoImplicit false

/-! # Pages of help

A page of help says what a level is for, how it is used, and what its arguments mean, with the
meanings in one column. -/

namespace FactoryMigration.CommandLine

/-- The program with its version. -/
def versionText : String := "pm 0.1.0"

/-- An option with its value as the help shows it; without a letter the long name keeps its
place. -/
def Argument.shown (argument : Argument) : String :=
  let letter := match argument.short? with
    | some letter => "-" ++ String.singleton letter ++ ", "
    | none => "    "
  let value := match argument.value? with
    | some value => " <" ++ value ++ ">"
    | none => ""
  letter ++ "--" ++ argument.long?.getD "" ++ value

/-- Lines of a term and its meaning, with the meanings in one column. -/
def glossary (entries : List (String × String)) : List String :=
  let width := entries.foldl (fun width (term, _) => max width term.length) 0
  entries.map fun (term, meaning) =>
    "  " ++ term ++ String.ofList (List.replicate (width - term.length + 2) ' ') ++ meaning

namespace Level

/-- How a level is used. -/
def usage : Level → String
  | top => "pm [OPTIONS] [COMMAND]"
  | help => "pm help [COMMAND]..."
  | level =>
    "pm " ++ level.name ++ " [OPTIONS]" ++ if level.takesPipeline then " <PIPELINE>" else ""

/-- A section of a page, unless it is empty. -/
def helpSection (title : String) (entries : List (String × String)) : List String :=
  if entries.isEmpty then [] else ["", title ++ ":"] ++ glossary entries

/-- What stands in the place of an option: the path of a pipeline, or the command to explain. -/
def positionals (level : Level) : List (String × String) :=
  if level.takesPipeline then [("<PIPELINE>", Argument.pipeline.about)]
  else if level = help then [("[COMMAND]...", "Print help for the subcommand(s)")]
  else []

/-- The page of help of a level. -/
def page (level : Level) : String :=
  let commands := if level = top then Level.commands.map fun c => (c.name, c.about) else []
  Text.joinWith "\n" ([level.about, "", "Usage: " ++ level.usage]
    ++ helpSection "Commands" commands
    ++ helpSection "Arguments" level.positionals
    ++ helpSection "Options" (level.options.map fun option => (option.shown, option.about)))
    ++ "\n"

end Level

end FactoryMigration.CommandLine
