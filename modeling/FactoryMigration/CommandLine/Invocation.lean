import FactoryMigration.CommandLine.Argument
import FactoryMigration.Text.Segment

set_option autoImplicit false

/-! # Reading arguments

Arguments are read from left to right. A value that follows its option or stands alone waits: it is
checked when the next known argument comes or the arguments end, so that an unknown argument is
found first. A value in one argument with its option is checked at once. After two dashes there are
no options any more. -/

namespace FactoryMigration.CommandLine

/-- The values read at one level, and the one that waits to be checked; an option may still wait for
its value. -/
structure Reading where
  given : List (Argument × String)
  waiting : Option (Argument × Option String)

namespace Reading

def empty : Reading := ⟨[], none⟩

/-- Refuses an empty path and an unknown format. -/
def check (argument : Argument) (value : String) : Except ArgumentError Unit :=
  if argument.isPath ∧ value = "" then .error .missingValue
  else if argument = .format ∧ (OutputFormat.ofName? value).isNone then
    .error (.unknownFormat value)
  else .ok ()

/-- Takes a value; each argument has one at most. -/
def take (reading : Reading) (argument : Argument) (value : String) :
    Except ArgumentError Reading := do
  if (reading.given.lookup argument).isSome then throw (.repeated argument)
  check argument value
  return { reading with given := (argument, value) :: reading.given }

/-- Checks the value that waits. -/
def settle (reading : Reading) : Except ArgumentError Reading :=
  match reading.waiting with
  | none => .ok reading
  | some (_, none) => .error .missingValue
  | some (argument, some value) => { reading with waiting := none }.take argument value

/-- Whether the next argument is the value of an option. -/
def expectsValue (reading : Reading) : Bool :=
  match reading.waiting with
  | some (_, none) => true
  | _ => false

/-- Gives the option that waits its value. -/
def giveValue (reading : Reading) (value : String) : Reading :=
  { reading with waiting := reading.waiting.map fun (argument, _) => (argument, some value) }

/-- Whether the path of the pipeline has been read. -/
def hasPipeline (reading : Reading) : Bool :=
  (reading.given.lookup .pipeline).isSome || (reading.waiting.map (·.1)) == some .pipeline

/-- Takes an option without value, or one that ends the reading. -/
def takeFlag (level : Level) (reading : Reading) (argument : Argument) :
    Except ArgumentError Reading := do
  let reading ← reading.settle
  match argument with
  | .help => throw (.help level)
  | .version => throw .version
  | _ => reading.take argument ""

/-- Takes an option with its value in the same argument, or lets it wait for one. -/
def takeOption (reading : Reading) (argument : Argument) (value : Option String) :
    Except ArgumentError Reading := do
  let reading ← reading.settle
  match value with
  | some value => reading.take argument value
  | none => return { reading with waiting := some (argument, none) }

/-- Reads an option by its long name, possibly with a value after an equals sign. -/
def long (level : Level) (reading : Reading) (cs : List Char) : Except ArgumentError Reading :=
  let (name, value) := match Text.cutFirst '=' cs with
    | some (name, value) => (name, some (String.ofList value))
    | none => (cs, none)
  match level.ofLong? (String.ofList name) with
  | none => .error .unknownArgument
  | some argument =>
    match argument.value?, value with
    | some _, value => reading.takeOption argument value
    | none, some _ => .error (.unexpectedValue argument)
    | none, none => reading.takeFlag level argument

/-- Reads options by their letters. The rest of the argument after an option with a value is the
value, with or without an equals sign. -/
def short (level : Level) : Reading → List Char → Except ArgumentError Reading
  | reading, [] => .ok reading
  | reading, letter :: rest =>
    match level.ofShort? letter with
    | none => .error .unknownArgument
    | some argument =>
      match argument.value? with
      -- More letters may follow a flag.
      | none => do
        let reading ← reading.takeFlag level argument
        short level reading rest
      | some _ =>
        match rest with
        | [] => reading.takeOption argument none
        | '=' :: value => reading.takeOption argument (some (String.ofList value))
        | value => reading.takeOption argument (some (String.ofList value))

/-- Reads an argument that is no option. -/
def positional (level : Level) (afterDashes : Bool) (reading : Reading) (value : String) :
    Except ArgumentError Reading :=
  if level.takesPipeline ∧ !reading.hasPipeline then do
    let reading ← reading.settle
    return { reading with waiting := some (.pipeline, some value) }
  else if level = .top ∧ !(afterDashes ∧ (Level.ofCommand? value).isSome) then
    .error .unknownCommand
  else .error .unknownArgument

/-- Reads one argument before the two dashes; none for a command. -/
def argument (level : Level) (reading : Reading) (value : String) : Except ArgumentError Reading :=
  match value.toList with
  | '-' :: '-' :: cs => reading.long level cs
  | '-' :: c :: cs => reading.short level (c :: cs)
  | _ =>
    if reading.expectsValue then .ok (reading.giveValue value)
    else reading.positional level false value

/-- The page that the arguments of the help command ask for. -/
def helpPage : List String → ArgumentError
  | [] => .help .top
  | [name] =>
    match Level.ofCommand? name with
    | some page => .help page
    | none => .unknownCommand
  | _ => .unknownCommand

/-- Reads arguments up to their end, or up to a command before the two dashes, with the arguments
after it. -/
def arguments (level : Level) (afterDashes : Bool) :
    Reading → List String → Except ArgumentError (Reading × Option (Level × List String))
  | reading, [] => .ok (reading, none)
  | reading, value :: rest =>
    if afterDashes then do
      let reading ← reading.positional level true value
      arguments level true reading rest
    else
      -- A command's name after an option that waits for its value is that value.
      match if level = .top ∧ !reading.expectsValue then Level.ofCommand? value else none with
      | some .help => .error (helpPage rest)
      | some command => .ok (reading, some (command, rest))
      | none =>
        if value = "--" then arguments level true reading rest
        else do
          let reading ← reading.argument level value
          arguments level false reading rest

/-- A value, if it was given. -/
def value? (reading : Reading) (argument : Argument) : Option String :=
  reading.given.lookup argument

/-- The command of a level from its values. -/
def command (level : Level) (reading : Reading) : Except ArgumentError (Option Command) :=
  let strict := (reading.value? .strict).isSome
  match level, reading.value? .pipeline with
  | .translate, some pipeline =>
    let format := ((reading.value? .format).bind OutputFormat.ofName?).getD .json
    .ok (some
      (.translate pipeline (reading.value? .trigger) (reading.value? .output) strict format))
  | .inspect, some pipeline => .ok (some (.inspect pipeline strict))
  | .translate, none | .inspect, none => .error .missingPipeline
  | .templates, _ => .ok (some .templates)
  | .top, _ | .help, _ => .ok none

end Reading

/-- Reads all arguments. Of an option before and after the command the latter counts. -/
def Invocation.ofArguments (arguments : List String) : Except ArgumentError Invocation := do
  let (top, next) ← Reading.arguments .top false .empty arguments
  match next with
  | none =>
    let top ← top.settle
    return ⟨top.value? .config, top.value? .logLevel, none⟩
  | some (level, rest) =>
    let (inner, _) ← Reading.arguments level false .empty rest
    let inner ← inner.settle
    let command ← inner.command level
    let top ← top.settle
    return ⟨inner.value? .config <|> top.value? .config,
      inner.value? .logLevel <|> top.value? .logLevel, command⟩

end FactoryMigration.CommandLine
