import FactoryMigration.CommandLine.Run

set_option autoImplicit false

/-! # The program

The file system of the machine, and the program that runs on it. -/

namespace FactoryMigration

/-- Whether an action succeeds. -/
def succeeds {α : Type} (action : IO α) : IO Bool := do
  try
    let _ ← action
    return true
  catch _ => return false

/-- The value of an action, if it succeeds. -/
def attempt {α : Type} (action : IO α) : IO (Option α) := do
  try
    return some (← action)
  catch _ => return none

/-- Whether a path is that of a directory: it then contains itself under the name of a point. -/
def isDirectory (path : String) : IO Bool := do
  if path = "" then return false
  return (← attempt (IO.FS.realPath (path ++ "/."))).isSome

/-- Whether a path is that of a file. -/
def isFile (path : String) : IO Bool := do
  return (← attempt (IO.FS.realPath path)).isSome && !(← isDirectory path)

/-- The file system of the machine. -/
def machineFiles : IO (CommandLine.FileSystem IO) := do
  let home := (← IO.getEnv "HOME").getD ""
  let configured := ((← IO.getEnv "XDG_CONFIG_HOME").filter (·.toList.head? = some '/'))
  return {
    read := fun path => attempt (IO.FS.readFile path)
    isFile := isFile
    isDirectory := isDirectory
    makeDirectories := fun path => succeeds (IO.FS.createDirAll path)
    write := fun path text => succeeds (IO.FS.writeFile path text)
    home := home
    configDirectory := configured.getD (home ++ "/.config") }

end FactoryMigration

open FactoryMigration in
/-- Runs the program on the arguments of the command line. -/
def main (arguments : List String) : IO UInt32 := do
  let ending ← CommandLine.run (← machineFiles) arguments
  IO.print ending.output
  match ending with
  | .done _ => pure ()
  | .refused _ => IO.eprintln "error: the arguments were not understood; try 'pm --help'"
  | .failed error =>
    IO.eprintln ("Error: " ++ error.message)
    match error.cause? with
    | some cause => IO.eprintln ("\nCaused by:\n    " ++ cause.message)
    | none => pure ()
  return ending.exitCode.toUInt32
