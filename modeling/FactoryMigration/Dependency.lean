import FactoryMigration.Diagnostic
import FactoryMigration.Failure
import FactoryMigration.Json.Field

set_option autoImplicit false

/-! # Dependencies between tasks

A task waits for the tasks it depends on, for all of them to succeed, or for one outcome of a
condition task. -/

namespace FactoryMigration

/-- An edge to an earlier task, with the outcome it waits for if that is a condition task. -/
structure Dependency where
  taskKey : String
  outcome : Option String
deriving DecidableEq

namespace Dependency

/-- Waits for success. -/
def on (taskKey : String) : Dependency := ⟨taskKey, none⟩

/-- Waits for an outcome of a condition task. -/
def onOutcome (taskKey outcome : String) : Dependency := ⟨taskKey, some outcome⟩

/-- The conditions of an entry, under either spelling of the key. -/
def conditions (entry : Json) : List Json :=
  ((entry.get? "dependency_conditions" <|> entry.get? "dependencyConditions").bind
    Json.asItems?).getD []

/-- Reads one entry: none when it names no activity, a failure when it has several conditions. -/
def ofEntry (entry : Json) : Except Failure (Noted (Option Dependency)) :=
  match entry.filledText? "activity" with
  | none =>
    .ok ⟨none, [⟨"depends_on", "Dropped a dependency without an upstream activity"⟩]⟩
  | some activity =>
    let conditions := conditions entry
    if conditions.length > 1 then .error (.ambiguousDependency activity conditions.length)
    else
      match conditions.head?.bind Json.asString? with
      | none | some "Succeeded" => .ok (.quiet (some (on activity)))
      | some condition =>
        let message := "Dependency condition '" ++ condition ++ "' on '" ++ activity
          ++ "' is not supported; the task runs when '" ++ activity ++ "' succeeds"
        .ok ⟨some (on activity), [⟨"depends_on", message⟩]⟩

/-- Reads entries up to the first failure; the notes of those before it are kept. -/
def ofEntries : List Json → Noted (Except Failure (List Dependency))
  | [] => .quiet (.ok [])
  | entry :: entries =>
    match ofEntry entry with
    | .error failure => .quiet (.error failure)
    | .ok first => do
      let dependency ← first
      let others ← ofEntries entries
      return others.map (dependency.toList ++ ·)

/-- Reads the dependencies of an activity; a value that is no list has none. -/
def ofValue (value : Option Json) : Noted (Except Failure (List Dependency)) :=
  ofEntries ((value.bind Json.asItems?).getD [])

end Dependency

end FactoryMigration
