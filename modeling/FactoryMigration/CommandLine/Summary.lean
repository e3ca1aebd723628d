import FactoryMigration.Workflow.Basic

set_option autoImplicit false

/-! # Summaries

A summary of a workflow for reading, one line for each task, notebook, secret and diagnostic. -/

namespace FactoryMigration.CommandLine

/-- A heading with the number of lines below it. -/
def heading (title : String) (size : Nat) : String :=
  title ++ " (" ++ toString size ++ ")"

/-- A heading and its lines, unless there are none. -/
def optionalSection (title : String) (lines : List String) : List String :=
  if lines.isEmpty then [] else heading title lines.length :: lines

/-- The mark of what is done. -/
def doneMark : String := "✓"

/-- The mark of a placeholder. -/
def placeholderMark : String := "✗"

/-- The mark of something that has no counterpart. -/
def warningMark : String := "⚠"

def scheduleLine (schedule : Schedule) : String :=
  "  schedule: " ++ schedule.cron ++ " (" ++ schedule.timezone ++ ")"

def taskLine (task : JobTask) : String :=
  let mark := if task.isPlaceholder then placeholderMark else doneMark
  let before := task.task.dependsOn.map (·.taskKey)
  let after := if before.isEmpty then "" else " after " ++ Text.joinWith ", " before
  "  " ++ mark ++ " " ++ task.task.key ++ " [" ++ task.task.type ++ "] " ++ task.kind ++ after

def notebookLine (notebook : Notebook) : String :=
  "  " ++ notebook.path

def secretLine (secret : Secret) : String :=
  let status := if secret.value.isNone then "input required" else "provided"
  "  " ++ secret.scope ++ "/" ++ secret.key ++ " " ++ status

def diagnosticLine (diagnostic : Diagnostic) : String :=
  "  " ++ warningMark ++ " " ++ diagnostic.activityName.getD "pipeline" ++ " "
    ++ diagnostic.property ++ ": " ++ diagnostic.message

/-- The summary of a workflow. -/
def summary (workflow : Workflow) : List String :=
  ["Job: " ++ workflow.job.name]
    ++ (workflow.job.schedule.map scheduleLine).toList
    ++ [heading "Tasks" workflow.job.tasks.length]
    ++ workflow.job.tasks.map taskLine
    ++ optionalSection "Notebooks" (workflow.notebooks.map notebookLine)
    ++ optionalSection "Secrets" (workflow.secrets.map secretLine)
    ++ [heading "Not translatable" workflow.notTranslatable.length]
    ++ workflow.notTranslatable.map diagnosticLine

/-- What is said when the artifacts of a workflow have been written. -/
def writtenLines (workflow : Workflow) (directory : String) : List String :=
  let lost := workflow.notTranslatable.length
  [doneMark ++ " Wrote job '" ++ workflow.job.name ++ "' ("
      ++ toString workflow.job.tasks.length ++ " tasks, "
      ++ toString workflow.notebooks.length ++ " notebooks) to " ++ directory]
    ++ if lost = 0 then [] else
      [warningMark ++ " " ++ toString lost
        ++ " items could not be translated; see not_translatable.json"]

end FactoryMigration.CommandLine
