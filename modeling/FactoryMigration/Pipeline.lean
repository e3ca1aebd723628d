import FactoryMigration.Activity.Session
import FactoryMigration.Schedule

set_option autoImplicit false

/-! # Pipelines

A pipeline document becomes a flat list of tasks with parameters, tags and a schedule, and a list of
everything that has no counterpart. -/

namespace FactoryMigration

/-- A converted pipeline. -/
structure Pipeline where
  name : String
  parameters : List Parameter
  schedule : Option Schedule
  /-- Tasks in the order of conversion; no branch has children. -/
  tasks : List Activity
  tags : Table String
  notTranslatable : List Diagnostic

namespace Pipeline

/-- The name of pipelines without one. -/
def unnamed : String := "UNNAMED_WORKFLOW"

/-- The notes on a pipeline without a name. -/
def nameNotes (document : Json) : List Note :=
  match document.filledText? "name" with
  | some _ => []
  | none =>
    [⟨"pipeline.name", "No pipeline name in source definition, setting to " ++ unnamed⟩]

/-- The activities of a document; a missing list is an empty one. -/
def activitiesOf (document : Json) : Except Failure (List Json) :=
  match document.getD "activities" with
  | .null => .ok []
  | .arr activities => .ok activities
  | other => .error (.invalidDocument ("'activities' must be a list, found " ++ other.compact))

/-- The trigger of a pipeline: the given one, or else the one in its document. -/
def triggerOf (document : Json) (trigger : Option Json) : Option Json :=
  trigger <|> document.present? "trigger"

/-- The schedule of a trigger, if there is a trigger. -/
def scheduleOf (trigger : Option Json) : Noted (Option Schedule) :=
  match trigger with
  | none => .quiet none
  | some trigger => Schedule.ofTrigger trigger

/-- The pipeline of a document, from its tasks and the log of their conversion. -/
def ofTasks (document : Json) (trigger : Option Json) (tasks : List Activity) (log : Log) :
    Pipeline :=
  let schedule := scheduleOf (triggerOf document trigger)
  { name := (document.filledText? "name").getD unnamed
    parameters := Parameter.ofValue (document.get? "parameters")
    schedule := schedule.value
    tasks := tasks
    tags := jobTags (document.get? "tags")
    notTranslatable := (log.record schedule.notes).entries }

/-- Converts the activities of a document in a session of their own. -/
def convertActivities (strict : Bool) (document : Json) (activities : List Json) :
    Except Failure (List Activity) × Session :=
  ((Session.start strict).record (nameNotes document)).convertAll activities

/-- Converts a pipeline document. A given trigger counts before one in the document. -/
def ofDocument (strict : Bool) (document : Json) (trigger : Option Json) :
    Except Failure Pipeline :=
  if !document.isObject then
    .error (.invalidDocument "pipeline definition must be an object")
  else do
    let activities ← activitiesOf document
    let converted := convertActivities strict document activities
    return ofTasks document trigger (← converted.1) converted.2.log

theorem ofDocument_of_not_isObject {document : Json} (hobject : document.isObject = false)
    (strict : Bool) (trigger : Option Json) :
    ofDocument strict document trigger
      = .error (.invalidDocument "pipeline definition must be an object") := by
  rw [ofDocument, if_pos (by simp [hobject])]

/-- What an object is converted to: its list of activities is read, then converted. -/
theorem ofDocument_of_isObject {document : Json} (hobject : document.isObject = true)
    (strict : Bool) (trigger : Option Json) :
    ofDocument strict document trigger = activitiesOf document >>= fun activities =>
      (convertActivities strict document activities).1.map
        (ofTasks document trigger · (convertActivities strict document activities).2.log) := by
  rw [ofDocument, if_neg (by simp [hobject])]
  cases activitiesOf document with
  | error failure => rfl
  | ok activities =>
    show (convertActivities strict document activities).1 >>= _
      = (convertActivities strict document activities).1.map _
    cases (convertActivities strict document activities).1 with
    | error failure => rfl
    | ok tasks => rfl

/-- The first task with the given key. -/
def task? (pipeline : Pipeline) (key : String) : Option Activity :=
  pipeline.tasks.find? (·.task.key == key)

end Pipeline

end FactoryMigration
