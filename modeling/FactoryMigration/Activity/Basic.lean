import FactoryMigration.Copy
import FactoryMigration.Dependency
import FactoryMigration.Expression.Condition
import FactoryMigration.Policy

set_option autoImplicit false

/-! # Activities

An activity is a task with a piece of work, a branch on a condition with child activities, or a loop
over items with a body. A job has no branches: flattening lists each branch before its children. -/

namespace FactoryMigration

/-- What every task has: its key in the job, the name and the type tag of its activity, and how it is
run. -/
structure Task where
  key : String
  name : String := key
  type : String
  description : Option String
  policy : Policy
  dependsOn : List Dependency
  cluster : Option Cluster

/-- Work without child activities. -/
inductive Work where
  | notebook (path : String) (parameters : Table String)
  | sparkJar (mainClass : String) (parameters libraries : List Json)
  | sparkPython (file : String) (parameters : List Json)
  | copy (copy : Copy)
  | placeholder (reason : String)

/-- A converted activity. -/
inductive Activity where
  | single (task : Task) (work : Work)
  | branch (task : Task) (condition : Condition) (children : List Activity)
  | loop (task : Task) (items : String) (concurrency : Option Nat) (body : List Activity)

/-- The scope of a task. -/
def Task.scope (task : Task) : Scope :=
  ⟨some task.name, some task.type⟩

/-- The key of tasks without a name. -/
def Task.unnamed : String := "UNNAMED_TASK"

/-- The type tag of activities without one. -/
def Task.untyped : String := "Unsupported"

/-- The notebook that stands for an activity without counterpart. -/
def Work.placeholderPath : String := "/UNSUPPORTED_ADF_ACTIVITY"

namespace Activity

def task : Activity → Task
  | single task _ => task
  | branch task _ _ => task
  | loop task _ _ _ => task

/-- The same activity with another task. -/
def withTask (task : Task) : Activity → Activity
  | single _ work => single task work
  | branch _ condition children => branch task condition children
  | loop _ items concurrency body => loop task items concurrency body

/-- Adds a dependency after those the activity has. -/
def addDependency (dependency : Option Dependency) (activity : Activity) : Activity :=
  let task := activity.task
  activity.withTask { task with dependsOn := task.dependsOn ++ dependency.toList }

/-- An activity that a placeholder stands for. -/
def placeholder (task : Task) (reason : String) : Activity :=
  single task (.placeholder reason)

def isPlaceholder : Activity → Bool
  | single _ (.placeholder _) => true
  | _ => false

/-! ## Flattening -/

mutual

/-- The activity and, if it is a branch, all its children after it; branches lose their children. -/
def flatten : Activity → List Activity
  | single task work => [single task work]
  | branch task condition children => branch task condition [] :: flattenAll children
  | loop task items concurrency body => [loop task items concurrency body]

/-- The flattened activities of a list, one after another. -/
def flattenAll : List Activity → List Activity
  | [] => []
  | activity :: rest => activity.flatten ++ flattenAll rest

end

end Activity

/-- The kinds of activities that have a counterpart. -/
inductive ActivityKind where
  | notebook
  | sparkJar
  | sparkPython
  | ifCondition
  | forEach
  | copy
deriving DecidableEq

namespace ActivityKind

def all : List ActivityKind :=
  [notebook, sparkJar, sparkPython, ifCondition, forEach, copy]

/-- The type tag of the kind. -/
def tag : ActivityKind → String
  | notebook => "DatabricksNotebook"
  | sparkJar => "DatabricksSparkJar"
  | sparkPython => "DatabricksSparkPython"
  | ifCondition => "IfCondition"
  | forEach => "ForEach"
  | copy => "Copy"

/-- The kind that a type tag names. -/
def ofTag? (tag : String) : Option ActivityKind :=
  all.find? (·.tag == tag)

end ActivityKind

end FactoryMigration
