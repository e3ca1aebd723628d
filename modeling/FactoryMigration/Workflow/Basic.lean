import FactoryMigration.Pipeline
import FactoryMigration.Secret

set_option autoImplicit false

/-! # Workflows

What is created in a workspace for one pipeline: a job, the notebooks of its copies, the declarative
pipelines among them, and the secrets that they look up. -/

namespace FactoryMigration

/-- The work of a task of a job. -/
inductive JobWork where
  | notebook (path : String) (parameters : Table String)
  | sparkJar (mainClass : String) (parameters libraries : List Json)
  | sparkPython (file : String) (parameters : List Json)
  | condition (condition : Condition)
  /-- Runs a declarative pipeline, whose identity is known once it has been created. -/
  | pipeline

/-- A task of a job; a loop runs a single task for each item. -/
inductive JobTask where
  | run (task : Task) (work : JobWork)
  | forEach (task : Task) (inputs : String) (concurrency : Option Nat) (body : JobTask)

namespace JobTask

def task : JobTask → Task
  | run task _ => task
  | forEach task _ _ _ => task

/-- Whether the task runs the notebook of placeholders. -/
def isPlaceholder : JobTask → Bool
  | run _ (.notebook path _) => path == Work.placeholderPath
  | _ => false

/-- The key under which a job holds the task's work. -/
def kind : JobTask → String
  | run _ (.notebook ..) => "notebook_task"
  | run _ (.sparkJar ..) => "spark_jar_task"
  | run _ (.sparkPython ..) => "spark_python_task"
  | run _ (.condition ..) => "condition_task"
  | run _ .pipeline => "pipeline_task"
  | forEach .. => "for_each_task"

end JobTask

/-- A generated script and the path it is stored under. -/
structure Notebook where
  path : String
  content : String
deriving DecidableEq

/-- A declarative pipeline to create from a notebook, and the task that runs it. -/
structure PipelineInstruction where
  taskKey : String
  path : String
  name : String
deriving DecidableEq

/-- A job. -/
structure Job where
  name : String
  parameters : List Parameter
  schedule : Option Schedule
  tags : Table String
  tasks : List JobTask

/-- All that is prepared for one pipeline. -/
structure Workflow where
  job : Job
  notebooks : List Notebook
  pipelines : List PipelineInstruction
  secrets : List Secret
  notTranslatable : List Diagnostic

end FactoryMigration
