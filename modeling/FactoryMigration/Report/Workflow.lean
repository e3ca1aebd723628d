import FactoryMigration.Report.Task
import FactoryMigration.Workflow.Basic

set_option autoImplicit false

/-! # Reports of workflows

The form in which jobs, notebooks, pipelines and secrets are written out. Lists of parameters and
libraries, and settings that a task leaves to the job's defaults, are written only if there are
any. -/

namespace FactoryMigration

namespace JobWork

/-- The libraries of a task. -/
def libraries : JobWork → List Json
  | sparkJar _ _ libraries => libraries
  | _ => []

/-- The fields under the key of the work. -/
def report : JobWork → Report
  | notebook path parameters => .record (("notebook_path", .text path)
      :: (if parameters.isEmpty then [] else [("base_parameters", .texts parameters)]))
  | sparkJar mainClass parameters _ => .record [("main_class_name", .text mainClass),
      ("parameters", .json (.arr parameters))]
  | sparkPython file parameters => .record [("python_file", .text file),
      ("parameters", .json (.arr parameters))]
  | condition test => .record [("op", .text test.op.name), ("left", .text test.left),
      ("right", .text test.right)]
  | pipeline => .record [("pipeline_id", .null)]

end JobWork

namespace JobTask

/-- The fields of a task before its work. -/
def taskFields (task : Task) (libraries : List Json) : List (String × Report) :=
  [("task_key", .text task.key), ("type", .text task.type)]
    ++ Report.field? "description" .text task.description
    ++ [("depends_on", .list (task.dependsOn.map Dependency.report))]
    ++ Report.field? "timeout_seconds" .count task.policy.timeoutSeconds
    ++ Report.field? "max_retries" .count task.policy.maxRetries
    ++ Report.field? "min_retry_interval_millis" .count task.policy.minRetryIntervalMillis
    ++ Report.field? "new_cluster" Cluster.report task.cluster
    ++ Report.filledField "libraries" (fun values => .json (.arr values)) libraries

def report : JobTask → Report
  | run task work =>
    .record (taskFields task work.libraries ++ [((run task work).kind, work.report)])
  | forEach task inputs concurrency body =>
    .record (taskFields task [] ++ [("for_each_task", .record ([("inputs", .text inputs)]
      ++ Report.field? "concurrency" .count concurrency ++ [("task", report body)]))])

end JobTask

def Job.report (job : Job) : Report :=
  .record ([("name", .text job.name)]
    ++ Report.filledField "parameters" (fun parameters => .list (parameters.map Parameter.report))
      job.parameters
    ++ Report.field? "schedule" Schedule.report job.schedule
    ++ [("tags", .texts job.tags), ("tasks", .list (job.tasks.map JobTask.report))])

/-- The language of every notebook. -/
def Notebook.language : String := "PYTHON"

def Notebook.report (notebook : Notebook) : Report :=
  .record [("file_path", .text notebook.path), ("content", .text notebook.content),
    ("language", .text Notebook.language)]

def PipelineInstruction.report (instruction : PipelineInstruction) : Report :=
  .record [("task_key", .text instruction.taskKey), ("file_path", .text instruction.path),
    ("name", .text instruction.name)]

def Secret.report (secret : Secret) : Report :=
  .record [("scope", .text secret.scope), ("key", .text secret.key),
    ("service_name", .text secret.serviceName),
    ("service_type", .text secret.serviceFormat.name),
    ("provided_value", .orNull .text secret.value),
    ("user_input_required", .flag secret.value.isNone)]

namespace Workflow

def notebookReport (workflow : Workflow) : Report :=
  .list (workflow.notebooks.map Notebook.report)

def pipelineReport (workflow : Workflow) : Report :=
  .list (workflow.pipelines.map PipelineInstruction.report)

def secretReport (workflow : Workflow) : Report :=
  .list (workflow.secrets.map Secret.report)

def diagnosticReport (workflow : Workflow) : Report :=
  .list (workflow.notTranslatable.map Diagnostic.report)

def report (workflow : Workflow) : Report :=
  .record [("job", workflow.job.report), ("notebooks", workflow.notebookReport),
    ("pipelines", workflow.pipelineReport), ("secrets", workflow.secretReport),
    ("not_translatable", workflow.diagnosticReport)]

end Workflow

end FactoryMigration
