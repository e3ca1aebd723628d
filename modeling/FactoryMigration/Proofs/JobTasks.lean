import FactoryMigration.Proofs.CopyArtifacts
import FactoryMigration.Proofs.TaskOrder

set_option autoImplicit false

/-! # Tasks of a job

A job has one task for each activity of the flattened pipeline, in the same order.
`JobTask.StandsFor` says which task that is: it is run as its activity is, and the body of a loop is
the task that stands for the first activity of the loop (`Workflow.ofPipeline_mirrors`). -/

namespace FactoryMigration

/-! ## What stands for an activity -/

/-- What a job has for a piece of work. A copy becomes a declarative pipeline or a notebook, and a
placeholder the notebook of placeholders. -/
inductive Work.Becomes (options : PreparationOptions) : Work → JobWork → Prop where
  | notebook {path : String} {parameters : Table String} :
      Becomes options (.notebook path parameters) (.notebook path parameters)
  | sparkJar {mainClass : String} {parameters libraries : List Json} :
      Becomes options (.sparkJar mainClass parameters libraries)
        (.sparkJar mainClass parameters libraries)
  | sparkPython {file : String} {parameters : List Json} :
      Becomes options (.sparkPython file parameters) (.sparkPython file parameters)
  | declarativeCopy {copy : Copy} (h : options.isDeclarative copy = true) :
      Becomes options (.copy copy) .pipeline
  | copy {copy : Copy} {path : String} (h : options.isDeclarative copy = false) :
      Becomes options (.copy copy) (.notebook path [])
  | placeholder {reason : String} :
      Becomes options (.placeholder reason) (.notebook Work.placeholderPath [])

/-- The task of a job that stands for an activity. A branch leaves its children behind, and a loop
all but the first activity of its body. -/
inductive JobTask.StandsFor (options : PreparationOptions) : Activity → JobTask → Prop where
  | single {task : Task} {work : Work} {jobWork : JobWork} (h : work.Becomes options jobWork) :
      StandsFor options (.single task work) (.run task jobWork)
  | branch {task : Task} {condition : Condition} {children : List Activity} :
      StandsFor options (.branch task condition children) (.run task (.condition condition))
  | loop {task : Task} {items : String} {concurrency : Option Nat} {first : Activity}
      {rest : List Activity} {body : JobTask} (h : StandsFor options first body) :
      StandsFor options (.loop task items concurrency (first :: rest))
        (.forEach task items concurrency body)

/-- The job is that of the pipeline: it has its name, parameters, schedule and tags, and one task for
each of its activities, which has the key, the type, the description, the dependencies, the policy
and the cluster of the activity. -/
structure Workflow.Mirrors (options : PreparationOptions) (pipeline : Pipeline)
    (workflow : Workflow) : Prop where
  name : workflow.job.name = pipeline.name
  parameters : workflow.job.parameters = pipeline.parameters
  schedule : workflow.job.schedule = pipeline.schedule
  tags : workflow.job.tags = pipeline.tags
  count : workflow.job.tasks.length = (Activity.flattenAll pipeline.tasks).length
  settings : workflow.job.tasks.map JobTask.task
    = (Activity.flattenAll pipeline.tasks).map Activity.task
  tasks : List.Forall₂ (JobTask.StandsFor options) (Activity.flattenAll pipeline.tasks)
    workflow.job.tasks

theorem JobTask.StandsFor.task_eq {options : PreparationOptions} {activity : Activity}
    {jobTask : JobTask} (h : StandsFor options activity jobTask) : jobTask.task = activity.task := by
  cases h with
  | single => rfl
  | branch => rfl
  | loop => rfl

/-! ## The run of a preparation -/

namespace Preparation

variable {options : PreparationOptions}

theorem work_becomes {task : Task} {body : Work} {before after : Artifacts} {jobWork : JobWork}
    (h : work options task body before = .ok (jobWork, after)) : body.Becomes options jobWork := by
  cases body with
  | notebook path parameters =>
    cases h
    exact .notebook
  | sparkJar mainClass parameters libraries =>
    cases h
    exact .sparkJar
  | sparkPython file parameters =>
    cases h
    exact .sparkPython
  | copy body =>
    obtain ⟨notebook, hcopied⟩ := copy_copied h
    rw [hcopied.work]
    cases hdeclarative : options.isDeclarative body with
    | true => exact .declarativeCopy hdeclarative
    | false => exact .copy hdeclarative
  | placeholder reason =>
    cases h
    exact .placeholder

mutual

/-- **Activities.** The task that a successful preparation gives stands for the activity. -/
theorem activity_standsFor : ∀ (item : Activity) {before after : Artifacts} {jobTask : JobTask},
    activity options item before = .ok (jobTask, after) → jobTask.StandsFor options item
  | .single task body, before, after, jobTask, h => by
    rw [activity] at h
    obtain ⟨log, log', h⟩ := exists_of_inScope_ok h
    obtain ⟨jobWork, between, hwork, h⟩ := exists_of_bind_ok h
    obtain ⟨rfl, -⟩ := Prod.mk.inj (Except.ok.inj h)
    exact .single (work_becomes hwork)
  | .branch task condition children, before, after, jobTask, h => by
    rw [activity] at h
    obtain ⟨log, log', h⟩ := exists_of_inScope_ok h
    obtain ⟨rfl, -⟩ := Prod.mk.inj (Except.ok.inj h)
    exact .branch
  | .loop task items concurrency body, before, after, jobTask, h => by
    rw [activity] at h
    obtain ⟨log, log', h⟩ := exists_of_inScope_ok h
    obtain ⟨jobTasks, between, hbody, h⟩ := exists_of_bind_ok h
    cases activities_standFor body hbody with
    | nil => cases h
    | cons hfirst hrest =>
      obtain ⟨rfl, -⟩ := Prod.mk.inj (Except.ok.inj h)
      exact .loop hfirst

theorem activities_standFor : ∀ (items : List Activity) {before after : Artifacts}
    {jobTasks : List JobTask}, activities options items before = .ok (jobTasks, after) →
    List.Forall₂ (JobTask.StandsFor options) items jobTasks
  | [], before, after, jobTasks, h => by
    rw [activities] at h
    cases h
    exact .nil
  | first :: rest, before, after, jobTasks, h => by
    rw [activities] at h
    obtain ⟨jobTask, between, hfirst, h⟩ := exists_of_bind_ok h
    obtain ⟨jobTasks', between', hrest, h⟩ := exists_of_bind_ok h
    cases h
    exact .cons (activity_standsFor first hfirst) (activities_standFor rest hrest)

end

end Preparation

/-! ## Flat lists -/

namespace Activity

theorem flattenAll_flattenAll (activities : List Activity) :
    flattenAll (flattenAll activities) = flattenAll activities := by
  rw [flattenAll_eq_flatMap activities, flattenAll_eq_flatMap, List.flatMap_assoc]
  exact List.flatMap_congr fun activity _ => activity.flatMap_flatten_flatten

end Activity

/-- The tasks of a converted document are a flat list. -/
theorem Pipeline.flattenAll_tasks {strict : Bool} {document : Json} {trigger : Option Json}
    {pipeline : Pipeline} (h : ofDocument strict document trigger = .ok pipeline) :
    Activity.flattenAll pipeline.tasks = pipeline.tasks := by
  obtain ⟨trees, -, htasks⟩ := exists_trees_of_ofDocument h
  rw [htasks, Activity.flattenAll_flattenAll]

/-! ## Workflows -/

theorem Workflow.job_eq {options : PreparationOptions} {pipeline : Pipeline} {workflow : Workflow}
    (h : ofPipeline options pipeline = .ok workflow) :
    workflow.job = { pipeline with tasks := workflow.job.tasks } := by
  unfold ofPipeline at h
  cases hactivities : Preparation.activities options (Activity.flattenAll pipeline.tasks) .empty with
  | error failure =>
    rw [hactivities] at h
    cases h
  | ok prepared =>
    rw [hactivities] at h
    cases h
    rfl

/-- **Workflows.** The tasks of a job stand for the activities of the flattened pipeline, one for
each and in their order, and the job takes over the rest of the pipeline. If the pipeline has been
converted from a document, its tasks are flat already. -/
theorem Workflow.ofPipeline_mirrors {options : PreparationOptions} {pipeline : Pipeline}
    {workflow : Workflow} (h : ofPipeline options pipeline = .ok workflow) :
    workflow.Mirrors options pipeline ∧
      ∀ strict document trigger, Pipeline.ofDocument strict document trigger = .ok pipeline →
        Activity.flattenAll pipeline.tasks = pipeline.tasks := by
  obtain ⟨artifacts, hactivities, -⟩ := exists_artifacts h
  have htasks := Preparation.activities_standFor _ hactivities
  have hsettings : List.Forall₂ (fun activity (jobTask : JobTask) => activity.task = jobTask.task)
      (Activity.flattenAll pipeline.tasks) workflow.job.tasks :=
    htasks.imp fun _ _ hstands => hstands.task_eq.symm
  have hjob := job_eq h
  refine ⟨?_, fun strict document trigger => Pipeline.flattenAll_tasks⟩
  exact {
    name := congrArg Job.name hjob
    parameters := congrArg Job.parameters hjob
    schedule := congrArg Job.schedule hjob
    tags := congrArg Job.tags hjob
    count := htasks.length_eq.symm
    settings := by
      rw [eq_comm, ← List.forall₂_eq_eq_eq, List.forall₂_map_left_iff, List.forall₂_map_right_iff]
      exact hsettings
    tasks := htasks }

/-! ## A loop in a branch -/

/-- A branch on a loop that archives two tables. -/
def loopInBranch : Json := .obj [
  ("activities", .arr [.obj [
    ("expression", .obj [("value", .str "@equals(1, 2)")]),
    ("if_true_activities",
      .arr ((loopOver [archiveCopy "orders", archiveCopy "customers"]).items "activities")),
    ("name", .str "Check"),
    ("type", .str "IfCondition")]])]

/-- The job runs the check, and then the loop over the archive of the first table. -/
theorem loopInBranch_mirrors :
    ∃ pipeline workflow, Pipeline.ofDocument false loopInBranch none = .ok pipeline ∧
      Workflow.ofPipeline CopyTask.notebookOptions pipeline = .ok workflow ∧
      (workflow.Mirrors CopyTask.notebookOptions pipeline ∧
        Activity.flattenAll pipeline.tasks = pipeline.tasks) ∧
      workflow.job.tasks.map (fun jobTask => (jobTask.task.key, jobTask.kind))
        = [("Check", "condition_task"), ("Each", "for_each_task")] := by
  have hrun : ((Pipeline.ofDocument false loopInBranch none).toOption.bind fun pipeline =>
      (Workflow.ofPipeline CopyTask.notebookOptions pipeline).toOption.map fun workflow =>
        workflow.job.tasks.map fun jobTask => (jobTask.task.key, jobTask.kind))
      = some [("Check", "condition_task"), ("Each", "for_each_task")] := by
    decide +kernel
  cases hpipeline : Pipeline.ofDocument false loopInBranch none with
  | error failure =>
    rw [hpipeline] at hrun
    cases hrun
  | ok pipeline =>
    rw [hpipeline] at hrun
    cases hworkflow : Workflow.ofPipeline CopyTask.notebookOptions pipeline with
    | error failure =>
      simp [Except.toOption, hworkflow] at hrun
    | ok workflow =>
      obtain ⟨hmirrors, hflat⟩ := Workflow.ofPipeline_mirrors hworkflow
      simp only [Except.toOption, Option.bind_some, hworkflow, Option.map_some,
        Option.some.injEq] at hrun
      exact ⟨pipeline, workflow, rfl, hworkflow, ⟨hmirrors, hflat _ _ _ hpipeline⟩, hrun⟩

end FactoryMigration
