import FactoryMigration.Proofs.CopyArtifacts

set_option autoImplicit false

/-! # References to artifacts

Every copy that is prepared has a notebook, also one in the body of a loop that no task of the job
runs. `Visit` pairs the two, and `JobTask.Names` and `Visit.instructions` say which tasks and which
pipelines name their paths. No path is dangling, there is one pipeline for each declarative copy, and
nothing else is stored (`Workflow.ofPipeline_refers`). -/

namespace FactoryMigration

/-- A copy that is prepared, and its notebook. -/
structure Visit where
  copyTask : CopyTask
  notebook : Notebook

namespace Visit

/-- The pipeline of a declarative copy, created from its notebook. -/
def instruction (visit : Visit) : PipelineInstruction :=
  ⟨visit.copyTask.task.key, visit.notebook.path, visit.copyTask.task.key ++ "_pipeline"⟩

/-- The pipelines of visits, one for each declarative copy. -/
def instructions (options : PreparationOptions) (visits : List Visit) :
    List PipelineInstruction :=
  (visits.filter fun visit => options.isDeclarative visit.copyTask.copy).map instruction

theorem instructions_append (options : PreparationOptions) (visits visits' : List Visit) :
    instructions options (visits ++ visits')
      = instructions options visits ++ instructions options visits' := by
  simp only [instructions, List.filter_append, List.map_append]

end Visit

mutual

/-- The task prepared for an activity, with the visits of the copies in it. The task of a declarative
copy runs a pipeline, and that of another copy the notebook of the copy. Of the tasks prepared for the
body of a loop, all but the first are skipped. -/
inductive JobTask.Names (options : PreparationOptions) : Activity → List Visit → JobTask → Prop where
  | declarative {task : Task} {copy : Copy} {notebook : Notebook}
      (h : options.isDeclarative copy = true) :
      Names options (.single task (.copy copy)) [⟨⟨task, copy⟩, notebook⟩] (.run task .pipeline)
  | notebook {task : Task} {copy : Copy} {notebook : Notebook}
      (h : options.isDeclarative copy = false) :
      Names options (.single task (.copy copy)) [⟨⟨task, copy⟩, notebook⟩]
        (.run task (.notebook notebook.path []))
  | work {task : Task} {work : Work} {jobWork : JobWork} (h : work.copyTask? task = none) :
      Names options (.single task work) [] (.run task jobWork)
  | branch {task : Task} {condition : Condition} {children : List Activity} :
      Names options (.branch task condition children) [] (.run task (.condition condition))
  | loop {task : Task} {items : String} {concurrency : Option Nat} {body : List Activity}
      {visits : List Visit} {first : JobTask} {skipped : List JobTask}
      (h : NamesAll options body visits (first :: skipped)) :
      Names options (.loop task items concurrency body) visits
        (.forEach task items concurrency first)

/-- The tasks prepared for activities one after another, with the visits of the copies in them. -/
inductive JobTask.NamesAll (options : PreparationOptions) :
    List Activity → List Visit → List JobTask → Prop where
  | nil : NamesAll options [] [] []
  | cons {activity : Activity} {activities : List Activity} {visits visits' : List Visit}
      {jobTask : JobTask} {jobTasks : List JobTask} (hfirst : Names options activity visits jobTask)
      (hrest : NamesAll options activities visits' jobTasks) :
      NamesAll options (activity :: activities) (visits ++ visits') (jobTask :: jobTasks)

end

/-- The artifacts of a workflow are those of the visits. Each copy that is prepared is visited, its
notebook has its script and is stored, and the tasks and the pipelines of the workflow are those that
name the visits. -/
structure Workflow.Refers (options : PreparationOptions) (pipeline : Pipeline)
    (workflow : Workflow) (visits : List Visit) : Prop where
  copyTasks : visits.map Visit.copyTask = pipeline.copyTasks
  scripts : ∀ visit ∈ visits, visit.copyTask.HasScript options visit.notebook.content
  notebooks : ∀ notebook, notebook ∈ workflow.notebooks ↔ notebook ∈ visits.map Visit.notebook
  tasks : JobTask.NamesAll options (Activity.flattenAll pipeline.tasks) visits workflow.job.tasks
  pipelines : workflow.pipelines = Visit.instructions options visits

/-! ## The run of a preparation -/

namespace Preparation

variable {options : PreparationOptions}

/-- What a preparation with the visits adds: their notebooks, and their pipelines in order. -/
structure Visits (options : PreparationOptions) (visits : List Visit) (before after : Artifacts) :
    Prop where
  scripts : ∀ visit ∈ visits, visit.copyTask.HasScript options visit.notebook.content
  notebooks : ∀ notebook, notebook ∈ after.notebooks ↔
    notebook ∈ before.notebooks ∨ notebook ∈ visits.map Visit.notebook
  pipelines : after.pipelines = before.pipelines ++ Visit.instructions options visits

theorem Visits.nil {before after : Artifacts} (hnotebooks : after.notebooks = before.notebooks)
    (hpipelines : after.pipelines = before.pipelines) : Visits options [] before after := by
  refine ⟨List.forall_mem_nil _, fun notebook => ?_, ?_⟩
  · rw [hnotebooks, List.map_nil, or_iff_left List.not_mem_nil]
  · rw [hpipelines]
    exact (List.append_nil _).symm

theorem Visits.append {first second : List Visit} {before between after : Artifacts}
    (hfirst : Visits options first before between) (hsecond : Visits options second between after) :
    Visits options (first ++ second) before after := by
  refine ⟨List.forall_mem_append.mpr ⟨hfirst.scripts, hsecond.scripts⟩, fun notebook => ?_, ?_⟩
  · rw [hsecond.notebooks, hfirst.notebooks, List.map_append, List.mem_append, or_assoc]
  · rw [hsecond.pipelines, hfirst.pipelines, List.append_assoc, Visit.instructions_append]

/-- One copy is one visit. -/
theorem copy_visits {task : Task} {body : Copy} {before after : Artifacts} {work : JobWork}
    (h : copy options task body before = .ok (work, after)) :
    ∃ notebook, Visits options [⟨⟨task, body⟩, notebook⟩] before after ∧
      JobTask.Names options (.single task (.copy body)) [⟨⟨task, body⟩, notebook⟩]
        (.run task work) := by
  obtain ⟨notebook, hscript, -, hnotebooks, hwork, hpipelines⟩ := copy_copied h
  dsimp only at hwork hpipelines
  have hstored (other : Notebook) : other ∈ after.notebooks ↔
      other ∈ before.notebooks ∨ other ∈ [(⟨⟨task, body⟩, notebook⟩ : Visit)].map Visit.notebook := by
    rw [hnotebooks, Notebook.mem_keep_iff, List.map_singleton, List.mem_singleton]
  refine ⟨notebook, ⟨List.forall_mem_singleton.mpr hscript, hstored, ?_⟩, ?_⟩
  · rw [hpipelines, Visit.instructions, List.filter_singleton]
    cases options.isDeclarative body with
    | true => rfl
    | false => rfl
  · cases hdeclarative : options.isDeclarative body with
    | true =>
      rw [if_pos hdeclarative] at hwork
      exact hwork ▸ .declarative hdeclarative
    | false =>
      rw [hdeclarative, if_neg Bool.false_ne_true] at hwork
      exact hwork ▸ .notebook hdeclarative

theorem work_visits {task : Task} {body : Work} {before after : Artifacts} {jobWork : JobWork}
    (h : work options task body before = .ok (jobWork, after)) :
    ∃ visits, Visits options visits before after ∧
      JobTask.Names options (.single task body) visits (.run task jobWork) := by
  cases body with
  | copy body =>
    obtain ⟨notebook, hvisits, hnames⟩ := copy_visits h
    exact ⟨_, hvisits, hnames⟩
  | _ =>
    cases h
    exact ⟨[], .nil rfl rfl, .work rfl⟩

mutual

/-- **Activities.** A successful preparation of an activity visits its copies. -/
theorem activity_visits : ∀ (item : Activity) {before after : Artifacts} {jobTask : JobTask},
    activity options item before = .ok (jobTask, after) →
    ∃ visits, Visits options visits before after ∧ JobTask.Names options item visits jobTask
  | .single task body, before, after, jobTask, h => by
    rw [activity] at h
    obtain ⟨log, log', h⟩ := exists_of_inScope_ok h
    obtain ⟨jobWork, between, hwork, h⟩ := exists_of_bind_ok h
    obtain ⟨visits, hvisits, hnames⟩ := work_visits hwork
    obtain ⟨rfl, rfl⟩ := Prod.mk.inj (Except.ok.inj h)
    exact ⟨visits, ⟨hvisits.scripts, hvisits.notebooks, hvisits.pipelines⟩, hnames⟩
  | .branch task condition children, before, after, jobTask, h => by
    rw [activity] at h
    obtain ⟨log, log', h⟩ := exists_of_inScope_ok h
    obtain ⟨rfl, hafter⟩ := Prod.mk.inj (Except.ok.inj h)
    exact ⟨[], .nil (congrArg Artifacts.notebooks hafter).symm
      (congrArg Artifacts.pipelines hafter).symm, .branch⟩
  | .loop task items concurrency body, before, after, jobTask, h => by
    rw [activity] at h
    obtain ⟨log, log', h⟩ := exists_of_inScope_ok h
    obtain ⟨jobTasks, between, hbody, h⟩ := exists_of_bind_ok h
    obtain ⟨visits, hvisits, hnames⟩ := activities_visits body hbody
    cases jobTasks with
    | nil => cases h
    | cons first skipped =>
      -- the skipped tasks have left their artifacts
      obtain ⟨rfl, rfl⟩ := Prod.mk.inj (Except.ok.inj h)
      exact ⟨visits, ⟨hvisits.scripts, hvisits.notebooks, hvisits.pipelines⟩, .loop hnames⟩

theorem activities_visits : ∀ (items : List Activity) {before after : Artifacts}
    {jobTasks : List JobTask}, activities options items before = .ok (jobTasks, after) →
    ∃ visits, Visits options visits before after ∧ JobTask.NamesAll options items visits jobTasks
  | [], before, after, jobTasks, h => by
    rw [activities] at h
    cases h
    exact ⟨[], .nil rfl rfl, .nil⟩
  | first :: rest, before, after, jobTasks, h => by
    rw [activities] at h
    obtain ⟨jobTask, between, hfirst, h⟩ := exists_of_bind_ok h
    obtain ⟨jobTasks', between', hrest, h⟩ := exists_of_bind_ok h
    cases h
    obtain ⟨visits, hvisits, hnames⟩ := activity_visits first hfirst
    obtain ⟨visits', hvisits', hnames'⟩ := activities_visits rest hrest
    exact ⟨visits ++ visits', hvisits.append hvisits', .cons hnames hnames'⟩

end

end Preparation

/-! ## Workflows -/

mutual

/-- The visits are those of the copies that are prepared with the activity. -/
theorem JobTask.Names.copyTasks {options : PreparationOptions} : ∀ {activity : Activity}
    {visits : List Visit} {jobTask : JobTask}, Names options activity visits jobTask →
    visits.map Visit.copyTask = activity.copyTasks
  | _, _, _, .declarative _ => rfl
  | _, _, _, .notebook _ => rfl
  | _, _, _, .work h => by rw [Activity.copyTasks, h]; rfl
  | _, _, _, .branch => rfl
  | _, _, _, .loop h => h.copyTasks

theorem JobTask.NamesAll.copyTasks {options : PreparationOptions} : ∀ {activities : List Activity}
    {visits : List Visit} {jobTasks : List JobTask}, NamesAll options activities visits jobTasks →
    visits.map Visit.copyTask = Activity.copyTasksAll activities
  | _, _, _, .nil => rfl
  | _, _, _, .cons hfirst hrest => by
    rw [List.map_append, hfirst.copyTasks, hrest.copyTasks, Activity.copyTasksAll]

end

/-- **References.** The artifacts of a workflow are those of the visits of its copies. -/
theorem Workflow.ofPipeline_refers {options : PreparationOptions} {pipeline : Pipeline}
    {workflow : Workflow} (h : ofPipeline options pipeline = .ok workflow) :
    ∃ visits, workflow.Refers options pipeline visits := by
  obtain ⟨artifacts, hactivities, hnotebooks, -, hpipelines⟩ := exists_artifacts h
  obtain ⟨visits, hvisits, hnames⟩ := Preparation.activities_visits _ hactivities
  refine ⟨visits, hnames.copyTasks, hvisits.scripts, fun notebook => ?_, hnames, ?_⟩
  · rw [hnotebooks, hvisits.notebooks]
    exact or_iff_right List.not_mem_nil
  · rw [hpipelines, hvisits.pipelines]
    exact List.nil_append _

/-! ## Copies in a loop and after it -/

namespace CopyTask

/-- A copy of one column of a table into files. -/
def ofColumnToFiles (key column : String) : CopyTask :=
  let copyTask := ofColumn key column
  { copyTask with
    copy :=
      { copyTask.copy with
        sink := .file ⟨"archive", .parquet, "raw", "orders.parquet", [],
          ⟨"lake", "lake01", "https://lake01.dfs.core.windows.net", none⟩⟩
        sinkSide := ⟨.file .parquet, []⟩ } }

/-- Copies into tables become declarative pipelines, and those into files notebooks. -/
def tableOptions : PreparationOptions :=
  { notebookOptions with filesToDeltaSinks := none }

/-- A loop over two copies, of which the second is skipped, and a copy between the same datasets as the
second. -/
def loopedCopies : Pipeline :=
  let each : Task :=
    { key := "Each"
      type := ActivityKind.forEach.tag
      description := none
      policy := Policy.none
      dependsOn := []
      cluster := none }
  { pipeline [] with
    tasks :=
      .loop each "[]" none
          (pipeline [ofColumnToFiles "First" "price", ofColumn "Second" "id"]).tasks
        :: (pipeline [ofColumn "Third" "price"]).tasks }

/-- The skipped copy has left a notebook and a pipeline, and the last one has stored another script at
a path of its own. -/
theorem loopedCopies_refers :
    ∃ workflow, Workflow.ofPipeline tableOptions loopedCopies = .ok workflow ∧
      workflow.notebooks.map Notebook.path =
        ["/pipemigrate/copy_data_notebooks/copy_orders_raw_to_archive",
          "/pipemigrate/copy_data_notebooks/copy_orders_raw_to_orders",
          "/pipemigrate/copy_data_notebooks/copy_orders_raw_to_orders_Third"] ∧
      workflow.pipelines =
        [⟨"Second", "/pipemigrate/copy_data_notebooks/copy_orders_raw_to_orders",
            "Second_pipeline"⟩,
          ⟨"Third", "/pipemigrate/copy_data_notebooks/copy_orders_raw_to_orders_Third",
            "Third_pipeline"⟩] ∧
      ∃ visits, workflow.Refers tableOptions loopedCopies visits := by
  have hartifacts : (Workflow.ofPipeline tableOptions loopedCopies).toOption.map
        (fun workflow => (workflow.notebooks.map Notebook.path, workflow.pipelines))
      = some
        (["/pipemigrate/copy_data_notebooks/copy_orders_raw_to_archive",
          "/pipemigrate/copy_data_notebooks/copy_orders_raw_to_orders",
          "/pipemigrate/copy_data_notebooks/copy_orders_raw_to_orders_Third"],
        [⟨"Second", "/pipemigrate/copy_data_notebooks/copy_orders_raw_to_orders",
            "Second_pipeline"⟩,
          ⟨"Third", "/pipemigrate/copy_data_notebooks/copy_orders_raw_to_orders_Third",
            "Third_pipeline"⟩]) := by
    decide +kernel
  cases h : Workflow.ofPipeline tableOptions loopedCopies with
  | error failure =>
    rw [h] at hartifacts
    cases hartifacts
  | ok workflow =>
    rw [h] at hartifacts
    obtain ⟨hnotebooks, hpipelines⟩ := Prod.mk.inj (Option.some.inj hartifacts)
    exact ⟨workflow, rfl, hnotebooks, hpipelines, Workflow.ofPipeline_refers h⟩

end CopyTask

end FactoryMigration
