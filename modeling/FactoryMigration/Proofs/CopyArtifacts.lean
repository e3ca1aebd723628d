import FactoryMigration.Proofs.PreparationFailure

set_option autoImplicit false

/-! # Artifacts of copies

A preparation comes by the tasks of a flat list and by the bodies of loops. A branch in the body of a
loop is not flattened, and its children are not prepared: their copies are lost, unless another copy
happens to leave the same script and the same secrets (`Workflow.ofPipeline_holds_iff`). -/

namespace FactoryMigration

/-! ## Copies of a tree -/

namespace Activity

mutual

/-- All copies of an activity, at any depth. -/
def everyCopy : Activity → List CopyTask
  | single task work => (work.copyTask? task).toList
  | branch _ _ children => everyCopyAll children
  | loop _ _ _ body => everyCopyAll body

/-- All copies of activities, one after another. -/
def everyCopyAll : List Activity → List CopyTask
  | [] => []
  | activity :: rest => activity.everyCopy ++ everyCopyAll rest

end

mutual

/-- The copies of an activity that are under a branch. -/
def branchCopies : Activity → List CopyTask
  | single _ _ => []
  | branch _ _ children => everyCopyAll children
  | loop _ _ _ body => branchCopiesAll body

/-- The copies of activities that are under a branch. -/
def branchCopiesAll : List Activity → List CopyTask
  | [] => []
  | activity :: rest => activity.branchCopies ++ branchCopiesAll rest

end

mutual

/-- A copy is prepared with its activity unless it is under a branch. -/
theorem mem_everyCopy_iff (copyTask : CopyTask) : ∀ activity : Activity,
    copyTask ∈ activity.everyCopy ↔
      copyTask ∈ activity.copyTasks ∨ copyTask ∈ activity.branchCopies
  | single _ _ => by simp [everyCopy, copyTasks, branchCopies]
  | branch _ _ _ => by simp [everyCopy, copyTasks, branchCopies]
  | loop _ _ _ body => by
    rw [everyCopy, copyTasks, branchCopies]
    exact mem_everyCopyAll_iff copyTask body

theorem mem_everyCopyAll_iff (copyTask : CopyTask) : ∀ activities : List Activity,
    copyTask ∈ everyCopyAll activities ↔
      copyTask ∈ copyTasksAll activities ∨ copyTask ∈ branchCopiesAll activities
  | [] => by simp [everyCopyAll, copyTasksAll, branchCopiesAll]
  | first :: rest => by
    rw [everyCopyAll, copyTasksAll, branchCopiesAll, List.mem_append, List.mem_append,
      List.mem_append, mem_everyCopy_iff copyTask first, mem_everyCopyAll_iff copyTask rest,
      or_or_or_comm]

end

theorem everyCopyAll_append (xs ys : List Activity) :
    everyCopyAll (xs ++ ys) = everyCopyAll xs ++ everyCopyAll ys := by
  induction xs with
  | nil => rfl
  | cons first rest ih => rw [List.cons_append, everyCopyAll, everyCopyAll, ih, List.append_assoc]

mutual

/-- Flattening keeps all copies. -/
theorem everyCopyAll_flatten : ∀ activity : Activity,
    everyCopyAll activity.flatten = activity.everyCopy
  | single _ _ => by simp [flatten, everyCopyAll]
  | branch _ _ children => by
    rw [flatten, everyCopyAll, everyCopyAll_flattenAll children, everyCopy, everyCopy,
      everyCopyAll, List.nil_append]
  | loop _ _ _ _ => by simp [flatten, everyCopyAll]

theorem everyCopyAll_flattenAll : ∀ activities : List Activity,
    everyCopyAll (flattenAll activities) = everyCopyAll activities
  | [] => rfl
  | first :: rest => by
    rw [flattenAll, everyCopyAll_append, everyCopyAll_flatten first, everyCopyAll_flattenAll rest,
      everyCopyAll]

end

end Activity

namespace Pipeline

/-- All copies of a pipeline, at any depth. -/
def everyCopy (pipeline : Pipeline) : List CopyTask :=
  Activity.everyCopyAll pipeline.tasks

/-- The copies of a pipeline that are under a branch in the body of a loop: once the tasks are
flattened, no other branch has children. -/
def lostCopies (pipeline : Pipeline) : List CopyTask :=
  Activity.branchCopiesAll (Activity.flattenAll pipeline.tasks)

theorem mem_everyCopy_iff (pipeline : Pipeline) (copyTask : CopyTask) :
    copyTask ∈ pipeline.everyCopy ↔
      copyTask ∈ pipeline.copyTasks ∨ copyTask ∈ pipeline.lostCopies := by
  unfold everyCopy copyTasks lostCopies
  rw [← Activity.everyCopyAll_flattenAll, Activity.mem_everyCopyAll_iff]

end Pipeline

/-! ## Secrets and scripts of copies -/

namespace Secret

/-- What tells secrets apart. -/
def identity (secret : Secret) : String × String :=
  (secret.scope, secret.key)

/-- The secrets with one more, unless there is one of its scope and key. -/
def keep (secrets : List Secret) (secret : Secret) : List Secret :=
  if secret.identity ∈ secrets.map identity then secrets else secrets ++ [secret]

theorem mem_identities_keep (secrets : List Secret) (secret : Secret) (id : String × String) :
    id ∈ (keep secrets secret).map identity ↔
      id ∈ secrets.map identity ∨ id = secret.identity := by
  unfold keep
  split
  · rename_i hmem
    constructor
    · exact .inl
    · rintro (h | rfl)
      · exact h
      · exact hmem
  · rw [List.map_append, List.mem_append, List.map_singleton, List.mem_singleton]

theorem mem_identities_foldl_keep (added secrets : List Secret) (id : String × String) :
    id ∈ (added.foldl keep secrets).map identity ↔
      id ∈ secrets.map identity ∨ id ∈ added.map identity := by
  induction added generalizing secrets with
  | nil => simp
  | cons first rest ih =>
    rw [List.foldl_cons, ih, mem_identities_keep, List.map_cons, List.mem_cons, or_assoc]

end Secret

theorem Artifacts.secrets_addSecret (artifacts : Artifacts) (secret : Secret) :
    (artifacts.addSecret secret).secrets = Secret.keep artifacts.secrets secret := by
  have hany : (artifacts.secrets.any fun s => s.scope == secret.scope && s.key == secret.key) = true ↔
      secret.identity ∈ artifacts.secrets.map Secret.identity := by
    simp [Secret.identity, List.any_eq_true]
  unfold addSecret Secret.keep
  simp only [hany]
  split
  · rfl
  · rfl

theorem Artifacts.secrets_foldl_addSecret (secrets : List Secret) (artifacts : Artifacts) :
    (secrets.foldl addSecret artifacts).secrets = secrets.foldl Secret.keep artifacts.secrets := by
  induction secrets generalizing artifacts with
  | nil => rfl
  | cons first rest ih => rw [List.foldl_cons, ih, secrets_addSecret, List.foldl_cons]

theorem Artifacts.secrets_addNotebook (artifacts : Artifacts) (path content taskKey : String) :
    (artifacts.addNotebook path content taskKey).2.secrets = artifacts.secrets := by
  unfold addNotebook
  dsimp only
  split
  · rfl
  · rfl

namespace Notebook

theorem mem_contents_keep (notebooks : List Notebook) (notebook : Notebook) (text : String) :
    text ∈ (keep notebooks notebook).map content ↔
      text ∈ notebooks.map content ∨ text = notebook.content := by
  simp only [List.mem_map, mem_keep_iff, or_and_right, exists_or, exists_eq_left, @eq_comm _ text]

end Notebook

namespace CopyTask

variable (options : PreparationOptions)

/-- The copy gets a notebook of the content. -/
def HasScript (content : String) (copyTask : CopyTask) : Prop :=
  (options.script copyTask.copy).value = .ok content

/-- The secrets of copies, one copy after another. -/
def secretsAll (copyTasks : List CopyTask) : List Secret :=
  copyTasks.flatMap fun copyTask => options.secrets copyTask.copy

variable {options}

/-- Whatever paths they get, the notebooks of copies are those of their scripts. -/
theorem mem_contents_foldl_store (copyTasks : List CopyTask) (notebooks : List Notebook)
    (content : String) :
    content ∈ (copyTasks.foldl (store options) notebooks).map Notebook.content ↔
      content ∈ notebooks.map Notebook.content ∨
        ∃ copyTask ∈ copyTasks, copyTask.HasScript options content := by
  induction copyTasks generalizing notebooks with
  | nil => simp
  | cons first rest ih =>
    have hfirst : content ∈ (first.store options notebooks).map Notebook.content ↔
        content ∈ notebooks.map Notebook.content ∨ first.HasScript options content := by
      unfold store HasScript
      cases (options.script first.copy).value with
      | error failure => simp
      | ok script => rw [Notebook.mem_contents_keep, Except.ok.injEq, eq_comm]
    rw [List.foldl_cons, ih, hfirst, List.exists_mem_cons_iff, or_assoc]

end CopyTask

/-! ## The run of a preparation -/

namespace Preparation

variable {options : PreparationOptions}

/-- What a preparation that comes by the copies collects: each has a script, and its secrets are kept
after those before. -/
structure Collects (options : PreparationOptions) (copyTasks : List CopyTask)
    (before after : Artifacts) : Prop where
  scripts : ∀ copyTask ∈ copyTasks, ∃ content, copyTask.HasScript options content
  secrets : after.secrets = (CopyTask.secretsAll options copyTasks).foldl Secret.keep before.secrets

theorem Collects.nil {before after : Artifacts} (h : after.secrets = before.secrets) :
    Collects options [] before after :=
  ⟨List.forall_mem_nil _, h⟩

theorem Collects.append {first second : List CopyTask} {before between after : Artifacts}
    (hfirst : Collects options first before between)
    (hsecond : Collects options second between after) :
    Collects options (first ++ second) before after := by
  refine ⟨List.forall_mem_append.mpr ⟨hfirst.scripts, hsecond.scripts⟩, ?_⟩
  rw [hsecond.secrets, hfirst.secrets, CopyTask.secretsAll, CopyTask.secretsAll,
    CopyTask.secretsAll, List.flatMap_append, List.foldl_append]

theorem copy_collects {task : Task} {body : Copy} {before after : Artifacts} {work : JobWork}
    (h : copy options task body before = .ok (work, after)) :
    Collects options [⟨task, body⟩] before after := by
  simp only [copy] at h
  split at h
  · cases h
  · rename_i content hcontent
    have hsecrets : after.secrets = (options.secrets body).foldl Secret.keep before.secrets := by
      rw [← Artifacts.secrets_foldl_addSecret]
      -- notes, notebook and pipeline come after the secrets and leave them alone
      split at h
      · cases h
        exact Artifacts.secrets_addNotebook _ _ _ _
      · cases h
        exact Artifacts.secrets_addNotebook _ _ _ _
    refine ⟨List.forall_mem_singleton.mpr ⟨content, hcontent⟩, ?_⟩
    rw [hsecrets, CopyTask.secretsAll, List.flatMap_singleton]

theorem work_collects {task : Task} {body : Work} {before after : Artifacts} {jobWork : JobWork}
    (h : work options task body before = .ok (jobWork, after)) :
    Collects options (body.copyTask? task).toList before after := by
  cases body with
  | copy body => exact copy_collects h
  | _ =>
    cases h
    exact .nil rfl

mutual

/-- **Activities.** A successful preparation of an activity collects its copies. -/
theorem activity_collects : ∀ (item : Activity) {before after : Artifacts} {jobTask : JobTask},
    activity options item before = .ok (jobTask, after) →
    Collects options item.copyTasks before after
  | .single task body, before, after, jobTask, h => by
    rw [activity] at h
    obtain ⟨log, log', h⟩ := exists_of_inScope_ok h
    obtain ⟨jobWork, between, hwork, h⟩ := exists_of_bind_ok h
    have hcollects := work_collects hwork
    obtain ⟨-, rfl⟩ := Prod.mk.inj (Except.ok.inj h)
    exact ⟨hcollects.scripts, hcollects.secrets⟩
  | .branch task condition children, before, after, jobTask, h => by
    -- nothing is collected from the children
    rw [activity] at h
    obtain ⟨log, log', h⟩ := exists_of_inScope_ok h
    obtain ⟨-, hafter⟩ := Prod.mk.inj (Except.ok.inj h)
    exact .nil (congrArg Artifacts.secrets hafter).symm
  | .loop task items concurrency body, before, after, jobTask, h => by
    rw [activity] at h
    obtain ⟨log, log', h⟩ := exists_of_inScope_ok h
    obtain ⟨jobTasks, between, hbody, h⟩ := exists_of_bind_ok h
    have hcollects := activities_collects body hbody
    cases jobTasks with
    | nil => cases h
    | cons first rest =>
      obtain ⟨-, rfl⟩ := Prod.mk.inj (Except.ok.inj h)
      exact ⟨hcollects.scripts, hcollects.secrets⟩

theorem activities_collects : ∀ (items : List Activity) {before after : Artifacts}
    {jobTasks : List JobTask}, activities options items before = .ok (jobTasks, after) →
    Collects options (Activity.copyTasksAll items) before after
  | [], before, after, jobTasks, h => by
    rw [activities] at h
    cases h
    exact .nil rfl
  | first :: rest, before, after, jobTasks, h => by
    rw [activities] at h
    obtain ⟨jobTask, between, hfirst, h⟩ := exists_of_bind_ok h
    obtain ⟨jobTasks', between', hrest, h⟩ := exists_of_bind_ok h
    cases h
    exact (activity_collects first hfirst).append (activities_collects rest hrest)

end

end Preparation

/-! ## Workflows -/

/-- The script of the copy is among the notebooks, and there is an instruction for each of its
secrets. -/
structure Workflow.Holds (options : PreparationOptions) (workflow : Workflow)
    (copyTask : CopyTask) : Prop where
  script : ∃ content ∈ workflow.notebooks.map Notebook.content, copyTask.HasScript options content
  secrets : ∀ secret ∈ options.secrets copyTask.copy,
    secret.identity ∈ workflow.secrets.map Secret.identity

/-- Other copies have the script and the secrets of the copy. -/
structure CopyTask.Covered (options : PreparationOptions) (others : List CopyTask)
    (copyTask : CopyTask) : Prop where
  script : ∃ content, copyTask.HasScript options content ∧
    ∃ other ∈ others, other.HasScript options content
  secrets : ∀ secret ∈ options.secrets copyTask.copy,
    secret.identity ∈ (CopyTask.secretsAll options others).map Secret.identity

/-- A workflow holds the artifacts of the copies that are prepared, and nothing else. -/
theorem Workflow.holds_iff_covered {options : PreparationOptions} {pipeline : Pipeline}
    {workflow : Workflow} (h : ofPipeline options pipeline = .ok workflow) (copyTask : CopyTask) :
    workflow.Holds options copyTask ↔ copyTask.Covered options pipeline.copyTasks := by
  obtain ⟨artifacts, hactivities, hnotebooks, hsecrets, -⟩ := exists_artifacts h
  have hstored : artifacts.notebooks = pipeline.copyTasks.foldl (CopyTask.store options) [] :=
    (Preparation.activities_adds _ hactivities).1.notebooks
  have hkept : artifacts.secrets
      = (CopyTask.secretsAll options pipeline.copyTasks).foldl Secret.keep [] :=
    (Preparation.activities_collects _ hactivities).secrets
  have hscript (content : String) : content ∈ workflow.notebooks.map Notebook.content ↔
      ∃ other ∈ pipeline.copyTasks, other.HasScript options content := by
    simp [hnotebooks, hstored, CopyTask.mem_contents_foldl_store]
  have hidentity (id : String × String) : id ∈ workflow.secrets.map Secret.identity ↔
      id ∈ (CopyTask.secretsAll options pipeline.copyTasks).map Secret.identity := by
    rw [hsecrets, hkept, Secret.mem_identities_foldl_keep]
    simp
  constructor
  · rintro ⟨⟨content, hmem, hcontent⟩, hall⟩
    exact ⟨⟨content, hcontent, (hscript content).mp hmem⟩,
      fun secret hsecret => (hidentity _).mp (hall secret hsecret)⟩
  · rintro ⟨⟨content, hcontent, hother⟩, hall⟩
    exact ⟨⟨content, (hscript content).mpr hother, hcontent⟩,
      fun secret hsecret => (hidentity _).mpr (hall secret hsecret)⟩

/-- **Copies.** The artifacts of every copy of a pipeline are in its workflow, except for the copies
under a branch in the body of a loop. Theirs are there exactly if other copies have the same. -/
theorem Workflow.ofPipeline_holds_iff {options : PreparationOptions} {pipeline : Pipeline}
    {workflow : Workflow} (h : ofPipeline options pipeline = .ok workflow) :
    (∀ copyTask ∈ pipeline.everyCopy, copyTask ∉ pipeline.lostCopies →
      workflow.Holds options copyTask) ∧
    ((∀ copyTask ∈ pipeline.everyCopy, workflow.Holds options copyTask) ↔
      ∀ copyTask ∈ pipeline.lostCopies, copyTask.Covered options pipeline.copyTasks) := by
  obtain ⟨artifacts, hactivities, -, -⟩ := exists_artifacts h
  have hprepared : ∀ copyTask ∈ pipeline.copyTasks, workflow.Holds options copyTask := by
    intro copyTask hmem
    obtain ⟨content, hcontent⟩ :=
      (Preparation.activities_collects _ hactivities).scripts copyTask hmem
    refine (holds_iff_covered h copyTask).mpr ⟨⟨content, hcontent, copyTask, hmem, hcontent⟩, ?_⟩
    intro secret hsecret
    exact List.mem_map_of_mem (List.mem_flatMap.mpr ⟨copyTask, hmem, hsecret⟩)
  refine ⟨fun copyTask hmem hlost => ?_, fun hall copyTask hlost => ?_, fun hcovered copyTask hmem => ?_⟩
  · exact hprepared copyTask (((pipeline.mem_everyCopy_iff copyTask).mp hmem).resolve_right hlost)
  · exact (holds_iff_covered h copyTask).mp
      (hall copyTask ((pipeline.mem_everyCopy_iff copyTask).mpr (.inr hlost)))
  · rcases (pipeline.mem_everyCopy_iff copyTask).mp hmem with hcopy | hlost
    · exact hprepared copyTask hcopy
    · exact (holds_iff_covered h copyTask).mpr (hcovered copyTask hlost)

/-! ## A branch in a loop -/

/-- A loop that archives one table, and another one under a branch. -/
def branchInLoop : Json := loopOver [
  archiveCopy "orders",
  .obj [
    ("expression", .obj [("value", .str "@equals(1, 2)")]),
    ("if_true_activities", .arr [archiveCopy "customers"]),
    ("name", .str "Check"),
    ("type", .str "IfCondition")]]

/-- The copy under the branch has secrets that no other copy has, so they are lost. -/
theorem branchInLoop_not_holds :
    ∃ pipeline workflow, Pipeline.ofDocument false branchInLoop none = .ok pipeline ∧
      Workflow.ofPipeline CopyTask.notebookOptions pipeline = .ok workflow ∧
      ¬∀ copyTask ∈ pipeline.everyCopy, workflow.Holds CopyTask.notebookOptions copyTask := by
  have hlost : ((Pipeline.ofDocument false branchInLoop none).toOption.map fun pipeline =>
      ((Workflow.ofPipeline CopyTask.notebookOptions pipeline).isOk,
        decide (∃ lost ∈ pipeline.lostCopies,
          ∃ secret ∈ CopyTask.notebookOptions.secrets lost.copy,
            secret.identity ∉ (CopyTask.secretsAll CopyTask.notebookOptions
              pipeline.copyTasks).map Secret.identity))) = some (true, true) := by
    decide +kernel
  cases hpipeline : Pipeline.ofDocument false branchInLoop none with
  | error failure =>
    rw [hpipeline] at hlost
    cases hlost
  | ok pipeline =>
    rw [hpipeline] at hlost
    obtain ⟨hok, hsecret⟩ := Prod.mk.inj (Option.some.inj hlost)
    obtain ⟨lost, hmem, secret, hsecret, hnone⟩ := of_decide_eq_true hsecret
    cases hworkflow : Workflow.ofPipeline CopyTask.notebookOptions pipeline with
    | error failure =>
      rw [hworkflow] at hok
      cases hok
    | ok workflow =>
      refine ⟨pipeline, workflow, rfl, hworkflow, fun hall => ?_⟩
      have hcovered := (Workflow.ofPipeline_holds_iff hworkflow).2.mp hall lost hmem
      exact hnone (hcovered.secrets secret hsecret)

/-- Of two copies, one has left its notebook and its secrets. -/
theorem branchInLoop_lost :
    ((Pipeline.ofDocument false branchInLoop none).toOption.bind fun pipeline =>
      (Workflow.ofPipeline CopyTask.notebookOptions pipeline).toOption.map fun workflow =>
        (pipeline.everyCopy.map (·.task.key), workflow.notebooks.map Notebook.path,
          workflow.secrets.map Secret.key))
      = some (["archive_orders", "archive_customers"],
        ["/pipemigrate/copy_data_notebooks/copy_orders_to_archive"],
        ["orders_server_host", "orders_server_database", "orders_server_user_name",
          "orders_server_password", "lake_storage_account_key"]) := by
  decide +kernel

end FactoryMigration
