import FactoryMigration.Proofs.SecretInstructions

set_option autoImplicit false

/-! # Account keys in preparations

The key of a storage account goes nowhere but into the value of a secret. Pipelines that differ in
nothing but the account keys of their copies are prepared alike: with one failure, or with the same
job, notebooks, pipelines and diagnostics, and with the same secrets up to their values
(`Workflow.ofPipeline_withoutKeys`). -/

namespace FactoryMigration

/-! ## Pipelines without account keys -/

/-- The storage account without its key. -/
def StorageService.withoutKey (service : StorageService) : StorageService :=
  { service with accountKey := none }

/-- The dataset without the key of its storage account. -/
def Dataset.withoutKey : Dataset → Dataset
  | .file dataset => .file { dataset with service := dataset.service.withoutKey }
  | dataset => dataset

/-- The copy without the keys of its storage accounts. -/
def Copy.withoutKeys (copy : Copy) : Copy :=
  { copy with source := copy.source.withoutKey, sink := copy.sink.withoutKey }

/-- The work without the keys of its storage accounts. -/
def Work.withoutKeys : Work → Work
  | .copy body => .copy body.withoutKeys
  | work => work

namespace Activity

mutual

/-- The tree with every piece of work changed. -/
def mapWork (f : Work → Work) : Activity → Activity
  | single task work => single task (f work)
  | branch task condition children => branch task condition (mapWorkAll f children)
  | loop task items concurrency body => loop task items concurrency (mapWorkAll f body)

/-- The trees with every piece of work changed. -/
def mapWorkAll (f : Work → Work) : List Activity → List Activity
  | [] => []
  | activity :: rest => activity.mapWork f :: mapWorkAll f rest

end

variable (f : Work → Work)

theorem mapWorkAll_append (xs ys : List Activity) :
    mapWorkAll f (xs ++ ys) = mapWorkAll f xs ++ mapWorkAll f ys := by
  induction xs with
  | nil => rfl
  | cons first rest ih => simp only [List.cons_append, mapWorkAll, ih]

mutual

theorem mapWorkAll_flatten : ∀ activity : Activity,
    mapWorkAll f activity.flatten = (activity.mapWork f).flatten
  | single _ _ => rfl
  | branch task condition children => by
    rw [flatten, mapWorkAll, mapWorkAll_flattenAll children, mapWork, mapWork, mapWorkAll, flatten]
  | loop _ _ _ _ => rfl

/-- Work may be changed before or after flattening. -/
theorem mapWorkAll_flattenAll : ∀ activities : List Activity,
    mapWorkAll f (flattenAll activities) = flattenAll (mapWorkAll f activities)
  | [] => rfl
  | first :: rest => by
    rw [flattenAll, mapWorkAll_append, mapWorkAll_flatten first, mapWorkAll_flattenAll rest,
      mapWorkAll, flattenAll]

end

end Activity

/-- The pipeline without the keys of the storage accounts of its copies, at any depth. -/
def Pipeline.withoutKeys (pipeline : Pipeline) : Pipeline :=
  { pipeline with tasks := Activity.mapWorkAll Work.withoutKeys pipeline.tasks }

/-- The secret without its value. -/
def Secret.withoutValue (secret : Secret) : Secret :=
  { secret with value := none }

/-- The workflow without the values of its secrets. -/
def Workflow.withoutValues (workflow : Workflow) : Workflow :=
  { workflow with secrets := workflow.secrets.map Secret.withoutValue }

/-! ## Copies -/

namespace Script

theorem optionBlock_withoutKey (scope name : String) (dataset : Dataset) (side : Side) :
    optionBlock scope name dataset.withoutKey side = optionBlock scope name dataset side := by
  cases dataset <;> rfl

theorem readExpression_withoutKey (library : TemplateLibrary) (name : String) (dataset : Dataset) :
    readExpression library name dataset.withoutKey = readExpression library name dataset := by
  cases dataset <;> rfl

theorem writeExpression_withoutKey (library : TemplateLibrary) (name : String) (dataset : Dataset) :
    writeExpression library name dataset.withoutKey = writeExpression library name dataset := by
  cases dataset <;> rfl

end Script

namespace Dataset

@[simp]
theorem name_withoutKey (dataset : Dataset) : dataset.withoutKey.name = dataset.name := by
  cases dataset <;> rfl

@[simp]
theorem format_withoutKey (dataset : Dataset) : dataset.withoutKey.format = dataset.format := by
  cases dataset <;> rfl

end Dataset

namespace PreparationOptions

variable (options : PreparationOptions) (copy : Copy)

theorem isDeclarative_withoutKeys :
    options.isDeclarative copy.withoutKeys = options.isDeclarative copy := by
  simp [isDeclarative, Copy.withoutKeys]

theorem notebookPath_withoutKeys :
    options.notebookPath copy.withoutKeys = options.notebookPath copy := by
  simp [notebookPath, Copy.withoutKeys]

/-- The script of a copy is written without a look at account keys. -/
theorem script_withoutKeys : options.script copy.withoutKeys = options.script copy := by
  have hnames : Script.Names.ofCopy copy.withoutKeys = Script.Names.ofCopy copy := by
    simp [Script.Names.ofCopy, Copy.withoutKeys]
  have htable (dataset : Dataset) :
      Script.Generator.tableName dataset.withoutKey = Script.Generator.tableName dataset := by
    cases dataset <;> rfl
  simp only [script, isDeclarative_withoutKeys, Script.Generator.declarativeNotebook,
    Script.Generator.copyNotebook, Script.Generator.options, hnames]
  simp only [Copy.withoutKeys, Script.readExpression_withoutKey, Script.writeExpression_withoutKey,
    Script.optionBlock_withoutKey, Dataset.name_withoutKey, Dataset.format_withoutKey, htable]

/-- Without account keys a copy asks for the same secrets, up to their values. -/
theorem secrets_withoutKeys :
    (options.secrets copy.withoutKeys).map Secret.withoutValue
      = (options.secrets copy).map Secret.withoutValue := by
  have hdataset (dataset : Dataset) :
      (Secret.ofDataset options.secretScope dataset.withoutKey).map Secret.withoutValue
        = (Secret.ofDataset options.secretScope dataset).map Secret.withoutValue := by
    cases dataset <;> rfl
  simp only [secrets, Copy.withoutKeys, List.map_append, hdataset]

end PreparationOptions

/-! ## Artifacts -/

namespace Artifacts

/-- The artifacts without the values of their secrets. -/
def withoutValues (artifacts : Artifacts) : Artifacts :=
  { artifacts with secrets := artifacts.secrets.map Secret.withoutValue }

theorem withoutValues_addSecret (artifacts : Artifacts) (secret : Secret) :
    (artifacts.addSecret secret).withoutValues
      = artifacts.withoutValues.addSecret secret.withoutValue := by
  unfold addSecret withoutValues
  simp only [List.any_map]
  split
  · rename_i hknown
    rw [if_pos]
    exact hknown
  · rename_i hnew
    rw [if_neg]
    · simp
    · exact hnew

theorem withoutValues_foldl_addSecret (secrets : List Secret) (artifacts : Artifacts) :
    (secrets.foldl addSecret artifacts).withoutValues
      = (secrets.map Secret.withoutValue).foldl addSecret artifacts.withoutValues := by
  induction secrets generalizing artifacts with
  | nil => rfl
  | cons secret rest ih =>
    rw [List.foldl_cons, ih, withoutValues_addSecret, List.map_cons, List.foldl_cons]

theorem withoutValues_addNotebook (artifacts : Artifacts) (path content taskKey : String) :
    artifacts.withoutValues.addNotebook path content taskKey
      = ((artifacts.addNotebook path content taskKey).1,
        (artifacts.addNotebook path content taskKey).2.withoutValues) := by
  unfold addNotebook withoutValues
  simp only
  split <;> rfl

end Artifacts

/-! ## Preparations -/

namespace Preparation

variable {α β : Type}

/-- A result without the values of the secrets. -/
def withoutValues (result : Except Failure (α × Artifacts)) : Except Failure (α × Artifacts) :=
  result.map fun (value, artifacts) => (value, artifacts.withoutValues)

/-- Results that are the same up to the values of secrets are the same failure, or the same value with
artifacts of that kind. -/
theorem eq_or_eq_of_withoutValues {result result' : Except Failure (α × Artifacts)}
    (h : withoutValues result = withoutValues result') :
    (∃ failure, result = .error failure ∧ result' = .error failure) ∨
      ∃ value after after', result = .ok (value, after) ∧ result' = .ok (value, after') ∧
        after.withoutValues = after'.withoutValues := by
  cases result with
  | error failure =>
    cases result' with
    | error failure' =>
      cases h
      exact .inl ⟨failure, rfl, rfl⟩
    | ok done => cases h
  | ok done =>
    cases result' with
    | error failure => cases h
    | ok done' =>
      obtain ⟨value, after⟩ := done
      obtain ⟨value', after'⟩ := done'
      obtain ⟨hvalue, hafter⟩ := Prod.mk.inj (Except.ok.inj h)
      obtain rfl : value = value' := hvalue
      exact .inr ⟨value, after, after', rfl, rfl, hafter⟩

/-- From artifacts with the same secrets up to their values, both preparations end with the same
failure, or with the same value and artifacts of that kind again. -/
def Alike (c d : Preparation α) : Prop :=
  ∀ before before' : Artifacts, before.withoutValues = before'.withoutValues →
    withoutValues (c before) = withoutValues (d before')

theorem Alike.done (value : α) : Alike (done value) (done value) := by
  intro before before' hbefore
  simp only [withoutValues, Preparation.done, Except.map, hbefore]

theorem Alike.fail (failure : Failure) : Alike (fail failure : Preparation α) (fail failure) :=
  fun _ _ _ => rfl

theorem Alike.bind {c d : Preparation α} {f g : α → Preparation β} (h : Alike c d)
    (hf : ∀ value, Alike (f value) (g value)) : Alike (c >>= f) (d >>= g) := by
  intro before before' hbefore
  simp only [Bind.bind, andThen]
  rcases eq_or_eq_of_withoutValues (h before before' hbefore) with
    ⟨failure, hc, hd⟩ | ⟨value, after, after', hc, hd, hafter⟩
  · rw [hc, hd]
  · rw [hc, hd]
    exact hf value after after' hafter

theorem Alike.inScope {c d : Preparation α} (scope : Scope) (h : Alike c d) :
    Alike (inScope scope c) (inScope scope d) := by
  intro before before' hbefore
  have henter : ({ before with log := before.log.enter scope } : Artifacts).withoutValues
      = ({ before' with log := before'.log.enter scope } : Artifacts).withoutValues :=
    congrArg (fun artifacts : Artifacts => { artifacts with log := artifacts.log.enter scope })
      hbefore
  unfold Preparation.inScope
  rcases eq_or_eq_of_withoutValues (h _ _ henter) with
    ⟨failure, hc, hd⟩ | ⟨value, after, after', hc, hd, hafter⟩
  · rw [hc, hd]
  · rw [hc, hd]
    exact congrArg (fun artifacts : Artifacts =>
      (.ok (value, { artifacts with log := artifacts.log.exit }) :
        Except Failure (α × Artifacts))) hafter

variable {options : PreparationOptions}

theorem copy_alike (task : Task) (body : Copy) :
    Alike (copy options task body) (copy options task body.withoutKeys) := by
  intro before before' hbefore
  have hadded : ((options.secrets body).foldl Artifacts.addSecret before).withoutValues
      = ((options.secrets body.withoutKeys).foldl Artifacts.addSecret before').withoutValues := by
    rw [Artifacts.withoutValues_foldl_addSecret, Artifacts.withoutValues_foldl_addSecret, hbefore,
      options.secrets_withoutKeys]
  unfold copy
  dsimp only
  rw [options.script_withoutKeys, options.notebookPath_withoutKeys,
    options.isDeclarative_withoutKeys]
  cases (options.script body).value with
  | error failure => rfl
  | ok content =>
    generalize (options.secrets body).foldl Artifacts.addSecret before = added at hadded
    generalize (options.secrets body.withoutKeys).foldl Artifacts.addSecret before' = added' at hadded
    -- notes and notebook are added without a look at the secrets
    have hstored := congrArg (fun artifacts : Artifacts =>
      (artifacts.record (options.script body).notes).addNotebook (options.notebookPath body) content
        task.key) hadded
    change (added.record (options.script body).notes).withoutValues.addNotebook _ _ _
      = (added'.record (options.script body).notes).withoutValues.addNotebook _ _ _ at hstored
    rw [Artifacts.withoutValues_addNotebook, Artifacts.withoutValues_addNotebook] at hstored
    obtain ⟨hpath, hafter⟩ := Prod.mk.inj hstored
    dsimp only
    rw [hpath]
    split
    · exact congrArg (fun artifacts : Artifacts =>
        (.ok (.pipeline, artifacts.addPipeline _) : Except Failure (JobWork × Artifacts))) hafter
    · exact congrArg (fun artifacts : Artifacts =>
        (.ok (.notebook _ [], artifacts) : Except Failure (JobWork × Artifacts))) hafter

theorem work_alike (task : Task) (body : Work) :
    Alike (work options task body) (work options task body.withoutKeys) := by
  cases body with
  | copy body => exact copy_alike task body
  | _ => exact .done _

mutual

/-- **Activities.** An activity is prepared like the same activity without account keys. -/
theorem activity_alike : ∀ item : Activity,
    Alike (activity options item) (activity options (item.mapWork Work.withoutKeys))
  | .single task body => by
    rw [Activity.mapWork, activity, activity]
    exact .inScope _ ((work_alike task body).bind fun _ => .done _)
  | .branch task condition children => by
    rw [Activity.mapWork, activity, activity]
    exact .inScope _ (.done _)
  | .loop task items concurrency body => by
    rw [Activity.mapWork, activity, activity]
    refine .inScope _ ((activities_alike body).bind fun jobTasks => ?_)
    cases jobTasks with
    | nil => exact .fail _
    | cons first rest => exact .done _

theorem activities_alike : ∀ items : List Activity,
    Alike (activities options items) (activities options (Activity.mapWorkAll Work.withoutKeys items))
  | [] => by
    rw [Activity.mapWorkAll, activities]
    exact .done _
  | first :: rest => by
    rw [Activity.mapWorkAll, activities, activities]
    exact (activity_alike first).bind fun _ => (activities_alike rest).bind fun _ => .done _

end

end Preparation

/-! ## Workflows -/

/-- A pipeline is prepared like the same pipeline without account keys. -/
theorem Workflow.withoutValues_ofPipeline (options : PreparationOptions) (pipeline : Pipeline) :
    (ofPipeline options pipeline).map withoutValues
      = (ofPipeline options pipeline.withoutKeys).map withoutValues := by
  have hactivities := @Preparation.activities_alike options
    (Activity.flattenAll pipeline.tasks) .empty .empty rfl
  rw [Activity.mapWorkAll_flattenAll] at hactivities
  unfold ofPipeline
  change (Preparation.activities options (Activity.flattenAll pipeline.tasks) .empty >>= _).map _
    = (Preparation.activities options
        (Activity.flattenAll (Activity.mapWorkAll Work.withoutKeys pipeline.tasks)) .empty >>= _).map _
  rcases Preparation.eq_or_eq_of_withoutValues hactivities with
    ⟨failure, hc, hd⟩ | ⟨jobTasks, after, after', hc, hd, hafter⟩
  · rw [hc, hd]
    rfl
  · rw [hc, hd]
    exact congrArg (fun artifacts : Artifacts => (.ok
      { job := ⟨pipeline.name, pipeline.parameters, pipeline.schedule, pipeline.tags, jobTasks⟩
        notebooks := artifacts.notebooks
        pipelines := artifacts.pipelines
        secrets := artifacts.secrets
        notTranslatable := pipeline.notTranslatable ++ artifacts.log.entries } :
      Except Failure Workflow)) hafter

/-- **Account keys.** Pipelines that are the same without the account keys of their copies are
prepared alike: they fail alike, or they have the same job, notebooks, pipelines and diagnostics, and
the same secrets up to their values. -/
theorem Workflow.ofPipeline_withoutKeys {pipeline pipeline' : Pipeline}
    (h : pipeline.withoutKeys = pipeline'.withoutKeys) (options : PreparationOptions) :
    (ofPipeline options pipeline).map withoutValues
      = (ofPipeline options pipeline').map withoutValues := by
  rw [withoutValues_ofPipeline, h, ← withoutValues_ofPipeline]

/-! ## A loop with and without a key -/

/-- Parquet files in a storage account with or without a key. -/
def Dataset.inLake (key : Option String) (name : String) : Dataset :=
  .file {
    name := name
    format := .parquet
    container := "raw"
    path := name ++ ".parquet"
    options := []
    service := ⟨"lake", "lake01", "https://lake01.blob.core.windows.net/", key⟩ }

/-- A loop that copies such files. -/
def lakeLoop (key : Option String) : Pipeline :=
  let task := (CopyTask.ofColumn "copy_orders" "id").task
  let copy : Copy :=
    { source := .inLake key "orders"
      sink := .inLake key "archive"
      sourceSide := ⟨.file .parquet, []⟩
      sinkSide := ⟨.file .parquet, []⟩
      columns := [] }
  { CopyTask.pipeline [] with
    tasks := [.loop { task with type := ActivityKind.forEach.tag } "[\"1\"]" none
      [.single task (.copy copy)]] }

/-- The key makes no difference but to the value of the secret. -/
theorem lakeLoop_prepared :
    (lakeLoop none).withoutKeys = (lakeLoop (some "bGFrZQ==")).withoutKeys ∧
      (Workflow.ofPipeline CopyTask.notebookOptions (lakeLoop none)).map Workflow.withoutValues
        = (Workflow.ofPipeline CopyTask.notebookOptions (lakeLoop (some "bGFrZQ=="))).map
            Workflow.withoutValues ∧
      [none, some "bGFrZQ=="].map (fun key =>
          (Workflow.ofPipeline CopyTask.notebookOptions (lakeLoop key)).toOption.map
            fun workflow => workflow.secrets.map Secret.value)
        = [some [none], some [some "bGFrZQ=="]] :=
  ⟨rfl, Workflow.ofPipeline_withoutKeys rfl CopyTask.notebookOptions, by decide +kernel⟩

end FactoryMigration
