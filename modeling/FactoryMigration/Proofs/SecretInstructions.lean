import FactoryMigration.Proofs.CopyArtifacts

set_option autoImplicit false

/-! # Instructions to create secrets

Datasets of one service ask for the same secrets, and the first of them decides: its instruction is
kept, with the value if the definition of its service holds one, and without it otherwise. A value
that only a later dataset knows is dropped (`Workflow.ofPipeline_provides_iff`). -/

namespace FactoryMigration

/-- The datasets of a copy, the source first. -/
def Copy.datasets (copy : Copy) : List Dataset :=
  [copy.source, copy.sink]

theorem PreparationOptions.secrets_eq_flatMap (options : PreparationOptions) (copy : Copy) :
    options.secrets copy = copy.datasets.flatMap (Secret.ofDataset options.secretScope) := by
  simp [secrets, Copy.datasets]

/-! ## The first secret of a scope and key -/

namespace Secret

/-- The secrets of a scope and key. -/
def having (id : String × String) (secrets : List Secret) : List Secret :=
  secrets.filter (·.identity == id)

/-- The first secret of a scope and key. -/
def first? (id : String × String) (secrets : List Secret) : Option Secret :=
  secrets.find? (·.identity == id)

/-- The first secret of its scope and key, among those that were asked for, has no value. -/
def Shadowed (asked : List Secret) (secret : Secret) : Prop :=
  ∃ first, first? secret.identity asked = some first ∧ first.value = none

instance (asked : List Secret) (secret : Secret) : Decidable (secret.Shadowed asked) :=
  decidable_of_iff ((first? secret.identity asked).any (·.value.isNone) = true) (by
    simp [Shadowed, Option.any_eq_true])

theorem first?_append (id : String × String) (secrets added : List Secret) :
    first? id (secrets ++ added) = (first? id secrets).or (first? id added) :=
  List.find?_append

theorem isSome_first?_iff (id : String × String) (secrets : List Secret) :
    (first? id secrets).isSome = true ↔ id ∈ secrets.map identity := by
  simp [first?, List.find?_isSome]

/-- One more secret does not come before those that are there. -/
theorem first?_keep (id : String × String) (secrets : List Secret) (secret : Secret) :
    first? id (keep secrets secret) = first? id (secrets ++ [secret]) := by
  unfold keep
  split
  · rename_i hknown
    rw [first?_append]
    by_cases hid : secret.identity = id
    · subst hid
      obtain ⟨first, hfirst⟩ := Option.isSome_iff_exists.mp ((isSome_first?_iff _ _).mpr hknown)
      rw [hfirst, Option.some_or]
    · have hother : first? id [secret] = none := by simp [first?, hid]
      rw [hother, Option.or_none]
  · rfl

/-- Of all secrets of a scope and key the first one is kept. -/
theorem first?_foldl_keep (id : String × String) (added secrets : List Secret) :
    first? id (added.foldl keep secrets) = first? id (secrets ++ added) := by
  induction added generalizing secrets with
  | nil => rw [List.foldl_nil, List.append_nil]
  | cons secret rest ih =>
    calc first? id ((secret :: rest).foldl keep secrets)
        = first? id (keep secrets secret ++ rest) := ih (keep secrets secret)
      _ = (first? id (secrets ++ [secret])).or (first? id rest) := by
          rw [first?_append, first?_keep]
      _ = first? id (secrets ++ secret :: rest) := by
          rw [← first?_append, List.append_assoc, List.singleton_append]

theorem nodup_keep {secrets : List Secret} (h : (secrets.map identity).Nodup) (secret : Secret) :
    ((keep secrets secret).map identity).Nodup := by
  unfold keep
  split
  · exact h
  · rename_i hnew
    rw [List.map_append, List.map_singleton]
    refine List.Nodup.append h (List.nodup_singleton _) ?_
    rwa [List.disjoint_singleton]

/-- No two secrets that are kept have one scope and key. -/
theorem nodup_foldl_keep (added : List Secret) {secrets : List Secret}
    (h : (secrets.map identity).Nodup) : ((added.foldl keep secrets).map identity).Nodup := by
  induction added generalizing secrets with
  | nil => exact h
  | cons secret rest ih => exact ih (nodup_keep h secret)

/-- Where each scope and key occurs once, the secrets that have it are the first one. -/
theorem having_eq_first? {secrets : List Secret} (h : (secrets.map identity).Nodup)
    (id : String × String) : having id secrets = (first? id secrets).toList := by
  induction secrets with
  | nil => rfl
  | cons secret rest ih =>
    rw [List.map_cons, List.nodup_cons] at h
    unfold having first? at ih ⊢
    by_cases hid : secret.identity = id
    · have hrest : rest.filter (·.identity == id) = [] := by
        rw [List.filter_eq_nil_iff]
        intro other hother hsame
        refine h.1 (List.mem_map.mpr ⟨other, hother, ?_⟩)
        rw [hid]
        exact eq_of_beq hsame
      simp [hid, hrest]
    · simp [hid, ih h.2]

end Secret

/-! ## Workflows -/

namespace Workflow

/-- There is one instruction for the scope and key, and it comes with a value. -/
def Provides (workflow : Workflow) (id : String × String) : Prop :=
  ∃ secret, Secret.having id workflow.secrets = [secret] ∧ secret.value.isSome = true

variable {options : PreparationOptions} {pipeline : Pipeline} {workflow : Workflow}

/-- A workflow keeps the secrets that its copies ask for. -/
theorem secrets_eq (h : ofPipeline options pipeline = .ok workflow) :
    workflow.secrets
      = (CopyTask.secretsAll options pipeline.copyTasks).foldl Secret.keep [] := by
  obtain ⟨artifacts, hactivities, -, hsecrets, -⟩ := exists_artifacts h
  exact hsecrets.trans (Preparation.activities_collects _ hactivities).secrets

theorem nodup_secrets (h : ofPipeline options pipeline = .ok workflow) :
    (workflow.secrets.map Secret.identity).Nodup := by
  rw [secrets_eq h]
  exact Secret.nodup_foldl_keep _ List.nodup_nil

/-- The instruction for a scope and key is the first one that a copy asks for. -/
theorem having_secrets (h : ofPipeline options pipeline = .ok workflow) (id : String × String) :
    Secret.having id workflow.secrets
      = (Secret.first? id (CopyTask.secretsAll options pipeline.copyTasks)).toList := by
  rw [Secret.having_eq_first? (nodup_secrets h), secrets_eq h, Secret.first?_foldl_keep,
    List.nil_append]

/-- A secret that a copy asks for is provided with a value unless the first of its scope and key has
none. -/
theorem provides_iff (h : ofPipeline options pipeline = .ok workflow) {secret : Secret}
    (hasked : secret ∈ CopyTask.secretsAll options pipeline.copyTasks) :
    workflow.Provides secret.identity ↔
      ¬secret.Shadowed (CopyTask.secretsAll options pipeline.copyTasks) := by
  have hfound : (Secret.first? secret.identity
      (CopyTask.secretsAll options pipeline.copyTasks)).isSome = true :=
    (Secret.isSome_first?_iff _ _).mpr (List.mem_map_of_mem hasked)
  obtain ⟨first, hfirst⟩ := Option.isSome_iff_exists.mp hfound
  unfold Provides Secret.Shadowed
  rw [having_secrets h, hfirst]
  cases hvalue : first.value with
  | none => simp [hvalue]
  | some value => simp [hvalue]

/-- **Known values.** The instruction for a scope and key is the first one that a dataset of a copy
asks for. So each value that the definition of a service holds is provided exactly if no dataset that
knows a value comes after one that asks for the same secret first and does not know it. -/
theorem ofPipeline_provides_iff (h : ofPipeline options pipeline = .ok workflow) :
    (∀ id, Secret.having id workflow.secrets
      = (Secret.first? id (CopyTask.secretsAll options pipeline.copyTasks)).toList) ∧
    ((∀ copyTask ∈ pipeline.copyTasks, ∀ dataset ∈ copyTask.copy.datasets,
        ∀ name ∈ dataset.format.secretNames, (Secret.knownValue dataset name).isSome = true →
          workflow.Provides (options.secretScope, Secret.keyOf dataset.serviceName name)) ↔
      ∀ secret ∈ CopyTask.secretsAll options pipeline.copyTasks, secret.value.isSome = true →
        ¬secret.Shadowed (CopyTask.secretsAll options pipeline.copyTasks)) := by
  -- what a copy asks for is one of the named secrets of one of its datasets
  have hmem (secret : Secret) : secret ∈ CopyTask.secretsAll options pipeline.copyTasks ↔
      ∃ copyTask ∈ pipeline.copyTasks, ∃ dataset ∈ copyTask.copy.datasets,
        ∃ name ∈ dataset.format.secretNames,
          (⟨options.secretScope, Secret.keyOf dataset.serviceName name, dataset.serviceName,
            dataset.format, Secret.knownValue dataset name⟩ : Secret) = secret := by
    simp only [CopyTask.secretsAll, PreparationOptions.secrets_eq_flatMap, List.mem_flatMap,
      Secret.ofDataset, List.mem_map]
  refine ⟨having_secrets h, fun hall secret hasked hvalue => ?_, fun hnone => ?_⟩
  · obtain ⟨copyTask, hcopy, dataset, hdataset, name, hname, rfl⟩ := (hmem secret).mp hasked
    exact (provides_iff h hasked).mp (hall copyTask hcopy dataset hdataset name hname hvalue)
  · intro copyTask hcopy dataset hdataset name hname hvalue
    have hasked := (hmem _).mpr ⟨copyTask, hcopy, dataset, hdataset, name, hname, rfl⟩
    exact (provides_iff h hasked).mpr (hnone _ hasked hvalue)

end Workflow

/-! ## A key that only the sink knows -/

/-- Parquet files in a storage account with the given connection string. -/
def lakeFiles (name connection : String) : Json := .obj [
  ("linked_service_definition", .obj [
    ("name", .str "lake"),
    ("properties", .obj [("url", .str connection)])]),
  ("name", .str name),
  ("properties", .obj [
    ("location", .obj [("container", .str "raw"), ("file_name", .str (name ++ ".parquet"))]),
    ("type", .str "Parquet")])]

/-- A copy between files of one service, whose connection string each dataset has for itself. -/
def lakeCopy (source sink : String) : Json := .obj [
  ("input_dataset_definitions", .arr [lakeFiles "orders" source]),
  ("name", .str "copy_orders"),
  ("output_dataset_definitions", .arr [lakeFiles "archive" sink]),
  ("sink", .obj [("type", .str "ParquetSink")]),
  ("source", .obj [("type", .str "ParquetSource")]),
  ("type", .str "Copy")]

/-- A document of this copy. -/
def lakeDocument (source sink : String) : Json := .obj [
  ("activities", .arr [lakeCopy source sink]),
  ("name", .str "orders")]

/-- A connection string without a key. -/
def keyless : String :=
  "DefaultEndpointsProtocol=https;AccountName=lake01;EndpointSuffix=core.windows.net"

/-- The same connection string with a key. -/
def keyed : String :=
  keyless ++ ";AccountKey=bGFrZQ=="

/-- The document is converted, the check holds of its pipeline, and the pipeline is prepared. -/
def preparedWith (options : PreparationOptions) (document : Json) (check : Pipeline → Bool) : Bool :=
  match Pipeline.ofDocument false document none with
  | .error _ => false
  | .ok pipeline => (Workflow.ofPipeline options pipeline).isOk && check pipeline

theorem exists_of_preparedWith {options : PreparationOptions} {document : Json}
    {check : Pipeline → Bool} (h : preparedWith options document check = true) :
    ∃ pipeline workflow, Pipeline.ofDocument false document none = .ok pipeline ∧
      Workflow.ofPipeline options pipeline = .ok workflow ∧ check pipeline = true := by
  unfold preparedWith at h
  cases hpipeline : Pipeline.ofDocument false document none with
  | error failure =>
    rw [hpipeline] at h
    cases h
  | ok pipeline =>
    simp only [hpipeline, Bool.and_eq_true] at h
    obtain ⟨hok, hcheck⟩ := h
    cases hworkflow : Workflow.ofPipeline options pipeline with
    | error failure =>
      rw [hworkflow] at hok
      cases hok
    | ok workflow => exact ⟨pipeline, workflow, rfl, hworkflow, hcheck⟩

/-- The source asks for the key first and does not know it, so the key of the sink is not provided. -/
theorem lateKey_not_provided :
    ∃ pipeline workflow,
      Pipeline.ofDocument false (lakeDocument keyless keyed) none = .ok pipeline ∧
      Workflow.ofPipeline CopyTask.notebookOptions pipeline = .ok workflow ∧
      ¬∀ copyTask ∈ pipeline.copyTasks, ∀ dataset ∈ copyTask.copy.datasets,
        ∀ name ∈ dataset.format.secretNames, (Secret.knownValue dataset name).isSome = true →
          workflow.Provides (CopyTask.notebookOptions.secretScope,
            Secret.keyOf dataset.serviceName name) := by
  have hprepared : preparedWith CopyTask.notebookOptions (lakeDocument keyless keyed)
      (fun pipeline => decide (∃ secret ∈ CopyTask.secretsAll CopyTask.notebookOptions
          pipeline.copyTasks,
        secret.value.isSome = true ∧ secret.Shadowed
          (CopyTask.secretsAll CopyTask.notebookOptions pipeline.copyTasks))) = true := by
    decide +kernel
  obtain ⟨pipeline, workflow, hpipeline, hworkflow, hlost⟩ := exists_of_preparedWith hprepared
  obtain ⟨secret, hasked, hvalue, hlost⟩ := of_decide_eq_true hlost
  refine ⟨pipeline, workflow, hpipeline, hworkflow, fun hall => ?_⟩
  exact (Workflow.ofPipeline_provides_iff hworkflow).2.mp hall secret hasked hvalue hlost

/-- The only instruction is for the secret of both datasets, and it has no value, though the sink
knows the key. -/
theorem lateKey_lost :
    ((Pipeline.ofDocument false (lakeDocument keyless keyed) none).toOption.bind fun pipeline =>
      (Workflow.ofPipeline CopyTask.notebookOptions pipeline).toOption.map fun workflow =>
        (pipeline.copyTasks.flatMap fun copyTask => copyTask.copy.datasets.map fun dataset =>
            Secret.knownValue dataset "storage_account_key",
          workflow.secrets.map fun secret => (secret.key, secret.value)))
      = some ([none, some "bGFrZQ=="], [("lake_storage_account_key", none)]) := by
  decide +kernel

end FactoryMigration
