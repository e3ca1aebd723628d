import Mathlib.Data.List.Dedup
import FactoryMigration.Proofs.SecretInstructions

set_option autoImplicit false

/-! # Keys of secrets

The key of a secret is the name of its service, an underscore and its own name. Services and secrets
may have underscores in their names, but no secret is called like the end of another one behind an
underscore, so a key has one service and one secret. A workflow that keeps one instruction for each
scope and key therefore keeps one for each service and secret that its copies ask for
(`Workflow.ofPipeline_requests`). -/

namespace FactoryMigration

namespace Format

/-- The names of the secrets of all formats. -/
def everySecretName : List String :=
  all.flatMap secretNames

theorem mem_everySecretName {format : Format} {name : String} (h : name ∈ format.secretNames) :
    name ∈ everySecretName :=
  List.mem_flatMap.mpr ⟨format, mem_all format, h⟩

/-- No name of a secret ends another one behind an underscore. -/
theorem eq_of_underscore_suffix : ∀ first ∈ everySecretName, ∀ second ∈ everySecretName,
    '_' :: first.toList <:+ '_' :: second.toList → first = second := by
  decide

end Format

namespace Secret

/-! ## Keys -/

theorem toList_keyOf (service name : String) :
    (keyOf service name).toList = service.toList ++ '_' :: name.toList := by
  rw [keyOf, String.toList_append, String.toList_append, List.append_assoc]
  rfl

/-- A key is that of one service and one secret. -/
theorem keyOf_eq_iff {service service' name name' : String} (hname : name ∈ Format.everySecretName)
    (hname' : name' ∈ Format.everySecretName) :
    keyOf service name = keyOf service' name' ↔ service = service' ∧ name = name' := by
  refine ⟨fun h => ?_, fun ⟨hservice, hname⟩ => hservice ▸ hname ▸ rfl⟩
  have hlists : service.toList ++ '_' :: name.toList = service'.toList ++ '_' :: name'.toList := by
    rw [← toList_keyOf, ← toList_keyOf, h]
  -- both names end the key behind an underscore, so one of them ends the other
  obtain rfl : name = name' := by
    rcases List.suffix_or_suffix_of_suffix (List.suffix_append service.toList ('_' :: name.toList))
      (hlists ▸ List.suffix_append service'.toList ('_' :: name'.toList)) with hends | hends
    · exact Format.eq_of_underscore_suffix name hname name' hname' hends
    · exact (Format.eq_of_underscore_suffix name' hname' name hname hends).symm
  exact ⟨String.toList_inj.mp (List.append_cancel_right hlists), rfl⟩

/-! ## Requests -/

/-- What a dataset asks for: a secret of a service, in a scope. -/
structure Request where
  scope : String
  service : String
  name : String
deriving DecidableEq

/-- Scope, service and key of a secret. -/
def label (secret : Secret) : String × String × String :=
  (secret.scope, secret.serviceName, secret.key)

namespace Request

/-- Scope, service and key of the secret that is asked for. -/
def label (request : Request) : String × String × String :=
  (request.scope, request.service, keyOf request.service request.name)

/-- The requests of a dataset, one for each secret of its format. -/
def ofDataset (scope : String) (dataset : Dataset) : List Request :=
  dataset.format.secretNames.map (⟨scope, dataset.serviceName, ·⟩)

/-- The requests of datasets, each with its scope. -/
def ofDatasets (asked : List (String × Dataset)) : List Request :=
  asked.flatMap fun entry => ofDataset entry.1 entry.2

theorem map_label_ofDataset (scope : String) (dataset : Dataset) :
    (ofDataset scope dataset).map label = (Secret.ofDataset scope dataset).map Secret.label := by
  rw [ofDataset, Secret.ofDataset, List.map_map, List.map_map]
  rfl

theorem map_label_ofDatasets (asked : List (String × Dataset)) :
    (ofDatasets asked).map label
      = (asked.flatMap fun entry => Secret.ofDataset entry.1 entry.2).map Secret.label := by
  simp only [ofDatasets, List.map_flatMap, map_label_ofDataset]

theorem name_mem_of_mem_ofDatasets {asked : List (String × Dataset)} {request : Request}
    (h : request ∈ ofDatasets asked) : request.name ∈ Format.everySecretName := by
  obtain ⟨entry, -, h⟩ := List.mem_flatMap.mp h
  obtain ⟨name, hname, rfl⟩ := List.mem_map.mp h
  exact Format.mem_everySecretName hname

/-- Requests of one scope and key are the same. -/
theorem eq_of_key_eq {first second : Request} (hfirst : first.name ∈ Format.everySecretName)
    (hsecond : second.name ∈ Format.everySecretName) (hscope : first.label.1 = second.label.1)
    (hkey : first.label.2.2 = second.label.2.2) : first = second := by
  obtain ⟨hservice, hname⟩ := (keyOf_eq_iff hfirst hsecond).mp hkey
  cases first
  cases second
  subst hscope hservice hname
  rfl

end Request

/-! ## Secrets that are kept -/

theorem mem_of_mem_foldl_keep {added secrets : List Secret} {secret : Secret}
    (h : secret ∈ added.foldl keep secrets) : secret ∈ secrets ∨ secret ∈ added := by
  induction added generalizing secrets with
  | nil => exact .inl h
  | cons first rest ih =>
    rcases ih h with hkeep | hrest
    · unfold keep at hkeep
      split at hkeep
      · exact .inl hkeep
      · rcases List.mem_append.mp hkeep with hold | hnew
        · exact .inl hold
        · exact .inr (List.mem_singleton.mp hnew ▸ List.mem_cons_self)
    · exact .inr (List.mem_cons_of_mem first hrest)

/-- Where requests and secrets correspond, one secret is kept for each request. -/
theorem labels_foldl_keep_perm {requests : List Request} {asked : List Secret}
    (hlabels : requests.map Request.label = asked.map label)
    (hnames : ∀ request ∈ requests, request.name ∈ Format.everySecretName) :
    ((asked.foldl keep []).map label).Perm (requests.dedup.map Request.label) := by
  have hsame : ∀ first ∈ requests, ∀ second ∈ requests, first.label.1 = second.label.1 →
      first.label.2.2 = second.label.2.2 → first = second := fun first hfirst second hsecond =>
    Request.eq_of_key_eq (hnames first hfirst) (hnames second hsecond)
  -- scope and key are parts of a label, so labels do not repeat where these do not
  have hkept : ((asked.foldl keep []).map label).Nodup := by
    apply List.Nodup.of_map fun parts => (parts.1, parts.2.2)
    rw [List.map_map]
    exact nodup_foldl_keep asked List.nodup_nil
  have hrequests : (requests.dedup.map Request.label).Nodup :=
    List.Nodup.map_on (fun first hfirst second hsecond heq =>
      hsame first (List.mem_dedup.mp hfirst) second (List.mem_dedup.mp hsecond)
        (congrArg (·.1) heq) (congrArg (·.2.2) heq)) requests.nodup_dedup
  have hrequest {secret : Secret} (hsecret : secret ∈ asked.foldl keep []) :
      ∃ request ∈ requests, request.label = secret.label := by
    have hasked := (mem_of_mem_foldl_keep hsecret).resolve_left List.not_mem_nil
    exact List.mem_map.mp (hlabels ▸ List.mem_map_of_mem hasked)
  refine (List.perm_ext_iff_of_nodup hkept hrequests).mpr fun parts => ⟨fun h => ?_, fun h => ?_⟩
  · obtain ⟨secret, hsecret, rfl⟩ := List.mem_map.mp h
    obtain ⟨request, hmem, hlabel⟩ := hrequest hsecret
    exact List.mem_map.mpr ⟨request, List.mem_dedup.mpr hmem, hlabel⟩
  · obtain ⟨request, hmem, rfl⟩ := List.mem_map.mp h
    have hmem := List.mem_dedup.mp hmem
    obtain ⟨first, hfirst, hlabel⟩ := List.mem_map.mp (hlabels ▸ List.mem_map_of_mem hmem)
    -- the secret that is kept under this scope and key is the one of this request
    obtain ⟨secret, hsecret, hid⟩ := List.mem_map.mp
      ((mem_identities_foldl_keep asked [] first.identity).mpr (.inr (List.mem_map_of_mem hfirst)))
    obtain ⟨other, hother, hlabel'⟩ := hrequest hsecret
    have hscope : other.label.1 = request.label.1 := by
      rw [hlabel', ← hlabel]
      exact congrArg (·.1) hid
    have hkey : other.label.2.2 = request.label.2.2 := by
      rw [hlabel', ← hlabel]
      exact congrArg (·.2) hid
    obtain rfl := hsame other hother request hmem hscope hkey
    exact List.mem_map.mpr ⟨secret, hsecret, hlabel'.symm⟩

end Secret

/-! ## Workflows -/

/-- The datasets of copies, each with the scope that its secrets are in. -/
def CopyTask.askedDatasets (options : PreparationOptions) (copyTasks : List CopyTask) :
    List (String × Dataset) :=
  copyTasks.flatMap fun copyTask =>
    copyTask.copy.datasets.map fun dataset => (options.secretScope, dataset)

theorem CopyTask.secretsAll_eq_flatMap (options : PreparationOptions) (copyTasks : List CopyTask) :
    secretsAll options copyTasks
      = (askedDatasets options copyTasks).flatMap fun entry => Secret.ofDataset entry.1 entry.2 := by
  simp only [secretsAll, askedDatasets, PreparationOptions.secrets_eq_flatMap, List.flatMap_assoc,
    List.flatMap_map]

/-- **Keys.** A key has one service and one secret. So of the secrets that datasets ask for, in any
scopes, one is kept for each scope, service and secret, and a workflow has one instruction for each
service and secret that its copies ask for. -/
theorem Workflow.ofPipeline_requests :
    (∀ (format format' : Format) (service service' name name' : String),
      name ∈ format.secretNames → name' ∈ format'.secretNames →
        (Secret.keyOf service name = Secret.keyOf service' name' ↔
          service = service' ∧ name = name')) ∧
    (∀ asked : List (String × Dataset),
      (((asked.flatMap fun entry => Secret.ofDataset entry.1 entry.2).foldl Artifacts.addSecret
          .empty).secrets.map Secret.label).Perm
        ((Secret.Request.ofDatasets asked).dedup.map Secret.Request.label)) ∧
    ∀ (options : PreparationOptions) (pipeline : Pipeline) (workflow : Workflow),
      ofPipeline options pipeline = .ok workflow →
        (workflow.secrets.map Secret.label).Perm
          ((Secret.Request.ofDatasets
            (CopyTask.askedDatasets options pipeline.copyTasks)).dedup.map
              Secret.Request.label) := by
  have hperm (asked : List (String × Dataset)) :=
    Secret.labels_foldl_keep_perm (Secret.Request.map_label_ofDatasets asked)
      fun _ => Secret.Request.name_mem_of_mem_ofDatasets
  refine ⟨fun format format' service service' name name' hname hname' => ?_, fun asked => ?_,
    fun options pipeline workflow h => ?_⟩
  · exact Secret.keyOf_eq_iff (Format.mem_everySecretName hname) (Format.mem_everySecretName hname')
  · rw [Artifacts.secrets_foldl_addSecret]
    exact hperm asked
  · rw [secrets_eq h, CopyTask.secretsAll_eq_flatMap]
    exact hperm _

/-! ## Services with underscores in their names -/

/-- A table of the given SQL server. -/
def serverTable (service table : String) : Json := .obj [
  ("linked_service_definition", .obj [("name", .str service)]),
  ("name", .str table),
  ("properties", .obj [
    ("schema", .str "sales"),
    ("table", .str table),
    ("type", .str "AzureSqlTable")])]

/-- A document of a copy between two SQL servers. -/
def serverDocument (source sink : String) : Json := .obj [
  ("activities", .arr [.obj [
    ("input_dataset_definitions", .arr [serverTable source "orders"]),
    ("name", .str "copy_orders"),
    ("output_dataset_definitions", .arr [serverTable sink "archive"]),
    ("sink", .obj [("type", .str "AzureSqlSink")]),
    ("source", .obj [("type", .str "AzureSqlSource")]),
    ("type", .str "Copy")]]),
  ("name", .str "orders")]

/-- The name of one server begins that of the other, and goes on like a secret; each keeps the
instructions for its four secrets. -/
theorem twoServers_requests :
    Secret.keyOf "shop" "user_name" ≠ Secret.keyOf "shop_user" "host" ∧
    ∃ pipeline workflow,
      Pipeline.ofDocument false (serverDocument "shop" "shop_user") none = .ok pipeline ∧
      Workflow.ofPipeline CopyTask.notebookOptions pipeline = .ok workflow ∧
      workflow.secrets.length = 8 := by
  obtain ⟨hkeys, -, hworkflows⟩ := Workflow.ofPipeline_requests
  refine ⟨fun h => ?_, ?_⟩
  · have hboth := (hkeys .sqlServer .sqlServer "shop" "shop_user" "user_name" "host" (by decide)
      (by decide)).mp h
    exact absurd hboth.1 (by decide)
  · have hprepared : preparedWith CopyTask.notebookOptions (serverDocument "shop" "shop_user")
        (fun pipeline => (Secret.Request.ofDatasets
          (CopyTask.askedDatasets CopyTask.notebookOptions pipeline.copyTasks)).dedup.length == 8)
        = true := by
      decide +kernel
    obtain ⟨pipeline, workflow, hpipeline, hworkflow, hlength⟩ := exists_of_preparedWith hprepared
    refine ⟨pipeline, workflow, hpipeline, hworkflow, ?_⟩
    have hperm := (hworkflows _ pipeline workflow hworkflow).length_eq
    rwa [List.length_map, List.length_map, eq_of_beq hlength] at hperm

end FactoryMigration
