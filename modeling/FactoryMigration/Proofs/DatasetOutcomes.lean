import FactoryMigration.Proofs.SideOptions

set_option autoImplicit false

/-! # Outcomes of dataset definitions

A dataset definition fails for good only if it names a format and has no linked service. Whatever else
is wrong with it, however deep, is an obstacle with the whole definition. A dataset that is read has the
format that the definition names and the linked service that it holds, which is never tagged as one of
another kind (`Dataset.ofDefinition_outcome`). -/

namespace FactoryMigration

/-- The kind of service that data of a format needs. -/
def Format.serviceKind : Format → ServiceKind
  | file _ => .storage
  | delta => .workspace
  | sqlServer => .sqlServer

/-- The dataset has this service; of the workspace of a Delta table it has the name. -/
inductive LinkedService.Serves : LinkedService → Dataset → Prop where
  | storage {file : FileDataset} {service : StorageService} (h : file.service = service) :
    Serves (.storage service) (.file file)
  | workspace {table : DeltaTable} {service : WorkspaceService}
      (h : table.serviceName = service.name) : Serves (.workspace service) (.delta table)
  | sqlServer {table : SqlTable} {service : SqlService} (h : table.service = service) :
    Serves (.sqlServer service) (.sql table)

/-- The definition of a service has a type tag that names the kind. -/
def LinkedService.Tagged (definition : Json) (kind : ServiceKind) : Prop :=
  ∃ tag, tag? definition = some tag ∧ ServiceKind.ofTag? tag = some kind

namespace Dataset

/-- The properties of the definition are an object, and their type is a tag of the format. -/
def NamesFormat (definition : Json) (format : Format) : Prop :=
  ∃ fields tag, definition.get? "properties" = some (.obj fields) ∧
    fields.lookup "type" = some (.str tag) ∧ Format.ofDatasetTag? tag = some format

/-- The definition holds the definition of a service, an object that is not empty. -/
def HoldsService (definition service : Json) : Prop :=
  ∃ fields, fields ≠ [] ∧ service = .obj fields ∧
    definition.get? "linked_service_definition" = some service

/-- What comes of a definition: a failure for want of a service, an obstacle with the whole definition,
or a dataset of the format and with the service of the definition. -/
inductive Outcome (definition : Json) : Except Failure (Except Obstacle Dataset) → Prop where
  | unresolved {format : Format} {reason : String} (names : NamesFormat definition format)
      (missing : ∀ service, ¬HoldsService definition service) :
      Outcome definition
        (.error (.unresolvedLinkedService ((definition.text? "name").getD unnamed) reason))
  | obstacle {message : String}
      (other : (∀ format, ¬NamesFormat definition format) ∨ ∃ service, HoldsService definition service) :
      Outcome definition (.ok (.error ⟨definition, message⟩))
  | read {dataset : Dataset} {service : Json} {linked : LinkedService}
      (names : NamesFormat definition dataset.format) (holds : HoldsService definition service)
      (reads : LinkedService.ofDefinition service dataset.format.serviceKind = .ok linked)
      (serves : linked.Serves dataset)
      (tagged : ∀ kind, LinkedService.Tagged service kind → kind = dataset.format.serviceKind) :
      Outcome definition (.ok (.ok dataset))

/-! ## Formats and services of definitions -/

theorem namesFormat_of_formatOf {definition : Json} {format : Format}
    (h : formatOf definition = .ok format) : NamesFormat definition format := by
  unfold formatOf at h
  dsimp only at h
  split at h
  · cases h
  · split at h
    · rename_i tag htype
      split at h
      · rename_i named htag
        cases h
        unfold Json.getD at htype
        cases hproperties : definition.get? "properties" with
        | none =>
          rw [hproperties] at htype
          cases htype
        | some properties =>
          rw [hproperties] at htype
          cases properties with
          | obj fields => exact ⟨fields, tag, hproperties, htype, htag⟩
          | _ => cases htype
      · cases h
    · cases h
    · cases h

/-- A format that is not read is an obstacle with the whole definition, which names none. -/
theorem of_formatOf_error {definition : Json} {obstacle : Obstacle}
    (h : formatOf definition = .error obstacle) :
    obstacle.value = definition ∧ ∀ format, ¬NamesFormat definition format := by
  constructor
  · unfold formatOf at h
    dsimp only at h
    split at h
    · cases h
      rfl
    · split at h
      · split at h
        · cases h
        · cases h
          rfl
      · cases h
        rfl
      · cases h
        rfl
  · rintro format ⟨fields, tag, hproperties, htype, htag⟩
    cases fields with
    | nil => cases htype
    | cons field fields =>
      have hget : definition.getD "properties" = .obj (field :: fields) := by
        rw [Json.getD, hproperties, Option.getD_some]
      have hlookup : (Json.obj (field :: fields)).get? "type" = some (.str tag) := htype
      have hread : formatOf definition = .ok format := by
        unfold formatOf
        rw [hget]
        simp only [hlookup, htag]
        rfl
      cases h.symm.trans hread

theorem holdsService_of_linkedServiceOf {name : String} {definition service : Json}
    (h : linkedServiceOf name definition = .ok service) : HoldsService definition service := by
  unfold linkedServiceOf at h
  split at h
  · rename_i field fields hservice
    cases h
    refine ⟨field :: fields, List.cons_ne_nil _ _, rfl, ?_⟩
    cases hfield : definition.get? "linked_service_definition" with
    | none =>
      rw [Json.getD, hfield] at hservice
      cases hservice
    | some service =>
      rw [Json.getD, hfield] at hservice
      exact congrArg some hservice
  · cases h
  · cases h
  · cases h

theorem of_linkedServiceOf_error {name : String} {definition : Json} {failure : Failure}
    (h : linkedServiceOf name definition = .error failure) :
    (∃ reason, failure = .unresolvedLinkedService name reason) ∧
      ∀ service, ¬HoldsService definition service := by
  constructor
  · unfold linkedServiceOf at h
    split at h
    · cases h
    · exact ⟨_, (Except.error.inj h).symm⟩
    · exact ⟨_, (Except.error.inj h).symm⟩
    · exact ⟨_, (Except.error.inj h).symm⟩
  · rintro service ⟨fields, hfilled, rfl, hservice⟩
    obtain ⟨field, fields, rfl⟩ := List.exists_cons_of_ne_nil hfilled
    have hheld : linkedServiceOf name definition = .ok (.obj (field :: fields)) := by
      simp only [linkedServiceOf, Json.getD, hservice, Option.getD_some]
    cases h.symm.trans hheld

/-! ## Services of datasets -/

/-- A service that is read as one of a kind has no tag of another kind. -/
theorem eq_of_tagged {service : Json} {needed kind : ServiceKind} {linked : LinkedService}
    (h : LinkedService.ofDefinition service needed = .ok linked)
    (htagged : LinkedService.Tagged service kind) : kind = needed := by
  obtain ⟨tag, htag, hkind⟩ := htagged
  obtain ⟨_, hchecked, -⟩ := exists_of_bind_eq_ok h
  simp only [LinkedService.checkKind, htag, hkind] at hchecked
  split at hchecked
  · assumption
  · cases hchecked

/-- The service is read as one of the kind that the format of the dataset needs, and the dataset has
it. -/
def HasService (service : Json) (dataset : Dataset) : Prop :=
  ∃ linked, LinkedService.ofDefinition service dataset.format.serviceKind = .ok linked ∧
    linked.Serves dataset

theorem hasService_file {name : String} {format : FileFormat} {definition properties service : Json}
    {dataset : FileDataset}
    (h : FileDataset.ofDefinition name format definition properties service = .ok dataset) :
    HasService service (.file dataset) := by
  unfold FileDataset.ofDefinition at h
  dsimp only at h
  split at h
  · cases h
  · obtain ⟨container, -, h⟩ := exists_of_bind_eq_ok h
    obtain ⟨fileName, -, h⟩ := exists_of_bind_eq_ok h
    obtain ⟨_, hkind, h⟩ := exists_of_bind_eq_ok h
    obtain ⟨storage, hstorage, h⟩ := exists_of_bind_eq_ok h
    cases h
    have hread : LinkedService.ofDefinition service .storage = .ok (.storage storage) := by
      rw [LinkedService.ofDefinition, hkind, hstorage]
      rfl
    exact ⟨.storage storage, hread, .storage rfl⟩

theorem hasService_delta {name : String} {properties service : Json} {dataset : DeltaTable}
    (h : DeltaTable.ofDefinition name properties service = .ok dataset) :
    HasService service (.delta dataset) := by
  unfold DeltaTable.ofDefinition at h
  obtain ⟨database, -, h⟩ := exists_of_bind_eq_ok h
  obtain ⟨table, -, h⟩ := exists_of_bind_eq_ok h
  obtain ⟨_, hkind, h⟩ := exists_of_bind_eq_ok h
  obtain ⟨workspace, hworkspace, h⟩ := exists_of_bind_eq_ok h
  cases h
  have hread : LinkedService.ofDefinition service .workspace = .ok (.workspace workspace) := by
    rw [LinkedService.ofDefinition, hkind, hworkspace]
    rfl
  exact ⟨.workspace workspace, hread, .workspace rfl⟩

theorem hasService_sql {name : String} {properties service : Json} {dataset : SqlTable}
    (h : SqlTable.ofDefinition name properties service = .ok dataset) :
    HasService service (.sql dataset) := by
  unfold SqlTable.ofDefinition at h
  dsimp only at h
  split at h
  · obtain ⟨schema, -, h⟩ := exists_of_bind_eq_ok h
    obtain ⟨table, -, h⟩ := exists_of_bind_eq_ok h
    obtain ⟨_, hkind, h⟩ := exists_of_bind_eq_ok h
    obtain ⟨server, hserver, h⟩ := exists_of_bind_eq_ok h
    cases h
    have hread : LinkedService.ofDefinition service .sqlServer = .ok (.sqlServer server) := by
      rw [LinkedService.ofDefinition, hkind, hserver]
      rfl
    exact ⟨.sqlServer server, hread, .sqlServer rfl⟩
  · cases h

theorem exists_of_map_eq_ok {ε α β : Type} {x : Except ε α} {f : α → β} {result : β}
    (h : x.map f = .ok result) : ∃ value, x = .ok value ∧ f value = result := by
  cases x with
  | error failure => cases h
  | ok value => exact ⟨value, rfl, Except.ok.inj h⟩

/-- A dataset that is read in a format has that format and the service. -/
theorem ofParts_ok {name : String} {format : Format} {definition service : Json} {dataset : Dataset}
    (h : ofParts name format definition service = .ok dataset) :
    dataset.format = format ∧ HasService service dataset := by
  unfold ofParts at h
  dsimp only at h
  cases format with
  | file format =>
    obtain ⟨file, hfile, rfl⟩ := exists_of_map_eq_ok h
    exact ⟨congrArg Format.file (FileDataset.ofDefinition_ok hfile).1, hasService_file hfile⟩
  | delta =>
    obtain ⟨table, htable, rfl⟩ := exists_of_map_eq_ok h
    exact ⟨rfl, hasService_delta htable⟩
  | sqlServer =>
    obtain ⟨table, htable, rfl⟩ := exists_of_map_eq_ok h
    exact ⟨rfl, hasService_sql htable⟩

/-! ## Outcomes -/

theorem outcome_ofDefinition (definition : Json) : Outcome definition (ofDefinition definition) := by
  unfold ofDefinition
  dsimp only
  cases hformat : formatOf definition with
  | error obstacle =>
    obtain ⟨rfl, hnone⟩ := of_formatOf_error hformat
    exact .obstacle (.inl hnone)
  | ok format =>
    have hnames := namesFormat_of_formatOf hformat
    dsimp only
    cases hservice : linkedServiceOf ((definition.text? "name").getD unnamed) definition with
    | error failure =>
      obtain ⟨⟨reason, rfl⟩, hmissing⟩ := of_linkedServiceOf_error hservice
      exact .unresolved hnames hmissing
    | ok service =>
      have hholds := holdsService_of_linkedServiceOf hservice
      dsimp only
      cases hparts : ofParts ((definition.text? "name").getD unnamed) format definition service with
      | error obstacle => exact .obstacle (.inr ⟨service, hholds⟩)
      | ok dataset =>
        obtain ⟨rfl, linked, hlinked, hserves⟩ := ofParts_ok hparts
        exact .read hnames hholds hlinked hserves fun kind htagged => eq_of_tagged hlinked htagged

/-- **Definitions of datasets.** Reading fails for want of a service exactly if the definition names a
format and holds no service. Otherwise it ends in an obstacle with the whole definition, or in a dataset
of the named format with the service that the definition holds and no tag of another kind denies. -/
theorem ofDefinition_outcome (definition : Json) :
    ((∃ dataset reason, ofDefinition definition = .error (.unresolvedLinkedService dataset reason)) ↔
        (∃ format, NamesFormat definition format) ∧ ∀ service, ¬HoldsService definition service) ∧
      Outcome definition (ofDefinition definition) := by
  have houtcome := outcome_ofDefinition definition
  refine ⟨⟨?_, ?_⟩, houtcome⟩
  · rintro ⟨dataset, reason, h⟩
    rw [h] at houtcome
    cases houtcome with
    | unresolved hnames hmissing => exact ⟨⟨_, hnames⟩, hmissing⟩
  · rintro ⟨⟨format, hnames⟩, hmissing⟩
    cases h : ofDefinition definition with
    | error failure =>
      rw [h] at houtcome
      cases houtcome with
      | unresolved => exact ⟨_, _, rfl⟩
    | ok read =>
      rw [h] at houtcome
      cases houtcome with
      | obstacle hother =>
        rcases hother with hnone | ⟨service, hholds⟩
        · exact absurd hnames (hnone format)
        · exact absurd hholds (hmissing service)
      | read _ hholds => exact absurd hholds (hmissing _)

end Dataset

end FactoryMigration
