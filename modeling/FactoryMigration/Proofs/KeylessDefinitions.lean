import FactoryMigration.Activity.Definition
import FactoryMigration.Proofs.KeySegments
import FactoryMigration.Proofs.KeylessPreparation

set_option autoImplicit false

/-! # Changed connection strings in definitions

Connection strings stand at fixed places of a document: in the properties of linked services, which
stand in dataset definitions and in activities, at any depth (`Json.mapConnections`). A change of them
that keeps the address of each storage account is not seen by the readers of services, datasets and
copies, but for the keys and for reasons that quote a connection string (`Copy.ofActivity_alike`). -/

namespace FactoryMigration

/-! ## Connection strings of a definition -/

namespace Json

/-- The object with each field changed by a function for its key; other values as they are. -/
def mapFields (f : String → Json → Json) : Json → Json
  | .obj fields => .obj (fields.map fun field => (field.1, f field.1 field.2))
  | value => value

/-- Text changed by a function; other values as they are. -/
def mapText (f : String → String) : Json → Json
  | .str s => .str (f s)
  | value => value

/-- The properties of a linked service with their connection strings changed. -/
def mapUrls (f : String → String) : Json → Json :=
  mapFields fun key value =>
    if key = "url" ∨ key = "connection_string" then value.mapText f else value

/-- A linked service definition with its connection strings changed. -/
def mapService (f : String → String) : Json → Json :=
  mapFields fun key value => if key = "properties" then value.mapUrls f else value

/-- A dataset definition with the connection strings of its service changed. -/
def mapDataset (f : String → String) : Json → Json :=
  mapFields fun key value =>
    if key = "linked_service_definition" then value.mapService f else value

/-- Under these keys an activity has datasets. -/
def datasetKeys : List String := ["input_dataset_definitions", "output_dataset_definitions"]

/-- Under these keys an activity has further activities, and a document its own. -/
def activityKeys : List String := ["if_false_activities", "if_true_activities", "activities"]

mutual

/-- An activity, or a document, with the connection strings of all linked services changed. -/
def mapConnections (f : String → String) : Json → Json
  | .obj fields => .obj (mapConnectionsFields f fields)
  | value => value

/-- The fields of an activity with the connection strings in them changed. -/
def mapConnectionsFields (f : String → String) : List (String × Json) → List (String × Json)
  | [] => []
  | (key, value) :: rest => (key, mapConnectionsField f key value) :: mapConnectionsFields f rest

/-- A field of an activity with the connection strings in it changed. -/
def mapConnectionsField (f : String → String) (key : String) : Json → Json
  | .arr items =>
    if key ∈ activityKeys then .arr (mapConnectionsItems f items)
    else if key ∈ datasetKeys then .arr (items.map (mapDataset f))
    else .arr items
  | value => if key = "linked_service_definition" then value.mapService f else value

/-- Activities with the connection strings of all linked services changed. -/
def mapConnectionsItems (f : String → String) : List Json → List Json
  | [] => []
  | item :: rest => item.mapConnections f :: mapConnectionsItems f rest

end

variable (f : String → String)

theorem mapConnectionsItems_eq_map (items : List Json) :
    mapConnectionsItems f items = items.map (mapConnections f) := by
  induction items with
  | nil => rfl
  | cons item rest ih => rw [mapConnectionsItems, ih, List.map_cons]

theorem mapConnections_eq (value : Json) :
    value.mapConnections f = value.mapFields (mapConnectionsField f) := by
  cases value with
  | obj fields =>
    rw [mapConnections, mapFields]
    congr 1
    induction fields with
    | nil => rfl
    | cons field rest ih => rw [mapConnectionsFields, ih, List.map_cons]
  | _ => rfl

/-! ## Reading what was changed -/

theorem get?_mapFields (g : String → Json → Json) (value : Json) (key : String) :
    (value.mapFields g).get? key = (value.get? key).map (g key) := by
  cases value with
  | obj fields =>
    show List.lookup key (fields.map fun field => (field.1, g field.1 field.2))
      = (List.lookup key fields).map (g key)
    induction fields with
    | nil => rfl
    | cons field rest ih =>
      obtain ⟨name, field⟩ := field
      rw [List.map_cons, Table.lookup_cons, Table.lookup_cons, ih]
      by_cases h : key = name
      · simp [h]
      · simp [h]
  | _ => rfl

theorem getD_mapFields {g : String → Json → Json} {key : String} (hg : g key .null = .null)
    (value : Json) : (value.mapFields g).getD key = g key (value.getD key) := by
  rw [getD, getD, get?_mapFields]
  cases value.get? key with
  | none => exact hg.symm
  | some field => rfl

/-- The items of a list are changed one by one, if the function changes lists so and makes none. -/
theorem items_mapFields {g : String → Json → Json} {key : String} {change : Json → Json}
    (hg : ∀ field, (g key field).asItems? = field.asItems?.map (List.map change)) (value : Json) :
    (value.mapFields g).items key = (value.items key).map change := by
  have hitems : (value.mapFields g).items? key = (value.items? key).map (List.map change) := by
    rw [items?, items?, get?_mapFields]
    cases value.get? key with
    | none => rfl
    | some field => exact hg field
  rw [items, items, hitems]
  cases value.items? key with
  | none => rfl
  | some items => rfl

/-- Text stays as it is, if the function changes no text. -/
theorem text?_mapFields {g : String → Json → Json} {key : String}
    (hg : ∀ value, (g key value).asString? = value.asString?) (value : Json) :
    (value.mapFields g).text? key = value.text? key := by
  rw [text?, text?, get?_mapFields]
  cases value.get? key with
  | none => rfl
  | some field => exact hg field

theorem asString?_mapFields (g : String → Json → Json) (value : Json) :
    (value.mapFields g).asString? = value.asString? := by
  cases value <;> rfl

theorem asString?_mapConnectionsField (key : String) (value : Json) :
    (value.mapConnectionsField f key).asString? = value.asString? := by
  cases value with
  | arr items =>
    rw [mapConnectionsField]
    split
    · rfl
    · split <;> rfl
  | _ =>
    rw [mapConnectionsField]
    · split
      · exact asString?_mapFields _ _
      · rfl
    · simp

theorem isFilledObject_mapFields (g : String → Json → Json) (value : Json) :
    (value.mapFields g).isFilledObject = value.isFilledObject := by
  cases value with
  | obj fields => cases fields <;> rfl
  | _ => rfl

/-! ### Activities -/

section Activities

variable (value : Json)

@[simp]
theorem text?_mapConnections (key : String) :
    (value.mapConnections f).text? key = value.text? key := by
  rw [mapConnections_eq]
  exact text?_mapFields (asString?_mapConnectionsField f key) value

@[simp]
theorem filledText?_mapConnections (key : String) :
    (value.mapConnections f).filledText? key = value.filledText? key := by
  rw [filledText?, filledText?, text?_mapConnections]

theorem isObject_mapConnections : (value.mapConnections f).isObject = value.isObject := by
  cases value <;> rfl

/-- The keys of an activity under which connection strings are found. -/
def connectionKeys : List String :=
  "linked_service_definition" :: datasetKeys ++ activityKeys

/-- Whatever is found under another key stays as it is. -/
theorem get?_mapConnections {key : String} (hkey : key ∉ connectionKeys) :
    (value.mapConnections f).get? key = value.get? key := by
  simp only [connectionKeys, List.cons_append, List.mem_cons, List.mem_append, not_or] at hkey
  have hfield (field : Json) : field.mapConnectionsField f key = field := by
    cases field with
    | arr items => rw [mapConnectionsField, if_neg hkey.2.2, if_neg hkey.2.1]
    | _ =>
      rw [mapConnectionsField]
      · rw [if_neg hkey.1]
      · simp
  rw [mapConnections_eq, get?_mapFields]
  cases value.get? key with
  | none => rfl
  | some field => exact congrArg some (hfield field)

theorem getD_mapConnections {key : String} (hkey : key ∉ connectionKeys) :
    (value.mapConnections f).getD key = value.getD key := by
  rw [getD, getD, get?_mapConnections f value hkey]

theorem items_mapConnections {key : String} (hkey : key ∈ activityKeys) :
    (value.mapConnections f).items key = (value.items key).map (mapConnections f) := by
  have hservice : key ≠ "linked_service_definition" := by
    rintro rfl
    exact absurd hkey (by decide)
  rw [mapConnections_eq]
  refine items_mapFields (fun field => ?_) value
  cases field with
  | arr items => simp [mapConnectionsField, hkey, asItems?, mapConnectionsItems_eq_map]
  | _ => simp [mapConnectionsField, hservice, asItems?]

theorem items_mapConnections_datasets {key : String} (hkey : key ∈ datasetKeys) :
    (value.mapConnections f).items key = (value.items key).map (mapDataset f) := by
  have hother : key ≠ "linked_service_definition" ∧ key ∉ activityKeys := by
    simp only [datasetKeys, List.mem_cons, List.not_mem_nil, or_false] at hkey
    rcases hkey with rfl | rfl
    · decide
    · decide
  rw [mapConnections_eq]
  refine items_mapFields (fun field => ?_) value
  cases field with
  | arr items => simp [mapConnectionsField, hkey, hother.2, asItems?]
  | _ => simp [mapConnectionsField, hother.1, asItems?]

theorem getD_mapConnections_service :
    (value.mapConnections f).getD "linked_service_definition"
      = (value.getD "linked_service_definition").mapService f := by
  have hfield (field : Json) :
      field.mapConnectionsField f "linked_service_definition" = field.mapService f := by
    cases field with
    | arr items => simp [mapConnectionsField, activityKeys, datasetKeys, mapService, mapFields]
    | _ => simp [mapConnectionsField, mapService, mapFields]
  rw [mapConnections_eq, getD_mapFields (hfield .null), hfield]

end Activities

/-! ### Datasets and services -/

section Services

variable (value : Json)

@[simp]
theorem text?_mapDataset (key : String) : (value.mapDataset f).text? key = value.text? key := by
  refine text?_mapFields (fun field => ?_) value
  split
  · exact asString?_mapFields _ field
  · rfl

theorem get?_mapDataset {key : String} (hkey : key ≠ "linked_service_definition") :
    (value.mapDataset f).get? key = value.get? key := by
  rw [mapDataset, get?_mapFields]
  simp [hkey]

theorem getD_mapDataset {key : String} (hkey : key ≠ "linked_service_definition") :
    (value.mapDataset f).getD key = value.getD key := by
  rw [getD, getD, get?_mapDataset f value hkey]

theorem property?_mapDataset {key : String} (hkey : key ≠ "linked_service_definition") :
    (value.mapDataset f).property? key = value.property? key := by
  simp only [property?, present?, get?_mapDataset f value hkey,
    get?_mapDataset f value (show "properties" ≠ "linked_service_definition" by decide)]

theorem getD_mapDataset_service :
    (value.mapDataset f).getD "linked_service_definition"
      = (value.getD "linked_service_definition").mapService f :=
  getD_mapFields rfl value

@[simp]
theorem text?_mapService (key : String) : (value.mapService f).text? key = value.text? key := by
  refine text?_mapFields (fun field => ?_) value
  split
  · exact asString?_mapFields _ field
  · rfl

@[simp]
theorem isFilledObject_mapService : (value.mapService f).isFilledObject = value.isFilledObject :=
  isFilledObject_mapFields _ value

theorem getD_mapService_properties :
    (value.mapService f).getD "properties" = (value.getD "properties").mapUrls f :=
  getD_mapFields rfl value

theorem get?_mapUrls {key : String} (hkey : ¬(key = "url" ∨ key = "connection_string")) :
    (value.mapUrls f).get? key = value.get? key := by
  rw [mapUrls, get?_mapFields]
  simp [hkey]

theorem text?_mapUrls {key : String} (hkey : key = "url" ∨ key = "connection_string") :
    (value.mapUrls f).text? key = (value.text? key).map f := by
  rw [text?, text?, mapUrls, get?_mapFields]
  cases value.get? key with
  | none => rfl
  | some field =>
    simp only [Option.map_some, if_pos hkey, Option.bind_some]
    cases field <;> rfl

end Services

end Json

/-! ## Readings -/

/-- Both readings end with values of the relation, or with obstacles of one reason as far as it is
shown. -/
inductive ReadAlike {α : Type} (hide : String → String) (same : α → α → Prop) :
    Except Obstacle α → Except Obstacle α → Prop
  | ok {value value' : α} (h : same value value') : ReadAlike hide same (.ok value) (.ok value')
  | error {reason reason' : Obstacle} (h : hide reason.message = hide reason'.message) :
    ReadAlike hide same (.error reason) (.error reason')

namespace ReadAlike

variable {α β : Type} {hide : String → String}

theorem refl (x : Except Obstacle α) : ReadAlike hide Eq x x := by
  cases x with
  | ok value => exact .ok rfl
  | error reason => exact .error rfl

theorem of_eq {x y : Except Obstacle α} (h : x = y) : ReadAlike hide Eq x y :=
  h ▸ refl x

theorem bind {same : α → α → Prop} {same' : β → β → Prop} {x y : Except Obstacle α}
    {g g' : α → Except Obstacle β} (h : ReadAlike hide same x y)
    (hg : ∀ value value', same value value' → ReadAlike hide same' (g value) (g' value')) :
    ReadAlike hide same' (x >>= g) (y >>= g') := by
  cases h with
  | ok h => exact hg _ _ h
  | error h => exact .error h

/-- The same for a first reading with equal values. -/
theorem bind_eq {same : β → β → Prop} {x y : Except Obstacle α} {g g' : α → Except Obstacle β}
    (h : ReadAlike hide Eq x y) (hg : ∀ value, ReadAlike hide same (g value) (g' value)) :
    ReadAlike hide same (x >>= g) (y >>= g') :=
  h.bind fun value _ heq => heq ▸ hg value

theorem map {same : α → α → Prop} {same' : β → β → Prop} {x y : Except Obstacle α} {g : α → β}
    (h : ReadAlike hide same x y) (hg : ∀ value value', same value value' → same' (g value) (g value')) :
    ReadAlike hide same' (x.map g) (y.map g) := by
  cases h with
  | ok h => exact .ok (hg _ _ h)
  | error h => exact .error h

end ReadAlike

/-- The parts of a connection string, as messages name them. -/
def LinkedService.connectionParts : List String := ["Storage Account name", "Protocol", "Suffix"]

/-- The parts of the address of a storage account, as far as they are found in a connection string. -/
def ConnectionString.address (connection : String) :
    Option (List Char) × Option (List Char) × Option (List Char) :=
  (accountName? connection.toList, protocol? connection.toList, endpointSuffix? connection.toList)

/-- Whether all parts of the address are found. -/
def ConnectionString.isReadable (connection : String) : Bool :=
  let (account, protocol, suffix) := address connection
  account.isSome && protocol.isSome && suffix.isSome

/-- The change `f` of connection strings cannot be told from the address of the account, nor from the
reasons for which there is none as far as they are shown. -/
structure Hides (f hide : String → String) : Prop where
  address : ∀ connection,
    ConnectionString.address (f connection) = ConnectionString.address connection
  message : ∀ definition definition' connection, ConnectionString.isReadable connection = false →
    ∀ part ∈ LinkedService.connectionParts,
      hide (LinkedService.missingPart definition (f connection) part).message
        = hide (LinkedService.missingPart definition' connection part).message

section Readings

variable {f hide : String → String}

theorem requireDefinition_alike (definition : Json) (label : String) :
    ReadAlike hide Eq (requireDefinition (definition.mapService f) label)
      (requireDefinition definition label) := by
  unfold requireDefinition
  rw [Json.isFilledObject_mapService]
  split
  · exact .ok rfl
  · exact .error rfl

theorem StorageService.ofDefinition_alike (hhides : Hides f hide) (definition : Json) :
    ReadAlike hide (fun service service' => service.withoutKey = service'.withoutKey)
      (StorageService.ofDefinition (definition.mapService f))
      (StorageService.ofDefinition definition) := by
  unfold StorageService.ofDefinition
  refine (requireDefinition_alike definition "ABFS").bind_eq fun _ => ?_
  have hconnection :
      (((definition.mapService f).getD "properties").text? "url"
          <|> ((definition.mapService f).getD "properties").text? "connection_string")
        = ((definition.getD "properties").text? "url"
            <|> (definition.getD "properties").text? "connection_string").map f := by
    rw [Json.getD_mapService_properties, Json.text?_mapUrls f _ (.inl rfl),
      Json.text?_mapUrls f _ (.inr rfl)]
    cases (definition.getD "properties").text? "url" <;> rfl
  dsimp only
  rw [hconnection]
  cases ((definition.getD "properties").text? "url"
      <|> (definition.getD "properties").text? "connection_string") with
  | none => exact .error rfl
  | some connection =>
    have hmissing (part : String) (hpart : part ∈ LinkedService.connectionParts)
        (hreadable : ConnectionString.isReadable connection = false) :
        hide (LinkedService.missingPart (definition.mapService f) (f connection) part).message
          = hide (LinkedService.missingPart definition connection part).message :=
      hhides.message _ _ connection hreadable part hpart
    have hunreadable (hnone : ConnectionString.accountName? connection.toList = none ∨
        ConnectionString.protocol? connection.toList = none ∨
        ConnectionString.endpointSuffix? connection.toList = none) :
        ConnectionString.isReadable connection = false := by
      rcases hnone with hnone | hnone | hnone <;>
        simp [ConnectionString.isReadable, ConnectionString.address, hnone]
    obtain ⟨hsameAccount, haddress⟩ := Prod.mk.inj (hhides.address connection)
    obtain ⟨hsameProtocol, hsameSuffix⟩ := Prod.mk.inj haddress
    simp only [Option.map_some, hsameAccount, hsameProtocol, hsameSuffix]
    cases haccount : ConnectionString.accountName? connection.toList with
    | none =>
      exact .error (hmissing _ (by decide) (hunreadable (.inl haccount)))
    | some account =>
      cases hprotocol : ConnectionString.protocol? connection.toList with
      | none =>
        exact .error (hmissing _ (by decide) (hunreadable (.inr (.inl hprotocol))))
      | some protocol =>
        cases hsuffix : ConnectionString.endpointSuffix? connection.toList with
        | none =>
          exact .error (hmissing _ (by decide) (hunreadable (.inr (.inr hsuffix))))
        | some suffix =>
          refine .ok ?_
          simp [StorageService.withoutKey, LinkedService.nameOf]

/-- All that is read of other services is found under other keys. -/
theorem Json.get?_properties (f : String → String) (definition : Json) {key : String}
    (hkey : ¬(key = "url" ∨ key = "connection_string")) :
    ((definition.mapService f).getD "properties").get? key
      = (definition.getD "properties").get? key := by
  rw [getD_mapService_properties, get?_mapUrls f _ hkey]

theorem Cluster.ofDefinition_alike (definition : Json) :
    ReadAlike hide Eq (Cluster.ofDefinition (definition.mapService f))
      (Cluster.ofDefinition definition) := by
  unfold Cluster.ofDefinition
  refine (requireDefinition_alike definition "Databricks").bind_eq fun _ => ?_
  simp (disch := decide) only [Json.present?, Json.text?, Json.fields?, Json.items, Json.items?,
    Json.get?_properties]
  split
  · exact .ok rfl
  · exact .error rfl

theorem WorkspaceService.ofDefinition_alike (definition : Json) :
    ReadAlike hide Eq (WorkspaceService.ofDefinition (definition.mapService f))
      (WorkspaceService.ofDefinition definition) := by
  unfold WorkspaceService.ofDefinition
  refine (Cluster.ofDefinition_alike definition).bind_eq fun cluster => .of_eq ?_
  simp (disch := decide) only [LinkedService.nameOf, Json.text?_mapService]
  simp (disch := decide) only [Json.text?, Json.get?_properties]

theorem SqlService.ofDefinition_alike (definition : Json) :
    ReadAlike hide Eq (SqlService.ofDefinition (definition.mapService f))
      (SqlService.ofDefinition definition) := by
  unfold SqlService.ofDefinition
  refine (requireDefinition_alike definition "SQL Server").bind_eq fun _ => .of_eq ?_
  simp (disch := decide) only [LinkedService.nameOf, Json.text?_mapService]
  simp (disch := decide) only [Json.text?, Json.get?_properties]

theorem LinkedService.checkKind_alike (definition : Json) (needed : ServiceKind) :
    ReadAlike hide Eq (checkKind (definition.mapService f) needed)
      (checkKind definition needed) := by
  have hproperties : ((definition.mapService f).get? "properties").bind (·.text? "type")
      = (definition.get? "properties").bind (·.text? "type") := by
    rw [Json.mapService, Json.get?_mapFields]
    cases definition.get? "properties" with
    | none => rfl
    | some properties =>
      show (properties.mapUrls f).text? "type" = properties.text? "type"
      rw [Json.text?, Json.text?, Json.get?_mapUrls f _ (by decide)]
  have htag : tag? (definition.mapService f) = tag? definition := by
    rw [tag?, tag?, hproperties, Json.text?_mapService]
  unfold checkKind
  rw [htag]
  split
  · exact .ok rfl
  · split
    · exact .ok rfl
    · split
      · exact .ok rfl
      · exact .error rfl

/-! ### Datasets -/

theorem FileDataset.ofDefinition_alike (hhides : Hides f hide) (name : String)
    (format : FileFormat) (definition properties service : Json) :
    ReadAlike hide (fun dataset dataset' =>
        (Dataset.file dataset).withoutKey = (Dataset.file dataset').withoutKey)
      (FileDataset.ofDefinition name format (definition.mapDataset f) properties
        (service.mapService f))
      (FileDataset.ofDefinition name format definition properties service) := by
  have hoptions : Dataset.fileOptions format (definition.mapDataset f)
      = Dataset.fileOptions format definition := by
    cases format <;> simp (disch := decide) only [Dataset.fileOptions, Dataset.codec?,
      Dataset.propertyText?, Dataset.delimiter, Json.property?_mapDataset]
  unfold FileDataset.ofDefinition
  rw [hoptions]
  dsimp only
  split
  · exact .error rfl
  · refine (ReadAlike.refl _).bind_eq fun container => ?_
    refine (ReadAlike.refl _).bind_eq fun fileName => ?_
    refine (LinkedService.checkKind_alike service .storage).bind_eq fun _ => ?_
    refine (StorageService.ofDefinition_alike hhides service).bind fun storage storage' hsame => ?_
    refine .ok ?_
    simp [Dataset.withoutKey, hsame]

theorem DeltaTable.ofDefinition_alike (name : String) (properties service : Json) :
    ReadAlike hide Eq (DeltaTable.ofDefinition name properties (service.mapService f))
      (DeltaTable.ofDefinition name properties service) := by
  unfold DeltaTable.ofDefinition
  refine (ReadAlike.refl _).bind_eq fun database => ?_
  refine (ReadAlike.refl _).bind_eq fun table => ?_
  refine (LinkedService.checkKind_alike service .workspace).bind_eq fun _ => ?_
  exact (WorkspaceService.ofDefinition_alike service).bind_eq fun workspace => .ok rfl

theorem SqlTable.ofDefinition_alike (name : String) (properties service : Json) :
    ReadAlike hide Eq (SqlTable.ofDefinition name properties (service.mapService f))
      (SqlTable.ofDefinition name properties service) := by
  unfold SqlTable.ofDefinition
  split
  · refine (ReadAlike.refl _).bind_eq fun schema => ?_
    refine (ReadAlike.refl _).bind_eq fun table => ?_
    refine (LinkedService.checkKind_alike service .sqlServer).bind_eq fun _ => ?_
    exact (SqlService.ofDefinition_alike service).bind_eq fun server => .ok rfl
  · exact .error rfl

namespace Dataset

theorem formatOf_alike (definition : Json) :
    ReadAlike hide Eq (formatOf (definition.mapDataset f)) (formatOf definition) := by
  have hproperties : (definition.mapDataset f).getD "properties" = definition.getD "properties" :=
    Json.getD_mapDataset f _ (by decide)
  unfold formatOf
  rw [hproperties]
  dsimp only
  split
  · exact .error rfl
  · split
    · split
      · exact .ok rfl
      · exact .error rfl
    · exact .error rfl
    · exact .error rfl

theorem ofParts_alike (hhides : Hides f hide) (name : String) (format : Format)
    (definition service : Json) :
    ReadAlike hide (fun dataset dataset' => dataset.withoutKey = dataset'.withoutKey)
      (ofParts name format (definition.mapDataset f) (service.mapService f))
      (ofParts name format definition service) := by
  have hproperties : (definition.mapDataset f).getD "properties" = definition.getD "properties" :=
    Json.getD_mapDataset f _ (by decide)
  unfold ofParts
  rw [hproperties]
  cases format with
  | file format =>
    exact (FileDataset.ofDefinition_alike hhides name format definition _ service).map
      fun dataset dataset' hsame => hsame
  | delta =>
    refine (DeltaTable.ofDefinition_alike name _ service).map fun table table' hsame => ?_
    rw [hsame]
  | sqlServer =>
    refine (SqlTable.ofDefinition_alike name _ service).map fun table table' hsame => ?_
    rw [hsame]

/-- The service of a dataset is missing with and without keys, or there is one. -/
theorem linkedServiceOf_mapDataset (name : String) (definition : Json) :
    linkedServiceOf name (definition.mapDataset f)
      = (linkedServiceOf name definition).map (Json.mapService f) := by
  unfold linkedServiceOf
  rw [Json.getD_mapDataset_service]
  cases definition.getD "linked_service_definition" with
  | obj fields => cases fields <;> rfl
  | _ => rfl

end Dataset

/-- Both end with the same failure, or with values of the relation. -/
inductive FailAlike {α : Type} (same : α → α → Prop) : Except Failure α → Except Failure α → Prop
  | ok {value value' : α} (h : same value value') : FailAlike same (.ok value) (.ok value')
  | error (failure : Failure) : FailAlike same (.error failure) (.error failure)

theorem FailAlike.bind {α β : Type} {same : α → α → Prop} {same' : β → β → Prop}
    {x y : Except Failure α} {g g' : α → Except Failure β} (h : FailAlike same x y)
    (hg : ∀ value value', same value value' → FailAlike same' (g value) (g' value')) :
    FailAlike same' (x >>= g) (y >>= g') := by
  cases h with
  | ok h => exact hg _ _ h
  | error failure => exact .error failure

/-- Both readings of a dataset end alike up to its key. -/
abbrev DatasetAlike (hide : String → String) :
    Except Obstacle Dataset → Except Obstacle Dataset → Prop :=
  ReadAlike hide fun dataset dataset' => dataset.withoutKey = dataset'.withoutKey

theorem Dataset.ofDefinition_alike (hhides : Hides f hide) (definition : Json) :
    FailAlike (DatasetAlike hide) (ofDefinition (definition.mapDataset f))
      (ofDefinition definition) := by
  have hformat : ReadAlike hide Eq (formatOf (definition.mapDataset f)) (formatOf definition) :=
    formatOf_alike definition
  unfold ofDefinition
  rw [Json.text?_mapDataset]
  dsimp only
  generalize formatOf (definition.mapDataset f) = format, formatOf definition = format' at hformat ⊢
  cases hformat with
  | error hreason => exact .ok (.error hreason)
  | ok hsame =>
    rw [hsame, linkedServiceOf_mapDataset]
    cases linkedServiceOf ((definition.text? "name").getD unnamed) definition with
    | error failure => exact .error failure
    | ok service =>
      rename_i format
      have hparts := ofParts_alike hhides ((definition.text? "name").getD unnamed) format definition
        service
      simp only [Except.map]
      generalize ofParts ((definition.text? "name").getD unnamed) format (definition.mapDataset f)
        (service.mapService f) = read, ofParts ((definition.text? "name").getD unnamed) format
        definition service = read' at hparts ⊢
      cases hparts with
      | ok hsame => exact .ok (.ok hsame)
      | error hreason => exact .ok (.error hreason)

/-! ### Copies -/

namespace Copy

variable {activity : Json}

theorem firstDataset_alike (hhides : Hides f hide) {key : String} (hkey : key ∈ Json.datasetKeys) :
    FailAlike (DatasetAlike hide) (firstDataset (activity.mapConnections f) key)
      (firstDataset activity key) := by
  unfold firstDataset
  rw [Json.items_mapConnections_datasets f activity hkey]
  cases activity.items key with
  | nil => exact .ok (.error rfl)
  | cons definition rest => exact Dataset.ofDefinition_alike hhides definition

theorem checkSide_alike (label : String) {dataset dataset' : Dataset}
    (h : dataset.withoutKey = dataset'.withoutKey) (side : Side) :
    checkSide label dataset side = checkSide label dataset' side := by
  have hname : dataset.name = dataset'.name := by
    rw [← dataset.name_withoutKey, h, dataset'.name_withoutKey]
  have hformat : dataset.format = dataset'.format := by
    rw [← dataset.format_withoutKey, h, dataset'.format_withoutKey]
  simp only [checkSide, hname, hformat]

/-- Both readings of a copy end alike up to the keys of its datasets. -/
abbrev CopyAlike (hide : String → String) : Except Obstacle Copy → Except Obstacle Copy → Prop :=
  ReadAlike hide fun copy copy' => copy.withoutKeys = copy'.withoutKeys

/-- The parts of two copies whose datasets are read alike. -/
theorem parts_alike {source source' sink sink' : Except Obstacle Dataset}
    (hsource : DatasetAlike hide source source') (hsink : DatasetAlike hide sink sink')
    (sourceSide sinkSide : Except Obstacle Side) :
    ReadAlike hide (fun parts parts' => parts.1.withoutKey = parts'.1.withoutKey ∧
        parts.2.1.withoutKey = parts'.2.1.withoutKey ∧ parts.2.2 = parts'.2.2)
      (parts source sink sourceSide sinkSide) (parts source' sink' sourceSide sinkSide) := by
  unfold parts
  refine hsource.bind fun source source' hsource => ?_
  refine hsink.bind fun sink sink' hsink => ?_
  refine (ReadAlike.refl sourceSide).bind_eq fun sourceSide => ?_
  refine (ReadAlike.refl sinkSide).bind_eq fun sinkSide => ?_
  refine (ReadAlike.of_eq (checkSide_alike "Source" hsource sourceSide)).bind_eq fun _ => ?_
  refine (ReadAlike.of_eq (checkSide_alike "Sink" hsink sinkSide)).bind_eq fun _ => ?_
  exact .ok ⟨hsource, hsink, rfl⟩

theorem ofDatasets_alike (strict : Bool) {source source' sink sink' : Except Obstacle Dataset}
    (hsource : DatasetAlike hide source source') (hsink : DatasetAlike hide sink sink') :
    (ofDatasets strict (activity.mapConnections f) source sink).notes
        = (ofDatasets strict activity source' sink').notes ∧
      CopyAlike hide (ofDatasets strict (activity.mapConnections f) source sink).value
        (ofDatasets strict activity source' sink').value := by
  have hside (key : String) (hkey : key ∉ Json.connectionKeys) :
      side strict (activity.mapConnections f) key = side strict activity key := by
    simp only [side, missing, Json.getD_mapConnections f activity hkey]
  have hparts := parts_alike hsource hsink (side strict activity "source").value
    (side strict activity "sink").value
  simp only [ofDatasets, hside "source" (by decide), hside "sink" (by decide),
    Json.get?_mapConnections f activity (show "translator" ∉ Json.connectionKeys by decide),
    Noted.notes_bind, Noted.value_bind]
  generalize parts source sink (side strict activity "source").value
    (side strict activity "sink").value = x, parts source' sink'
    (side strict activity "source").value (side strict activity "sink").value = y at hparts ⊢
  cases hparts with
  | error hreason => exact ⟨rfl, .error hreason⟩
  | ok hsame =>
    rename_i parts parts'
    obtain ⟨source, sink, sides⟩ := parts
    obtain ⟨source', sink', sides'⟩ := parts'
    obtain ⟨hsource, hsink, hsides⟩ := hsame
    obtain rfl : sides = sides' := hsides
    refine ⟨rfl, .ok ?_⟩
    simp only [Copy.withoutKeys, hsource, hsink]

/-- **Copies.** With changed connection strings a copy is read with the same notes, and alike up to
the keys of its datasets. -/
theorem ofActivity_alike (hhides : Hides f hide) (strict : Bool) (activity : Json) :
    FailAlike (fun read read' => read.notes = read'.notes ∧ CopyAlike hide read.value read'.value)
      (ofActivity strict (activity.mapConnections f)) (ofActivity strict activity) := by
  unfold ofActivity
  refine (firstDataset_alike hhides (by decide)).bind fun source source' hsource => ?_
  refine (firstDataset_alike hhides (by decide)).bind fun sink sink' hsink => ?_
  exact .ok (ofDatasets_alike strict hsource hsink)

end Copy

end Readings

end FactoryMigration
