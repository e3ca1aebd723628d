import FactoryMigration.Proofs.DatasetOutcomes
import FactoryMigration.Proofs.KeySegments

set_option autoImplicit false

/-! # Parts of locations

A dataset is addressed by the parts of its location. Of a dataset that is read none of them is empty,
except for the catalog of a Delta table and the schema of a SQL table: these are taken over from the
definition as they are, so that the name of the table begins with an empty part exactly if the text in
the definition is empty (`Dataset.ofDefinition_locationParts`). -/

namespace FactoryMigration

namespace Dataset

/-- What a dataset is addressed by: container, path and account of a file, or the parts of the name of
a table. -/
def locationParts : Dataset → List String
  | file dataset => [dataset.container, dataset.path, dataset.service.account]
  | delta dataset => [dataset.catalog.getD "hive_metastore", dataset.database, dataset.table]
  | sql dataset => [dataset.schema, dataset.table]

/-- The parts without which a definition is not read. -/
def requiredParts : Dataset → List String
  | file dataset => [dataset.container, dataset.path, dataset.service.account]
  | delta dataset => [dataset.database, dataset.table]
  | sql dataset => [dataset.table]

/-- The name of a table. -/
def tableName? : Dataset → Option String
  | file _ => none
  | delta dataset => some dataset.qualifiedName
  | sql dataset => some dataset.qualifiedName

/-- The text of the part that is taken over as it is, from the properties of a definition: the catalog
of a Delta table, or the schema of a SQL table under the first of its keys that has a text. -/
def uncheckedPart? (properties : Json) : Format → Option String
  | .file _ => none
  | .delta => properties.text? "catalog"
  | .sqlServer =>
    properties.text? "schema_type_properties_schema" <|> properties.text? "schema"

/-- The name of a table has its parts in a row, with points between them. -/
theorem tableName?_eq_joinWith {dataset : Dataset} {name : String}
    (h : dataset.tableName? = some name) : name = Text.joinWith "." dataset.locationParts := by
  cases dataset with
  | file file => cases h
  | delta table =>
    obtain rfl := Option.some.inj h
    simp [locationParts, Text.joinWith, DeltaTable.qualifiedName, String.append_assoc]
  | sql table =>
    obtain rfl := Option.some.inj h
    simp [locationParts, Text.joinWith, SqlTable.qualifiedName, String.append_assoc]

end Dataset

/-! ## Texts that have to be there -/

theorem ne_empty_of_requireText {object : Json} {key parent text : String}
    (h : requireText object key parent = .ok text) : text ≠ "" := by
  unfold requireText at h
  split at h
  · rename_i hfilled
    cases h
    exact (Json.filledText?_eq_some_iff.mp hfilled).2
  · cases h

theorem FileDataset.joinPath_ne_empty (folder : Option String) {fileName : String}
    (h : fileName ≠ "") : joinPath folder fileName ≠ "" := by
  cases folder with
  | none => exact h
  | some folder => simp [joinPath]

theorem ConnectionString.valueHere?_ne_nil {tag cs value : List Char} {isValue : Char → Bool}
    (h : valueHere? tag isValue cs = some value) : value ≠ [] := by
  unfold valueHere? at h
  split at h
  · cases h
  · dsimp only at h
    split at h
    · cases h
    · obtain rfl := Option.some.inj h
      assumption
    · split at h
      · obtain rfl := Option.some.inj h
        assumption
      · cases h

theorem ConnectionString.value?_ne_nil {tag cs value : List Char} {isValue : Char → Bool}
    (h : value? tag isValue cs = some value) : value ≠ [] := by
  induction cs with
  | nil => exact valueHere?_ne_nil h
  | cons c rest ih =>
    rw [value?] at h
    split at h
    · rename_i found hfound
      obtain rfl := Option.some.inj h
      exact valueHere?_ne_nil hfound
    · exact ih h

theorem StorageService.account_ne_empty {definition : Json} {service : StorageService}
    (h : StorageService.ofDefinition definition = .ok service) : service.account ≠ "" := by
  obtain ⟨_, -, h⟩ := exists_of_bind_eq_ok h
  dsimp only at h
  split at h
  · cases h
  · split at h
    · cases h
    · cases h
    · cases h
    · rename_i account _ _ haccount _ _
      cases h
      simpa using ConnectionString.value?_ne_nil haccount

/-! ## Datasets -/

namespace Dataset

/-- No part of the location that has to be there is empty, and some part is empty exactly if the
properties give an empty text for the part that is not checked. -/
structure IsLocated (properties : Json) (dataset : Dataset) : Prop where
  required : ∀ part ∈ dataset.requiredParts, part ≠ ""
  unchecked : "" ∈ dataset.locationParts ↔ uncheckedPart? properties dataset.format = some ""

variable {name : String} {properties service : Json}

theorem isLocated_file {format : FileFormat} {definition : Json} {dataset : FileDataset}
    (h : FileDataset.ofDefinition name format definition properties service = .ok dataset) :
    IsLocated properties (.file dataset) := by
  have hrequired : ∀ part ∈ (file dataset).requiredParts, part ≠ "" := by
    unfold FileDataset.ofDefinition at h
    dsimp only at h
    split at h
    · cases h
    · obtain ⟨container, hcontainer, h⟩ := exists_of_bind_eq_ok h
      obtain ⟨fileName, hfileName, h⟩ := exists_of_bind_eq_ok h
      obtain ⟨_, -, h⟩ := exists_of_bind_eq_ok h
      obtain ⟨storage, hstorage, h⟩ := exists_of_bind_eq_ok h
      cases h
      have hpath := FileDataset.joinPath_ne_empty
        ((properties.getD "location").filledText? "folder_path") (ne_empty_of_requireText hfileName)
      simp [requiredParts, ne_empty_of_requireText hcontainer, hpath,
        StorageService.account_ne_empty hstorage]
  -- all parts of the location of a file have to be there
  exact ⟨hrequired, fun hempty => absurd rfl (hrequired "" hempty), nofun⟩

theorem isLocated_delta {dataset : DeltaTable}
    (h : DeltaTable.ofDefinition name properties service = .ok dataset) :
    IsLocated properties (.delta dataset) := by
  obtain ⟨database, hdatabase, h⟩ := exists_of_bind_eq_ok h
  obtain ⟨table, htable, h⟩ := exists_of_bind_eq_ok h
  obtain ⟨_, -, h⟩ := exists_of_bind_eq_ok h
  obtain ⟨workspace, -, h⟩ := exists_of_bind_eq_ok h
  cases h
  have hdatabase := ne_empty_of_requireText hdatabase
  have htable := ne_empty_of_requireText htable
  constructor
  · simp [requiredParts, hdatabase, htable]
  · show "" ∈ [(properties.text? "catalog").getD "hive_metastore", database, table] ↔
      properties.text? "catalog" = some ""
    cases properties.text? "catalog" with
    | none => simp [Ne.symm hdatabase, Ne.symm htable]
    | some catalog => simp [Ne.symm hdatabase, Ne.symm htable, eq_comm]

theorem isLocated_sql {dataset : SqlTable}
    (h : SqlTable.ofDefinition name properties service = .ok dataset) :
    IsLocated properties (.sql dataset) := by
  unfold SqlTable.ofDefinition at h
  dsimp only at h
  split at h
  · rename_i schema hschema
    obtain ⟨_, hread, h⟩ := exists_of_bind_eq_ok h
    obtain ⟨table, htable, h⟩ := exists_of_bind_eq_ok h
    obtain ⟨_, -, h⟩ := exists_of_bind_eq_ok h
    obtain ⟨server, -, h⟩ := exists_of_bind_eq_ok h
    cases hread
    cases h
    have htable := ne_empty_of_requireText htable
    have hpart : uncheckedPart? properties .sqlServer = some schema := hschema
    constructor
    · simp [requiredParts, htable]
    · show "" ∈ [schema, table] ↔ uncheckedPart? properties .sqlServer = some ""
      simp [hpart, Ne.symm htable, eq_comm]
  · cases h

/-- **Locations.** Of a dataset that is read, every part of the location that has to be there has a
text. Some part is empty exactly if the definition has an empty text for the catalog or the schema,
which then begins the name of the table. -/
theorem ofDefinition_locationParts {definition : Json} {dataset : Dataset}
    (h : ofDefinition definition = .ok (.ok dataset)) :
    (∀ part ∈ dataset.requiredParts, part ≠ "") ∧
      ("" ∈ dataset.locationParts ↔
        uncheckedPart? (definition.getD "properties") dataset.format = some "") ∧
      ∀ name, dataset.tableName? = some name → name = Text.joinWith "." dataset.locationParts := by
  obtain ⟨format, service, hparts⟩ := exists_parts_of_ofDefinition h
  have hlocated : IsLocated (definition.getD "properties") dataset := by
    unfold ofParts at hparts
    dsimp only at hparts
    cases format with
    | file format =>
      obtain ⟨file, hfile, rfl⟩ := exists_of_map_eq_ok hparts
      exact isLocated_file hfile
    | delta =>
      obtain ⟨table, htable, rfl⟩ := exists_of_map_eq_ok hparts
      exact isLocated_delta htable
    | sqlServer =>
      obtain ⟨table, htable, rfl⟩ := exists_of_map_eq_ok hparts
      exact isLocated_sql htable
  exact ⟨hlocated.required, hlocated.unchecked, fun _ hname => tableName?_eq_joinWith hname⟩

/-- The definition of a table in a catalog with an empty name. -/
def blankCatalog : Json :=
  .ofFields [("name", .str "orders"),
    ("properties", .ofFields [("type", .str "AzureDatabricksDeltaLakeDataset"),
      ("catalog", .str ""), ("database", .str "sales"), ("table", .str "orders")]),
    ("linked_service_definition", .ofFields [("name", .str "lakehouse")])]

/-- The definition of a table in a schema with an empty name. -/
def blankSchema : Json :=
  .ofFields [("name", .str "orders"),
    ("properties", .ofFields [("type", .str "AzureSqlTable"),
      ("schema_type_properties_schema", .str ""), ("table", .str "orders")]),
    ("linked_service_definition", .ofFields [("name", .str "shop"),
      ("properties", .ofFields [("server", .str "db.example.net")])])]

/-- The empty catalog is taken over, and only that part is empty. -/
theorem blankCatalog_located :
    ∃ dataset, ofDefinition blankCatalog = .ok (.ok dataset) ∧
      "" ∈ dataset.locationParts ∧ ∀ part ∈ dataset.requiredParts, part ≠ "" := by
  have hread : ((ofDefinition blankCatalog).toOption.bind Except.toOption).map format
      = some .delta := by
    decide +kernel
  rcases h : ofDefinition blankCatalog with failure | ⟨obstacle | dataset⟩
  · rw [h] at hread
    cases hread
  · rw [h] at hread
    cases hread
  · rw [h] at hread
    obtain ⟨hrequired, hempty, -⟩ := ofDefinition_locationParts h
    rw [show dataset.format = .delta from Option.some.inj hread] at hempty
    exact ⟨dataset, rfl, hempty.mpr (by decide +kernel), hrequired⟩

/-- The name of a table in a schema without a name begins with a point. -/
theorem blankSchema_unnamed :
    ((ofDefinition blankSchema).toOption.bind Except.toOption).map
        (fun dataset => (dataset.locationParts, dataset.tableName?))
      = some (["", "orders"], some ".orders") := by
  decide +kernel

end Dataset

end FactoryMigration
