import FactoryMigration.Dataset.Basic

set_option autoImplicit false

/-! # Reading dataset definitions

Only a missing linked service ends the conversion; every other fault is an obstacle, reported with
the whole definition. -/

namespace FactoryMigration

/-- The linked service definition inside a dataset definition. -/
def linkedServiceOf (dataset : String) (definition : Json) : Except Failure Json :=
  match definition.getD "linked_service_definition" with
  | .obj (field :: fields) => .ok (.obj (field :: fields))
  | .obj [] => .error (.unresolvedLinkedService dataset "Linked service definition is empty")
  | .null => .error (.unresolvedLinkedService dataset "Missing linked service definition")
  | _ => .error (.unresolvedLinkedService dataset "Linked service definition must be an object")

/-- A text field that has to be there and not empty. -/
def requireText (object : Json) (key parent : String) : Except Obstacle String :=
  match object.filledText? key with
  | some text => .ok text
  | none => .error ⟨object, "Missing property '" ++ key ++ "' in " ++ parent⟩

namespace FileDataset

/-- Folder and file name with one slash between them, or the file name alone. -/
def joinPath (folder : Option String) (fileName : String) : String :=
  match folder with
  | some folder => String.ofList (Text.dropTrailing '/' folder.toList) ++ "/" ++ fileName
  | none => fileName

/-- Reads the location and the storage account of a file dataset. -/
def ofDefinition (name : String) (format : FileFormat) (definition properties service : Json) :
    Except Obstacle FileDataset := do
  let location := properties.getD "location"
  if !location.isObject then
    .error ⟨properties, "Missing property 'location' in dataset properties"⟩
  let container ← requireText location "container" "dataset location"
  let fileName ← requireText location "file_name" "dataset location"
  LinkedService.checkKind service .storage
  let storage ← StorageService.ofDefinition service
  return {
    name := name
    format := format
    container := container
    path := joinPath (location.filledText? "folder_path") fileName
    options := Dataset.fileOptions format definition
    service := storage }

end FileDataset

/-- Reads the parts of the name of a Delta table. -/
def DeltaTable.ofDefinition (name : String) (properties service : Json) :
    Except Obstacle DeltaTable := do
  let database ← requireText properties "database" "dataset properties"
  let table ← requireText properties "table" "dataset properties"
  LinkedService.checkKind service .workspace
  let workspace ← WorkspaceService.ofDefinition service
  return {
    name := name
    catalog := properties.text? "catalog"
    database := database
    table := table
    serviceName := workspace.name }

/-- Reads the parts of the name of a SQL table. The schema may stand under either of two keys. -/
def SqlTable.ofDefinition (name : String) (properties service : Json) :
    Except Obstacle SqlTable := do
  let schema ← match properties.text? "schema_type_properties_schema" <|> properties.text? "schema"
    with
    | some schema => .ok schema
    | none => .error ⟨properties,
        "Missing property 'schema_type_properties_schema' in dataset properties"⟩
  let table ← requireText properties "table" "dataset properties"
  LinkedService.checkKind service .sqlServer
  let server ← SqlService.ofDefinition service
  return { name := name, schema := schema, table := table, service := server }

namespace Dataset

/-- The format of a dataset definition, from its properties. -/
def formatOf (definition : Json) : Except Obstacle Format :=
  let properties := definition.getD "properties"
  if !properties.isFilledObject then
    .error ⟨definition, "Missing property 'properties' in dataset definition"⟩
  else
    match properties.get? "type" with
    | some (.str tag) =>
      match Format.ofDatasetTag? tag with
      | some format => .ok format
      | none => .error ⟨definition, "Unsupported dataset type '" ++ tag ++ "'"⟩
    | some other => .error ⟨definition,
        "Invalid value " ++ other.compact ++ " for property 'type' in dataset definition"⟩
    | none => .error ⟨definition, "Missing property 'type' in dataset properties"⟩

/-- Reads a dataset of a known format with its service. -/
def ofParts (name : String) (format : Format) (definition service : Json) :
    Except Obstacle Dataset :=
  let properties := definition.getD "properties"
  match format with
  | .file format => (FileDataset.ofDefinition name format definition properties service).map .file
  | .delta => (DeltaTable.ofDefinition name properties service).map .delta
  | .sqlServer => (SqlTable.ofDefinition name properties service).map .sql

/-- Reads a dataset definition. -/
def ofDefinition (definition : Json) : Except Failure (Except Obstacle Dataset) :=
  let name := (definition.text? "name").getD unnamed
  match formatOf definition with
  | .error obstacle => .ok (.error obstacle)
  | .ok format =>
    match linkedServiceOf name definition with
    | .error failure => .error failure
    | .ok service =>
      match ofParts name format definition service with
      | .ok dataset => .ok (.ok dataset)
      | .error obstacle => .ok (.error (obstacle.within definition))

end Dataset

end FactoryMigration
