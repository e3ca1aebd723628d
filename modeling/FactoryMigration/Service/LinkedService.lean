import FactoryMigration.Service.Cluster
import FactoryMigration.Service.ConnectionString

set_option autoImplicit false

/-! # Linked services

The service behind a dataset: a storage account, a workspace with its cluster, or a SQL server. A
definition is read as the kind of service its reader needs; a type tag that names another kind is
refused, while a missing or unknown tag is not. -/

namespace FactoryMigration

/-- A storage account with its blob endpoint, and its key if the connection string holds it. -/
structure StorageService where
  name : String
  account : String
  url : String
  accountKey : Option String
deriving DecidableEq

/-- A SQL server and how to log in to it. -/
structure SqlService where
  name : String
  host : Option String
  database : Option String
  userName : Option String
  authenticationType : Option String
deriving DecidableEq

/-- A workspace and the cluster that its activities run on. -/
structure WorkspaceService where
  name : String
  hostName : Option String
  cluster : Cluster

/-- What a consumer needs a service to be. -/
inductive ServiceKind where
  | storage
  | workspace
  | sqlServer
deriving DecidableEq

namespace ServiceKind

/-- The kind that a type tag names. -/
def ofTag? : String → Option ServiceKind
  | "AzureBlobFS" | "AzureBlobStorage" | "AzureDataLakeStore" => some storage
  | "AzureDatabricks" | "AzureDatabricksDeltaLake" => some workspace
  | "AzureSqlDatabase" | "AzureSqlMI" | "SqlServer" => some sqlServer
  | _ => none

def name : ServiceKind → String
  | storage => "abfs"
  | workspace => "databricks"
  | sqlServer => "sqlserver"

end ServiceKind

/-- A service of one of the three kinds. -/
inductive LinkedService where
  | storage (service : StorageService)
  | workspace (service : WorkspaceService)
  | sqlServer (service : SqlService)

namespace LinkedService

/-- The name of services without one. -/
def unnamed : String := "UNNAMED_LINKED_SERVICE"

/-- The type tag, from the properties or else from the definition itself. -/
def tag? (definition : Json) : Option String :=
  (definition.get? "properties").bind (·.text? "type") <|> definition.text? "type"

/-- Refuses a definition whose tag names another kind of service. -/
def checkKind (definition : Json) (needed : ServiceKind) : Except Obstacle Unit :=
  match tag? definition with
  | none => .ok ()
  | some tag =>
    match ServiceKind.ofTag? tag with
    | none => .ok ()
    | some kind =>
      if kind = needed then .ok ()
      else .error ⟨definition, "Linked service type '" ++ tag ++ "' does not match expected kind '"
        ++ needed.name ++ "'"⟩

/-- The name of the service. -/
def nameOf (definition : Json) : String :=
  (definition.text? "name").getD unnamed

/-- The obstacle that a part of a connection string cannot be found. -/
def missingPart (definition : Json) (connection part : String) : Obstacle :=
  (Obstacle.mk definition ("Could not parse " ++ part ++ " from connection string '" ++ connection
    ++ "'")).context "Invalid property 'url' in ABFS linked service definition"

end LinkedService

/-- Reads a storage account from its connection string. -/
def StorageService.ofDefinition (definition : Json) : Except Obstacle StorageService := do
  requireDefinition definition "ABFS"
  let properties := definition.getD "properties"
  match properties.text? "url" <|> properties.text? "connection_string" with
  | none => .error ⟨definition, "Missing property 'url' in ABFS linked service definition"⟩
  | some connection =>
    let cs := connection.toList
    let missing := LinkedService.missingPart definition connection
    match ConnectionString.accountName? cs, ConnectionString.protocol? cs,
      ConnectionString.endpointSuffix? cs with
    | none, _, _ => .error (missing "Storage Account name")
    | _, none, _ => .error (missing "Protocol")
    | _, _, none => .error (missing "Suffix")
    | some account, some protocol, some suffix =>
      let account := String.ofList account
      return {
        name := LinkedService.nameOf definition
        account := account
        url := String.ofList protocol ++ "://" ++ account ++ ".blob." ++ String.ofList suffix ++ "/"
        accountKey := (ConnectionString.accountKey? cs).map String.ofList }

/-- Reads a SQL server. -/
def SqlService.ofDefinition (definition : Json) : Except Obstacle SqlService := do
  requireDefinition definition "SQL Server"
  let properties := definition.getD "properties"
  return {
    name := LinkedService.nameOf definition
    host := properties.text? "server"
    database := properties.text? "database"
    userName := properties.text? "user_name"
    authenticationType := properties.text? "authentication_type" }

/-- Reads a workspace with its cluster. -/
def WorkspaceService.ofDefinition (definition : Json) : Except Obstacle WorkspaceService := do
  let cluster ← Cluster.ofDefinition definition
  return {
    name := LinkedService.nameOf definition
    hostName := (definition.getD "properties").text? "domain"
    cluster := cluster }

/-- Reads a definition as a service of the needed kind. -/
def LinkedService.ofDefinition (definition : Json) (needed : ServiceKind) :
    Except Obstacle LinkedService := do
  checkKind definition needed
  match needed with
  | .storage => (StorageService.ofDefinition definition).map .storage
  | .workspace => (WorkspaceService.ofDefinition definition).map .workspace
  | .sqlServer => (SqlService.ofDefinition definition).map .sqlServer

end FactoryMigration
