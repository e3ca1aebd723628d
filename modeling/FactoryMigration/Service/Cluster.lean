import FactoryMigration.Failure
import FactoryMigration.Parameter

set_option autoImplicit false

/-! # Job clusters

The cluster that a task runs on, read from the properties of a workspace service. -/

namespace FactoryMigration

/-- How many workers a cluster has. -/
inductive Workers where
  | fixed (count : Nat)
  | autoscale (least greatest : Nat)
deriving DecidableEq

/-- Where an init script is stored. -/
inductive ScriptStore where
  | dbfs
  | volumes
  | workspace
deriving DecidableEq

namespace ScriptStore

/-- The store that a path belongs to, by how it begins. -/
def ofPath (path : String) : ScriptStore :=
  if (Text.afterStart "dbfs:".toList path.toList).isSome then dbfs
  else if (Text.afterStart "/Volumes".toList path.toList).isSome then volumes
  else workspace

/-- The key of the store in a cluster's settings. -/
def key : ScriptStore → String
  | dbfs => "dbfs"
  | volumes => "volumes"
  | workspace => "workspace"

end ScriptStore

/-- The settings of a job cluster. -/
structure Cluster where
  sparkVersion : Option String
  nodeType : Option String
  driverNodeType : Option String
  customTags : Table String
  sparkConf : Option (Table Json)
  sparkEnvVars : Option (Table Json)
  initScripts : List String
  logDestination : Option String
  workers : Option Workers

namespace Workers

/-- A worker count: blanks around it are dropped. -/
def count? (cs : List Char) : Option Nat :=
  Text.count? Text.limit32 (Text.trim cs)

/-- Two counts with a colon between them bound an autoscaled cluster; one count fixes it. -/
def ofText (raw : Json) (cs : List Char) : Except Obstacle Workers :=
  match Text.cutFirst ':' cs with
  | some (least, greatest) =>
    match count? least, count? greatest with
    | some least, some greatest =>
      if least ≤ greatest then .ok (autoscale least greatest)
      else .error ⟨raw, "Invalid autoscale policy '" ++ String.ofList cs ++ "'"⟩
    | _, _ => .error ⟨raw, "Invalid autoscale policy '" ++ String.ofList cs ++ "'"⟩
  | none =>
    match Text.count? Text.limit32 cs with
    | some n => .ok (fixed n)
    | none => .error ⟨raw, "Invalid number of workers '" ++ String.ofList cs ++ "'"⟩

/-- Reads the size of a cluster, from text or a number. -/
def ofValue : Option Json → Except Obstacle (Option Workers)
  | none => .ok none
  | some (.str s) => (ofText (.str s) (Text.trim s.toList)).map some
  | some (.num n) => (ofText (.num n) n.text.toList).map some
  | some other => .error ⟨other, "Invalid number of workers '" ++ other.compact ++ "'"⟩

end Workers

/-- Refuses a definition that is no object or an empty one. -/
def requireDefinition (definition : Json) (label : String) : Except Obstacle Unit :=
  if definition.isFilledObject then .ok ()
  else .error ⟨definition, "Missing " ++ label ++ " linked service definition"⟩

namespace Cluster

/-- Reads the cluster of a workspace service. -/
def ofDefinition (definition : Json) : Except Obstacle Cluster := do
  requireDefinition definition "Databricks"
  let properties := definition.getD "properties"
  let workers ← match Workers.ofValue (properties.present? "new_cluster_num_of_worker") with
    | .ok workers => .ok workers
    | .error obstacle => .error (obstacle.within definition)
  return {
    sparkVersion := properties.text? "new_cluster_version"
    nodeType := properties.text? "new_cluster_node_type"
    driverNodeType := properties.text? "new_cluster_driver_node_type"
    customTags := withProvenance (tagTexts (properties.get? "new_cluster_custom_tags"))
    sparkConf := properties.fields? "new_cluster_spark_conf"
    sparkEnvVars := properties.fields? "new_cluster_spark_env_vars"
    initScripts := (properties.items "new_cluster_init_scripts").filterMap Json.asString?
    logDestination := properties.text? "new_cluster_log_destination"
    workers := workers }

end Cluster

end FactoryMigration
