import FactoryMigration.Dataset.Basic

set_option autoImplicit false

/-! # Secrets

A script looks credentials up in a secret scope, each under the name of its service and the name of
the secret. For each there is an instruction to create the secret, with its value if the definition
of the service holds it. -/

namespace FactoryMigration

/-- A secret that has to exist before a script runs. -/
structure Secret where
  scope : String
  key : String
  serviceName : String
  serviceFormat : Format
  value : Option String
deriving DecidableEq

namespace Secret

/-- The key of a secret of a service. -/
def keyOf (service name : String) : String :=
  service ++ "_" ++ name

/-- The value of a secret as far as the definition of the service holds it. -/
def knownValue (dataset : Dataset) (name : String) : Option String :=
  match dataset, name with
  | .file dataset, "storage_account_key" => dataset.service.accountKey
  | .sql dataset, "host" => dataset.service.host
  | .sql dataset, "database" => dataset.service.database
  | .sql dataset, "user_name" => dataset.service.userName
  | _, _ => none

/-- The secrets of a dataset. -/
def ofDataset (scope : String) (dataset : Dataset) : List Secret :=
  dataset.format.secretNames.map fun name =>
    { scope := scope
      key := keyOf dataset.serviceName name
      serviceName := dataset.serviceName
      serviceFormat := dataset.format
      value := knownValue dataset name }

end Secret

end FactoryMigration
