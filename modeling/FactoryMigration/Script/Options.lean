import FactoryMigration.Script.Name
import FactoryMigration.Secret

set_option autoImplicit false

/-! # Option blocks

The statements that set up the options of one side of a copy. Options of the side's block count
before those of the dataset, and empty options of files are left out. Credentials are looked up,
never written. -/

namespace FactoryMigration.Script

/-- A call that looks a secret up. -/
def secretLookup (scope key : String) : String :=
  "dbutils.secrets.get(scope=" ++ Text.quoted scope ++ ", key=" ++ Text.quoted key ++ ")"

/-- A statement that sets an option to an expression. -/
def setOption (name option expression : String) : String :=
  name ++ "_options[\"" ++ option ++ "\"] = " ++ expression

/-- The statement that begins with no options. -/
def noOptions (name : String) : String :=
  name ++ "_options = \x7b\x7d"

/-- The value of an option of a file: that of the side's block, or else the dataset's. -/
def fileOption? (dataset : FileDataset) (side : Side) (option : String) : Option String :=
  match side.options.lookup option with
  | some value => some value.scalarText
  | none => dataset.options.lookup option

/-- A statement that sets an option of a file, unless it is empty. -/
def fileOption (name : String) (dataset : FileDataset) (side : Side) (option : String) :
    Option String :=
  ((fileOption? dataset side option).filter (· ≠ "")).map fun value =>
    setOption name option (Text.quoted value)

/-- The statement that limits the number of records in a file. -/
def recordLimit (records : Json) : String :=
  "spark.conf.set(\"spark.sql.files.maxRecordsPerFile\", " ++ Text.quoted records.scalarText ++ ")"

/-- The statement that gives access to a storage account. -/
def accountAccess (scope : String) (service : StorageService) : String :=
  "spark.conf.set("
    ++ Text.quoted ("fs.azure.account.key." ++ service.account ++ ".dfs.core.windows.net") ++ ", "
    ++ secretLookup scope (Secret.keyOf service.name "storage_account_key") ++ ")"

/-- The option block of a file. -/
def fileBlock (scope name : String) (dataset : FileDataset) (side : Side) : List String :=
  noOptions name :: dataset.format.optionNames.filterMap (fileOption name dataset side)
    ++ ((side.options.lookup "records_per_file").map recordLimit).toList
    ++ [accountAccess scope dataset.service]

/-- The connection options of a SQL server and the secrets they hold. -/
def connectionSecrets : List (String × String) :=
  [("host", "host"), ("database", "database"), ("user", "user_name"), ("password", "password")]

/-- The statement that sets the address of a SQL server. -/
def serverAddress (name : String) : String :=
  setOption name "url" ("\"jdbc:sqlserver://\" + " ++ name ++ "_options[\"host\"]"
    ++ " + \";databaseName=\" + " ++ name ++ "_options[\"database\"]")

/-- The value of an option of a SQL table: its own name, or what the side's block sets. -/
def sqlOption? (table : SqlTable) (side : Side) (option : String) : Option String :=
  if option = "dbtable" then some table.qualifiedName
  else (side.options.lookup option).map Json.scalarText

/-- The options that a script knows under other names than the side's block. -/
def renamedOptions : List (String × String) :=
  [("query_isolation_level", "isolationLevel"), ("query_timeout_seconds", "queryTimeout")]

/-- The option block of a SQL table. -/
def sqlBlock (scope name : String) (table : SqlTable) (side : Side) : List String :=
  noOptions name
    :: connectionSecrets.map (fun (option, secret) =>
      setOption name option (secretLookup scope (Secret.keyOf table.service.name secret)))
    ++ [serverAddress name]
    ++ Format.sqlServer.optionNames.filterMap (fun option =>
      (sqlOption? table side option).map fun value => setOption name option (Text.quoted value))
    ++ renamedOptions.filterMap fun (key, option) =>
      (side.options.lookup key).map fun value =>
        setOption name option (Text.quoted value.scalarText)

/-- The option block of one side; Delta tables need none. -/
def optionBlock (scope name : String) (dataset : Dataset) (side : Side) : List String :=
  match dataset with
  | .file dataset => fileBlock scope name dataset side
  | .sql table => sqlBlock scope name table side
  | .delta _ => []

end FactoryMigration.Script
