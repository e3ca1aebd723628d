set_option autoImplicit false

/-! # Data formats

Datasets are files of one of five formats, Delta tables or tables of a SQL server. -/

namespace FactoryMigration

/-- Formats of files in a storage container. -/
inductive FileFormat where
  | avro
  | csv
  | json
  | orc
  | parquet
deriving DecidableEq

/-- What a dataset is made of. -/
inductive Format where
  | file (format : FileFormat)
  | delta
  | sqlServer
deriving DecidableEq

namespace FileFormat

def name : FileFormat → String
  | avro => "avro"
  | csv => "csv"
  | json => "json"
  | orc => "orc"
  | parquet => "parquet"

/-- The options of a reader or writer, in the order in which scripts set them. -/
def optionNames : FileFormat → List String
  | csv =>
    ["header", "sep", "lineSep", "quote", "quoteAll", "escape", "nullValue", "compression",
      "encoding"]
  | json => ["encoding", "compression"]
  | avro | orc | parquet => ["compression"]

end FileFormat

namespace Format

/-- All formats. -/
def all : List Format :=
  [file .avro, file .csv, file .json, file .orc, file .parquet, delta, sqlServer]

theorem mem_all (format : Format) : format ∈ all := by
  rcases format with format | _ | _
  · cases format <;> decide
  · decide
  · decide

def name : Format → String
  | file format => format.name
  | delta => "delta"
  | sqlServer => "sqlserver"

/-- The format with the given name. -/
def ofName? (name : String) : Option Format :=
  all.find? (·.name == name)

/-- The format that the type tag of a dataset names. -/
def ofDatasetTag? : String → Option Format
  | "Avro" => some (file .avro)
  | "DelimitedText" => some (file .csv)
  | "Json" => some (file .json)
  | "Orc" => some (file .orc)
  | "Parquet" => some (file .parquet)
  | "AzureDatabricksDeltaLakeDataset" => some delta
  | "AzureSqlTable" => some sqlServer
  | _ => none

/-- The format that the type tag of a source or sink names. -/
def ofSideTag? : String → Option Format
  | "AvroSource" | "AvroSink" => some (file .avro)
  | "DelimitedTextSource" | "DelimitedTextSink" => some (file .csv)
  | "JsonSource" | "JsonSink" => some (file .json)
  | "OrcSource" | "OrcSink" => some (file .orc)
  | "ParquetSource" | "ParquetSink" => some (file .parquet)
  | "AzureDatabricksDeltaLakeSource" | "AzureDatabricksDeltaLakeSink" => some delta
  | "AzureSqlSource" | "AzureSqlSink" => some sqlServer
  | _ => none

def isFile : Format → Bool
  | file _ => true
  | _ => false

/-- The secrets that a script needs to reach the data. -/
def secretNames : Format → List String
  | file _ => ["storage_account_key"]
  | delta => []
  | sqlServer => ["host", "database", "user_name", "password"]

/-- The options of a reader or writer, in the order in which scripts set them. -/
def optionNames : Format → List String
  | file format => format.optionNames
  | delta => []
  | sqlServer => ["mode", "dbtable", "numPartitions", "batchsize", "sessionInitStatement"]

/-- The Spark type of a column of the given type. Delta columns already have Spark types; of the
others, only some have one. -/
def sparkType? (sink : Format) (columnType : String) : Option String :=
  if sink = delta then some columnType
  else
    match columnType with
    | "Boolean" => some "boolean"
    | "Int16" => some "short"
    | "Int32" => some "int"
    | "Int64" => some "long"
    | "Single" => some "float"
    | "Double" => some "double"
    | "Decimal" => some "decimal(38, 38)"
    | "String" | "Guid" => some "string"
    | "DateTime" | "DateTimeOffset" => some "timestamp"
    | "Byte[]" => some "binary"
    | _ => none

end Format

end FactoryMigration
