import FactoryMigration.Dataset.Format
import FactoryMigration.Json.Field
import FactoryMigration.Service.LinkedService

set_option autoImplicit false

/-! # Datasets

A dataset is located by what its format needs: a path in a container, a table of the metastore, or a
table of a SQL server. The options of a file format come from the dataset's own definition. -/

namespace FactoryMigration

/-- Files in a container of a storage account. -/
structure FileDataset where
  name : String
  format : FileFormat
  container : String
  /-- Folder and file name, or the file name alone. -/
  path : String
  options : Table String
  service : StorageService

/-- A Delta table of the metastore. -/
structure DeltaTable where
  name : String
  catalog : Option String
  database : String
  table : String
  serviceName : String

/-- A table of a SQL server. -/
structure SqlTable where
  name : String
  schema : String
  table : String
  service : SqlService

/-- Data that a copy reads or writes. -/
inductive Dataset where
  | file (dataset : FileDataset)
  | delta (dataset : DeltaTable)
  | sql (dataset : SqlTable)

/-- The name of a Delta table in three parts; without a catalog it is in the legacy metastore. -/
def DeltaTable.qualifiedName (dataset : DeltaTable) : String :=
  dataset.catalog.getD "hive_metastore" ++ "." ++ dataset.database ++ "." ++ dataset.table

/-- The name of a SQL table in two parts. -/
def SqlTable.qualifiedName (dataset : SqlTable) : String :=
  dataset.schema ++ "." ++ dataset.table

namespace Dataset

/-- The name of datasets without one. -/
def unnamed : String := "UNNAMED_DATASET"

def name : Dataset → String
  | file dataset => dataset.name
  | delta dataset => dataset.name
  | sql dataset => dataset.name

def format : Dataset → Format
  | file dataset => .file dataset.format
  | delta _ => .delta
  | sql _ => .sqlServer

def serviceName : Dataset → String
  | file dataset => dataset.service.name
  | delta dataset => dataset.serviceName
  | sql dataset => dataset.service.name

/-! ## Format options -/

/-- A compression codec, given by name or by an object with a type. -/
def codec? (definition : Json) : Option String :=
  match definition.property? "compression_codec" with
  | some (.str name) => some name
  | some (.obj fields) => (Json.obj fields).text? "type"
  | _ => none

/-- A property as text. -/
def propertyText? (definition : Json) (key : String) : Option String :=
  (definition.property? key).map Json.scalarText

/-- A delimiter as text with escapes, or an escaped default. -/
def delimiter (definition : Json) (key default : String) : String :=
  Text.escaped ((propertyText? definition key).getD default)

/-- The options that a file format takes from a dataset definition. -/
def fileOptions (format : FileFormat) (definition : Json) : Table String :=
  let none : Table String := []
  match format with
  | .csv =>
    let header := ((definition.property? "first_row_as_header").bind Json.asBool?).getD false
    none
      |>.insert "header" (if header then "true" else "false")
      |>.insert "sep" (delimiter definition "column_delimiter" ",")
      |>.insert "lineSep" (delimiter definition "row_delimiter" "\n")
      |>.insert "quote" (delimiter definition "quote_char" "\"")
      |>.insert "escape" (delimiter definition "escape_char" "\\")
      |>.insert "nullValue" (delimiter definition "null_value" "")
      |>.insert? "compression" (codec? definition)
      |>.insert? "encoding" (propertyText? definition "encoding_name")
  | .json =>
    none
      |>.insert? "encoding" (propertyText? definition "encoding_name")
      |>.insert? "compression" (codec? definition)
  | .avro => none.insert? "compression" (propertyText? definition "avro_compression_codec")
  | .orc => none.insert? "compression" (propertyText? definition "orc_compression_codec")
  | .parquet => none.insert? "compression" (codec? definition)

/-- The options that a format takes from a dataset definition; tables have none. -/
def formatOptions (format : Format) (definition : Json) : Table String :=
  match format with
  | .file format => fileOptions format definition
  | _ => []

end Dataset

end FactoryMigration
