import FactoryMigration.Dataset.Format
import FactoryMigration.Diagnostic
import FactoryMigration.Duration
import FactoryMigration.Failure
import FactoryMigration.Json.Field

set_option autoImplicit false

/-! # Sides of a copy

The source and the sink block of a copy activity name a format and set options for reading or
writing it. Options that are null are left out. -/

namespace FactoryMigration

/-- The format of one side of a copy and the options set there. -/
structure Side where
  format : Format
  options : Table Json

namespace Side

/-- The transaction isolation of a level; all other levels are read as the default. -/
def isolationLevel (level : Option String) : String :=
  match level with
  | some "ReadUncommitted" => "READ_UNCOMMITTED"
  | some "RepeatableRead" => "REPEATABLE_READ"
  | some "Serializable" => "SERIALIZABLE"
  | some "Snapshot" => "SNAPSHOT"
  | _ => "READ_COMMITTED"

/-- The query timeout in seconds, zero if there is none. One that cannot be read is an obstacle in
strict mode; otherwise it is noted and counts as none. -/
def queryTimeout (strict : Bool) (block : Json) : Noted (Except Obstacle Nat) :=
  match block.present? "query_timeout" with
  | none => .quiet (.ok 0)
  | some raw =>
    match raw.asString?.bind (Duration.ofClock? ·.toList) with
    | some seconds => .quiet (.ok seconds)
    | none =>
      let complaint := "Could not parse query timeout '" ++ raw.scalarText ++ "'"
      if strict then .quiet (.error ⟨raw, complaint⟩)
      else ⟨.ok 0, [⟨"query_timeout", complaint ++ ", setting to 0"⟩]⟩

/-- The write mode of a behaviour, of which only inserting has a counterpart. -/
def writeMode (behavior : Json) : Except Obstacle String :=
  match behavior with
  | .str name =>
    if String.ofList (name.toList.map Char.toLower) = "insert" then .ok "append" else refuse
  | _ => refuse
where
  refuse := .error ⟨behavior,
    "Cannot create an equivalent Copy Data task for writing to SQL Server in '"
      ++ behavior.scalarText ++ "' mode"⟩

/-- The options that a file side takes from its format settings. -/
def fileOptions (format : FileFormat) (block : Json) : Table Json :=
  let settings := block.getD "format_settings"
  let shared : Table Json :=
    Table.insert? "records_per_file" (settings.present? "max_rows_per_file") []
      |>.insert? "file_path_prefix" (settings.present? "file_name_prefix")
  match format with
  | .csv =>
    shared
      |>.insert? "quoteAll" (settings.present? "quote_all_text")
      |>.insert? "extension" (settings.present? "file_extension")
  | _ => shared

/-- The options of a SQL server side, of which isolation and timeout are always set. -/
def sqlOptions (strict : Bool) (block : Json) : Noted (Except Obstacle (Table Json)) := do
  let isolation := isolationLevel (block.text? "isolation_level")
  match ← queryTimeout strict block with
  | .error obstacle => return .error obstacle
  | .ok seconds =>
    let options : Table Json := Table.insert "query_isolation_level" (.str isolation) []
      |>.insert "query_timeout_seconds" (.num (.int seconds))
      |>.insert? "numPartitions" (block.present? "max_concurrent_connections")
      |>.insert? "batchsize" (block.present? "write_batch_size")
      |>.insert? "sessionInitStatement" (block.present? "pre_copy_script")
    match block.present? "write_behavior" with
    | none => return .ok options
    | some behavior => return (writeMode behavior).map fun mode => options.insert "mode" (.str mode)

/-- The format that a block names. -/
def formatOf (block : Json) : Except Obstacle Format :=
  match block.get? "type" with
  | some (.str tag) =>
    match Format.ofSideTag? tag with
    | some format => .ok format
    | none => .error ⟨block, "Unsupported source or sink type '" ++ tag ++ "'"⟩
  | some other => .error ⟨block,
      "Invalid value " ++ other.compact ++ " for property 'type' in dataset definition"⟩
  | none => .error ⟨block, "Missing property 'type' in dataset definition"⟩

/-- Reads a source or sink block. -/
def ofBlock (strict : Bool) (block : Json) : Noted (Except Obstacle Side) :=
  match formatOf block with
  | .error obstacle => .quiet (.error obstacle)
  | .ok (.file format) => .quiet (.ok ⟨.file format, fileOptions format block⟩)
  | .ok .delta => .quiet (.ok ⟨.delta, []⟩)
  | .ok .sqlServer => do
    let options ← sqlOptions strict block
    return options.map fun options => ⟨.sqlServer, options⟩

end Side

end FactoryMigration
