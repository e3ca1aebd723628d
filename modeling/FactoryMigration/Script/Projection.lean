import FactoryMigration.Script.Name

set_option autoImplicit false

/-! # Projections

The statement that turns the columns of the source into those of the sink. A column with a type is
cast to the Spark type of it; a type without one is noted and the cast left out. -/

namespace FactoryMigration.Script

/-- A column name in a SQL expression. -/
def columnName (name : String) : String :=
  "`" ++ name ++ "`"

/-- The SQL expression of a column, with the Spark type it is cast to if there is one. -/
def columnExpression (column : ColumnMapping) (sparkType : Option String) : String :=
  match sparkType with
  | some sparkType =>
    "cast(" ++ columnName column.source ++ " as " ++ sparkType ++ ") as " ++ columnName column.sink
  | none => columnName column.source ++ " as " ++ columnName column.sink

/-- The expression of a column of a sink; a type without a Spark type is noted. -/
def projectColumn (sink : Format) (column : ColumnMapping) : Noted String :=
  match column.sinkType with
  | none => .quiet (columnExpression column none)
  | some type =>
    match sink.sparkType? type with
    | some sparkType => .quiet (columnExpression column (some sparkType))
    | none => ⟨columnExpression column none, [⟨"column_mapping." ++ column.sink,
        "No Spark type for column type '" ++ type ++ "', cast omitted"⟩]⟩

/-- The projection of a copy; without columns the frame is taken over as it is. -/
def projection (names : Names) (sink : Format) (columns : List ColumnMapping) : Noted String :=
  let assign := names.sink ++ "_df = " ++ names.source ++ "_df"
  if columns.isEmpty then .quiet assign
  else do
    let expressions ← Noted.traverse (projectColumn sink) columns
    return assign ++ ".selectExpr(\n    "
      ++ Text.joinWith ",\n    " (expressions.map Text.quoted) ++ ",\n)"

end FactoryMigration.Script
