import FactoryMigration.Dataset.Definition
import FactoryMigration.Dataset.Side

set_option autoImplicit false

/-! # Copies

A copy reads one dataset and writes another. Each side's block has to agree with its dataset on the
format. Columns are mapped by name; a source column without a name goes by its position. -/

namespace FactoryMigration

/-- A source column, the sink column it becomes, and the type it gets there. -/
structure ColumnMapping where
  source : String
  sink : String
  sinkType : Option String
deriving DecidableEq

/-- Both datasets of a copy with the options of their sides, and the columns; no columns mean
all. -/
structure Copy where
  source : Dataset
  sink : Dataset
  sourceSide : Side
  sinkSide : Side
  columns : List ColumnMapping

namespace ColumnMapping

/-- The name of a source column: its own, or one from its position counted from one. -/
def sourceName? (source : Json) : Option String :=
  source.filledText? "name" <|>
    ((source.count? "ordinal").filter (0 < ·)).map fun n => "_c" ++ toString (n - 1)

/-- Reads one mapping; one whose source cannot be named is noted. -/
def ofMapping (mapping : Json) : Noted (Option ColumnMapping) :=
  match sourceName? (mapping.getD "source") with
  | none => ⟨none, [⟨"translator.mappings",
      "Dropped column mapping without a source name or ordinal: " ++ mapping.compact⟩]⟩
  | some source =>
    let sink := mapping.getD "sink"
    .quiet (some ⟨source, (sink.filledText? "name").getD source, sink.text? "type"⟩)

/-- Reads the mappings of a tabular translator. -/
def ofTranslator (translator : Option Json) : Noted (List ColumnMapping) :=
  Noted.select ofMapping ((translator.bind (·.items? "mappings")).getD [])

end ColumnMapping

namespace Copy

/-- The obstacle that a copy lacks one of its parts. -/
def missing (activity : Json) (key : String) : Obstacle :=
  ⟨activity.getD key, "Missing property '" ++ key ++ "' in Copy activity"⟩

/-- The first dataset of a list. -/
def firstDataset (activity : Json) (key : String) : Except Failure (Except Obstacle Dataset) :=
  match activity.items key with
  | [] => .ok (.error (missing activity key))
  | definition :: _ => Dataset.ofDefinition definition

/-- One side of a copy. -/
def side (strict : Bool) (activity : Json) (key : String) : Noted (Except Obstacle Side) :=
  if (activity.getD key).isObject then Side.ofBlock strict (activity.getD key)
  else .quiet (.error (missing activity key))

/-- Refuses a side whose format is not that of its dataset. -/
def checkSide (label : String) (dataset : Dataset) (side : Side) : Except Obstacle Unit :=
  if dataset.format = side.format then .ok ()
  else .error ⟨.str dataset.name, label ++ " type '" ++ side.format.name
    ++ "' does not match dataset '" ++ dataset.name ++ "' of type '" ++ dataset.format.name ++ "'"⟩

/-- The parts of a copy, of which the first obstacle counts: both datasets, both sides, then whether
they agree. -/
def parts (source sink : Except Obstacle Dataset) (sourceSide sinkSide : Except Obstacle Side) :
    Except Obstacle (Dataset × Dataset × Side × Side) := do
  let source ← source
  let sink ← sink
  let sourceSide ← sourceSide
  let sinkSide ← sinkSide
  checkSide "Source" source sourceSide
  checkSide "Sink" sink sinkSide
  return (source, sink, sourceSide, sinkSide)

/-- Reads both sides of a copy of known datasets, and its columns if there is no obstacle. -/
def ofDatasets (strict : Bool) (activity : Json) (source sink : Except Obstacle Dataset) :
    Noted (Except Obstacle Copy) := do
  let sourceSide ← side strict activity "source"
  let sinkSide ← side strict activity "sink"
  match parts source sink sourceSide sinkSide with
  | .error obstacle => return .error obstacle
  | .ok (source, sink, sourceSide, sinkSide) =>
    let columns ← ColumnMapping.ofTranslator (activity.get? "translator")
    return .ok ⟨source, sink, sourceSide, sinkSide, columns⟩

/-- Reads a copy activity. It fails without notes if a dataset does, the source first. -/
def ofActivity (strict : Bool) (activity : Json) :
    Except Failure (Noted (Except Obstacle Copy)) := do
  let source ← firstDataset activity "input_dataset_definitions"
  let sink ← firstDataset activity "output_dataset_definitions"
  return ofDatasets strict activity source sink

end Copy

end FactoryMigration
