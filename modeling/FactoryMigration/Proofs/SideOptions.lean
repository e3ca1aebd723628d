import FactoryMigration.Copy

set_option autoImplicit false

/-! # What is read of a side

Each side of a copy is a dataset and a block of the same format (`Copy.ofActivity_sides`). The options
of a file dataset are those that its format takes from the definition, all known to the reader of that
format (`Dataset.mem_optionNames`); a block gives none but the options of its format
(`Side.mem_optionKeys`). -/

namespace FactoryMigration

/-! ## Values of a table -/

namespace Table

variable {α : Type}

theorem lookup_insert? (key other : String) (value : Option α) (table : Table α) :
    (table.insert? key value).lookup other
      = if other = key then value <|> table.lookup other else table.lookup other := by
  cases value with
  | none => simp [insert?]
  | some value => simp [insert?, lookup_insert]

end Table

/-! ## Datasets -/

theorem FileDataset.ofDefinition_ok {name : String} {format : FileFormat}
    {definition properties service : Json} {dataset : FileDataset}
    (h : ofDefinition name format definition properties service = .ok dataset) :
    dataset.format = format ∧ dataset.options = Dataset.fileOptions format definition := by
  unfold ofDefinition at h
  dsimp only at h
  split at h
  · cases h
  · obtain ⟨container, -, h⟩ := exists_of_bind_eq_ok h
    obtain ⟨fileName, -, h⟩ := exists_of_bind_eq_ok h
    obtain ⟨_, -, h⟩ := exists_of_bind_eq_ok h
    obtain ⟨storage, -, h⟩ := exists_of_bind_eq_ok h
    cases h
    exact ⟨rfl, rfl⟩

namespace Dataset

theorem exists_parts_of_ofDefinition {definition : Json} {dataset : Dataset}
    (h : ofDefinition definition = .ok (.ok dataset)) :
    ∃ format service, ofParts ((definition.text? "name").getD unnamed) format definition service
      = .ok dataset := by
  unfold ofDefinition at h
  dsimp only at h
  split at h
  · cases h
  · split at h
    · cases h
    · split at h
      · cases h
        exact ⟨_, _, ‹_›⟩
      · cases h

/-- The options of a file are those that its format takes from the definition. -/
theorem options_of_ofDefinition {definition : Json} {dataset : FileDataset}
    (h : ofDefinition definition = .ok (.ok (.file dataset))) :
    dataset.options = fileOptions dataset.format definition := by
  obtain ⟨format, service, hparts⟩ := exists_parts_of_ofDefinition h
  unfold ofParts at hparts
  cases format with
  | file format =>
    dsimp only at hparts
    cases hfile : FileDataset.ofDefinition ((definition.text? "name").getD unnamed) format definition
        (definition.getD "properties") service with
    | error obstacle =>
      rw [hfile] at hparts
      cases hparts
    | ok read =>
      rw [hfile] at hparts
      cases hparts
      obtain ⟨hformat, hoptions⟩ := FileDataset.ofDefinition_ok hfile
      rw [hoptions, hformat]
  | delta =>
    dsimp only at hparts
    cases hdelta : DeltaTable.ofDefinition ((definition.text? "name").getD unnamed)
        (definition.getD "properties") service with
    | _ => simp [hdelta, Except.map] at hparts
  | sqlServer =>
    dsimp only at hparts
    cases hsql : SqlTable.ofDefinition ((definition.text? "name").getD unnamed)
        (definition.getD "properties") service with
    | _ => simp [hsql, Except.map] at hparts

/-- A file format takes only options that its reader knows. -/
theorem mem_optionNames {format : FileFormat} {definition : Json} {option value : String}
    (h : (fileOptions format definition).lookup option = some value) :
    option ∈ format.optionNames := by
  refine Decidable.byContradiction fun hmem => ?_
  have hnone : (fileOptions format definition).lookup option = none := by
    cases format <;> simp_all [fileOptions, FileFormat.optionNames, Table.lookup_insert,
      Table.lookup_insert?]
  rw [hnone] at h
  cases h

end Dataset

/-! ## Blocks -/

namespace Side

/-- The options that the block of a side can give. -/
def optionKeys : Format → List String
  | .file .csv => ["records_per_file", "file_path_prefix", "quoteAll", "extension"]
  | .file _ => ["records_per_file", "file_path_prefix"]
  | .delta => []
  | .sqlServer =>
    ["query_isolation_level", "query_timeout_seconds", "numPartitions", "batchsize",
      "sessionInitStatement", "mode"]

theorem mem_optionKeys_of_fileOptions {format : FileFormat} {block : Json} {key : String}
    {value : Json} (h : (fileOptions format block).lookup key = some value) :
    key ∈ optionKeys (.file format) := by
  refine Decidable.byContradiction fun hmem => ?_
  have hnone : (fileOptions format block).lookup key = none := by
    cases format <;> simp_all [fileOptions, optionKeys, Table.lookup_insert?]
  rw [hnone] at h
  cases h

theorem mode_eq_of_writeMode {behavior : Json} {mode : String} (h : writeMode behavior = .ok mode) :
    mode = "append" := by
  unfold writeMode at h
  split at h
  · split at h
    · exact (Except.ok.inj h).symm
    · cases h
  · cases h

/-- The block of a table of a server always sets isolation and timeout, and appending is the only
mode. -/
theorem sqlOptions_ok {strict : Bool} {block : Json} {options : Table Json}
    (h : (sqlOptions strict block).value = .ok options) :
    ∃ (seconds : Nat) (mode : Option String), (∀ name ∈ mode, name = "append") ∧
      options = (Table.insert "query_isolation_level"
          (.str (isolationLevel (block.text? "isolation_level"))) []
        |>.insert "query_timeout_seconds" (.num (.int seconds))
        |>.insert? "numPartitions" (block.present? "max_concurrent_connections")
        |>.insert? "batchsize" (block.present? "write_batch_size")
        |>.insert? "sessionInitStatement" (block.present? "pre_copy_script")
        |>.insert? "mode" (mode.map .str)) := by
  unfold sqlOptions at h
  rw [Noted.value_bind] at h
  split at h
  · cases h
  · rename_i seconds _
    split at h
    · cases h
      exact ⟨seconds, none, nofun, rfl⟩
    · rw [Noted.value_pure] at h
      rename_i behavior _
      cases hmode : writeMode behavior with
      | error obstacle =>
        rw [hmode] at h
        cases h
      | ok mode =>
        rw [hmode] at h
        cases h
        refine ⟨seconds, some mode, fun name hname => ?_, rfl⟩
        obtain rfl := Option.some.inj hname
        exact mode_eq_of_writeMode hmode

theorem mem_optionKeys_of_sqlOptions {strict : Bool} {block : Json} {options : Table Json}
    {key : String} {value : Json} (hread : (sqlOptions strict block).value = .ok options)
    (h : options.lookup key = some value) : key ∈ optionKeys .sqlServer := by
  obtain ⟨seconds, mode, -, rfl⟩ := sqlOptions_ok hread
  refine Decidable.byContradiction fun hmem => ?_
  simp only [optionKeys, List.mem_cons, List.not_mem_nil, or_false, not_or] at hmem
  simp [Table.lookup_insert, Table.lookup_insert?, hmem] at h

/-- The options of a block that has been read are among those of its format. -/
theorem mem_optionKeys {strict : Bool} {block : Json} {side : Side} {key : String} {value : Json}
    (hread : (ofBlock strict block).value = .ok side) (h : side.options.lookup key = some value) :
    key ∈ optionKeys side.format := by
  unfold ofBlock at hread
  split at hread
  · cases hread
  · cases hread
    exact mem_optionKeys_of_fileOptions h
  · cases hread
    cases h
  · rw [Noted.value_bind, Noted.value_pure] at hread
    cases hoptions : (sqlOptions strict block).value with
    | error obstacle =>
      rw [hoptions] at hread
      cases hread
    | ok options =>
      rw [hoptions] at hread
      cases hread
      exact mem_optionKeys_of_sqlOptions hoptions h

end Side

/-! ## Copies -/

/-- A dataset and a block of one format, both read. -/
structure Side.Describes (strict : Bool) (side : Side) (dataset : Dataset) : Prop where
  read : ∃ definition, Dataset.ofDefinition definition = .ok (.ok dataset)
  given : ∃ block, (Side.ofBlock strict block).value = .ok side
  agree : dataset.format = side.format

namespace Copy

theorem exists_definition_of_firstDataset {activity : Json} {key : String} {dataset : Dataset}
    (h : firstDataset activity key = .ok (.ok dataset)) :
    ∃ definition, Dataset.ofDefinition definition = .ok (.ok dataset) := by
  unfold firstDataset at h
  split at h
  · cases h
  · exact ⟨_, h⟩

theorem exists_block_of_side {strict : Bool} {activity : Json} {key : String} {read : Side}
    (h : (side strict activity key).value = .ok read) :
    ∃ block, (Side.ofBlock strict block).value = .ok read := by
  unfold side at h
  split at h
  · exact ⟨_, h⟩
  · cases h

theorem format_eq_of_checkSide {label : String} {dataset : Dataset} {side : Side}
    (h : checkSide label dataset side = .ok ()) : dataset.format = side.format := by
  unfold checkSide at h
  split at h
  · assumption
  · cases h

theorem parts_ok {source sink : Except Obstacle Dataset} {sourceSide sinkSide : Except Obstacle Side}
    {read : Dataset × Dataset × Side × Side} (h : parts source sink sourceSide sinkSide = .ok read) :
    (source = .ok read.1 ∧ sourceSide = .ok read.2.2.1 ∧ read.1.format = read.2.2.1.format) ∧
      sink = .ok read.2.1 ∧ sinkSide = .ok read.2.2.2 ∧ read.2.1.format = read.2.2.2.format := by
  unfold parts at h
  obtain ⟨source, hsource, h⟩ := exists_of_bind_eq_ok h
  obtain ⟨sink, hsink, h⟩ := exists_of_bind_eq_ok h
  obtain ⟨sourceSide, hsourceSide, h⟩ := exists_of_bind_eq_ok h
  obtain ⟨sinkSide, hsinkSide, h⟩ := exists_of_bind_eq_ok h
  obtain ⟨_, hsourceFormat, h⟩ := exists_of_bind_eq_ok h
  obtain ⟨_, hsinkFormat, h⟩ := exists_of_bind_eq_ok h
  cases h
  exact ⟨⟨hsource, hsourceSide, format_eq_of_checkSide hsourceFormat⟩, hsink, hsinkSide,
    format_eq_of_checkSide hsinkFormat⟩

/-- In a copy that has been read, each block describes its dataset. -/
theorem ofActivity_sides {strict : Bool} {activity : Json} {read : Noted (Except Obstacle Copy)}
    {copy : Copy} (h : ofActivity strict activity = .ok read) (hcopy : read.value = .ok copy) :
    copy.sourceSide.Describes strict copy.source ∧ copy.sinkSide.Describes strict copy.sink := by
  unfold ofActivity at h
  obtain ⟨source, hsource, h⟩ := exists_of_bind_eq_ok h
  obtain ⟨sink, hsink, h⟩ := exists_of_bind_eq_ok h
  cases h
  unfold ofDatasets at hcopy
  rw [Noted.value_bind, Noted.value_bind] at hcopy
  split at hcopy
  · cases hcopy
  · rename_i sourceDataset sinkDataset sourceSide sinkSide hparts
    cases hcopy
    obtain ⟨⟨rfl, hsourceSide, hsourceFormat⟩, rfl, hsinkSide, hsinkFormat⟩ := parts_ok hparts
    exact ⟨⟨exists_definition_of_firstDataset hsource, exists_block_of_side hsourceSide,
        hsourceFormat⟩,
      exists_definition_of_firstDataset hsink, exists_block_of_side hsinkSide, hsinkFormat⟩

end Copy

end FactoryMigration
