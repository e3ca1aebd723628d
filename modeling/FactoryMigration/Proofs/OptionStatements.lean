import FactoryMigration.Proofs.KeySegments
import FactoryMigration.Proofs.PreparationFailure
import FactoryMigration.Proofs.SecretLookups
import FactoryMigration.Proofs.SideOptions

set_option autoImplicit false

/-! # Options that scripts set

A script sets each option of a copy's datasets and blocks, but for two that blocks of files can give:
the prefix of file names and the extension have no statement, and nothing is noted about them. A
notebook is the same without them (`Script.Generator.copyNotebook_options`). -/

namespace FactoryMigration

namespace Script

/-! ## Statements -/

variable {name option expression scope : String}

/-- The statement that sets an option of a block. -/
def sideStatement (name key : String) (value : Json) : String :=
  if key = "records_per_file" then recordLimit value
  else setOption name ((renamedOptions.lookup key).getD key) (Text.quoted value.scalarText)

/-- The options of blocks that no script sets. -/
def silentOptions : List String := ["file_path_prefix", "extension"]

/-- A statement shows which option it sets, and to what. -/
theorem setOption_injective (hname : '"' ∉ name.toList) (hoption : '"' ∉ option.toList)
    {option' expression' : String} (hoption' : '"' ∉ option'.toList)
    (h : setOption name option expression = setOption name option' expression') :
    option = option' ∧ expression = expression' := by
  have htext := congrArg String.toList h
  rw [toList_setOption_eq, toList_setOption_eq] at htext
  have hcode := quote_not_mem_optionCode hname
  obtain ⟨-, htext⟩ := Text.append_quote_injective hcode hcode htext
  obtain ⟨hsame, htext⟩ := Text.append_quote_injective hoption hoption' htext
  exact ⟨String.toList_inj.mp hsame, String.toList_inj.mp (List.append_cancel_left htext)⟩

theorem setOption_ne_noOptions (hname : '"' ∉ name.toList) :
    setOption name option expression ≠ noOptions name := by
  intro h
  have hmem : '"' ∈ (noOptions name).toList := by
    rw [← h, toList_setOption_eq]
    simp
  rw [noOptions, String.toList_append, List.mem_append] at hmem
  exact hmem.elim hname (by decide)

/-- How a statement begins that sets an option of the session. -/
def sessionOpening : List Char := "spark.conf.set(".toList ++ ['"']

theorem not_sessionOpening_prefix_setOption (hname : '"' ∉ name.toList) :
    ¬sessionOpening <+: (setOption name option expression).toList := by
  rintro ⟨rest, h⟩
  unfold sessionOpening at h
  rw [toList_setOption_eq, List.append_assoc, List.singleton_append] at h
  obtain ⟨hcode, -⟩ :=
    Text.append_quote_injective (by decide) (quote_not_mem_optionCode hname) h
  have hlast := getLast?_optionCode name
  rw [← hcode] at hlast
  exact absurd hlast (by decide)

theorem sessionOpening_prefix_recordLimit (records : Json) :
    sessionOpening <+: (recordLimit records).toList := by
  have hopening :
      sessionOpening <+: ("spark.conf.set(\"spark.sql.files.maxRecordsPerFile\", " : String).toList := by
    decide
  unfold recordLimit
  rw [String.toList_append, String.toList_append, List.append_assoc]
  exact hopening.trans (List.prefix_append _ _)

theorem sessionOpening_prefix_accountAccess (scope : String) (service : StorageService) :
    sessionOpening <+: (accountAccess scope service).toList := by
  unfold accountAccess sessionOpening
  simp only [String.toList_append, Text.toList_quoted, Text.quote, List.append_assoc,
    List.cons_append]
  exact (List.prefix_append_right_inj _).mpr (List.cons_prefix_cons.mpr ⟨rfl, List.nil_prefix⟩)

/-! ## Option blocks -/

theorem quote_not_mem_optionNames (format : FileFormat) :
    ∀ option ∈ format.optionNames, '"' ∉ option.toList := by
  cases format <;> decide

theorem setOption_mem_fileBlock {dataset : FileDataset} {side : Side} {value : String}
    (hmem : option ∈ dataset.format.optionNames)
    (hvalue : fileOption? dataset side option = some value) (hfilled : value ≠ "") :
    setOption name option (Text.quoted value) ∈ fileBlock scope name dataset side := by
  refine List.mem_append_left _ (List.mem_append_left _ (List.mem_cons_of_mem _ ?_))
  refine List.mem_filterMap.mpr ⟨option, hmem, ?_⟩
  simp [fileOption, hvalue, hfilled]

/-- A file's block sets an option exactly if the reader knows it and its value is not empty. -/
theorem setOption_mem_fileBlock_iff (hname : '"' ∉ name.toList) (hoption : '"' ∉ option.toList)
    {dataset : FileDataset} {side : Side} :
    setOption name option expression ∈ fileBlock scope name dataset side ↔
      option ∈ dataset.format.optionNames ∧ ∃ value, fileOption? dataset side option = some value ∧
        value ≠ "" ∧ expression = Text.quoted value := by
  constructor
  · intro h
    simp only [fileBlock, List.cons_append, List.mem_cons, List.mem_append, List.mem_filterMap,
      Option.mem_toList, Option.map_eq_some_iff, List.not_mem_nil, or_false] at h
    rcases h with h | (⟨option', hmem, h⟩ | ⟨records, -, h⟩) | h
    · exact absurd h (setOption_ne_noOptions hname)
    · obtain ⟨value, hvalue, h⟩ := Option.map_eq_some_iff.mp h
      have hplain := quote_not_mem_optionNames dataset.format option' hmem
      obtain ⟨rfl, rfl⟩ := setOption_injective hname hplain hoption h
      obtain ⟨hvalue, hfilled⟩ := Option.filter_eq_some_iff.mp hvalue
      exact ⟨hmem, value, hvalue, of_decide_eq_true hfilled, rfl⟩
    · have hopening := sessionOpening_prefix_recordLimit records
      rw [h] at hopening
      exact absurd hopening (not_sessionOpening_prefix_setOption hname)
    · have hopening := sessionOpening_prefix_accountAccess scope dataset.service
      rw [← h] at hopening
      exact absurd hopening (not_sessionOpening_prefix_setOption hname)
  · rintro ⟨hmem, value, hvalue, hfilled, rfl⟩
    exact setOption_mem_fileBlock hmem hvalue hfilled

/-- An option of a file's dataset is set if it is not empty and the block does not give it. -/
theorem datasetOption_mem_fileBlock {definition : Json} {dataset : FileDataset} {side : Side}
    {value : String} (hread : Dataset.ofDefinition definition = .ok (.ok (.file dataset)))
    (hvalue : dataset.options.lookup option = some value) (hfilled : value ≠ "")
    (hgiven : side.options.lookup option = none) :
    setOption name option (Text.quoted value) ∈ fileBlock scope name dataset side := by
  have hmem : option ∈ dataset.format.optionNames := by
    rw [Dataset.options_of_ofDefinition hread] at hvalue
    exact Dataset.mem_optionNames hvalue
  have hset : fileOption? dataset side option = some value := by
    simp [fileOption?, hgiven, hvalue]
  exact setOption_mem_fileBlock hmem hset hfilled

/-- The options that a file's block can give, apart from the number of records, are known to the
reader or silent. -/
theorem mem_optionNames_iff_not_silent (format : FileFormat) :
    ∀ key ∈ Side.optionKeys (.file format), key ≠ "records_per_file" →
      '"' ∉ key.toList ∧ renamedOptions.lookup key = none ∧
        (key ∈ format.optionNames ↔ key ∉ silentOptions) := by
  cases format <;> decide

theorem sideStatement_mem_fileBlock_iff (hname : '"' ∉ name.toList) {dataset : FileDataset}
    {side : Side} {key : String} {value : Json} (hkey : key ∈ Side.optionKeys (.file dataset.format))
    (hvalue : side.options.lookup key = some value) (hfilled : value.scalarText ≠ "") :
    sideStatement name key value ∈ fileBlock scope name dataset side ↔ key ∉ silentOptions := by
  by_cases hrecords : key = "records_per_file"
  · subst hrecords
    have hmem : recordLimit value ∈ fileBlock scope name dataset side := by
      simp [fileBlock, hvalue]
    simpa [sideStatement, silentOptions] using hmem
  · obtain ⟨hquote, hrenamed, hsilent⟩ := mem_optionNames_iff_not_silent dataset.format key hkey hrecords
    have hset : fileOption? dataset side key = some value.scalarText := by
      simp [fileOption?, hvalue]
    rw [sideStatement, if_neg hrecords, hrenamed, Option.getD_none,
      setOption_mem_fileBlock_iff hname hquote, hset, hsilent]
    exact ⟨And.left, fun h => ⟨h, _, rfl, hfilled, rfl⟩⟩

/-- The options that the block of a table of a server can give are renamed or known to the reader. -/
theorem renamed_or_mem_optionNames :
    ∀ key ∈ Side.optionKeys .sqlServer, key ≠ "records_per_file" ∧ key ∉ silentOptions ∧
      ((∃ renamed ∈ renamedOptions, renamed.1 = key ∧
          renamedOptions.lookup key = some renamed.2) ∨
        renamedOptions.lookup key = none ∧ key ≠ "dbtable" ∧
          key ∈ Format.sqlServer.optionNames) := by
  decide

theorem sideStatement_mem_sqlBlock {table : SqlTable} {side : Side} {key : String} {value : Json}
    (hkey : key ∈ Side.optionKeys .sqlServer) (hvalue : side.options.lookup key = some value) :
    sideStatement name key value ∈ sqlBlock scope name table side := by
  obtain ⟨hrecords, -, ⟨renamed, hmem, rfl, hrenamed⟩ | ⟨hrenamed, htable, hmem⟩⟩ :=
    renamed_or_mem_optionNames key hkey
  · rw [sideStatement, if_neg hrecords, hrenamed, Option.getD_some]
    refine List.mem_append_right _ (List.mem_filterMap.mpr ⟨renamed, hmem, ?_⟩)
    simp [hvalue]
  · rw [sideStatement, if_neg hrecords, hrenamed, Option.getD_none]
    refine List.mem_append_left _ (List.mem_append_right _ (List.mem_filterMap.mpr ⟨key, hmem, ?_⟩))
    simp [sqlOption?, htable, hvalue]

/-- A side's block sets the options of the block that has been read, but for the silent ones. -/
theorem sideStatement_mem_optionBlock_iff (hname : '"' ∉ name.toList) {strict : Bool}
    {dataset : Dataset} {side : Side} (hside : side.Describes strict dataset) {key : String}
    {value : Json} (hvalue : side.options.lookup key = some value) (hfilled : value.scalarText ≠ "") :
    sideStatement name key value ∈ optionBlock scope name dataset side ↔ key ∉ silentOptions := by
  obtain ⟨block, hblock⟩ := hside.given
  have hkey : key ∈ Side.optionKeys dataset.format := by
    rw [hside.agree]
    exact Side.mem_optionKeys hblock hvalue
  cases dataset with
  | file dataset => exact sideStatement_mem_fileBlock_iff hname hkey hvalue hfilled
  | delta table => cases hkey
  | sql table =>
    exact iff_of_true (sideStatement_mem_sqlBlock hkey hvalue)
      (renamed_or_mem_optionNames key hkey).2.1

/-- Blocks that agree on all other options are set up alike. -/
theorem optionBlock_congr {dataset : Dataset} {side side' : Side}
    (h : ∀ key, key ∉ silentOptions → side.options.lookup key = side'.options.lookup key) :
    optionBlock scope name dataset side = optionBlock scope name dataset side' := by
  cases dataset with
  | file dataset =>
    have hrecords := h "records_per_file" (by decide)
    have hnames : ∀ option ∈ dataset.format.optionNames, option ∉ silentOptions := by
      cases dataset.format <;> decide
    have hoptions : dataset.format.optionNames.filterMap (fileOption name dataset side)
        = dataset.format.optionNames.filterMap (fileOption name dataset side') :=
      List.filterMap_congr fun option hoption => by
        simp only [fileOption, fileOption?, h option (hnames option hoption)]
    simp only [optionBlock, fileBlock, hoptions, hrecords]
  | delta table => rfl
  | sql table =>
    have hoptions (option : String) (hoption : option ∈ Format.sqlServer.optionNames) :
        sqlOption? table side option = sqlOption? table side' option := by
      have hsilent : option ∉ silentOptions := by
        revert option
        decide
      simp only [sqlOption?, h option hsilent]
    have hrenamed (renamed : String × String) (hmem : renamed ∈ renamedOptions) :
        side.options.lookup renamed.1 = side'.options.lookup renamed.1 := by
      have hsilent : renamed.1 ∉ silentOptions := by
        revert renamed
        decide
      exact h renamed.1 hsilent
    simp only [optionBlock, sqlBlock]
    congr 1
    · congr 1
      exact List.filterMap_congr fun option hoption => by rw [hoptions option hoption]
    · exact List.filterMap_congr fun renamed hmem => by simp only [hrenamed renamed hmem]

end Script

/-! ## Notebooks -/

/-- The block of a side without the options that no script sets. -/
def Side.withoutSilent (side : Side) : Side :=
  { side with options := side.options.filter fun entry => entry.1 ∉ Script.silentOptions }

theorem Side.lookup_withoutSilent (side : Side) {key : String} (hkey : key ∉ Script.silentOptions) :
    side.withoutSilent.options.lookup key = side.options.lookup key := by
  obtain ⟨format, options⟩ := side
  simp only [withoutSilent]
  induction options with
  | nil => rfl
  | cons entry rest ih =>
    obtain ⟨other, value⟩ := entry
    by_cases hsilent : other ∈ Script.silentOptions
    · have hne : key ≠ other := by
        rintro rfl
        exact hkey hsilent
      rw [List.filter_cons_of_neg (by simpa using hsilent), ih, Table.lookup_cons, if_neg hne]
    · rw [List.filter_cons_of_pos (by simpa using hsilent), Table.lookup_cons, Table.lookup_cons, ih]

/-- A copy without the options that no script sets. -/
def Copy.withoutSilent (copy : Copy) : Copy :=
  { copy with
    sourceSide := copy.sourceSide.withoutSilent
    sinkSide := copy.sinkSide.withoutSilent }

namespace Script

/-- One side of a copy in a script: the name of its variables, its dataset and its block. -/
structure ScriptSide where
  name : String
  dataset : Dataset
  side : Side

/-- The statements that set a side up. -/
def ScriptSide.block (scope : String) (side : ScriptSide) : List String :=
  optionBlock scope side.name side.dataset side.side

/-- Both sides of a copy. -/
def scriptSides (copy : Copy) : List ScriptSide :=
  [⟨(Names.ofCopy copy).source, copy.source, copy.sourceSide⟩,
    ⟨(Names.ofCopy copy).sink, copy.sink, copy.sinkSide⟩]

theorem forall_scriptSides {copy : Copy} {p : ScriptSide → Prop} :
    (∀ side ∈ scriptSides copy, p side) ↔
      p ⟨(Names.ofCopy copy).source, copy.source, copy.sourceSide⟩ ∧
        p ⟨(Names.ofCopy copy).sink, copy.sink, copy.sinkSide⟩ := by
  simp [scriptSides]

theorem scriptSides_describes {strict : Bool} {activity : Json} {read : Noted (Except Obstacle Copy)}
    {copy : Copy} (h : Copy.ofActivity strict activity = .ok read) (hcopy : read.value = .ok copy) :
    ∀ side ∈ scriptSides copy, '"' ∉ side.name.toList ∧ side.side.Describes strict side.dataset := by
  obtain ⟨hsource, hsink⟩ := Names.quote_not_mem_ofCopy copy
  obtain ⟨hsourceSide, hsinkSide⟩ := Copy.ofActivity_sides h hcopy
  exact forall_scriptSides.mpr ⟨⟨hsource, hsourceSide⟩, hsink, hsinkSide⟩

theorem property_of_mem_projection {names : Names} {sink : Format} {columns : List ColumnMapping}
    {note : Note} (h : note ∈ (projection names sink columns).notes) :
    ∃ column ∈ columns, note.property = "column_mapping." ++ column.sink := by
  unfold projection at h
  dsimp only at h
  split at h
  · cases h
  · rw [Noted.notes_bind, Noted.notes_pure, List.append_nil, Noted.notes_traverse,
      List.mem_flatMap] at h
    obtain ⟨column, hcolumn, h⟩ := h
    unfold projectColumn at h
    split at h
    · cases h
    · split at h
      · cases h
      · rw [List.mem_singleton] at h
        exact ⟨column, hcolumn, by rw [h]⟩

namespace Generator

variable {generator : Generator} {copy : Copy}

theorem property_of_mem_copyNotebook {note : Note} (h : note ∈ (generator.copyNotebook copy).notes) :
    ∃ column ∈ copy.columns, note.property = "column_mapping." ++ column.sink := by
  unfold copyNotebook at h
  dsimp only at h
  split at h
  · cases h
  · rw [Noted.notes_bind, Noted.notes_pure, List.append_nil] at h
    exact property_of_mem_projection h

theorem options_withoutSilent (name : String) (dataset : Dataset) (side : Side) :
    generator.options name dataset side.withoutSilent = generator.options name dataset side := by
  rw [options, options, optionBlock_congr fun key hkey => side.lookup_withoutSilent hkey]

theorem copyNotebook_withoutSilent (copy : Copy) :
    generator.copyNotebook copy.withoutSilent = generator.copyNotebook copy := by
  have hnames : Names.ofCopy copy.withoutSilent = Names.ofCopy copy := rfl
  unfold copyNotebook
  rw [hnames]
  simp only [Copy.withoutSilent, options_withoutSilent]

/-- The built-in templates show the statements of both sides. -/
theorem exists_content_of_builtIn (hlibrary : generator.library = .builtIn) (copy : Copy) :
    ∃ content, (generator.copyNotebook copy).value = .ok content ∧
      ∀ side ∈ scriptSides copy, ∀ line ∈ side.block generator.secretScope,
        line.toList <:+: content.toList := by
  cases h : (generator.copyNotebook copy).value with
  | error failure =>
    have hfails := fails_of_copyNotebook h
    rw [hlibrary] at hfails
    exact absurd hfails (TemplateLibrary.not_builtIn_fails failure)
  | ok content =>
    obtain ⟨hsource, hsink⟩ := infix_copyNotebook hlibrary h
    refine ⟨content, rfl, forall_scriptSides.mpr ⟨fun line hline => ?_, fun line hline => ?_⟩⟩
    · exact (Text.infix_joinWith_of_mem hline _).trans hsource
    · exact (Text.infix_joinWith_of_mem hline _).trans hsink

/-- **Options of a copy.** In the notebook of a copy that has been read, both sides set each option of
a file's dataset that is not empty, unless the block gives it, and exactly those options of the block
that are not empty and not silent. The silent ones change nothing: the notebook and its notes are
those of the copy without them, and every note is about a column. The built-in templates give a
notebook, which shows the statements of both sides. -/
theorem copyNotebook_options {strict : Bool} {activity : Json}
    {read : Noted (Except Obstacle Copy)} (h : Copy.ofActivity strict activity = .ok read)
    (hcopy : read.value = .ok copy) (generator : Generator) :
    (∀ side ∈ scriptSides copy,
      (∀ dataset, side.dataset = .file dataset → ∀ option value,
        dataset.options.lookup option = some value → value ≠ "" →
        side.side.options.lookup option = none →
          setOption side.name option (Text.quoted value) ∈ side.block generator.secretScope) ∧
      ∀ key value, side.side.options.lookup key = some value → value.scalarText ≠ "" →
        (sideStatement side.name key value ∈ side.block generator.secretScope ↔
          key ∉ silentOptions)) ∧
    generator.copyNotebook copy.withoutSilent = generator.copyNotebook copy ∧
    (∀ note ∈ (generator.copyNotebook copy).notes,
      ∃ column ∈ copy.columns, note.property = "column_mapping." ++ column.sink) ∧
    (generator.library = .builtIn →
      ∃ content, (generator.copyNotebook copy).value = .ok content ∧
        ∀ side ∈ scriptSides copy, ∀ line ∈ side.block generator.secretScope,
          line.toList <:+: content.toList) := by
  refine ⟨fun side hside => ?_, copyNotebook_withoutSilent copy,
    fun note hnote => property_of_mem_copyNotebook hnote,
    fun hlibrary => exists_content_of_builtIn hlibrary copy⟩
  obtain ⟨hname, hdescribes⟩ := scriptSides_describes h hcopy side hside
  refine ⟨fun dataset hdataset option value hvalue hfilled hgiven => ?_,
    fun key value hvalue hfilled =>
      sideStatement_mem_optionBlock_iff hname hdescribes hvalue hfilled⟩
  obtain ⟨definition, hread⟩ := hdescribes.read
  rw [hdataset] at hread
  rw [ScriptSide.block, hdataset]
  exact datasetOption_mem_fileBlock hread hvalue hfilled hgiven

end Generator

end Script

/-! ## A prefix of file names -/

/-- A copy of files whose sink asks for a prefix of file names and limits the records of a file. -/
def prefixedCopy : Json := .obj [
  ("input_dataset_definitions", .arr [lakeFiles "orders" keyless]),
  ("output_dataset_definitions", .arr [lakeFiles "archive" keyless]),
  ("sink", .obj [
    ("format_settings", .obj [
      ("file_name_prefix", .str "part-"),
      ("max_rows_per_file", .num (.int 5000))]),
    ("type", .str "ParquetSink")]),
  ("source", .obj [("type", .str "ParquetSource")]),
  ("type", .str "Copy")]

/-- The copy is read without notes, and the check holds of it. -/
def readWith (activity : Json) (check : Copy → Bool) : Bool :=
  match Copy.ofActivity false activity with
  | .ok ⟨.ok copy, []⟩ => check copy
  | _ => false

theorem exists_of_readWith {activity : Json} {check : Copy → Bool}
    (h : readWith activity check = true) :
    ∃ copy, Copy.ofActivity false activity = .ok ⟨.ok copy, []⟩ ∧ check copy = true := by
  unfold readWith at h
  split at h
  · exact ⟨_, ‹_›, h⟩
  · cases h

/-- Scripts of the built-in templates. -/
def builtInGenerator : Script.Generator where
  library := .builtIn
  secretScope := "scope"

/-- The notebook shows the limit of records; the prefix is not among its statements. -/
theorem prefixedCopy_limited :
    ∃ copy content, Copy.ofActivity false prefixedCopy = .ok ⟨.ok copy, []⟩ ∧
      (builtInGenerator.copyNotebook copy).value = .ok content ∧
      (Script.recordLimit (.num (.int 5000))).toList <:+: content.toList ∧
      Script.setOption "archive" "file_path_prefix" (Text.quoted "part-")
        ∉ Script.optionBlock "scope" "archive" copy.sink copy.sinkSide := by
  have hread : readWith prefixedCopy (fun copy => decide (
      (Script.Names.ofCopy copy).sink = "archive" ∧
      copy.sinkSide.options.lookup "records_per_file" = some (.num (.int 5000)) ∧
      copy.sinkSide.options.lookup "file_path_prefix" = some (.str "part-"))) = true := by
    decide +kernel
  obtain ⟨copy, hcopy, hcheck⟩ := exists_of_readWith hread
  obtain ⟨hname, hrecords, hpart⟩ := of_decide_eq_true hcheck
  obtain ⟨hsides, -, -, hbuiltIn⟩ :=
    Script.Generator.copyNotebook_options hcopy rfl builtInGenerator
  obtain ⟨content, hcontent, hlines⟩ := hbuiltIn rfl
  have hmem : ⟨(Script.Names.ofCopy copy).sink, copy.sink, copy.sinkSide⟩ ∈ Script.scriptSides copy := by
    simp [Script.scriptSides]
  obtain ⟨-, hset⟩ := hsides _ hmem
  refine ⟨copy, content, hcopy, hcontent, ?_, ?_⟩
  · exact hlines _ hmem _ ((hset _ _ hrecords (by decide)).mpr (by decide))
  · have hsilent := mt (hset _ _ hpart (by decide)).mp (by decide)
    rwa [hname] at hsilent

/-- No statement of the sink contains the prefix, the notebook is that of the copy without it, and
neither reading nor writing leaves a note. -/
theorem prefixedCopy_silent :
    ∃ copy, Copy.ofActivity false prefixedCopy = .ok ⟨.ok copy, []⟩ ∧
      copy.sinkSide.options.lookup "file_path_prefix" = some (.str "part-") ∧
      (∀ line ∈ Script.optionBlock "scope" (Script.Names.ofCopy copy).sink copy.sink copy.sinkSide,
        ¬"part-".toList <:+: line.toList) ∧
      builtInGenerator.copyNotebook copy = builtInGenerator.copyNotebook copy.withoutSilent ∧
      (builtInGenerator.copyNotebook copy).notes = [] := by
  have hread : readWith prefixedCopy (fun copy => decide (
      copy.sinkSide.options.lookup "file_path_prefix" = some (.str "part-") ∧
      (∀ line ∈ Script.optionBlock "scope" (Script.Names.ofCopy copy).sink copy.sink copy.sinkSide,
        ¬"part-".toList <:+: line.toList) ∧
      copy.columns = [])) = true := by
    decide +kernel
  obtain ⟨copy, hcopy, hcheck⟩ := exists_of_readWith hread
  obtain ⟨hpart, hlines, hcolumns⟩ := of_decide_eq_true hcheck
  refine ⟨copy, hcopy, hpart, hlines, (Script.Generator.copyNotebook_withoutSilent copy).symm, ?_⟩
  refine List.eq_nil_iff_forall_not_mem.mpr fun note hnote => ?_
  obtain ⟨column, hmem, -⟩ := Script.Generator.property_of_mem_copyNotebook hnote
  rw [hcolumns] at hmem
  cases hmem

end FactoryMigration
