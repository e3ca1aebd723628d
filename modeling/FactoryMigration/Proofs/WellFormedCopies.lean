import FactoryMigration.Proofs.CopyArtifacts
import FactoryMigration.Proofs.SideOptions

set_option autoImplicit false

/-! # Well-formed copies

Every copy in a converted activity, at any depth, has been read from the definition of a copy
(`convert_copies`). So its datasets and blocks fit together, the options that a script is written with
are known ones, and its columns have names (`Session.convert_wellFormed`). -/

namespace FactoryMigration

/-! ## Where copies come from -/

/-- The copy has been read from a definition. -/
def Copy.IsRead (strict : Bool) (copy : Copy) : Prop :=
  ∃ activity read, ofActivity strict activity = .ok read ∧ read.value = .ok copy

/-- An activity that becomes a copy is read as one. -/
theorem isRead_of_convert_yields {strict inLoop : Bool} {activity : Json} {task : Task} {copy : Copy}
    (h : (convert strict inLoop activity).Yields (.single task (.copy copy))) :
    copy.IsRead strict := by
  rw [convert_eq] at h
  obtain ⟨task', -, h⟩ := h.inScope.bind
  obtain ⟨kind, -, hwork⟩ | ⟨reason, hreason⟩ := convertWork_yields_single h
  · cases hwork with
    | copy hread hcopy => exact ⟨activity, _, hread, hcopy⟩
  · cases hreason

namespace Activity

/-- All copies of an activity have been read from definitions. -/
def CopiesAreRead (strict : Bool) (activity : Activity) : Prop :=
  ∀ copyTask ∈ activity.everyCopy, copyTask.copy.IsRead strict

/-- Another task leaves the copies of an activity as they are. -/
theorem copiesAreRead_withTask {strict : Bool} {activity : Activity} (task : Task)
    (h : activity.CopiesAreRead strict) : (activity.withTask task).CopiesAreRead strict := by
  cases activity with
  | single task' work =>
    cases work with
    | copy copy => simpa [CopiesAreRead, withTask, everyCopy, Work.copyTask?] using h
    | _ => simp [CopiesAreRead, withTask, everyCopy, Work.copyTask?]
  | branch => exact h
  | loop => exact h

end Activity

theorem Child.copiesAreRead {strict inLoop : Bool} {dependency : Option Dependency} {child : Json}
    {converted : Activity} (h : Child strict inLoop dependency child converted)
    (hown : ∀ own, (convert strict inLoop child).Yields own → own.CopiesAreRead strict) :
    converted.CopiesAreRead strict := by
  cases h with
  | converted h => exact Activity.copiesAreRead_withTask _ (hown _ h)
  | contained h => exact List.forall_mem_nil _

theorem copiesAreRead_of_children {strict inLoop : Bool} {dependency : Option Dependency}
    {items : List Json} {children : List Activity}
    (h : List.Forall₂ (Child strict inLoop dependency) items children)
    (hown : ∀ child ∈ items, ∀ own, (convert strict inLoop child).Yields own →
      own.CopiesAreRead strict) :
    ∀ copyTask ∈ Activity.everyCopyAll children, copyTask.copy.IsRead strict := by
  induction h with
  | nil => exact List.forall_mem_nil _
  | cons hchild _ ih =>
    refine List.forall_mem_append.mpr ⟨hchild.copiesAreRead (hown _ List.mem_cons_self), ?_⟩
    exact ih fun child hmem => hown child (List.mem_cons_of_mem _ hmem)

/-- **Activities.** All copies of a converted activity have been read from definitions. -/
theorem convert_copies {strict inLoop : Bool} {activity : Json} {converted : Activity}
    (h : (convert strict inLoop activity).Yields converted) : converted.CopiesAreRead strict := by
  induction activity using Json.induction_items generalizing inLoop converted with
  | step activity ih =>
    cases convert_yields h with
    | @single task work htask hsingle =>
      intro copyTask hmem
      cases work with
      | copy copy =>
        obtain rfl := List.mem_singleton.mp hmem
        exact isRead_of_convert_yields h
      | _ => cases hmem
    | branch htask hkind hcondition hfalse htrue =>
      intro copyTask hmem
      rw [Activity.everyCopy, Activity.everyCopyAll_append, List.mem_append] at hmem
      rcases hmem with hmem | hmem
      · exact copiesAreRead_of_children hfalse (fun child hchild _ => ih _ child hchild) _ hmem
      · exact copiesAreRead_of_children htrue (fun child hchild _ => ih _ child hchild) _ hmem
    | loop htask hkind hitems hbody =>
      exact copiesAreRead_of_children hbody fun child hchild _ => ih _ child hchild

/-! ## Sides -/

/-- The options for the queries of a server: isolation and timeout are set, and there is no mode but
appending. -/
structure Side.QueryOptions (options : Table Json) : Prop where
  isolation : ∃ level, options.lookup "query_isolation_level" = some (.str level)
  timeout : ∃ seconds : Nat, options.lookup "query_timeout_seconds" = some (.num (.int seconds))
  mode : ∀ mode, options.lookup "mode" = some mode → mode = .str "append"

/-- A dataset and a block fit together. They have one format, which is one of the file formats if the
dataset is a file; the options of a file are options of its format. -/
structure Side.Fits (side : Side) (dataset : Dataset) : Prop where
  agree : dataset.format = side.format
  file : ∀ file, dataset = .file file → side.format.isFile = true ∧
    ∀ option ∈ file.options.map Prod.fst, option ∈ file.format.optionNames
  server : side.format = .sqlServer → QueryOptions side.options

/-- Both blocks of a copy fit their datasets, and its columns have names. -/
structure Copy.WellFormed (copy : Copy) : Prop where
  source : copy.sourceSide.Fits copy.source
  sink : copy.sinkSide.Fits copy.sink
  columns : ∀ column ∈ copy.columns, column.source ≠ "" ∧ column.sink ≠ ""

/-- A key that is in a table can be looked up. -/
theorem Table.exists_lookup_of_mem {α : Type} {table : Table α} {key : String}
    (h : key ∈ table.map Prod.fst) : ∃ value, table.lookup key = some value := by
  induction table with
  | nil => cases h
  | cons entry rest ih =>
    obtain ⟨other, value⟩ := entry
    rw [lookup_cons]
    split
    · exact ⟨value, rfl⟩
    · rename_i hne
      rw [List.map_cons, List.mem_cons] at h
      exact ih (h.resolve_left hne)

namespace Side

theorem queryOptions_of_sqlOptions {strict : Bool} {block : Json} {options : Table Json}
    (h : (sqlOptions strict block).value = .ok options) : QueryOptions options := by
  obtain ⟨seconds, mode, hmode, rfl⟩ := sqlOptions_ok h
  refine ⟨⟨isolationLevel (block.text? "isolation_level"), ?_⟩, ⟨seconds, ?_⟩, fun value hvalue => ?_⟩
  · simp [Table.lookup_insert, Table.lookup_insert?]
  · simp [Table.lookup_insert, Table.lookup_insert?]
  · cases mode with
    | none => simp [Table.lookup_insert, Table.lookup_insert?] at hvalue
    | some name =>
      obtain rfl : name = "append" := hmode name rfl
      simpa [Table.lookup_insert?, eq_comm] using hvalue

/-- The options of a server's block have been read from the block. -/
theorem exists_sqlOptions {strict : Bool} {block : Json} {side : Side}
    (h : (ofBlock strict block).value = .ok side) (hformat : side.format = .sqlServer) :
    (sqlOptions strict block).value = .ok side.options := by
  unfold ofBlock at h
  split at h
  · cases h
  · cases h
    cases hformat
  · cases h
    cases hformat
  · rw [Noted.value_bind, Noted.value_pure] at h
    cases hoptions : (sqlOptions strict block).value with
    | error obstacle =>
      rw [hoptions] at h
      cases h
    | ok options =>
      rw [hoptions] at h
      cases h
      rfl

/-- A block that has been read fits the dataset that it describes. -/
theorem Describes.fits {strict : Bool} {side : Side} {dataset : Dataset}
    (h : side.Describes strict dataset) : side.Fits dataset := by
  obtain ⟨⟨definition, hdataset⟩, ⟨block, hblock⟩, hagree⟩ := h
  refine ⟨hagree, ?_, fun hformat => queryOptions_of_sqlOptions (exists_sqlOptions hblock hformat)⟩
  rintro file rfl
  refine ⟨by rw [← hagree]; rfl, fun option hoption => ?_⟩
  obtain ⟨value, hvalue⟩ := Table.exists_lookup_of_mem hoption
  rw [Dataset.options_of_ofDefinition hdataset] at hvalue
  exact Dataset.mem_optionNames hvalue

end Side

/-! ## Columns -/

namespace ColumnMapping

/-- A source column is named by its own name or, behind a prefix, by its position. -/
theorem ne_empty_of_sourceName? {source : Json} {name : String} (h : sourceName? source = some name) :
    name ≠ "" := by
  unfold sourceName? at h
  cases hname : source.filledText? "name" with
  | some own =>
    rw [hname] at h
    obtain rfl := Option.some.inj h
    exact (Json.filledText?_eq_some_iff.mp hname).2
  | none =>
    rw [hname] at h
    obtain ⟨position, -, rfl⟩ := Option.map_eq_some_iff.mp h
    simp [String.append_eq_empty_iff]

theorem ne_empty_of_ofMapping {mapping : Json} {column : ColumnMapping}
    (h : (ofMapping mapping).value = some column) : column.source ≠ "" ∧ column.sink ≠ "" := by
  unfold ofMapping at h
  split at h
  · cases h
  · rename_i source hsource
    cases h
    have hfilled := ne_empty_of_sourceName? hsource
    refine ⟨hfilled, ?_⟩
    -- a sink column without a name is called like its source
    cases hsink : (mapping.getD "sink").filledText? "name" with
    | none => exact hfilled
    | some own => exact (Json.filledText?_eq_some_iff.mp hsink).2

theorem ne_empty_of_mem_ofTranslator {translator : Option Json} {column : ColumnMapping}
    (h : column ∈ (ofTranslator translator).value) : column.source ≠ "" ∧ column.sink ≠ "" := by
  unfold ofTranslator at h
  rw [Noted.value_select, List.mem_filterMap] at h
  obtain ⟨mapping, -, hcolumn⟩ := h
  exact ne_empty_of_ofMapping hcolumn

end ColumnMapping

/-! ## Copies -/

/-- The columns of a copy that has been read are those of its translator. -/
theorem Copy.columns_ofActivity {strict : Bool} {activity : Json}
    {read : Noted (Except Obstacle Copy)} {copy : Copy} (h : ofActivity strict activity = .ok read)
    (hcopy : read.value = .ok copy) :
    copy.columns = (ColumnMapping.ofTranslator (activity.get? "translator")).value := by
  unfold ofActivity at h
  obtain ⟨source, -, h⟩ := exists_of_bind_eq_ok h
  obtain ⟨sink, -, h⟩ := exists_of_bind_eq_ok h
  cases h
  unfold ofDatasets at hcopy
  rw [Noted.value_bind, Noted.value_bind] at hcopy
  split at hcopy
  · cases hcopy
  · cases hcopy
    rfl

theorem Copy.IsRead.wellFormed {strict : Bool} {copy : Copy} (h : copy.IsRead strict) :
    copy.WellFormed := by
  obtain ⟨activity, read, hread, hcopy⟩ := h
  obtain ⟨hsource, hsink⟩ := ofActivity_sides hread hcopy
  refine ⟨hsource.fits, hsink.fits, fun column hmem => ?_⟩
  rw [columns_ofActivity hread hcopy] at hmem
  exact ColumnMapping.ne_empty_of_mem_ofTranslator hmem

/-- **Sessions.** Whatever a session has converted before, all copies of the next activity are well
formed, at any depth. -/
theorem Session.convert_wellFormed {session after : Session} {activity : Json} {converted : Activity}
    (h : session.convert activity = (.ok converted, after)) :
    ∀ copyTask ∈ converted.everyCopy, copyTask.copy.WellFormed := by
  have hresult : (session.convert activity).1 = .ok converted := congrArg Prod.fst h
  have hyields : (FactoryMigration.convert session.strict false activity).Yields converted :=
    ⟨session.toMemory, _, Prod.ext hresult rfl⟩
  exact fun copyTask hmem => (convert_copies hyields copyTask hmem).wellFormed

/-- In a loop, a copy and another one under a branch are converted. -/
theorem branchInLoop_wellFormed :
    ∃ converted after,
      (Session.start true).convert ((branchInLoop.items "activities").headD .null)
        = (.ok converted, after) ∧
      converted.everyCopy.map (·.task.key) = ["archive_orders", "archive_customers"] ∧
      ∀ copyTask ∈ converted.everyCopy, copyTask.copy.WellFormed := by
  have hkeys : ((Session.start true).convert
      ((branchInLoop.items "activities").headD .null)).1.toOption.map
        (fun converted => converted.everyCopy.map (·.task.key))
      = some ["archive_orders", "archive_customers"] := by
    decide +kernel
  rcases h : (Session.start true).convert ((branchInLoop.items "activities").headD .null)
    with ⟨failure | converted, after⟩
  · rw [h] at hkeys
    cases hkeys
  · rw [h] at hkeys
    exact ⟨converted, after, rfl, Option.some.inj hkeys, Session.convert_wellFormed h⟩

end FactoryMigration
