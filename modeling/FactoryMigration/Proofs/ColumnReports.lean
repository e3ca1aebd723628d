import FactoryMigration.Proofs.ArtifactReferences
import FactoryMigration.Proofs.History
import FactoryMigration.Proofs.SideOptions

set_option autoImplicit false

/-! # Reports on columns

A column whose type has no Spark type is selected without a cast and reported with the tag of its copy,
however many loops the copy is in. Preparing a workflow reports nothing else: a preparation adds to the
log the reports on its copies, one copy after another (`Workflow.ofPipeline_reports`). -/

namespace FactoryMigration

namespace ColumnMapping

/-- The type of a column that has one but cannot be cast to it: the sink is no Delta table, and the
type has no Spark type. -/
def unknownType? (sink : Format) (column : ColumnMapping) : Option String :=
  if sink = .delta then none else column.sinkType.filter fun type => (sink.sparkType? type).isNone

/-- The expression that selects a column. Every column with a type is cast, except for those whose type
is unknown. -/
inductive Selects (sink : Format) (column : ColumnMapping) : String → Prop where
  | untyped (h : column.sinkType = none) :
      Selects sink column
        (Script.columnName column.source ++ " as " ++ Script.columnName column.sink)
  | unknown {type : String} (h : column.unknownType? sink = some type) :
      Selects sink column
        (Script.columnName column.source ++ " as " ++ Script.columnName column.sink)
  | cast {type sparkType : String} (h : column.unknownType? sink = none)
      (htype : column.sinkType = some type) (hspark : sink.sparkType? type = some sparkType) :
      Selects sink column
        ("cast(" ++ Script.columnName column.source ++ " as " ++ sparkType ++ ") as "
          ++ Script.columnName column.sink)

end ColumnMapping

/-- The statement that selects expressions from the frame of the source. Without any, the frame is
taken over as it is. -/
def Script.Names.selection (names : Names) (expressions : List String) : String :=
  let assign := names.sink ++ "_df = " ++ names.source ++ "_df"
  match expressions with
  | [] => assign
  | expressions =>
    assign ++ ".selectExpr(\n    " ++ Text.joinWith ",\n    " (expressions.map Text.quoted) ++ ",\n)"

namespace CopyTask

/-- The diagnostics of a copy, one for each column of an unknown type. -/
def columnDiagnostics (copyTask : CopyTask) : List Diagnostic :=
  copyTask.copy.columns.filterMap fun column =>
    (column.unknownType? copyTask.copy.sink.format).map fun type =>
      { property := "column_mapping." ++ column.sink
        message := "No Spark type for column type '" ++ type ++ "', cast omitted"
        activityName := some copyTask.task.name
        activityType := some copyTask.task.type }

/-- The notebook of the copy has the statement: as its mapping, or behind the reading expression in the
body of a declarative one. -/
inductive Projects (options : PreparationOptions) (copyTask : CopyTask) (statement : String) :
    Notebook → Prop where
  | mapping {notebook : Notebook} {entries : List (String × String)}
      (h : options.isDeclarative copyTask.copy = false)
      (hmapping : entries.lookup "mapping" = some statement)
      (hrender : options.library.render "copy-notebook" (.ofEntries entries) = .ok notebook.content) :
      Projects options copyTask statement notebook
  | body {notebook : Notebook} {read : String} {entries : List (String × String)}
      (h : options.isDeclarative copyTask.copy = true)
      (hread : Script.readExpression options.library (Script.Names.ofCopy copyTask.copy).source
        copyTask.copy.source = .ok read)
      (hbody : entries.lookup "body" = some (Script.indent (read ++ "\n" ++ statement)))
      (hrender : options.library.render "dlt-notebook" (.ofEntries entries) = .ok notebook.content) :
      Projects options copyTask statement notebook

end CopyTask

/-- A notebook of the workflow selects the columns of the copy. -/
def Workflow.SelectsColumns (options : PreparationOptions) (workflow : Workflow)
    (copyTask : CopyTask) : Prop :=
  ∃ notebook ∈ workflow.notebooks, ∃ expressions,
    List.Forall₂ (ColumnMapping.Selects copyTask.copy.sink.format) copyTask.copy.columns expressions ∧
      copyTask.Projects options ((Script.Names.ofCopy copyTask.copy).selection expressions) notebook

/-! ## Projections -/

theorem ColumnMapping.unknownType?_eq_of_some {sink : Format} {column : ColumnMapping} {type : String}
    (h : column.sinkType = some type) :
    column.unknownType? sink = if (sink.sparkType? type).isNone then some type else none := by
  unfold unknownType?
  by_cases hsink : sink = .delta
  · subst hsink
    rfl
  · rw [if_neg hsink, h, Option.filter_some]

namespace Script

theorem selects_projectColumn (sink : Format) (column : ColumnMapping) :
    column.Selects sink (projectColumn sink column).value := by
  unfold projectColumn
  cases htype : column.sinkType with
  | none => exact .untyped htype
  | some type =>
    have hunknown : column.unknownType? sink = _ := ColumnMapping.unknownType?_eq_of_some htype
    dsimp only
    cases hspark : sink.sparkType? type with
    | none =>
      rw [hspark] at hunknown
      exact .unknown hunknown
    | some sparkType =>
      rw [hspark] at hunknown
      exact .cast hunknown htype hspark

theorem forall₂_selects (sink : Format) (columns : List ColumnMapping) :
    List.Forall₂ (ColumnMapping.Selects sink) columns
      (columns.map fun column => (projectColumn sink column).value) :=
  List.forall₂_map_right_iff.mpr
    (List.forall₂_same.mpr fun column _ => selects_projectColumn sink column)

/-- A note on a column becomes the diagnostic of its copy. -/
theorem tag_notes_projectColumn (scope : Scope) (sink : Format) (column : ColumnMapping) :
    (projectColumn sink column).notes.map scope.tag =
      ((column.unknownType? sink).map fun type =>
        { property := "column_mapping." ++ column.sink
          message := "No Spark type for column type '" ++ type ++ "', cast omitted"
          activityName := scope.activityName
          activityType := scope.activityType : Diagnostic }).toList := by
  unfold projectColumn
  cases htype : column.sinkType with
  | none =>
    have hunknown : column.unknownType? sink = none := by
      rw [ColumnMapping.unknownType?, htype, Option.filter_none, ite_self]
    rw [hunknown]
    rfl
  | some type =>
    rw [ColumnMapping.unknownType?_eq_of_some htype]
    dsimp only
    cases hspark : sink.sparkType? type with
    | none => rfl
    | some sparkType => rfl

theorem value_projection (names : Names) (sink : Format) (columns : List ColumnMapping) :
    (projection names sink columns).value
      = names.selection (columns.map fun column => (projectColumn sink column).value) := by
  cases columns with
  | nil => rfl
  | cons column columns =>
    unfold projection
    rw [if_neg (by simp), Noted.value_bind, Noted.value_traverse]
    rfl

theorem tag_notes_projection (copyTask : CopyTask) (names : Names) :
    (projection names copyTask.copy.sink.format copyTask.copy.columns).notes.map copyTask.task.scope.tag
      = copyTask.columnDiagnostics := by
  have hnotes (sink : Format) (columns : List ColumnMapping) : (projection names sink columns).notes
      = columns.flatMap fun column => (projectColumn sink column).notes := by
    cases columns with
    | nil => rfl
    | cons column columns =>
      unfold projection
      rw [if_neg (by simp), Noted.notes_bind, Noted.notes_traverse, Noted.notes_pure, List.append_nil]
  rw [hnotes, List.map_flatMap, CopyTask.columnDiagnostics, List.filterMap_eq_flatMap_toList]
  refine congrArg (List.flatMap · _) (funext fun column => ?_)
  exact tag_notes_projectColumn _ _ _

end Script

/-! ## Notebooks of copies -/

namespace Script.Generator

variable {generator : Generator} {copy : Copy} {content : String}

/-- A notebook that reads, projects and writes is rendered with the projection and leaves its notes. -/
theorem rendered_copyNotebook (h : (generator.copyNotebook copy).value = .ok content) :
    (generator.copyNotebook copy).notes
        = (projection (Names.ofCopy copy) copy.sink.format copy.columns).notes ∧
      ∃ entries : List (String × String),
        entries.lookup "mapping"
          = some (projection (Names.ofCopy copy) copy.sink.format copy.columns).value ∧
        generator.library.render "copy-notebook" (.ofEntries entries) = .ok content := by
  unfold copyNotebook at h ⊢
  dsimp only at h ⊢
  split at h
  · cases h
  · rw [Noted.notes_bind, Noted.notes_pure, List.append_nil]
    rw [Noted.value_bind, Noted.value_pure] at h
    obtain ⟨write, -, h⟩ := exists_of_bind_eq_ok h
    exact ⟨rfl, _, rfl, h⟩

/-- So is a declarative notebook, whose body ends with the projection. -/
theorem rendered_declarativeNotebook (h : (generator.declarativeNotebook copy).value = .ok content) :
    (generator.declarativeNotebook copy).notes
        = (projection (Names.ofCopy copy) copy.sink.format copy.columns).notes ∧
      ∃ (read : String) (entries : List (String × String)),
        readExpression generator.library (Names.ofCopy copy).source copy.source = .ok read ∧
        entries.lookup "body" = some (indent (read ++ "\n"
          ++ (projection (Names.ofCopy copy) copy.sink.format copy.columns).value)) ∧
        generator.library.render "dlt-notebook" (.ofEntries entries) = .ok content := by
  unfold declarativeNotebook at h ⊢
  dsimp only at h ⊢
  split at h
  · cases h
  · rename_i read hread
    rw [Noted.notes_bind, Noted.notes_pure, List.append_nil]
    rw [Noted.value_bind, Noted.value_pure] at h
    exact ⟨rfl, read, _, hread, rfl, h⟩

end Script.Generator

namespace CopyTask

variable {options : PreparationOptions} {copyTask : CopyTask} {notebook : Notebook}

/-- A notebook has the projection of its copy, and the notes on it are the diagnostics of the copy. -/
theorem HasScript.projects (h : copyTask.HasScript options notebook.content) :
    (options.script copyTask.copy).notes.map copyTask.task.scope.tag = copyTask.columnDiagnostics ∧
      copyTask.Projects options ((Script.Names.ofCopy copyTask.copy).selection
        (copyTask.copy.columns.map fun column =>
          (Script.projectColumn copyTask.copy.sink.format column).value)) notebook := by
  rw [← Script.tag_notes_projection copyTask (Script.Names.ofCopy copyTask.copy),
    ← Script.value_projection]
  unfold HasScript PreparationOptions.script at h
  unfold PreparationOptions.script
  by_cases hdeclarative : options.isDeclarative copyTask.copy = true
  · rw [if_pos hdeclarative] at h ⊢
    obtain ⟨hnotes, read, entries, hread, hbody, hrender⟩ :=
      Script.Generator.rendered_declarativeNotebook h
    exact ⟨congrArg _ hnotes, .body hdeclarative hread hbody hrender⟩
  · rw [if_neg hdeclarative] at h ⊢
    obtain ⟨hnotes, entries, hmapping, hrender⟩ := Script.Generator.rendered_copyNotebook h
    exact ⟨congrArg _ hnotes, .mapping (Bool.eq_false_of_not_eq_true hdeclarative) hmapping hrender⟩

end CopyTask

/-! ## The run of a preparation -/

namespace Artifacts

theorem log_addSecret (artifacts : Artifacts) (secret : Secret) :
    (artifacts.addSecret secret).log = artifacts.log := by
  unfold addSecret
  split
  · rfl
  · rfl

theorem log_foldl_addSecret (secrets : List Secret) (artifacts : Artifacts) :
    (secrets.foldl addSecret artifacts).log = artifacts.log := by
  induction secrets generalizing artifacts with
  | nil => rfl
  | cons first rest ih => rw [List.foldl_cons, ih, log_addSecret]

theorem log_addNotebook (artifacts : Artifacts) (path content taskKey : String) :
    (artifacts.addNotebook path content taskKey).2.log = artifacts.log := by
  unfold addNotebook
  dsimp only
  split
  · rfl
  · rfl

end Artifacts

namespace Preparation

variable {options : PreparationOptions}

/-- What a preparation reports: diagnostics in the log, whose scopes are as before. -/
def Reports (diagnostics : List Diagnostic) (before after : Artifacts) : Prop :=
  after.log = before.log.append diagnostics

theorem Reports.nil {before after : Artifacts} (h : after.log = before.log) :
    Reports [] before after := by
  rw [Reports, h, Log.append_nil]

theorem Reports.append {first second : List Diagnostic} {before between after : Artifacts}
    (hfirst : Reports first before between) (hsecond : Reports second between after) :
    Reports (first ++ second) before after := by
  rw [Reports, hsecond, hfirst, Log.append_append]

/-- A preparation in a scope reports what it reports inside. -/
theorem exists_of_inScope_reports {α : Type} {scope : Scope} {body : Preparation α}
    {before after : Artifacts} {value : α} (h : inScope scope body before = .ok (value, after)) :
    ∃ between, body { before with log := before.log.enter scope } = .ok (value, between) ∧
      ∀ diagnostics, Reports diagnostics { before with log := before.log.enter scope } between →
        Reports diagnostics before after := by
  unfold inScope at h
  split at h
  · cases h
  · rename_i value' between hbody
    cases h
    refine ⟨between, hbody, fun diagnostics hreports => ?_⟩
    show between.log.exit = before.log.append diagnostics
    rw [hreports]
    rfl

/-- A copy records the notes of its script, and nothing else. -/
theorem log_copy {task : Task} {body : Copy} {before after : Artifacts} {work : JobWork}
    (h : copy options task body before = .ok (work, after)) :
    after.log = before.log.record (options.script body).notes := by
  have hsecrets : ((options.secrets body).foldl Artifacts.addSecret before).log = before.log :=
    Artifacts.log_foldl_addSecret _ _
  simp only [copy] at h
  split at h
  · cases h
  · rw [← hsecrets]
    split at h
    · cases h
      exact Artifacts.log_addNotebook _ _ _ _
    · cases h
      exact Artifacts.log_addNotebook _ _ _ _

/-- In the scope of its task, a copy reports its columns of unknown types. -/
theorem copy_reports {task : Task} {body : Copy} {before after : Artifacts} {work : JobWork}
    (h : copy options task body { before with log := before.log.enter task.scope }
      = .ok (work, after)) :
    Reports (CopyTask.columnDiagnostics ⟨task, body⟩)
      { before with log := before.log.enter task.scope } after := by
  obtain ⟨notebook, hscript, -⟩ := copy_copied h
  have hcopied : (⟨task, body⟩ : CopyTask).HasScript options notebook.content := hscript
  obtain ⟨hnotes, -⟩ := hcopied.projects
  rw [Reports, log_copy h, ← hnotes]
  rfl

theorem work_reports {task : Task} {body : Work} {before after : Artifacts} {jobWork : JobWork}
    (h : work options task body { before with log := before.log.enter task.scope }
      = .ok (jobWork, after)) :
    Reports ((body.copyTask? task).toList.flatMap CopyTask.columnDiagnostics)
      { before with log := before.log.enter task.scope } after := by
  cases body with
  | copy body =>
    rw [Work.copyTask?, Option.toList_some, List.flatMap_singleton]
    exact copy_reports h
  | _ =>
    cases h
    exact .nil rfl

mutual

/-- **Activities.** A successful preparation of an activity reports its copies. -/
theorem activity_reports : ∀ (item : Activity) {before after : Artifacts} {jobTask : JobTask},
    activity options item before = .ok (jobTask, after) →
    Reports (item.copyTasks.flatMap CopyTask.columnDiagnostics) before after
  | .single task body, before, after, jobTask, h => by
    rw [activity] at h
    obtain ⟨between, h, hscope⟩ := exists_of_inScope_reports h
    obtain ⟨jobWork, between', hwork, h⟩ := exists_of_bind_ok h
    obtain ⟨-, rfl⟩ := Prod.mk.inj (Except.ok.inj h)
    exact hscope _ (work_reports hwork)
  | .branch task condition children, before, after, jobTask, h => by
    -- nothing is reported on the children
    rw [activity] at h
    obtain ⟨between, h, hscope⟩ := exists_of_inScope_reports h
    obtain ⟨-, rfl⟩ := Prod.mk.inj (Except.ok.inj h)
    exact hscope _ (.nil rfl)
  | .loop task items concurrency body, before, after, jobTask, h => by
    rw [activity] at h
    obtain ⟨between, h, hscope⟩ := exists_of_inScope_reports h
    obtain ⟨jobTasks, between', hbody, h⟩ := exists_of_bind_ok h
    have hreports := activities_reports body hbody
    cases jobTasks with
    | nil => cases h
    | cons first skipped =>
      obtain ⟨-, rfl⟩ := Prod.mk.inj (Except.ok.inj h)
      exact hscope _ hreports

theorem activities_reports : ∀ (items : List Activity) {before after : Artifacts}
    {jobTasks : List JobTask}, activities options items before = .ok (jobTasks, after) →
    Reports ((Activity.copyTasksAll items).flatMap CopyTask.columnDiagnostics) before after
  | [], before, after, jobTasks, h => by
    rw [activities] at h
    cases h
    exact .nil rfl
  | first :: rest, before, after, jobTasks, h => by
    rw [activities] at h
    obtain ⟨jobTask, between, hfirst, h⟩ := exists_of_bind_ok h
    obtain ⟨jobTasks', between', hrest, h⟩ := exists_of_bind_ok h
    cases h
    rw [Activity.copyTasksAll, List.flatMap_append]
    exact (activity_reports first hfirst).append (activities_reports rest hrest)

end

end Preparation

/-! ## Workflows -/

/-- **Columns.** What could not be translated is what the pipeline has of it and one diagnostic for each
column of an unknown type, the copies in the order of their preparation. The notebook of a copy selects
such a column without a cast, and every other column that has a type with one. -/
theorem Workflow.ofPipeline_reports {options : PreparationOptions} {pipeline : Pipeline}
    {workflow : Workflow} (h : ofPipeline options pipeline = .ok workflow) :
    workflow.notTranslatable
        = pipeline.notTranslatable ++ pipeline.copyTasks.flatMap CopyTask.columnDiagnostics ∧
      ∀ copyTask ∈ pipeline.copyTasks, workflow.SelectsColumns options copyTask := by
  obtain ⟨artifacts, hactivities, hnotebooks, -⟩ := exists_artifacts h
  constructor
  · have hlog : artifacts.log.entries = pipeline.copyTasks.flatMap CopyTask.columnDiagnostics :=
      congrArg Log.entries (Preparation.activities_reports _ hactivities)
    have hreported : workflow.notTranslatable = pipeline.notTranslatable ++ artifacts.log.entries := by
      rw [ofPipeline, hactivities] at h
      exact (congrArg notTranslatable (Except.ok.inj h)).symm
    rw [hreported, hlog]
  · obtain ⟨visits, hvisits, hnames⟩ := Preparation.activities_visits _ hactivities
    intro copyTask hmem
    rw [Pipeline.copyTasks, ← hnames.copyTasks] at hmem
    obtain ⟨visit, hvisit, rfl⟩ := List.mem_map.mp hmem
    have hstored : visit.notebook ∈ artifacts.notebooks :=
      (hvisits.notebooks _).mpr (.inr (List.mem_map_of_mem hvisit))
    exact ⟨visit.notebook, hnotebooks ▸ hstored, _, Script.forall₂_selects _ _,
      (hvisits.scripts visit hvisit).projects.2⟩

/-! ## Copies in nested loops -/

namespace CopyTask

/-- The copy with a column of a type that has a Spark type, one of a type that has none, and one without
a type. -/
def withShapes (copyTask : CopyTask) : CopyTask :=
  { copyTask with
    copy :=
      { copyTask.copy with
        columns := [⟨"id", "id", some "Int64"⟩, ⟨"shape", "area", some "Geometry"⟩,
          ⟨"note", "note", none⟩] } }

/-- A loop whose body is a loop over a copy into files and then a copy into a table, and another copy
into files after it. -/
def nestedCopies : Pipeline :=
  let each (key : String) : Task :=
    { key := key
      type := ActivityKind.forEach.tag
      description := none
      policy := Policy.none
      dependsOn := []
      cluster := none }
  { pipeline [] with
    tasks :=
      .loop (each "Outer") "[]" none
          (.loop (each "Inner") "[]" none
              (pipeline [(ofColumnToFiles "First" "id").withShapes]).tasks
            :: (pipeline [(ofColumn "Second" "id").withShapes]).tasks)
        :: (pipeline [(ofColumnToFiles "Third" "id").withShapes]).tasks
    notTranslatable := [⟨"annotations", "Dropped", none, none⟩] }

/-- The two copies into files are reported, each with its own tag, and the table takes any type. -/
theorem nestedCopies_reports :
    ∃ workflow, Workflow.ofPipeline tableOptions nestedCopies = .ok workflow ∧
      workflow.notTranslatable =
        [⟨"annotations", "Dropped", none, none⟩,
          ⟨"column_mapping.area", "No Spark type for column type 'Geometry', cast omitted",
            some "First", some "Copy"⟩,
          ⟨"column_mapping.area", "No Spark type for column type 'Geometry', cast omitted",
            some "Third", some "Copy"⟩] ∧
      ∀ copyTask ∈ nestedCopies.copyTasks, workflow.SelectsColumns tableOptions copyTask := by
  have hfirst : Activity.HasBodiesAll (pipeline [(ofColumnToFiles "First" "id").withShapes]).tasks :=
    ⟨trivial, trivial⟩
  have hbodies : Activity.HasBodiesAll (Activity.flattenAll nestedCopies.tasks) :=
    ⟨⟨List.cons_ne_nil _ _, ⟨List.cons_ne_nil _ _, hfirst⟩, trivial, trivial⟩, trivial, trivial⟩
  cases h : Workflow.ofPipeline tableOptions nestedCopies with
  | error failure =>
    have hfails : tableOptions.library.Fails failure := Workflow.fails_of_ofPipeline hbodies h
    exact absurd hfails (TemplateLibrary.not_builtIn_fails failure)
  | ok workflow =>
    obtain ⟨hreported, hselects⟩ := Workflow.ofPipeline_reports h
    refine ⟨workflow, rfl, ?_, hselects⟩
    rw [hreported]
    decide +kernel

end CopyTask

end FactoryMigration
