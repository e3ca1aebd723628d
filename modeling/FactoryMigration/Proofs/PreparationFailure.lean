import FactoryMigration.Proofs.ConvertedActivity
import FactoryMigration.Proofs.NotebookPaths

set_option autoImplicit false

/-! # Failures of preparations

A converted pipeline can be prepared with the built-in templates: every hole in them has a variable
of the script, and every loop of the pipeline has a body. A preparation with overrides can only fail
for a template that is overridden (`Workflow.ofPipeline_ofDocument`). -/

namespace FactoryMigration

/-- A failure comes from the first step, or from the step after it. -/
theorem Failure.of_bind_error {α β : Type} {first : Except Failure α} {next : α → Except Failure β}
    {failure : Failure} (h : first >>= next = .error failure) :
    first = .error failure ∨ ∃ value, first = .ok value ∧ next value = .error failure := by
  cases first with
  | error failure' => exact .inl (congrArg Except.error (Except.error.inj h))
  | ok value => exact .inr ⟨value, rfl, h⟩

/-! ## Templates -/

namespace Template

/-- The names in the holes of a template. -/
def holes : Template → List String
  | [] => []
  | .text _ :: pieces => holes pieces
  | .hole name :: pieces => name :: holes pieces

/-- Whether variables of the given names are enough for all holes of a template. -/
def suits (template : Template) (names : List String) : Bool :=
  template.holes.all fun name => !needsOperands name && names.contains name

theorem fill_ok_iff (scope : Scope) (template : Template) :
    (∃ text, template.fill scope = .ok text) ↔
      ∀ name ∈ template.holes, (scope.value? name).isSome = true := by
  induction template with
  | nil => simp [fill, holes]
  | cons piece pieces ih =>
    cases piece with
    | text s =>
      rw [holes, ← ih, fill]
      cases fill scope pieces with
      | error missing => simp [Bind.bind, Except.bind]
      | ok rest => simp [Bind.bind, Except.bind, Pure.pure, Except.pure]
    | hole name =>
      rw [holes, List.forall_mem_cons, ← ih, fill]
      cases scope.value? name with
      | none => simp
      | some value =>
        cases fill scope pieces with
        | error missing => simp [Bind.bind, Except.bind]
        | ok rest => simp [Bind.bind, Except.bind, Pure.pure, Except.pure]

theorem Scope.isSome_value?_ofEntries {entries : List (String × String)} {name : String}
    (hoperands : needsOperands name = false) (hmem : name ∈ entries.map Prod.fst) :
    ((Scope.ofEntries entries).value? name).isSome = true := by
  have hfound : (entries.lookup name).isSome = true := by
    rw [List.lookup_isSome_iff]
    obtain ⟨entry, hentry, rfl⟩ := List.mem_map.mp hmem
    exact ⟨entry, hentry, beq_self_eq_true _⟩
  unfold Scope.value? Scope.ofEntries
  rw [hoperands]
  cases operation? name with
  | some text => rfl
  | none =>
    by_cases hthis : name = "this"
    · simp [hthis]
    · simpa [hthis] using hfound

theorem fill_of_suits {template : Template} {entries : List (String × String)}
    (h : template.suits (entries.map Prod.fst) = true) :
    ∃ text, template.fill (.ofEntries entries) = .ok text := by
  rw [fill_ok_iff]
  intro name hname
  have hsuits := List.all_eq_true.mp h name hname
  rw [Bool.and_eq_true, Bool.not_eq_true', List.contains_iff_mem] at hsuits
  exact Scope.isSome_value?_ofEntries hsuits.1 hsuits.2

end Template

namespace TemplateLibrary

/-- A file stands in the place of the template. -/
def Overrides (library : TemplateLibrary) (name : String) : Prop :=
  ∃ path file, library.find? name = some (.override path file)

/-- The failure is that of an overridden template. -/
def Fails (library : TemplateLibrary) (failure : Failure) : Prop :=
  ∃ name message, failure = .template name message ∧ library.Overrides name

theorem not_builtIn_fails (failure : Failure) : ¬builtIn.Fails failure := by
  rintro ⟨name, message, -, path, file, hfind⟩
  unfold find? builtIn at hfind
  cases hlookup : Template.builtIn.lookup name <;> simp [hlookup] at hfind

/-- A built-in template that is not overridden is found. -/
theorem find?_eq_or_overrides (library : TemplateLibrary) {name : String} {template : Template}
    (hlookup : Template.builtIn.lookup name = some template) :
    library.find? name = some (.builtIn template) ∨ library.Overrides name := by
  unfold Overrides find?
  rw [hlookup]
  cases hdirectory : library.directory with
  | none => exact .inl rfl
  | some directory =>
    cases hfile : library.override? name with
    | none => exact .inl rfl
    | some file => exact .inr ⟨_, file, rfl⟩

theorem error_of_load {library : TemplateLibrary} {name : String} {failure : Failure}
    (h : library.load name = .error failure) : ∃ message, failure = .template name message := by
  unfold load at h
  split at h
  · exact ⟨_, (Except.error.inj h).symm⟩
  · cases h
  · exact ⟨_, (Except.error.inj h).symm⟩
  · split at h
    · cases h
    · exact ⟨_, (Except.error.inj h).symm⟩

theorem error_of_render {library : TemplateLibrary} {name : String} {scope : Template.Scope}
    {failure : Failure} (h : library.render name scope = .error failure) :
    ∃ message, failure = .template name message := by
  rcases Failure.of_bind_error h with hload | ⟨template, -, hfill⟩
  · exact error_of_load hload
  · split at hfill
    · cases hfill
    · exact ⟨_, (Except.error.inj hfill).symm⟩

/-- Rendering a built-in template with all its variables can only fail if it is overridden. -/
theorem fails_of_render {library : TemplateLibrary} {name : String} {template : Template}
    {entries : List (String × String)} {failure : Failure}
    (hlookup : Template.builtIn.lookup name = some template)
    (hsuits : template.suits (entries.map Prod.fst) = true)
    (h : library.render name (.ofEntries entries) = .error failure) : library.Fails failure := by
  rcases library.find?_eq_or_overrides hlookup with hfind | hoverrides
  · obtain ⟨text, htext⟩ := Template.fill_of_suits hsuits
    have hload : library.load name = .ok template := by rw [load, hfind]
    simp [render, hload, htext, Bind.bind, Except.bind] at h
  · obtain ⟨message, rfl⟩ := error_of_render h
    exact ⟨name, message, rfl, hoverrides⟩

end TemplateLibrary

/-! ## Scripts -/

namespace Script

theorem fails_of_renderExpression {library : TemplateLibrary} {name : String} {template : Template}
    {unsupported failure : Failure} {entries : List (String × String)}
    (hlookup : Template.builtIn.lookup name = some template)
    (hsuits : template.suits (entries.map Prod.fst) = true)
    (h : renderExpression library name unsupported entries = .error failure) :
    library.Fails failure := by
  have hfound : ¬(library.find? name).isNone = true := by
    rcases library.find?_eq_or_overrides hlookup with hfind | ⟨path, file, hfind⟩
    · simp [hfind]
    · simp [hfind]
  unfold renderExpression at h
  rw [if_neg hfound] at h
  rcases Failure.of_bind_error h with hrender | ⟨text, -, htrim⟩
  · exact TemplateLibrary.fails_of_render hlookup hsuits hrender
  · cases htrim

theorem fails_of_readExpression {library : TemplateLibrary} {name : String} {dataset : Dataset}
    {failure : Failure} (h : readExpression library name dataset = .error failure) :
    library.Fails failure := by
  -- which template it is, and that its holes have variables, is computed
  cases dataset with
  | file file => exact fails_of_renderExpression rfl rfl h
  | delta table => exact fails_of_renderExpression rfl rfl h
  | sql table => exact fails_of_renderExpression rfl rfl h

theorem fails_of_writeExpression {library : TemplateLibrary} {name : String} {dataset : Dataset}
    {failure : Failure} (h : writeExpression library name dataset = .error failure) :
    library.Fails failure := by
  cases dataset with
  | file file =>
    -- each format of files has a template of its own
    obtain ⟨_, format, _, _, _, _⟩ := file
    cases format with
    | avro => exact fails_of_renderExpression rfl rfl h
    | csv => exact fails_of_renderExpression rfl rfl h
    | json => exact fails_of_renderExpression rfl rfl h
    | orc => exact fails_of_renderExpression rfl rfl h
    | parquet => exact fails_of_renderExpression rfl rfl h
  | delta table => exact fails_of_renderExpression rfl rfl h
  | sql table => exact fails_of_renderExpression rfl rfl h

theorem Generator.fails_of_copyNotebook {generator : Generator} {copy : Copy} {failure : Failure}
    (h : (generator.copyNotebook copy).value = .error failure) :
    generator.library.Fails failure := by
  unfold copyNotebook at h
  cases hread : readExpression generator.library (Names.ofCopy copy).source copy.source with
  | error failure' =>
    simp only [hread] at h
    obtain rfl : failure' = failure := Except.error.inj h
    exact fails_of_readExpression hread
  | ok read =>
    simp only [hread] at h
    rcases Failure.of_bind_error h with hwrite | ⟨write, -, hrender⟩
    · exact fails_of_writeExpression hwrite
    · exact TemplateLibrary.fails_of_render rfl rfl hrender

theorem Generator.fails_of_declarativeNotebook {generator : Generator} {copy : Copy}
    {failure : Failure} (h : (generator.declarativeNotebook copy).value = .error failure) :
    generator.library.Fails failure := by
  unfold declarativeNotebook at h
  cases hread : readExpression generator.library (Names.ofCopy copy).source copy.source with
  | error failure' =>
    simp only [hread] at h
    obtain rfl : failure' = failure := Except.error.inj h
    exact fails_of_readExpression hread
  | ok read =>
    simp only [hread] at h
    exact TemplateLibrary.fails_of_render rfl rfl h

end Script

theorem PreparationOptions.fails_of_script {options : PreparationOptions} {copy : Copy}
    {failure : Failure} (h : (options.script copy).value = .error failure) :
    options.library.Fails failure := by
  unfold script at h
  split at h
  · exact Script.Generator.fails_of_declarativeNotebook h
  · exact Script.Generator.fails_of_copyNotebook h

/-! ## Bodies of loops -/

namespace Activity

mutual

/-- Every loop in the tree has a body. -/
def HasBodies : Activity → Prop
  | single _ _ => True
  | branch _ _ children => HasBodiesAll children
  | loop _ _ _ body => body ≠ [] ∧ HasBodiesAll body

/-- Every loop in the trees has a body. -/
def HasBodiesAll : List Activity → Prop
  | [] => True
  | first :: rest => first.HasBodies ∧ HasBodiesAll rest

end

theorem hasBodiesAll_iff (activities : List Activity) :
    HasBodiesAll activities ↔ ∀ activity ∈ activities, activity.HasBodies := by
  induction activities with
  | nil => simp [HasBodiesAll]
  | cons first rest ih => rw [HasBodiesAll, ih, List.forall_mem_cons]

theorem hasBodies_addDependency (dependency : Option Dependency) {activity : Activity}
    (h : activity.HasBodies) : (activity.addDependency dependency).HasBodies := by
  cases activity <;> exact h

theorem hasBodiesAll_append {xs ys : List Activity} (hxs : HasBodiesAll xs)
    (hys : HasBodiesAll ys) : HasBodiesAll (xs ++ ys) := by
  rw [hasBodiesAll_iff] at hxs hys ⊢
  exact List.forall_mem_append.mpr ⟨hxs, hys⟩

mutual

theorem hasBodiesAll_flatten : ∀ {activity : Activity}, activity.HasBodies →
    HasBodiesAll activity.flatten
  | single _ _, h => ⟨h, trivial⟩
  | branch _ _ _, h => ⟨trivial, hasBodiesAll_flattenAll h⟩
  | loop _ _ _ _, h => ⟨h, trivial⟩

theorem hasBodiesAll_flattenAll : ∀ {activities : List Activity}, HasBodiesAll activities →
    HasBodiesAll (flattenAll activities)
  | [], _ => trivial
  | _ :: _, h => hasBodiesAll_append (hasBodiesAll_flatten h.1) (hasBodiesAll_flattenAll h.2)

end

end Activity

theorem hasBodiesAll_of_children {strict inLoop : Bool} {dependency : Option Dependency}
    {items : List Json} {children : List Activity}
    (h : List.Forall₂ (Child strict inLoop dependency) items children)
    (hown : ∀ child ∈ items, ∀ own, (convert strict inLoop child).Yields own → own.HasBodies) :
    Activity.HasBodiesAll children := by
  induction h with
  | nil => trivial
  | cons hchild _ ih =>
    refine ⟨?_, ih fun child hmem => hown child (List.mem_cons_of_mem _ hmem)⟩
    cases hchild with
    | converted h => exact Activity.hasBodies_addDependency _ (hown _ List.mem_cons_self _ h)
    | contained _ => trivial

/-- **Activities.** A loop that is converted has a body, at any depth. -/
theorem convert_hasBodies {strict inLoop : Bool} {activity : Json} {converted : Activity}
    (h : (convert strict inLoop activity).Yields converted) : converted.HasBodies := by
  induction activity using Json.induction_items generalizing inLoop converted with
  | step activity ih =>
    cases convert_yields h with
    | single htask hsingle => trivial
    | branch htask hkind hcondition hfalse htrue =>
      exact Activity.hasBodiesAll_append
        (hasBodiesAll_of_children hfalse fun child hmem _ => ih _ child hmem)
        (hasBodiesAll_of_children htrue fun child hmem _ => ih _ child hmem)
    | loop htask hkind hitems hbody =>
      refine ⟨?_, hasBodiesAll_of_children hbody fun child hmem _ => ih _ child hmem⟩
      rintro rfl
      exact hitems (List.forall₂_nil_right_iff.mp hbody)

theorem Pipeline.hasBodies {strict : Bool} {document : Json} {trigger : Option Json}
    {pipeline : Pipeline} (h : ofDocument strict document trigger = .ok pipeline) :
    Activity.HasBodiesAll (Activity.flattenAll pipeline.tasks) := by
  obtain ⟨trees, htrees, htasks⟩ := exists_trees_of_ofDocument h
  have hbodies : Activity.HasBodiesAll trees := by
    generalize document.items "activities" = activities at htrees
    clear htasks
    induction htrees with
    | nil => trivial
    | cons hfirst _ ih => exact ⟨convert_hasBodies hfirst, ih⟩
  rw [htasks]
  exact Activity.hasBodiesAll_flattenAll (Activity.hasBodiesAll_flattenAll hbodies)

/-! ## The run of a preparation -/

namespace Preparation

variable {α β : Type} {options : PreparationOptions}

/-- The preparation fails only for a template that is overridden. -/
def FailsBy (library : TemplateLibrary) (preparation : Preparation α) : Prop :=
  ∀ before failure, preparation before = .error failure → library.Fails failure

theorem failsBy_done (library : TemplateLibrary) (value : α) : FailsBy library (done value) := by
  intro before failure h
  cases h

/-- The second of two preparations only has to be safe for what the first can give. -/
theorem FailsBy.bind {library : TemplateLibrary} {first : Preparation α}
    {next : α → Preparation β} (hfirst : FailsBy library first)
    (hnext : ∀ before value after, first before = .ok (value, after) →
      FailsBy library (next value)) : FailsBy library (first >>= next) := by
  intro before failure h
  simp only [Bind.bind, andThen] at h
  split at h
  · rename_i failure' hfailed
    cases h
    exact hfirst _ _ hfailed
  · rename_i value after hdone
    exact hnext _ _ _ hdone _ _ h

theorem FailsBy.inScope {library : TemplateLibrary} {scope : Scope} {body : Preparation α}
    (hbody : FailsBy library body) : FailsBy library (inScope scope body) := by
  intro before failure h
  unfold Preparation.inScope at h
  split at h
  · rename_i failure' hfailed
    cases h
    exact hbody _ _ hfailed
  · cases h

theorem failsBy_copy (task : Task) (body : Copy) :
    FailsBy options.library (copy options task body) := by
  intro before failure h
  simp only [copy] at h
  split at h
  · rename_i failure' hscript
    cases h
    exact PreparationOptions.fails_of_script hscript
  · split at h
    · cases h
    · cases h

theorem failsBy_work (task : Task) (body : Work) :
    FailsBy options.library (work options task body) := by
  cases body with
  | copy body => exact failsBy_copy task body
  | _ => exact failsBy_done _ _

mutual

/-- **Activities.** The preparation of an activity whose loops have bodies fails only for a template
that is overridden. -/
theorem failsBy_activity : ∀ (item : Activity), item.HasBodies →
    FailsBy options.library (activity options item)
  | .single task body, _ => by
    rw [activity]
    exact .inScope (.bind (failsBy_work task body) fun _ _ _ _ => failsBy_done _ _)
  | .branch task condition children, _ => by
    rw [activity]
    exact .inScope (failsBy_done _ _)
  | .loop task items concurrency body, h => by
    rw [activity]
    refine .inScope (.bind (failsBy_activities body h.2) fun before tasks after hbody => ?_)
    -- there is a task for each activity of the body, so there is a first one
    have hlength := (activities_adds body hbody).2.length_eq
    cases tasks with
    | nil => exact absurd (List.length_eq_zero_iff.mp hlength) h.1
    | cons first rest => exact failsBy_done _ _

theorem failsBy_activities : ∀ (items : List Activity), Activity.HasBodiesAll items →
    FailsBy options.library (activities options items)
  | [], _ => by
    rw [activities]
    exact failsBy_done _ _
  | first :: rest, h => by
    rw [activities]
    refine .bind (failsBy_activity first h.1) fun _ _ _ _ => ?_
    exact .bind (failsBy_activities rest h.2) fun _ _ _ _ => failsBy_done _ _

end

end Preparation

theorem Workflow.fails_of_ofPipeline {options : PreparationOptions} {pipeline : Pipeline}
    {failure : Failure} (hbodies : Activity.HasBodiesAll (Activity.flattenAll pipeline.tasks))
    (h : ofPipeline options pipeline = .error failure) : options.library.Fails failure := by
  rcases Failure.of_bind_error h with hactivities | ⟨prepared, -, hdone⟩
  · exact Preparation.failsBy_activities _ hbodies _ _ hactivities
  · cases hdone

/-- **Converted pipelines.** What a document is converted to can be prepared with the built-in
templates, whatever the other options; with overrides it fails only for a template that is
overridden. -/
theorem Workflow.ofPipeline_ofDocument {strict : Bool} {document : Json} {trigger : Option Json}
    {pipeline : Pipeline} (h : Pipeline.ofDocument strict document trigger = .ok pipeline)
    (options : PreparationOptions) :
    (∃ workflow, ofPipeline { options with library := .builtIn } pipeline = .ok workflow) ∧
      ∀ failure, ofPipeline options pipeline = .error failure →
        ∃ name message, failure = .template name message ∧ options.library.Overrides name := by
  have hbodies := Pipeline.hasBodies h
  refine ⟨?_, fun failure => fails_of_ofPipeline hbodies⟩
  cases hprepared : ofPipeline { options with library := .builtIn } pipeline with
  | ok workflow => exact ⟨workflow, rfl⟩
  | error failure =>
    exact absurd (fails_of_ofPipeline hbodies hprepared) (TemplateLibrary.not_builtIn_fails failure)

/-! ## A copy in a loop -/

/-- A copy of a table of a SQL server of its own into a file. -/
def archiveCopy (table : String) : Json := .obj [
  ("input_dataset_definitions", .arr [.obj [
    ("linked_service_definition", .obj [("name", .str (table ++ "_server"))]),
    ("name", .str table),
    ("properties", .obj [
      ("schema", .str "sales"),
      ("table", .str table),
      ("type", .str "AzureSqlTable")])]]),
  ("name", .str ("archive_" ++ table)),
  ("output_dataset_definitions", .arr [.obj [
    ("linked_service_definition", .obj [
      ("name", .str "lake"),
      ("properties", .obj [("url", .str
        "DefaultEndpointsProtocol=https;AccountName=lake01;EndpointSuffix=core.windows.net")])]),
    ("name", .str "archive"),
    ("properties", .obj [
      ("location", .obj [("container", .str "raw"), ("file_name", .str (table ++ ".parquet"))]),
      ("type", .str "Parquet")])]]),
  ("sink", .obj [("type", .str "ParquetSink")]),
  ("source", .obj [("type", .str "AzureSqlSource")]),
  ("type", .str "Copy")]

/-- A document of one loop with the given body. -/
def loopOver (body : List Json) : Json := .obj [
  ("activities", .arr [.obj [
    ("activities", .arr body),
    ("items", .obj [("value", .str "@createArray('a', 'b')")]),
    ("name", .str "Each"),
    ("type", .str "ForEach")]])]

/-- Options with a template for SQL tables whose hole is not closed. -/
def openHole : PreparationOptions where
  filesToDeltaSinks := none
  secretScope := PreparationOptions.defaultSecretScope
  notebookRoot := PreparationOptions.defaultNotebookRoot
  library :=
    { directory := some "templates"
      override? := fun name =>
        if name = "read-sqlserver" then some (.text "\x7b\x7bname") else none }

/-- The loop is prepared with the built-in templates, and the template that overrides one of them
fails. -/
theorem archiveCopy_prepared :
    ∃ pipeline, Pipeline.ofDocument false (loopOver [archiveCopy "orders"]) none = .ok pipeline ∧
      (∃ workflow,
        Workflow.ofPipeline { openHole with library := .builtIn } pipeline = .ok workflow) ∧
      ∃ name message, Workflow.ofPipeline openHole pipeline = .error (.template name message) ∧
        openHole.library.Overrides name := by
  have hfails : ((Pipeline.ofDocument false (loopOver [archiveCopy "orders"]) none).toOption.map
      fun pipeline => (Workflow.ofPipeline openHole pipeline).isOk) = some false := by
    decide +kernel
  cases hpipeline : Pipeline.ofDocument false (loopOver [archiveCopy "orders"]) none with
  | error failure =>
    rw [hpipeline] at hfails
    cases hfails
  | ok pipeline =>
    have hboth := Workflow.ofPipeline_ofDocument hpipeline openHole
    refine ⟨pipeline, rfl, hboth.1, ?_⟩
    rw [hpipeline] at hfails
    cases hprepared : Workflow.ofPipeline openHole pipeline with
    | ok workflow => simp [Except.toOption, hprepared, Except.isOk, Except.toBool] at hfails
    | error failure =>
      obtain ⟨name, message, rfl, hoverrides⟩ := hboth.2 failure hprepared
      exact ⟨name, message, rfl, hoverrides⟩

end FactoryMigration
