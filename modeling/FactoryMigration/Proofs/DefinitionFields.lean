import FactoryMigration.Proofs.ConversionSteps

set_option autoImplicit false

/-! # Definitions with other fields

Definitions that agree in all fields but some are read alike where those fields are not looked at. The
task of an activity depends on a few fields only (`SameBut.ofDefinition_eq`), and its work on a few
others (`SameBut.workOf_eq`). -/

namespace FactoryMigration

/-- The keys of the fields that a task is read from. -/
def Task.definitionKeys : List String :=
  ["name", "type", "description", "policy", "depends_on", "linked_service_definition"]

/-- The keys of the fields that a task is read from, but for its cluster. -/
def Task.settingsKeys : List String :=
  ["name", "type", "description", "policy", "depends_on"]

/-- The keys of the fields that the work of a task is read from. -/
def Work.definitionKeys : List String :=
  ["notebook_path", "base_parameters", "main_class_name", "parameters", "libraries", "python_file",
    "input_dataset_definitions", "output_dataset_definitions", "source", "sink", "translator",
    "expression", "if_false_activities", "if_true_activities", "items", "activities", "batch_count"]

/-- The definitions have the same fields, apart from those of the given keys. -/
def SameBut (keys : List String) (activity other : Json) : Prop :=
  ∀ key, key ∉ keys → other.get? key = activity.get? key

theorem SameBut.refl (keys : List String) (activity : Json) : SameBut keys activity activity :=
  fun _ _ => rfl

namespace SameBut

variable {keys : List String} {activity other : Json} (h : SameBut keys activity other)

include h

theorem text?_eq {key : String} (hkey : key ∉ keys) : other.text? key = activity.text? key := by
  rw [Json.text?, Json.text?, h key hkey]

theorem filledText?_eq {key : String} (hkey : key ∉ keys) :
    other.filledText? key = activity.filledText? key := by
  rw [Json.filledText?, Json.filledText?, h.text?_eq hkey]

theorem getD_eq {key : String} (hkey : key ∉ keys) : other.getD key = activity.getD key := by
  rw [Json.getD, Json.getD, h key hkey]

theorem items_eq {key : String} (hkey : key ∉ keys) : other.items key = activity.items key := by
  rw [Json.items, Json.items, Json.items?, Json.items?, h key hkey]

theorem fields?_eq {key : String} (hkey : key ∉ keys) : other.fields? key = activity.fields? key := by
  rw [Json.fields?, Json.fields?, h key hkey]

theorem count?_eq {key : String} (hkey : key ∉ keys) : other.count? key = activity.count? key := by
  rw [Json.count?, Json.count?, h key hkey]

theorem requireProperty_eq {key : String} (hkey : key ∉ keys) (kind : ActivityKind) :
    requireProperty other key kind = requireProperty activity key kind := by
  rw [requireProperty, requireProperty, h.filledText?_eq hkey, h.getD_eq hkey]

/-! ## Tasks -/

section

variable (hsettings : ∀ key ∈ Task.settingsKeys, key ∉ keys)

include hsettings

theorem keyOf_eq : Task.keyOf other = Task.keyOf activity := by
  rw [Task.keyOf, Task.keyOf, h.filledText?_eq (hsettings "name" (by decide))]

theorem typeOf_eq : Task.typeOf other = Task.typeOf activity := by
  rw [Task.typeOf, Task.typeOf, h.filledText?_eq (hsettings "type" (by decide))]

theorem scope_eq : Scope.ofActivity other = Scope.ofActivity activity := by
  rw [Scope.ofActivity, Scope.ofActivity, h.filledText?_eq (hsettings "name" (by decide)),
    h.filledText?_eq (hsettings "type" (by decide))]

theorem settings_eq : Task.settings other = Task.settings activity := by
  have hnotes : Task.nameNotes other = Task.nameNotes activity := by
    rw [Task.nameNotes, Task.nameNotes, h.filledText?_eq (hsettings "name" (by decide))]
  rw [Task.settings, Task.settings, hnotes, h.keyOf_eq hsettings,
    h "policy" (hsettings "policy" (by decide)), h "depends_on" (hsettings "depends_on" (by decide)),
    h.typeOf_eq hsettings, h.text?_eq (hsettings "description" (by decide))]

end

theorem ofDefinition_eq (htask : ∀ key ∈ Task.definitionKeys, key ∉ keys) :
    Task.ofDefinition other = Task.ofDefinition activity := by
  have hsettings : ∀ key ∈ Task.settingsKeys, key ∉ keys :=
    fun key hkey => htask key (List.mem_append_left ["linked_service_definition"] hkey)
  have hcluster : Task.clusterOf other = Task.clusterOf activity := by
    rw [Task.clusterOf, Task.clusterOf, h.getD_eq (htask "linked_service_definition" (by decide))]
  rw [Task.ofDefinition_eq_settings, Task.ofDefinition_eq_settings, h.settings_eq hsettings, hcluster]

/-! ## Work -/

section

variable (hwork : ∀ key ∈ Work.definitionKeys, key ∉ keys)

include hwork

theorem ofNotebook_eq (inLoop : Bool) :
    Work.ofNotebook inLoop other = Work.ofNotebook inLoop activity := by
  have hparameters : baseParameters inLoop other = baseParameters inLoop activity := by
    rw [baseParameters, baseParameters, h.fields?_eq (hwork "base_parameters" (by decide))]
  rw [Work.ofNotebook, Work.ofNotebook, h.requireProperty_eq (hwork "notebook_path" (by decide)),
    hparameters]

theorem ofSparkJar_eq : Work.ofSparkJar other = Work.ofSparkJar activity := by
  rw [Work.ofSparkJar, Work.ofSparkJar, h.requireProperty_eq (hwork "main_class_name" (by decide)),
    h.items_eq (hwork "parameters" (by decide)), h.items_eq (hwork "libraries" (by decide))]

theorem ofSparkPython_eq : Work.ofSparkPython other = Work.ofSparkPython activity := by
  rw [Work.ofSparkPython, Work.ofSparkPython, h.requireProperty_eq (hwork "python_file" (by decide)),
    h.items_eq (hwork "parameters" (by decide))]

theorem ofActivity_eq (strict : Bool) :
    Copy.ofActivity strict other = Copy.ofActivity strict activity := by
  have hdataset {key : String} (hkey : key ∉ keys) :
      Copy.firstDataset other key = Copy.firstDataset activity key := by
    rw [Copy.firstDataset, Copy.firstDataset, Copy.missing, Copy.missing, h.items_eq hkey,
      h.getD_eq hkey]
  have hside {key : String} (hkey : key ∉ keys) :
      Copy.side strict other key = Copy.side strict activity key := by
    rw [Copy.side, Copy.side, Copy.missing, Copy.missing, h.getD_eq hkey]
  have hdatasets (source sink : Except Obstacle Dataset) :
      Copy.ofDatasets strict other source sink = Copy.ofDatasets strict activity source sink := by
    rw [Copy.ofDatasets, Copy.ofDatasets, hside (hwork "source" (by decide)),
      hside (hwork "sink" (by decide)), h "translator" (hwork "translator" (by decide))]
  simp only [Copy.ofActivity, hdataset (hwork "input_dataset_definitions" (by decide)),
    hdataset (hwork "output_dataset_definitions" (by decide)), hdatasets]

theorem branchCondition_eq : branchCondition other = branchCondition activity := by
  have hnames : childNames other = childNames activity := by
    rw [childNames, childNames, h.items_eq (hwork "if_false_activities" (by decide)),
      h.items_eq (hwork "if_true_activities" (by decide))]
  rw [branchCondition, branchCondition, h.getD_eq (hwork "expression" (by decide)), hnames]

theorem loopHeader_eq : loopHeader other = loopHeader activity := by
  rw [loopHeader, loopHeader, loopItems, loopItems, h.getD_eq (hwork "items" (by decide)),
    h.items_eq (hwork "activities" (by decide))]

theorem loopNotes_eq : loopNotes other = loopNotes activity := by
  rw [loopNotes, loopNotes, h.items_eq (hwork "activities" (by decide))]

theorem convertWork_eq (strict inLoop : Bool) (task : Task)
    (ifFalse ifTrue body : Conversion (List Activity)) :
    convertWork strict inLoop other task ifFalse ifTrue body
      = convertWork strict inLoop activity task ifFalse ifTrue body := by
  unfold convertWork convertNotebook convertCopy convertBranch convertLoop
  rw [h.ofNotebook_eq hwork, h.ofSparkJar_eq hwork, h.ofSparkPython_eq hwork, h.ofActivity_eq hwork,
    h.branchCondition_eq hwork, h.loopHeader_eq hwork, h.loopNotes_eq hwork,
    h.count?_eq (hwork "batch_count" (by decide))]

/-- The work of a task does not depend on fields that it is not read from. -/
theorem workOf_eq (strict inLoop : Bool) (task : Task) :
    workOf strict inLoop other task = workOf strict inLoop activity task := by
  rw [workOf, workOf, h.convertWork_eq hwork, h.items_eq (hwork "if_false_activities" (by decide)),
    h.items_eq (hwork "if_true_activities" (by decide)), h.items_eq (hwork "activities" (by decide))]

end

end SameBut

end FactoryMigration
