import FactoryMigration.Proofs.ConvertedActivity
import FactoryMigration.Proofs.TreeLevels

set_option autoImplicit false

/-! # The order of tasks

The tasks of a session stand in the order of a visit of the definitions: every activity has one task,
and a branch that is understood is followed by the tasks of its children, those for a false condition
first (`Session.convertAll_labels`). -/

namespace FactoryMigration

/-- The key and the type tag of a task. -/
structure TaskLabel where
  key : String
  type : String
deriving DecidableEq

def Task.label (task : Task) : TaskLabel := ⟨task.key, task.type⟩

/-- The label of the task that stands for an activity. -/
def TaskLabel.ofActivity (activity : Json) : TaskLabel :=
  ⟨Task.keyOf activity, Task.typeOf activity⟩

/-! ## The visit -/

/-- Whether an entry names an activity and has several outcome conditions. -/
def Dependency.isAmbiguous (entry : Json) : Bool :=
  (entry.filledText? "activity").isSome && 1 < (conditions entry).length

/-- Whether the value of an activity's expression is a condition, and not blank. -/
def hasCondition (activity : Json) : Bool :=
  match (activity.getD "expression").text? "value" with
  | none => false
  | some text => !(Text.trim text.toList).isEmpty && (Condition.parse text).isOk

/-- Whether the children of an activity become tasks next to it. -/
def isExpanded (activity : Json) : Bool :=
  Task.typeOf activity == ActivityKind.ifCondition.tag
    && !(activity.items "depends_on").any Dependency.isAmbiguous && hasCondition activity

/-- The labels of an activity and of the activities that become tasks with it. -/
def visit (activity : Json) : List TaskLabel :=
  .ofActivity activity ::
    if isExpanded activity then
      ((activity.items "if_false_activities").attach.flatMap fun child => visit child.1)
        ++ (activity.items "if_true_activities").attach.flatMap fun child => visit child.1
    else []
termination_by sizeOf activity
decreasing_by all_goals exact sizeOf_lt_of_mem_items child.2

theorem visit_of_isExpanded {activity : Json} (h : isExpanded activity = true) :
    visit activity = .ofActivity activity ::
      ((activity.items "if_false_activities").flatMap visit
        ++ (activity.items "if_true_activities").flatMap visit) := by
  have hattach (items : List Json) :
      (items.attach.flatMap fun child => visit child.1) = items.flatMap visit := by
    rw [← List.flatMap_map, List.attach_map_subtype_val]
  rw [visit, if_pos h, hattach, hattach]

theorem visit_of_not_isExpanded {activity : Json} (h : isExpanded activity = false) :
    visit activity = [.ofActivity activity] := by
  rw [visit, if_neg (by simp [h])]

theorem Dependency.isAmbiguous_iff (entry : Json) :
    isAmbiguous entry = true ↔ ∃ failure, Fault entry failure := by
  unfold isAmbiguous Fault
  rw [Bool.and_eq_true, decide_eq_true_eq, Option.isSome_iff_exists]
  constructor
  · rintro ⟨⟨upstream, hupstream⟩, hmany⟩
    exact ⟨_, upstream, hupstream, hmany, rfl⟩
  · rintro ⟨_, upstream, hupstream, hmany, -⟩
    exact ⟨⟨upstream, hupstream⟩, hmany⟩

/-- The first of several faults is the fault of the list. -/
theorem Failure.exists_ofFirst_iff {α : Type} {fault : α → Failure → Prop} {items : List α} :
    (∃ failure, OfFirst fault items failure) ↔ ∃ item ∈ items, ∃ failure, fault item failure := by
  induction items with
  | nil => simp [not_ofFirst_nil]
  | cons item items ih =>
    simp only [ofFirst_cons, List.exists_mem_cons_iff, ← ih]
    constructor
    · rintro ⟨failure, h | ⟨-, h⟩⟩
      · exact .inl ⟨failure, h⟩
      · exact .inr ⟨failure, h⟩
    · rintro (⟨failure, h⟩ | ⟨failure, h⟩)
      · exact ⟨failure, .inl h⟩
      · by_cases hitem : ∃ other, fault item other
        · obtain ⟨other, hother⟩ := hitem
          exact ⟨other, .inl hother⟩
        · exact ⟨failure, .inr ⟨not_exists.mp hitem, h⟩⟩

theorem Dependency.any_isAmbiguous_iff (entries : List Json) :
    entries.any isAmbiguous = true ↔ ∃ failure, (ofEntries entries).value = .error failure := by
  simp only [ofEntries_error_iff, Failure.exists_ofFirst_iff, List.any_eq_true, isAmbiguous_iff]

theorem hasCondition_iff (activity : Json) :
    hasCondition activity = true ↔ ∃ condition, branchCondition activity = .ok condition := by
  unfold hasCondition branchCondition
  cases (activity.getD "expression").text? "value" with
  | none => simp
  | some text =>
    by_cases hblank : Text.trim text.toList = []
    · simp [Option.filter_some, hblank]
    · cases hparse : Condition.parse text with
      | ok condition => simp [Option.filter_some, hblank, hparse, Except.isOk, Except.toBool]
      | error obstacle =>
        cases childNames activity <;>
          simp [Option.filter_some, hblank, hparse, Except.isOk, Except.toBool]

/-- The children of an activity become tasks next to it exactly if it is a branch whose dependencies
and condition can be read. -/
theorem isExpanded_iff (activity : Json) :
    isExpanded activity = true ↔ Task.typeOf activity = ActivityKind.ifCondition.tag ∧
      (∃ dependencies, (Dependency.ofValue (activity.get? "depends_on")).value = .ok dependencies) ∧
      ∃ condition, branchCondition activity = .ok condition := by
  have hdependencies : (activity.items "depends_on").any Dependency.isAmbiguous = false ↔
      ∃ dependencies, (Dependency.ofValue (activity.get? "depends_on")).value = .ok dependencies := by
    rw [← Bool.not_eq_true, Dependency.any_isAmbiguous_iff]
    show (¬∃ failure, (Dependency.ofValue (activity.get? "depends_on")).value = .error failure) ↔ _
    cases (Dependency.ofValue (activity.get? "depends_on")).value <;> simp
  simp only [isExpanded, Bool.and_eq_true, beq_iff_eq, Bool.not_eq_true', hdependencies,
    hasCondition_iff, and_assoc]

/-- A fault keeps an activity from having children. -/
theorem not_isExpanded_of_fault {activity : Json} {failure : Failure}
    (h : Task.Fault activity failure) : isExpanded activity = false := by
  rw [← Bool.not_eq_true, isExpanded_iff]
  rintro ⟨hbranch, ⟨dependencies, hdependencies⟩, -⟩
  rcases h with h | ⟨-, hcopy, -⟩
  · exact Dependency.not_ofFirst_fault hdependencies failure h
  · rw [hbranch] at hcopy
    exact absurd hcopy (by decide)

/-! ## Labels of flat lists -/

namespace Activity

/-- Whether an activity has been converted to a branch. -/
def isBranch : Activity → Bool
  | branch _ _ _ => true
  | _ => false

/-- The labels of the tasks of an activity, in their order. -/
def labels (activity : Activity) : List TaskLabel :=
  activity.flatten.map fun task => task.task.label

theorem labels_branch (task : Task) (condition : Condition) (children : List Activity) :
    (branch task condition children).labels = task.label :: children.flatMap labels := by
  unfold labels
  rw [flatten, List.map_cons, flattenAll_eq_flatMap, List.map_flatMap]
  rfl

theorem labels_addDependency (dependency : Option Dependency) (activity : Activity) :
    (activity.addDependency dependency).labels = activity.labels := by
  cases activity <;> rfl

/-- In a flat list no branch has children. -/
theorem children_eq_nil_of_mem_flattenAll (activities : List Activity) {task : Task}
    {condition : Condition} {children : List Activity}
    (h : branch task condition children ∈ flattenAll activities) : children = [] := by
  rw [flattenAll_eq_flatMap] at h
  obtain ⟨activity, -, hmem⟩ := List.mem_flatMap.mp h
  exact children_of_mem_flatten hmem

end Activity

/-! ## Labels of conversions -/

theorem Task.Of.label {activity : Json} {task : Task} (h : Of activity task) :
    task.label = .ofActivity activity := by
  unfold Task.label TaskLabel.ofActivity
  rw [h.key, h.type]

/-- The placeholder of a child that failed stands for the child alone. -/
theorem Child.labels {strict inLoop : Bool} {dependency : Option Dependency} {child : Json}
    {converted : Activity} (h : Child strict inLoop dependency child converted)
    (hown : ∀ own, (convert strict inLoop child).Yields own → own.labels = visit child) :
    converted.labels = visit child := by
  cases h with
  | converted h => rw [Activity.labels_addDependency, hown _ h]
  | contained h =>
    rw [visit_of_not_isExpanded (not_isExpanded_of_fault h)]
    rfl

theorem flatMap_labels_of_children {strict inLoop : Bool} {dependency : Option Dependency}
    {items : List Json} {children : List Activity}
    (h : List.Forall₂ (Child strict inLoop dependency) items children)
    (hown : ∀ child ∈ items, ∀ own, (convert strict inLoop child).Yields own →
      own.labels = visit child) :
    children.flatMap Activity.labels = items.flatMap visit := by
  induction h with
  | nil => rfl
  | cons hchild _ ih =>
    rw [List.flatMap_cons, List.flatMap_cons, hchild.labels (hown _ List.mem_cons_self),
      ih fun child hmem => hown child (List.mem_cons_of_mem _ hmem)]

/-- Exactly the activities whose children become tasks next to them are converted to branches. -/
theorem Converted.isExpanded_eq {strict : Bool} {activity : Json} {converted : Activity}
    (h : Converted strict activity converted) : isExpanded activity = converted.isBranch := by
  cases h with
  | single htask hsingle =>
    show isExpanded activity = false
    rw [← Bool.not_eq_true, isExpanded_iff]
    rintro ⟨hbranch, -, condition, hcondition⟩
    obtain ⟨rejection, hrejection⟩ := hsingle hbranch
    rw [hcondition] at hrejection
    cases hrejection
  | branch htask hkind hcondition hfalse htrue =>
    exact (isExpanded_iff activity).mpr ⟨hkind, ⟨_, htask.dependsOn⟩, _, hcondition⟩
  | loop htask hkind hitems hbody =>
    show isExpanded activity = false
    rw [← Bool.not_eq_true, isExpanded_iff]
    rintro ⟨hbranch, -⟩
    rw [hkind] at hbranch
    exact absurd hbranch (by decide)

/-- **Activities.** The tasks of a converted activity are those of its visit. -/
theorem convert_labels {strict inLoop : Bool} {activity : Json} {converted : Activity}
    (h : (convert strict inLoop activity).Yields converted) :
    converted.labels = visit activity := by
  induction activity using Json.induction_items generalizing inLoop converted with
  | step activity ih =>
    have hexpanded := (convert_yields h).isExpanded_eq
    cases convert_yields h with
    | single htask hsingle =>
      rw [visit_of_not_isExpanded hexpanded, ← htask.label]
      rfl
    | branch htask hkind hcondition hfalse htrue =>
      rw [visit_of_isExpanded hexpanded, Activity.labels_branch, List.flatMap_append, htask.label,
        flatMap_labels_of_children hfalse fun child hmem _ => ih _ child hmem,
        flatMap_labels_of_children htrue fun child hmem _ => ih _ child hmem]
    | loop htask hkind hitems hbody =>
      rw [visit_of_not_isExpanded hexpanded, ← htask.label]
      rfl

/-- **Sessions.** The tasks of a session stand in the order of the visit of its activities, and no
branch among them has children left. -/
theorem Session.convertAll_labels {session after : Session} {activities : List Json}
    {tasks : List Activity} (h : session.convertAll activities = (.ok tasks, after)) :
    tasks.map (fun task => task.task.label) = activities.flatMap visit ∧
      ∀ task condition children, .branch task condition children ∈ tasks → children = [] := by
  obtain ⟨trees, htrees, rfl⟩ := exists_trees_of_convertAll h
  refine ⟨?_, fun task condition children hmem =>
    Activity.children_eq_nil_of_mem_flattenAll trees hmem⟩
  rw [Activity.flattenAll_eq_flatMap, List.map_flatMap]
  show trees.flatMap Activity.labels = activities.flatMap visit
  clear h
  induction htrees with
  | nil => rfl
  | cons hfirst _ ih => rw [List.flatMap_cons, List.flatMap_cons, convert_labels hfirst, ih]

/-! ## A branch in a branch -/

/-- A branch with a child that has no name, a branch that is understood, and a branch with a
dependency that is ambiguous. -/
def nestedBranches : Json := .obj [
  ("expression", .obj [("value", .str "@equals(1, 2)")]),
  ("if_false_activities", .arr [
    .obj [("type", .str "Wait")],
    .obj [
      ("expression", .obj [("value", .str "@less(1, 2)")]),
      ("if_true_activities", .arr [.obj [("name", .str "Leaf"), ("type", .str "Wait")]]),
      ("name", .str "Inner"),
      ("type", .str "IfCondition")]]),
  ("if_true_activities", .arr [
    .obj [
      ("depends_on", .arr [.obj [
        ("activity", .str "Inner"),
        ("dependency_conditions", .arr [.str "Succeeded", .str "Failed"])]]),
      ("expression", .obj [("value", .str "@less(1, 2)")]),
      ("if_true_activities", .arr [.obj [("name", .str "Lost"), ("type", .str "Wait")]]),
      ("name", .str "Late"),
      ("type", .str "IfCondition")]]),
  ("name", .str "Outer"),
  ("type", .str "IfCondition")]

/-- The child of the branch whose dependency is ambiguous has no task. -/
theorem nestedBranches_labels :
    ∃ tasks after, (Session.start false).convertAll [nestedBranches] = (.ok tasks, after) ∧
      tasks.map (fun task => task.task.label) =
        [⟨"Outer", "IfCondition"⟩, ⟨Task.unnamed, "Wait"⟩, ⟨"Inner", "IfCondition"⟩,
          ⟨"Leaf", "Wait"⟩, ⟨"Late", "IfCondition"⟩] := by
  have hok : ((Session.start false).convertAll [nestedBranches]).1.isOk = true := by
    decide +kernel
  have hvisit : [nestedBranches].flatMap visit =
      [⟨"Outer", "IfCondition"⟩, ⟨Task.unnamed, "Wait"⟩, ⟨"Inner", "IfCondition"⟩,
        ⟨"Leaf", "Wait"⟩, ⟨"Late", "IfCondition"⟩] := by
    decide +kernel
  rcases h : (Session.start false).convertAll [nestedBranches] with ⟨failure | tasks, after⟩
  · rw [h] at hok
    cases hok
  · exact ⟨tasks, after, rfl, (Session.convertAll_labels h).1.trans hvisit⟩

end FactoryMigration
