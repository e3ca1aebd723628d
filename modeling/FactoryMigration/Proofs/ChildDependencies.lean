import FactoryMigration.Proofs.ConvertedActivity

set_option autoImplicit false

/-! # Dependencies of branch children

The task of a branch child has the dependencies that the child declares, in order, and then the edge
on the outcome of the branch; the task of an activity in a loop body has the declared ones. The
exception is a copy without a usable linked service: the placeholder that contains it has none of
the declared dependencies, though they could be read (`convert_dependsOn`). -/

namespace FactoryMigration

/-- Whether an activity is a copy of a dataset without a usable linked service. -/
def isUnresolvedCopy (activity : Json) : Bool :=
  Task.typeOf activity == ActivityKind.copy.tag && !(Copy.ofActivity false activity).isOk

/-- What is left of the dependencies that a child declares. -/
def keptDependencies (child : Json) (declared : List Dependency) : List Dependency :=
  if isUnresolvedCopy child then [] else declared

/-- The task of a child whose dependencies can be read has what is left of them, in order, and then
the given edge. -/
def Activity.DependsAs (edge : Option Dependency) (child : Json) (converted : Activity) : Prop :=
  ∀ declared, (Dependency.ofValue (child.get? "depends_on")).value = .ok declared →
    converted.task.dependsOn = keptDependencies child declared ++ edge.toList

/-- The children of a branch with the outcomes they wait for, in the order of their tasks. -/
def branchChildren (activity : Json) : List (Json × String) :=
  (activity.items "if_false_activities").map (·, "false")
    ++ (activity.items "if_true_activities").map (·, "true")

/-- Once its dependencies are read, the fault of an activity is that of an unresolved copy. -/
theorem exists_fault_iff_isUnresolvedCopy {activity : Json} {declared : List Dependency}
    (h : (Dependency.ofValue (activity.get? "depends_on")).value = .ok declared) :
    (∃ failure, Task.Fault activity failure) ↔ isUnresolvedCopy activity = true := by
  have hdependencies := Dependency.not_ofFirst_fault h
  have hcopy : (Copy.ofActivity false activity).isOk = false ↔
      ∃ failure, Copy.ofActivity false activity = .error failure := by
    cases Copy.ofActivity false activity <;> simp [Except.isOk, Except.toBool]
  simp only [isUnresolvedCopy, Bool.and_eq_true, beq_iff_eq, Bool.not_eq_true', hcopy,
    Copy.ofActivity_error_iff]
  constructor
  · rintro ⟨failure, hfault | ⟨-, hkind, hfault⟩⟩
    · exact absurd hfault (hdependencies failure)
    · exact ⟨hkind, failure, hfault⟩
  · rintro ⟨hkind, failure, hfault⟩
    exact ⟨failure, .inr ⟨hdependencies, hkind, hfault⟩⟩

theorem Converted.task_of {strict : Bool} {activity : Json} {converted : Activity}
    (h : Converted strict activity converted) : Task.Of activity converted.task := by
  cases h with
  | single htask => exact htask
  | branch htask => exact htask
  | loop htask => exact htask

theorem Activity.dependsOn_addDependency (edge : Option Dependency) (activity : Activity) :
    (activity.addDependency edge).task.dependsOn = activity.task.dependsOn ++ edge.toList := by
  cases activity <;> rfl

theorem Child.dependsAs {strict inLoop : Bool} {edge : Option Dependency} {child : Json}
    {converted : Activity} (h : Child strict inLoop edge child converted) :
    converted.DependsAs edge child := by
  intro declared hdeclared
  have hfault := exists_fault_iff_isUnresolvedCopy hdeclared
  unfold keptDependencies
  cases h with
  | converted h =>
    have hresolved : ¬isUnresolvedCopy child = true := by
      rw [← hfault]
      rintro ⟨failure, hfailure⟩
      exact not_fault_of_convert_yields h failure hfailure
    have hown := (convert_yields h).task_of.dependsOn
    rw [hdeclared] at hown
    rw [if_neg hresolved, Activity.dependsOn_addDependency, Except.ok.inj hown]
  | contained h =>
    rw [if_pos (hfault.mp ⟨_, h⟩)]
    rfl

/-- **Children.** The tasks of a branch's children have their declared dependencies and then the edge
on their outcome, and those of a loop body have their declared dependencies, except that an unresolved
copy has lost them. -/
theorem convert_dependsOn {strict inLoop : Bool} {activity : Json} {before after : Memory}
    {converted : Activity} (h : convert strict inLoop activity before = (.ok converted, after)) :
    (∀ task condition children, converted = .branch task condition children →
      List.Forall₂
        (fun child => Activity.DependsAs (some (.onOutcome (Task.keyOf activity) child.2)) child.1)
        (branchChildren activity) children) ∧
    ∀ task items concurrency body, converted = .loop task items concurrency body →
      List.Forall₂ (Activity.DependsAs none) (activity.items "activities") body := by
  have hconverted : Converted strict activity converted := convert_yields ⟨before, after, h⟩
  constructor
  · rintro task condition children rfl
    cases hconverted with
    | branch htask hkind hcondition hfalse htrue =>
      rw [htask.key] at hfalse htrue
      have houtcome {outcome key : String} {tasks : List Activity}
          (hchildren : List.Forall₂
            (Child strict false (some (.onOutcome (Task.keyOf activity) outcome)))
            (activity.items key) tasks) :
          List.Forall₂
            (fun child => Activity.DependsAs (some (.onOutcome (Task.keyOf activity) child.2)) child.1)
            ((activity.items key).map (·, outcome)) tasks := by
        rw [List.forall₂_map_left_iff]
        exact hchildren.imp fun _ _ => Child.dependsAs
      exact List.rel_append (houtcome hfalse) (houtcome htrue)
  · rintro task items concurrency body rfl
    cases hconverted with
    | loop htask hkind hitems hbody => exact hbody.imp fun _ _ => Child.dependsAs

/-! ## An unresolved copy in a branch -/

/-- A copy that waits for another task, of a dataset without a linked service. -/
def unresolvedCopy : Json := .obj [
  ("depends_on", .arr [.obj [("activity", .str "First")]]),
  ("input_dataset_definitions", .arr [
    .obj [("name", .str "orders"), ("properties", .obj [("type", .str "Parquet")])]]),
  ("name", .str "Second"),
  ("type", .str "Copy")]

/-- A branch with a notebook and, after it, the copy. -/
def unresolvedBranch : Json := .obj [
  ("expression", .obj [("value", .str "@equals(1, 2)")]),
  ("if_true_activities", .arr [
    .obj [
      ("name", .str "First"),
      ("notebook_path", .str "/first"),
      ("type", .str "DatabricksNotebook")],
    unresolvedCopy]),
  ("name", .str "Check"),
  ("type", .str "IfCondition")]

/-- The copy is contained by a placeholder that waits for the branch alone. -/
theorem unresolvedBranch_dependsOn :
    ∃ task condition children after,
      convert false false unresolvedBranch ⟨.empty, .empty⟩
        = (.ok (.branch task condition children), after) ∧
      children.map (fun child => child.task.dependsOn) =
        [[.onOutcome "Check" "true"], [.onOutcome "Check" "true"]] := by
  have hbranch : (match (convert false false unresolvedBranch ⟨.empty, .empty⟩).1 with
      | .ok (.branch ..) => true
      | _ => false) = true := by
    decide +kernel
  rcases h : convert false false unresolvedBranch ⟨.empty, .empty⟩ with ⟨failure | converted, after⟩
  · rw [h] at hbranch
    cases hbranch
  · cases converted with
    | branch task condition children =>
      have hchildren := (convert_dependsOn h).1 task condition children rfl
      refine ⟨task, condition, children, after, rfl, ?_⟩
      cases hchildren with
      | cons hfirst hrest =>
        cases hrest with
        | cons hsecond hrest =>
          cases hrest
          have hlost : keptDependencies unresolvedCopy [.on "First"] = [] := by decide +kernel
          rw [List.map_cons, List.map_cons, hfirst [] rfl, hsecond [.on "First"] rfl, hlost]
          rfl
    | _ =>
      rw [h] at hbranch
      cases hbranch

/-- The dependency of the copy can be read, and its task has lost it. -/
theorem unresolvedCopy_lost :
    (Dependency.ofValue (unresolvedCopy.get? "depends_on")).value.toOption = some [.on "First"] ∧
      ((Session.start false).convertAll [unresolvedBranch]).1.toOption.map
          (fun tasks => tasks.map fun task => (task.task.key, task.task.dependsOn))
        = some [("Check", []), ("First", [.onOutcome "Check" "true"]),
            ("Second", [.onOutcome "Check" "true"])] := by
  decide +kernel

end FactoryMigration
