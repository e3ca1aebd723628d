import FactoryMigration.Activity.Basic
import Mathlib.Data.List.Basic

set_option autoImplicit false

/-! # Levels of activity trees

The children of a branch become tasks next to it, and a loop keeps its body. So a tree is an activity
that stands alone, and the children below it (`Activity.flatten_eq`). What holds of an activity whenever
it holds of its children holds of every tree (`Activity.induction_children`). -/

namespace FactoryMigration

namespace Activity

/-- The children that become tasks next to an activity. -/
def children : Activity → List Activity
  | single _ _ => []
  | branch _ _ children => children
  | loop _ _ _ _ => []

/-- The activity without these children. -/
def alone : Activity → Activity
  | single task work => single task work
  | branch task condition _ => branch task condition []
  | loop task items concurrency body => loop task items concurrency body

@[simp]
theorem children_alone (activity : Activity) : activity.alone.children = [] := by
  cases activity <;> rfl

theorem sizeOf_lt_of_mem_children {activity child : Activity} (h : child ∈ activity.children) :
    sizeOf child < sizeOf activity := by
  cases activity with
  | single task work => cases h
  | branch task condition children =>
    have hchild : sizeOf child < sizeOf children := List.sizeOf_lt_of_mem h
    rw [branch.sizeOf_spec]
    omega
  | loop task items concurrency body => cases h

/-- Induction over the levels of a tree. -/
theorem induction_children {motive : Activity → Prop}
    (step : ∀ activity : Activity, (∀ child ∈ activity.children, motive child) → motive activity)
    (activity : Activity) : motive activity :=
  step activity fun child _ => induction_children step child
termination_by sizeOf activity
decreasing_by exact sizeOf_lt_of_mem_children ‹_›

/-! ## Flat lists -/

theorem flattenAll_eq_flatMap (activities : List Activity) :
    flattenAll activities = activities.flatMap flatten := by
  induction activities with
  | nil => rfl
  | cons first rest ih => rw [flattenAll, ih, List.flatMap_cons]

theorem flatten_eq (activity : Activity) :
    activity.flatten = activity.alone :: activity.children.flatMap flatten := by
  cases activity with
  | single task work => rfl
  | branch task condition children => rw [flatten, flattenAll_eq_flatMap]; rfl
  | loop task items concurrency body => rfl

theorem flatten_alone (activity : Activity) : activity.alone.flatten = [activity.alone] := by
  cases activity <;> rfl

/-- Every activity of a flat list stands alone. -/
theorem exists_alone_of_mem_flatten {activity node : Activity} (h : node ∈ activity.flatten) :
    ∃ original : Activity, node = original.alone := by
  induction activity using induction_children with
  | step activity ih =>
    rw [flatten_eq, List.mem_cons, List.mem_flatMap] at h
    rcases h with rfl | ⟨child, hchild, hmem⟩
    · exact ⟨activity, rfl⟩
    · exact ih child hchild hmem

theorem children_of_mem_flatten {activity node : Activity} (h : node ∈ activity.flatten) :
    node.children = [] := by
  obtain ⟨original, rfl⟩ := exists_alone_of_mem_flatten h
  exact children_alone original

/-- A flat list stays as it is when it is flattened again. -/
theorem flatMap_flatten_flatten (activity : Activity) :
    activity.flatten.flatMap flatten = activity.flatten := by
  induction activity using induction_children with
  | step activity ih =>
    rw [flatten_eq, List.flatMap_cons, flatten_alone, List.flatMap_assoc, List.flatMap_congr ih]
    rfl

end Activity

end FactoryMigration
