import FactoryMigration.Proofs.ChildDependencies
import FactoryMigration.Proofs.DependencyEntries
import FactoryMigration.Proofs.TaskOrder

set_option autoImplicit false

/-! # Edges on outcomes

Only a direct child of a branch waits for an outcome: for the outcome under which it is listed, of the
condition task of that branch, after all the dependencies it declares. `Activity.Edged` says so of a
tree, whose parents are its inner nodes. In the flat list of a session a parent is found by its
position: `Place.layout` places the activities, from their definitions alone, and every task stands
after the condition task that it waits for (`Session.convertAll_outcomeEdges`). -/

namespace FactoryMigration

/-! ## Edges of single tasks -/

/-- The dependencies with an outcome are the given edge alone, and it is the last of all. -/
structure Task.Awaits (edge : Option Dependency) (task : Task) : Prop where
  only : task.dependsOn.filter (·.outcome.isSome) = edge.toList
  last : ∀ dependency ∈ edge, task.dependsOn.getLast? = some dependency

/-- An activity on its own waits for no outcome. -/
theorem Task.Of.awaits_none {activity : Json} {task : Task} (h : Of activity task) :
    task.Awaits none := by
  have hdeclared := Dependency.outcome_of_ofEntries h.dependsOn
  refine ⟨List.filter_eq_nil_iff.mpr fun dependency hmem => ?_, nofun⟩
  simp [hdeclared dependency hmem]

/-- An edge is added after dependencies without an outcome. -/
theorem Task.Awaits.add {task : Task} (h : task.Awaits none) {edge : Option Dependency}
    (hedge : ∀ dependency ∈ edge, dependency.outcome.isSome) :
    Awaits edge { task with dependsOn := task.dependsOn ++ edge.toList } := by
  have honly := h.only
  cases edge with
  | none => exact ⟨by simpa using honly, nofun⟩
  | some dependency =>
    refine ⟨?_, fun other hother => ?_⟩
    · simp [List.filter_append, hedge dependency rfl, honly]
    · obtain rfl := Option.some.inj hother
      exact List.getLast?_concat

/-! ## Trees -/

/-- The activities of a loop body, that wait for no outcome. -/
def bodyItems (activity : Json) : List (Option Dependency × Json) :=
  (activity.items "activities").map fun item => (none, item)

/-- The children of a branch, that wait for the outcomes of the condition task with the key. -/
def outcomeItems (key : String) (activity : Json) : List (Option Dependency × Json) :=
  (branchChildren activity).map fun child => (some (.onOutcome key child.2), child.1)

/-- The tree stands for the activity, and of the tasks in it the one of each direct child of a branch
waits for the outcome of the child, and each other for no outcome but the given edge for the first. -/
inductive Activity.Edged : Option Dependency → Json → Activity → Prop where
  | single {edge : Option Dependency} {activity : Json} {task : Task} {work : Work}
      (hlabel : task.label = .ofActivity activity) (hclosed : isExpanded activity = false)
      (hedge : task.Awaits edge) :
      Edged edge activity (.single task work)
  | branch {edge : Option Dependency} {activity : Json} {task : Task} {condition : Condition}
      {children : List Activity}
      (hlabel : task.label = .ofActivity activity) (hopen : isExpanded activity = true)
      (hedge : task.Awaits edge)
      (hchildren : List.Forall₂ (fun item child => Edged item.1 item.2 child)
        (outcomeItems task.key activity) children) :
      Edged edge activity (.branch task condition children)
  | loop {edge : Option Dependency} {activity : Json} {task : Task} {items : String}
      {concurrency : Option Nat} {body : List Activity}
      (hlabel : task.label = .ofActivity activity) (hclosed : isExpanded activity = false)
      (hedge : task.Awaits edge)
      (hbody : List.Forall₂ (fun item child => Edged item.1 item.2 child)
        (bodyItems activity) body) :
      Edged edge activity (.loop task items concurrency body)

/-- The edge is added to the task of the tree alone. -/
theorem Activity.Edged.add {activity : Json} {tree : Activity} (h : Edged none activity tree)
    {edge : Option Dependency} (hedge : ∀ dependency ∈ edge, dependency.outcome.isSome) :
    Edged edge activity (tree.addDependency edge) := by
  cases h with
  | single hlabel hclosed hnone => exact .single hlabel hclosed (hnone.add hedge)
  | branch hlabel hopen hnone hchildren => exact .branch hlabel hopen (hnone.add hedge) hchildren
  | loop hlabel hclosed hnone hbody => exact .loop hlabel hclosed (hnone.add hedge) hbody

theorem Child.edged {strict inLoop : Bool} {edge : Option Dependency} {child : Json}
    {converted : Activity} (h : Child strict inLoop edge child converted)
    (hedge : ∀ dependency ∈ edge, dependency.outcome.isSome)
    (hown : ∀ own, (convert strict inLoop child).Yields own → Activity.Edged none child own) :
    Activity.Edged edge child converted := by
  cases h with
  | converted h => exact (hown _ h).add hedge
  | contained h =>
    have hnone : (Task.contained child none).Awaits none := ⟨rfl, nofun⟩
    exact .single rfl (not_isExpanded_of_fault h) (hnone.add hedge)

theorem forall₂_edged {strict inLoop : Bool} {edge : Option Dependency} {items : List Json}
    {children : List Activity} (h : List.Forall₂ (Child strict inLoop edge) items children)
    (hedge : ∀ dependency ∈ edge, dependency.outcome.isSome)
    (hown : ∀ child ∈ items, ∀ own, (convert strict inLoop child).Yields own →
      Activity.Edged none child own) :
    List.Forall₂ (fun item child => Activity.Edged item.1 item.2 child)
      (items.map fun item => (edge, item)) children := by
  rw [List.forall₂_map_left_iff]
  have hboth := (List.forall₂_and_left items children).mpr ⟨hown, h⟩
  exact hboth.imp fun child converted hchild => hchild.2.edged hedge hchild.1

/-- **Activities.** A converted activity is a tree with the edges of its branches. -/
theorem convert_edged {strict inLoop : Bool} {activity : Json} {converted : Activity}
    (h : (convert strict inLoop activity).Yields converted) :
    Activity.Edged none activity converted := by
  induction activity using Json.induction_items generalizing inLoop converted with
  | step activity ih =>
    have hexpanded := (convert_yields h).isExpanded_eq
    cases convert_yields h with
    | single htask hsingle => exact .single htask.label hexpanded htask.awaits_none
    | @branch task _ _ _ htask hkind hcondition hfalse htrue =>
      have houtcome {outcome key : String} {children : List Activity}
          (hchildren : List.Forall₂ (Child strict false (some (.onOutcome task.key outcome)))
            (activity.items key) children) :=
        forall₂_edged hchildren (by rintro _ ⟨⟩; rfl) fun child hmem _ => ih key child hmem
      refine .branch htask.label hexpanded htask.awaits_none ?_
      rw [outcomeItems, branchChildren, List.map_append, List.map_map, List.map_map]
      exact List.rel_append (houtcome hfalse) (houtcome htrue)
    | loop htask hkind hitems hbody =>
      exact .loop htask.label hexpanded htask.awaits_none
        (forall₂_edged hbody nofun fun child hmem _ => ih _ child hmem)

/-! ## Places in the flat list -/

/-- What items become one after another, each from the position after those before it. -/
def inARow {α β : Type} (place : Nat → α → List β) (position : Nat) : List α → List β
  | [] => []
  | item :: items =>
    place position item ++ inARow place (position + (place position item).length) items

theorem inARow_attach {α β : Type} (place : Nat → α → List β) (position : Nat) (items : List α) :
    inARow (fun next (item : { item // item ∈ items }) => place next item.1) position items.attach
      = inARow place position items := by
  suffices h : ∀ (position : Nat) (part : List { item // item ∈ items }),
      inARow (fun next item => place next item.1) position part
        = inARow place position (part.map Subtype.val) by
    rw [h, List.attach_map_subtype_val]
  intro position part
  induction part generalizing position with
  | nil => rfl
  | cons item part ih => rw [inARow, List.map_cons, inARow, ih]

/-- An activity with a task in the flat list. If it is the child of a branch, the position of the
branch in the list, and the outcome that the child is for. -/
structure Place where
  activity : Json
  branch : Option (Nat × String)

namespace Place

/-- The children of an activity at a position that become tasks next to it. -/
def children (position : Nat) (activity : Json) : List Place :=
  if isExpanded activity then
    (branchChildren activity).map fun child => ⟨child.1, some (position, child.2)⟩
  else []

theorem sizeOf_lt_of_mem_children {position : Nat} {activity : Json} {child : Place}
    (h : child ∈ children position activity) : sizeOf child.activity < sizeOf activity := by
  unfold children branchChildren at h
  split at h
  · simp only [List.map_append, List.map_map, List.mem_append, List.mem_map] at h
    rcases h with ⟨item, hitem, rfl⟩ | ⟨item, hitem, rfl⟩
    · exact sizeOf_lt_of_mem_items hitem
    · exact sizeOf_lt_of_mem_items hitem
  · cases h

/-- The places from a position on of an activity and of those that become tasks with it. -/
def layout (position : Nat) (place : Place) : List Place :=
  place :: inARow (fun next (child : { child // child ∈ children position place.activity }) =>
    layout next child.1) (position + 1) (children position place.activity).attach
termination_by sizeOf place.activity
decreasing_by exact sizeOf_lt_of_mem_children child.2

theorem layout_eq (position : Nat) (place : Place) :
    place.layout position =
      place :: inARow layout (position + 1) (children position place.activity) := by
  rw [layout, inARow_attach layout]

/-- The places of the activities of a session. -/
def layoutAll (activities : List Json) : List Place :=
  inARow layout 0 (activities.map fun activity => ⟨activity, none⟩)

/-- The edge of a place after others. The child of a branch waits for its outcome of the condition
task at the position of the branch, and no other activity of the list waits for an outcome. -/
inductive Edge (before : List (Place × Activity)) : Place → Option Dependency → Prop where
  | top (activity : Json) : Edge before ⟨activity, none⟩ none
  | child {position : Nat} {parent : Place} {task : Task} {condition : Condition} {child : Json}
      {outcome : String} (hbranch : before[position]? = some (parent, .branch task condition []))
      (hchild : (child, outcome) ∈ branchChildren parent.activity) :
      Edge before ⟨child, some (position, outcome)⟩ (some (.onOutcome task.key outcome))

/-- What holds of the task at a place, after others: it stands for the activity, it has the edge of
the place, and if it is a loop, its body has the edges of the branches in it. -/
structure Holds (before : List (Place × Activity)) (place : Place) (activity : Activity) : Prop where
  label : activity.task.label = .ofActivity place.activity
  edge : ∃ edge, place.Edge before edge ∧ activity.task.Awaits edge
  body : ∀ task items concurrency body, activity = .loop task items concurrency body →
    List.Forall₂ (fun item child => Activity.Edged item.1 item.2 child)
      (bodyItems place.activity) body

theorem Edge.append {before : List (Place × Activity)} {place : Place} {edge : Option Dependency}
    (h : place.Edge before edge) (more : List (Place × Activity)) :
    place.Edge (before ++ more) edge := by
  cases h with
  | top activity => exact .top activity
  | child hbranch hchild =>
    obtain ⟨hlt, -⟩ := List.getElem?_eq_some_iff.mp hbranch
    exact .child (by rw [List.getElem?_append_left hlt, hbranch]) hchild

/-- The tasks stand at the places, one for one, after others. -/
inductive Laid : List (Place × Activity) → List Place → List Activity → Prop where
  | nil (before : List (Place × Activity)) : Laid before [] []
  | cons {before : List (Place × Activity)} {place : Place} {activity : Activity}
      {places : List Place} {activities : List Activity} (hfirst : place.Holds before activity)
      (hrest : Laid (before ++ [(place, activity)]) places activities) :
      Laid before (place :: places) (activity :: activities)

theorem Laid.length_eq {before : List (Place × Activity)} {places : List Place}
    {activities : List Activity} (h : Laid before places activities) :
    places.length = activities.length := by
  induction h with
  | nil => rfl
  | cons _ _ ih => rw [List.length_cons, List.length_cons, ih]

theorem Laid.length_append_zip {before : List (Place × Activity)} {places : List Place}
    {activities : List Activity} (h : Laid before places activities) :
    (before ++ places.zip activities).length = before.length + places.length := by
  rw [List.length_append, List.length_zip, ← h.length_eq, Nat.min_self]

theorem Laid.append {before : List (Place × Activity)} {places places' : List Place}
    {activities activities' : List Activity} (h : Laid before places activities)
    (h' : Laid (before ++ places.zip activities) places' activities') :
    Laid before (places ++ places') (activities ++ activities') := by
  induction h with
  | nil before => simpa using h'
  | cons hfirst _ ih => exact .cons hfirst (ih (by simpa using h'))

/-- Each task is held to what stands before it. -/
theorem Laid.holds {before : List (Place × Activity)} {places : List Place}
    {activities : List Activity} (h : Laid before places activities)
    {earlier later : List (Place × Activity)} {place : Place} {activity : Activity}
    (hsplit : places.zip activities = earlier ++ (place, activity) :: later) :
    place.Holds (before ++ earlier) activity := by
  induction h generalizing earlier with
  | nil => simp at hsplit
  | cons hfirst _ ih =>
    cases earlier with
    | nil =>
      obtain ⟨⟨rfl, rfl⟩, -⟩ : (_ ∧ _) ∧ _ := by simpa using hsplit
      simpa using hfirst
    | cons pair earlier =>
      rw [List.zip_cons_cons, List.cons_append, List.cons.injEq] at hsplit
      obtain ⟨rfl, hsplit⟩ := hsplit
      simpa using ih hsplit

end Place

namespace Activity

mutual

/-- Flattening lays a tree with its edges out at the places of its activity. -/
theorem Edged.laid : ∀ (tree : Activity) {before : List (Place × Activity)} {place : Place}
    {edge : Option Dependency}, Edged edge place.activity tree → place.Edge before edge →
    Place.Laid before (place.layout before.length) tree.flatten
  | .single task work, before, place, edge, h, hplace => by
    cases h with
    | single hlabel hclosed hedge =>
      rw [Place.layout_eq, Place.children, if_neg (by simp [hclosed]), inARow, flatten]
      refine .cons ⟨hlabel, ⟨edge, hplace, hedge⟩, ?_⟩ (.nil _)
      intro _ _ _ _ hloop
      cases hloop
  | .branch task condition trees, before, place, edge, h, hplace => by
    cases h with
    | branch hlabel hopen hedge hchildren =>
      rw [Place.layout_eq, Place.children, if_pos hopen, flatten]
      refine .cons ⟨hlabel, ⟨edge, hplace, hedge⟩, ?_⟩ ?_
      · intro _ _ _ _ hloop
        cases hloop
      · have hlength : before.length + 1 =
            (before ++ [(place, Activity.branch task condition [])]).length := by
          rw [List.length_append, List.length_singleton]
        rw [hlength]
        refine Edged.laidAll trees hchildren ?_
        rw [outcomeItems, List.forall₂_map_left_iff, List.forall₂_map_right_iff,
          List.forall₂_same]
        rintro ⟨child, outcome⟩ hmem
        exact ⟨rfl, .child List.getElem?_concat_length hmem⟩
  | .loop task items concurrency body, before, place, edge, h, hplace => by
    cases h with
    | loop hlabel hclosed hedge hbody =>
      rw [Place.layout_eq, Place.children, if_neg (by simp [hclosed]), inARow, flatten]
      refine .cons ⟨hlabel, ⟨edge, hplace, hedge⟩, ?_⟩ (.nil _)
      intro _ _ _ _ hloop
      cases hloop
      exact hbody

theorem Edged.laidAll : ∀ (trees : List Activity) {before : List (Place × Activity)}
    {places : List Place} {items : List (Option Dependency × Json)},
    List.Forall₂ (fun item tree => Edged item.1 item.2 tree) items trees →
    List.Forall₂ (fun place item => place.activity = item.2 ∧ place.Edge before item.1)
      places items →
    Place.Laid before (inARow Place.layout before.length places) (flattenAll trees)
  | [], before, places, items, h, hplaces => by
    cases h
    cases hplaces
    exact .nil before
  | tree :: trees, before, places, items, h, hplaces => by
    obtain ⟨item, items, htree, htrees, rfl⟩ := List.forall₂_cons_right_iff.mp h
    obtain ⟨place, places, ⟨hactivity, hplace⟩, hrest, rfl⟩ :=
      List.forall₂_cons_right_iff.mp hplaces
    have hlaid : Place.Laid before (place.layout before.length) tree.flatten :=
      Edged.laid tree (hactivity ▸ htree) hplace
    refine hlaid.append ?_
    rw [← hlaid.length_append_zip]
    exact Edged.laidAll trees htrees
      (hrest.imp fun _ _ hplace => ⟨hplace.1, hplace.2.append _⟩)

end

end Activity

/-! ## Sessions -/

/-- **Edges.** The tasks of a session stand at the places of its activities, one for one. Each waits
for an outcome only if it is the child of a branch, and then last, for the outcome of the child, of
the condition task of that branch, which stands before it; so it is in the bodies of its loops. -/
theorem Session.convertAll_outcomeEdges {session after : Session} {activities : List Json}
    {tasks : List Activity} (h : session.convertAll activities = (.ok tasks, after)) :
    (Place.layoutAll activities).length = tasks.length ∧
      ∀ earlier place task later,
        (Place.layoutAll activities).zip tasks = earlier ++ (place, task) :: later →
          place.Holds earlier task := by
  obtain ⟨trees, htrees, rfl⟩ := exists_trees_of_convertAll h
  have hedged : List.Forall₂ (fun item tree => Activity.Edged item.1 item.2 tree)
      (activities.map fun activity => (none, activity)) trees := by
    rw [List.forall₂_map_left_iff]
    exact htrees.imp fun _ _ => convert_edged
  have hlaid : Place.Laid [] (Place.layoutAll activities) (Activity.flattenAll trees) := by
    refine Activity.Edged.laidAll trees hedged ?_
    rw [List.forall₂_map_left_iff, List.forall₂_map_right_iff, List.forall₂_same]
    exact fun activity _ => ⟨rfl, .top activity⟩
  exact ⟨hlaid.length_eq, fun earlier place task later hsplit => hlaid.holds hsplit⟩

/-! ## Branches in a branch and in a loop -/

/-- A branch with a loop over a branch, and with a branch that waits for the loop. -/
def loopedBranches : Json := .obj [
  ("expression", .obj [("value", .str "@equals(1, 2)")]),
  ("if_false_activities", .arr [
    .obj [
      ("activities", .arr [.obj [
        ("expression", .obj [("value", .str "@less(1, 2)")]),
        ("if_true_activities", .arr [.obj [("name", .str "Leaf"), ("type", .str "Wait")]]),
        ("name", .str "Inner"),
        ("type", .str "IfCondition")]]),
      ("items", .obj [("value", .str "@createArray('a')")]),
      ("name", .str "Each"),
      ("type", .str "ForEach")]]),
  ("if_true_activities", .arr [
    .obj [
      ("depends_on", .arr [.obj [("activity", .str "Each")]]),
      ("expression", .obj [("value", .str "@less(1, 2)")]),
      ("if_false_activities", .arr [.obj [("name", .str "Last"), ("type", .str "Wait")]]),
      ("name", .str "Late"),
      ("type", .str "IfCondition")]]),
  ("name", .str "Check"),
  ("type", .str "IfCondition")]

/-- Three of the tasks are children of branches; the one in the loop is not among them. -/
theorem loopedBranches_outcomeEdges :
    ∃ tasks after, (Session.start false).convertAll [loopedBranches] = (.ok tasks, after) ∧
      tasks.map (fun task => (task.task.key, task.task.dependsOn)) =
        [("Check", []), ("Each", [.onOutcome "Check" "false"]),
          ("Late", [.on "Each", .onOutcome "Check" "true"]),
          ("Last", [.onOutcome "Late" "false"])] ∧
      (Place.layoutAll [loopedBranches]).map (·.branch) =
        [none, some (0, "false"), some (0, "true"), some (2, "false")] ∧
      (Place.layoutAll [loopedBranches]).length = tasks.length ∧
      ∀ earlier place task later,
        (Place.layoutAll [loopedBranches]).zip tasks = earlier ++ (place, task) :: later →
          place.Holds earlier task := by
  have hdependsOn : ((Session.start false).convertAll [loopedBranches]).1.toOption.map
        (fun tasks => tasks.map fun task => (task.task.key, task.task.dependsOn))
      = some [("Check", []), ("Each", [.onOutcome "Check" "false"]),
          ("Late", [.on "Each", .onOutcome "Check" "true"]),
          ("Last", [.onOutcome "Late" "false"])] := by
    decide +kernel
  rcases h : (Session.start false).convertAll [loopedBranches] with ⟨failure | tasks, after⟩
  · rw [h] at hdependsOn
    cases hdependsOn
  · rw [h] at hdependsOn
    exact ⟨tasks, after, rfl, Option.some.inj hdependsOn, by decide +kernel,
      Session.convertAll_outcomeEdges h⟩

end FactoryMigration
