import FactoryMigration.Activity.Basic
import FactoryMigration.Activity.Conversion
import FactoryMigration.Expression.ItemList

set_option autoImplicit false

/-! # Converting activity definitions

Each activity is converted with its own scope, so that its diagnostics carry its name and type. What
has no counterpart is rejected: it becomes a placeholder, or in strict mode a failure. An activity
of a branch or loop body that fails is contained by a placeholder of its own, unless strict mode
forbids placeholders for that failure; a top-level activity that fails ends the conversion. -/

namespace FactoryMigration

/-- Why the work of an activity has no counterpart: a property that cannot be carried over, or an
expression that is not understood. -/
inductive Rejection where
  | value (property : String) (reason : Obstacle)
  | expression (property : String) (reason : Obstacle)

/-- The scope of an activity definition; an activity without a type has a type tag of its own. -/
def Scope.ofActivity (activity : Json) : Scope :=
  ⟨activity.filledText? "name", some ((activity.filledText? "type").getD Task.untyped)⟩

/-- The key of the task of an activity. -/
def Task.keyOf (activity : Json) : String :=
  (activity.filledText? "name").getD Task.unnamed

/-- The type tag of an activity. -/
def Task.typeOf (activity : Json) : String :=
  (activity.filledText? "type").getD Task.untyped

/-! ## Task settings -/

/-- The notes on an activity without a name. -/
def Task.nameNotes (activity : Json) : List Note :=
  match activity.filledText? "name" with
  | some _ => []
  | none =>
    [⟨"name", "No activity name in source definition, setting to " ++ Task.unnamed⟩]

/-- The cluster of an activity with a linked service definition; one that cannot be read is
noted. -/
def Task.clusterOf (activity : Json) : Noted (Option Cluster) :=
  let definition := activity.getD "linked_service_definition"
  if definition.isFilledObject then
    match Cluster.ofDefinition definition with
    | .ok cluster => .quiet (some cluster)
    | .error obstacle => ⟨none, [⟨"linked_service_definition", obstacle.message⟩]⟩
  else .quiet none

/-- Reads what every task has. It fails if a dependency is ambiguous. -/
def Task.ofDefinition (activity : Json) : Conversion Task := do
  Conversion.record (nameNotes activity)
  let policy ← Conversion.policy (keyOf activity) (activity.get? "policy")
  let dependencies ← Conversion.ofNoted (Dependency.ofValue (activity.get? "depends_on"))
  let dependsOn ← Conversion.ofExcept dependencies
  let cluster ← Conversion.ofNoted (clusterOf activity)
  return {
    key := keyOf activity
    type := typeOf activity
    description := activity.text? "description"
    policy := policy
    dependsOn := dependsOn
    cluster := cluster }

/-! ## Work -/

/-- A text field that an activity of a kind has to have. -/
def requireProperty (activity : Json) (key : String) (kind : ActivityKind) :
    Except Rejection String :=
  match activity.filledText? key with
  | some text => .ok text
  | none => .error (.value key
      ⟨activity.getD key, "Missing property '" ++ key ++ "' in " ++ kind.tag ++ " activity"⟩)

/-- The reference to the current item, which a loop passes to its body implicitly. -/
def itemReference : String := "@item()"

/-- Whether a parameter is the current item, written plainly or as an expression object. -/
def isItemReference (parameter : Json) : Bool :=
  parameter.asString? == some itemReference || parameter.text? "value" == some itemReference

/-- The base parameters of a notebook definition. In a loop body those that are the current item are
dropped. -/
def baseParameters (inLoop : Bool) (activity : Json) : List (String × Json) :=
  let parameters := (activity.fields? "base_parameters").getD []
  if inLoop then parameters.filter fun (_, value) => !isItemReference value else parameters

/-- The text of a base parameter; any other value is noted and becomes empty. -/
def baseParameter (parameter : String × Json) : Noted (String × String) :=
  match parameter.2 with
  | .str text => .quiet (parameter.1, text)
  | _ => ⟨(parameter.1, ""), [⟨"parameters." ++ parameter.1,
      "Could not resolve default value for parameter " ++ parameter.1 ++ ", setting to \"\""⟩]⟩

namespace Work

/-- Reads a notebook activity. -/
def ofNotebook (inLoop : Bool) (activity : Json) : Noted (Except Rejection Work) :=
  match requireProperty activity "notebook_path" .notebook with
  | .error rejection => .quiet (.error rejection)
  | .ok path => do
    let parameters ← Noted.traverse baseParameter (baseParameters inLoop activity)
    return .ok (.notebook path parameters)

/-- Reads a JAR activity. -/
def ofSparkJar (activity : Json) : Except Rejection Work := do
  let mainClass ← requireProperty activity "main_class_name" .sparkJar
  return .sparkJar mainClass (activity.items "parameters") (activity.items "libraries")

/-- Reads a Python activity. -/
def ofSparkPython (activity : Json) : Except Rejection Work := do
  let file ← requireProperty activity "python_file" .sparkPython
  return .sparkPython file (activity.items "parameters")

/-- The work of a copy that was read. -/
def ofCopy (copy : Except Obstacle Copy) : Except Rejection Work :=
  match copy with
  | .ok copy => .ok (.copy copy)
  | .error obstacle => .error (.value "copy" obstacle)

end Work

/-! ## Branches and loops -/

/-- The names of a branch's children, the children for a false condition first. -/
def childNames (activity : Json) : List String :=
  (activity.items "if_false_activities" ++ activity.items "if_true_activities").filterMap
    (·.text? "name")

/-- The condition of a branch. An expression that is not understood is rejected with the names of
the children that are lost with it. -/
def branchCondition (activity : Json) : Except Rejection Condition :=
  let expression := (activity.getD "expression").text? "value"
  match expression.filter fun text => Text.trim text.toList ≠ [] with
  | none => .error (.value "expression"
      ⟨activity.getD "expression", "Missing property 'expression' in IfCondition activity"⟩)
  | some text =>
    match Condition.parse text with
    | .ok condition => .ok condition
    | .error obstacle =>
      match childNames activity with
      | [] => .error (.expression "expression" obstacle)
      | names => .error (.expression "expression" { obstacle with
          message := obstacle.message ++ "; dropped child activities: "
            ++ Text.joinWith ", " names })

/-- The items of a loop, as a JSON list of texts. -/
def loopItems (activity : Json) : Except Rejection String :=
  match activity.getD "items" with
  | .null => .error (.value "items" ⟨.null, "Missing property 'items' in ForEach activity"⟩)
  | .obj fields =>
    match (Json.obj fields).text? "value" with
    | none => .error (.value "items"
        ⟨.obj fields, "Missing property 'value' in ForEach activity 'items'"⟩)
    | some text =>
      match Expression.parseItems text with
      | .ok items => .ok items
      | .error obstacle => .error (.expression "items" obstacle)
  | other => .error (.value "items" ⟨other,
      "Invalid value '" ++ other.compact ++ "' for property 'items' in ForEach activity"⟩)

/-- What a loop repeats: its items, if it has a body at all. -/
def loopHeader (activity : Json) : Except Rejection String := do
  let items ← loopItems activity
  if (activity.items "activities").isEmpty then
    .error (.value "activities" ⟨.null, "ForEach activity has no inner activities"⟩)
  return items

/-- The note on a loop body of several activities. -/
def loopNotes (activity : Json) : List Note :=
  let size := (activity.items "activities").length
  if 1 < size then
    [⟨"activities", "ForEach activity has " ++ toString size
      ++ " inner activities; only the first runs inside the for-each task"⟩]
  else []

/-- The notes on the current item among the base parameters of a loop body's activity. -/
def itemNotes (activity : Json) : List Note :=
  match activity.fields? "base_parameters" with
  | some parameters =>
    (parameters.filter fun (_, value) => isItemReference value).map fun (name, _) =>
      ⟨"base_parameters." ++ name,
        "Removing redundant parameter " ++ name ++ " with value " ++ itemReference⟩
  | none =>
    if activity.text? "type" = some ActivityKind.notebook.tag then
      [⟨"base_parameters",
        "Missing property 'base_parameters' for ForEach inner activity, treating as empty"⟩]
    else []

/-- Records the notes on the current item. They are tagged with the name and type as they are
written. -/
def recordItems (activity : Json) : Conversion Unit :=
  .inScope ⟨activity.text? "name", activity.text? "type"⟩ (.record (itemNotes activity))

/-! ## Rejection and containment -/

/-- A placeholder for a rejected activity, or in strict mode a failure. -/
def reject (strict : Bool) (task : Task) (rejection : Rejection) : Conversion Activity :=
  match strict, rejection with
  | true, .expression _ reason =>
    .fail (.unmatchedExpression task.name reason.value.scalarText)
  | true, .value _ reason => .fail (.untranslatable task.name reason.message)
  | false, .expression property reason | false, .value property reason => do
    Conversion.record [⟨property, reason.message⟩]
    return .placeholder task reason.message

/-- The activity of a task whose work was read, unless it was rejected. -/
def settle (strict : Bool) (task : Task) (converted : Except Rejection Activity) :
    Conversion Activity :=
  match converted with
  | .ok activity => return activity
  | .error rejection => reject strict task rejection

/-- A placeholder for a branch child that failed. -/
def contain (child : Json) (dependency : Option Dependency) (failure : Failure) :
    Conversion Activity := do
  Conversion.inScope ⟨some (Task.keyOf child), some (Task.typeOf child)⟩
    (Conversion.record [⟨"activity", failure.message⟩])
  return .placeholder
    { key := Task.keyOf child
      type := Task.typeOf child
      description := child.text? "description"
      policy := Policy.none
      dependsOn := dependency.toList
      cluster := none }
    failure.message

/-- Whether a branch may contain a failure. -/
def mayContain (strict : Bool) (failure : Failure) : Bool :=
  failure.isContainable && !(strict && failure.isStrictViolation)

/-- A child of a branch or loop body: its conversion with one more dependency, or a placeholder. -/
def branchChild (strict : Bool) (child : Json) (dependency : Option Dependency)
    (converted : Conversion Activity) : Conversion Activity :=
  Conversion.recover (do return (← converted).addDependency dependency) fun failure =>
    if mayContain strict failure then some (contain child dependency failure) else none

/-! ## Conversion -/

theorem sizeOf_lt_of_lookup {fields : List (String × Json)} {key : String} {value : Json}
    (h : fields.lookup key = some value) : sizeOf value < sizeOf fields := by
  induction fields with
  | nil => cases h
  | cons field rest ih =>
    obtain ⟨k, v⟩ := field
    rw [Table.lookup_cons] at h
    split at h
    · obtain rfl := Option.some.inj h
      simp only [List.cons.sizeOf_spec, Prod.mk.sizeOf_spec]
      omega
    · have := ih h
      simp only [List.cons.sizeOf_spec]
      omega

/-- The items of a field are smaller than the object. -/
theorem sizeOf_lt_of_mem_items {activity child : Json} {key : String}
    (h : child ∈ activity.items key) : sizeOf child < sizeOf activity := by
  cases activity with
  | obj fields =>
    cases hf : fields.lookup key with
    | none => simp [Json.items, Json.items?, Json.get?, hf] at h
    | some value =>
      have hv := sizeOf_lt_of_lookup hf
      cases value with
      | arr items =>
        simp only [Json.items, Json.items?, Json.get?, hf, Option.bind_some, Json.asItems?,
          Option.getD_some] at h
        have := List.sizeOf_lt_of_mem h
        simp only [Json.arr.sizeOf_spec] at hv
        simp only [Json.obj.sizeOf_spec]
        omega
      | _ => simp [Json.items, Json.items?, Json.get?, hf, Json.asItems?] at h
  | _ => simp [Json.items, Json.items?, Json.get?] at h

/-- An activity of a type without counterpart. -/
def convertUnsupported (task : Task) : Conversion Activity := do
  let complaint := "Unsupported activity type '" ++ task.type ++ "'"
  Conversion.record [⟨"type", complaint ++ ", substituting a placeholder task"⟩]
  return .placeholder task complaint

/-- A notebook activity. -/
def convertNotebook (strict inLoop : Bool) (activity : Json) (task : Task) :
    Conversion Activity := do
  let work ← Conversion.ofNoted (Work.ofNotebook inLoop activity)
  settle strict task (work.map (.single task))

/-- A copy activity. -/
def convertCopy (strict : Bool) (activity : Json) (task : Task) : Conversion Activity := do
  let copy ← Conversion.ofExcept (Copy.ofActivity strict activity)
  let copy ← Conversion.ofNoted copy
  settle strict task ((Work.ofCopy copy).map (.single task))

/-- A branch with the conversions of its children. -/
def convertBranch (strict : Bool) (activity : Json) (task : Task)
    (ifFalse ifTrue : Conversion (List Activity)) : Conversion Activity :=
  match branchCondition activity with
  | .error rejection => reject strict task rejection
  | .ok condition => do
    -- The children for a false condition are converted and listed first.
    let ifFalse ← ifFalse
    let ifTrue ← ifTrue
    let children := ifFalse ++ ifTrue
    if children.isEmpty then
      Conversion.record
        [⟨"child_activities", "No child activities of if-else condition activity"⟩]
    return .branch task condition children

/-- A loop with the conversion of its body. -/
def convertLoop (strict : Bool) (activity : Json) (task : Task)
    (body : Conversion (List Activity)) : Conversion Activity :=
  match loopHeader activity with
  | .error rejection => reject strict task rejection
  | .ok items => do
    Conversion.record (loopNotes activity)
    let body ← body
    return .loop task items ((activity.count? "batch_count").filter (· < Text.limit32)) body

/-- The activity of a task, by its kind. -/
def convertWork (strict inLoop : Bool) (activity : Json) (task : Task)
    (ifFalse ifTrue body : Conversion (List Activity)) : Conversion Activity :=
  match ActivityKind.ofTag? task.type with
  | none => convertUnsupported task
  | some .notebook => convertNotebook strict inLoop activity task
  | some .sparkJar => settle strict task ((Work.ofSparkJar activity).map (.single task))
  | some .sparkPython => settle strict task ((Work.ofSparkPython activity).map (.single task))
  | some .copy => convertCopy strict activity task
  | some .ifCondition => convertBranch strict activity task ifFalse ifTrue
  | some .forEach => convertLoop strict activity task body

/-- Converts an activity definition in a scope of its own. In a loop body, base parameters that are
the current item are dropped. -/
def convert (strict inLoop : Bool) (activity : Json) : Conversion Activity :=
  Conversion.inScope (Scope.ofActivity activity) do
    let task ← Task.ofDefinition activity
    convertWork strict inLoop activity task
      (Conversion.traverse
        (fun child : { c // c ∈ activity.items "if_false_activities" } =>
          branchChild strict child.1 (some (Dependency.onOutcome task.key "false"))
            (convert strict false child.1))
        (activity.items "if_false_activities").attach)
      (Conversion.traverse
        (fun child : { c // c ∈ activity.items "if_true_activities" } =>
          branchChild strict child.1 (some (Dependency.onOutcome task.key "true"))
            (convert strict false child.1))
        (activity.items "if_true_activities").attach)
      (Conversion.traverse
        (fun child : { c // c ∈ activity.items "activities" } => do
          -- What is dropped from a child is recorded before its conversion.
          recordItems child.1
          branchChild strict child.1 none (convert strict true child.1))
        (activity.items "activities").attach)
termination_by sizeOf activity
decreasing_by all_goals exact sizeOf_lt_of_mem_items child.2

/-- A child of a branch on one outcome. -/
def convertChild (strict : Bool) (task : Task) (outcome : String) (child : Json) :
    Conversion Activity :=
  branchChild strict child (some (Dependency.onOutcome task.key outcome))
    (convert strict false child)

/-- An activity of a loop body. -/
def convertItem (strict : Bool) (child : Json) : Conversion Activity := do
  recordItems child
  branchChild strict child none (convert strict true child)

/-- The conversion of an activity, by the conversions of the activities inside it. -/
theorem convert_eq (strict inLoop : Bool) (activity : Json) :
    convert strict inLoop activity
      = Conversion.inScope (Scope.ofActivity activity) (do
          let task ← Task.ofDefinition activity
          convertWork strict inLoop activity task
            (Conversion.traverse (convertChild strict task "false")
              (activity.items "if_false_activities"))
            (Conversion.traverse (convertChild strict task "true")
              (activity.items "if_true_activities"))
            (Conversion.traverse (convertItem strict) (activity.items "activities"))) := by
  rw [convert]
  congr 2
  funext task
  congr 1
  · exact Conversion.traverse_attach (convertChild strict task "false") _
  · exact Conversion.traverse_attach (convertChild strict task "true") _
  · exact Conversion.traverse_attach (convertItem strict) _

/-- Induction over a definition: what holds of an activity if it holds of all items of its fields
holds of every activity. -/
theorem Json.induction_items {motive : Json → Prop}
    (step : ∀ activity : Json,
      (∀ key : String, ∀ child ∈ activity.items key, motive child) → motive activity)
    (activity : Json) : motive activity :=
  step activity fun _ child _ => induction_items step child
termination_by sizeOf activity
decreasing_by exact sizeOf_lt_of_mem_items ‹_›

end FactoryMigration
