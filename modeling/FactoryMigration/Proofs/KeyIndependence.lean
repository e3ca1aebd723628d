import FactoryMigration.Pipeline
import FactoryMigration.Proofs.KeylessDefinitions

set_option autoImplicit false

/-! # Changed connection strings in conversions

Two runs of a conversion, one of them on definitions with changed connection strings, are compared by
what is shown of them: work without keys, and messages as far as a function `hide` leaves them. From
memories of which the same is shown, both runs end alike (`convert_alike`), and so do the conversions
of whole documents (`Pipeline.ofDocument_mapConnections`). -/

namespace FactoryMigration

/-! ## What is shown of a conversion -/

section Shown

variable (hide : String → String)

/-- The note with its message as far as it is shown. -/
def Note.shown (note : Note) : Note :=
  { note with message := hide note.message }

/-- The diagnostic with its message as far as it is shown. -/
def Diagnostic.shown (diagnostic : Diagnostic) : Diagnostic :=
  { diagnostic with message := hide diagnostic.message }

/-- The log with its messages as far as they are shown. -/
def Log.shown (log : Log) : Log :=
  { log with entries := log.entries.map (Diagnostic.shown hide) }

/-- The memory with the messages of its log as far as they are shown. -/
def Memory.shown (memory : Memory) : Memory :=
  { memory with log := memory.log.shown hide }

/-- The work without keys, and with its reason as far as it is shown. -/
def Work.shown : Work → Work
  | .copy body => .copy body.withoutKeys
  | .placeholder reason => .placeholder (hide reason)
  | work => work

/-- The failure with its reason as far as it is shown. -/
def Failure.shown : Failure → Failure
  | .untranslatable activity message => .untranslatable activity (hide message)
  | failure => failure

/-- The pipeline without keys, and with its messages as far as they are shown. -/
def Pipeline.shown (pipeline : Pipeline) : Pipeline :=
  { pipeline with
    tasks := Activity.mapWorkAll (Work.shown hide) pipeline.tasks
    notTranslatable := pipeline.notTranslatable.map (Diagnostic.shown hide) }

/-- What is shown of the result of a conversion. -/
def Pipeline.shownResult (result : Except Failure Pipeline) : Except Failure Pipeline :=
  (result.map (Pipeline.shown hide)).mapError (Failure.shown hide)

end Shown

variable {hide : String → String}

theorem Log.shown_record (log : Log) (notes : List Note) :
    (log.record notes).shown hide = (log.shown hide).record (notes.map (Note.shown hide)) := by
  have htag (note : Note) : (log.tag note).shown hide = (log.shown hide).tag (note.shown hide) := by
    cases hscopes : log.scopes <;>
      simp [Log.tag, Log.shown, hscopes, Note.untagged, Scope.tag, Note.shown, Diagnostic.shown]
  have hentries : (notes.map log.tag).map (Diagnostic.shown hide)
      = (notes.map (Note.shown hide)).map (log.shown hide).tag := by
    rw [List.map_map, List.map_map]
    exact List.map_congr_left fun note _ => htag note
  simp only [Log.record, Log.append, Log.shown, List.map_append, hentries]

/-! ## Conversions -/

/-- Failures are the same, or both are of strict mode with the same reason as far as it is shown. -/
inductive FailureAlike (strict : Bool) (hide : String → String) : Failure → Failure → Prop
  | same (failure : Failure) : FailureAlike strict hide failure failure
  | untranslatable {message message' : String} (hstrict : strict = true) (activity : String)
    (h : hide message = hide message') :
    FailureAlike strict hide (.untranslatable activity message) (.untranslatable activity message')

namespace Conversion

variable {α β : Type} {strict : Bool}

/-- Both runs end with values of the relation or with failures that are alike, and the same is shown
of their memories. -/
inductive RunsAlike (strict : Bool) (hide : String → String) (same : α → α → Prop) :
    Except Failure α × Memory → Except Failure α × Memory → Prop
  | ok {value value' : α} {after after' : Memory} (h : same value value')
    (hafter : after.shown hide = after'.shown hide) :
    RunsAlike strict hide same (.ok value, after) (.ok value', after')
  | error {failure failure' : Failure} {after after' : Memory}
    (h : FailureAlike strict hide failure failure') (hafter : after.shown hide = after'.shown hide) :
    RunsAlike strict hide same (.error failure, after) (.error failure', after')

/-- From memories of which the same is shown, both conversions end alike. -/
def Alike (strict : Bool) (hide : String → String) (same : α → α → Prop) (c d : Conversion α) :
    Prop :=
  ∀ before before' : Memory, before.shown hide = before'.shown hide →
    RunsAlike strict hide same (c before) (d before')

namespace Alike

variable {same : α → α → Prop} {same' : β → β → Prop}

theorem done {value value' : α} (h : same value value') :
    Alike strict hide same (done value) (done value') :=
  fun _ _ hbefore => .ok h hbefore

theorem fail {failure failure' : Failure} (h : FailureAlike strict hide failure failure') :
    Alike strict hide same (fail failure) (fail failure') :=
  fun _ _ hbefore => .error h hbefore

theorem bind {c d : Conversion α} {next next' : α → Conversion β}
    (h : Alike strict hide same c d)
    (hnext : ∀ value value', same value value' →
      Alike strict hide same' (next value) (next' value')) :
    Alike strict hide same' (c >>= next) (d >>= next') := by
  intro before before' hbefore
  have hends := h before before' hbefore
  generalize hc : c before = first, hd : d before' = first' at hends
  cases hends with
  | ok hsame hafter =>
    rw [bind_of_ok hc, bind_of_ok hd]
    exact hnext _ _ hsame _ _ hafter
  | error hfailure hafter =>
    rw [bind_of_error hc, bind_of_error hd]
    exact .error hfailure hafter

/-- The same for first conversions with equal values. -/
theorem bind_eq {c d : Conversion α} {next next' : α → Conversion β}
    (h : Alike strict hide Eq c d) (hnext : ∀ value, Alike strict hide same' (next value) (next' value)) :
    Alike strict hide same' (c >>= next) (d >>= next') :=
  h.bind fun value _ heq => heq ▸ hnext value

theorem ofExcept {x y : Except Failure α} (h : FailAlike same x y) :
    Alike strict hide same (ofExcept x) (ofExcept y) := by
  intro before before' hbefore
  cases h with
  | ok h => exact .ok h hbefore
  | error failure => exact .error (.same failure) hbefore

theorem record {notes notes' : List Note}
    (h : notes.map (Note.shown hide) = notes'.map (Note.shown hide)) :
    Alike strict hide Eq (record notes) (record notes') := by
  intro before before' hbefore
  refine .ok rfl ?_
  obtain ⟨hcache, hlog⟩ := Memory.mk.inj hbefore
  simp only [Memory.shown, Log.shown_record, hcache, hlog, h]

theorem ofNoted {noted noted' : Noted α}
    (hnotes : noted.notes.map (Note.shown hide) = noted'.notes.map (Note.shown hide))
    (hvalue : same noted.value noted'.value) :
    Alike strict hide same (ofNoted noted) (ofNoted noted') :=
  (record hnotes).bind_eq fun _ => done hvalue

theorem inScope (scope : Scope) {c d : Conversion α} (h : Alike strict hide same c d) :
    Alike strict hide same (inScope scope c) (inScope scope d) := by
  intro before before' hbefore
  obtain ⟨hcache, hlog⟩ := Memory.mk.inj hbefore
  have hinside : Memory.shown hide { before with log := before.log.enter scope }
      = Memory.shown hide { before' with log := before'.log.enter scope } := by
    show Memory.mk before.cache ((before.log.shown hide).enter scope)
      = Memory.mk before'.cache ((before'.log.shown hide).enter scope)
    rw [hcache, hlog]
  have hexit {after after' : Memory} (hafter : after.shown hide = after'.shown hide) :
      Memory.shown hide { after with log := after.log.exit }
        = Memory.shown hide { after' with log := after'.log.exit } := by
    obtain ⟨hcache, hlog⟩ := Memory.mk.inj hafter
    show Memory.mk after.cache (after.log.shown hide).exit
      = Memory.mk after'.cache (after'.log.shown hide).exit
    rw [hcache, hlog]
  have hends := h _ _ hinside
  unfold Conversion.inScope
  generalize c { before with log := before.log.enter scope } = first,
    d { before' with log := before'.log.enter scope } = first' at hends ⊢
  cases hends with
  | ok hsame hafter => exact .ok hsame (hexit hafter)
  | error hfailure hafter => exact .error hfailure (hexit hafter)

theorem policy (name : String) (block : Option Json) :
    Alike strict hide Eq (policy name block) (policy name block) := by
  intro before before' hbefore
  obtain ⟨hcache, hlog⟩ := Memory.mk.inj hbefore
  have hrecord : Alike strict hide Eq (Conversion.ofNoted (before.cache.read name block).1)
      (Conversion.ofNoted (before.cache.read name block).1) :=
    ofNoted rfl rfl
  unfold Conversion.policy
  rw [← hcache]
  refine hrecord _ _ ?_
  show Memory.mk (before.cache.read name block).2 (before.log.shown hide)
    = Memory.mk (before.cache.read name block).2 (before'.log.shown hide)
  rw [hlog]

end Alike

end Conversion

open Conversion (Alike)

/-- The same is shown of both activities. -/
abbrev ActivityAlike (hide : String → String) (activity activity' : Activity) : Prop :=
  activity.mapWork (Work.shown hide) = activity'.mapWork (Work.shown hide)

/-- The same is shown of both lists of activities. -/
abbrev ActivitiesAlike (hide : String → String) (activities activities' : List Activity) : Prop :=
  Activity.mapWorkAll (Work.shown hide) activities = Activity.mapWorkAll (Work.shown hide) activities'

variable {f : String → String} {strict : Bool}

theorem isEmpty_of_activitiesAlike {activities activities' : List Activity}
    (h : ActivitiesAlike hide activities activities') : activities.isEmpty = activities'.isEmpty := by
  cases activities with
  | nil =>
    cases activities' with
    | nil => rfl
    | cons first' rest' => cases h
  | cons first rest =>
    cases activities' with
    | nil => cases h
    | cons first' rest' => rfl

theorem traverse_alike {g : Json → Json} {convert convert' : Json → Conversion Activity}
    {children : List Json}
    (h : ∀ child ∈ children,
      Alike strict hide (ActivityAlike hide) (convert (g child)) (convert' child)) :
    Alike strict hide (ActivitiesAlike hide) (Conversion.traverse convert (children.map g))
      (Conversion.traverse convert' children) := by
  induction children with
  | nil => exact .done rfl
  | cons child rest ih =>
    refine (h child List.mem_cons_self).bind fun first first' hfirst => ?_
    refine (ih fun other hother => h other (List.mem_cons_of_mem _ hother)).bind
      fun others others' hothers => .done ?_
    simp only [ActivitiesAlike, Activity.mapWorkAll] at hothers ⊢
    rw [hfirst, hothers]

/-! ## Tasks and rejections -/

namespace Task

theorem keyOf_mapConnections (activity : Json) :
    keyOf (activity.mapConnections f) = keyOf activity := by
  simp [keyOf]

theorem typeOf_mapConnections (activity : Json) :
    typeOf (activity.mapConnections f) = typeOf activity := by
  simp [typeOf]

/-- The cluster of an activity is read with the same note, as far as it is shown. -/
theorem clusterOf_alike (f hide : String → String) (activity : Json) :
    (clusterOf (activity.mapConnections f)).notes.map (Note.shown hide)
        = (clusterOf activity).notes.map (Note.shown hide) ∧
      (clusterOf (activity.mapConnections f)).value = (clusterOf activity).value := by
  unfold clusterOf
  rw [Json.getD_mapConnections_service]
  dsimp only
  rw [Json.isFilledObject_mapService]
  split
  · have hcluster : ReadAlike hide Eq
        (Cluster.ofDefinition ((activity.getD "linked_service_definition").mapService f))
        (Cluster.ofDefinition (activity.getD "linked_service_definition")) :=
      Cluster.ofDefinition_alike _
    generalize Cluster.ofDefinition ((activity.getD "linked_service_definition").mapService f) = x,
      Cluster.ofDefinition (activity.getD "linked_service_definition") = y at hcluster ⊢
    cases hcluster with
    | ok hsame => exact ⟨rfl, congrArg some hsame⟩
    | error hreason => exact ⟨by simp [Note.shown, hreason], rfl⟩
  · exact ⟨rfl, rfl⟩

theorem ofDefinition_alike (activity : Json) :
    Alike strict hide Eq (ofDefinition (activity.mapConnections f)) (ofDefinition activity) := by
  obtain ⟨hnotes, hvalue⟩ := clusterOf_alike f hide activity
  unfold ofDefinition
  simp only [nameNotes, keyOf_mapConnections, typeOf_mapConnections, Json.filledText?_mapConnections,
    Json.text?_mapConnections,
    Json.get?_mapConnections f activity (show "policy" ∉ Json.connectionKeys by decide),
    Json.get?_mapConnections f activity (show "depends_on" ∉ Json.connectionKeys by decide)]
  refine (Alike.record rfl).bind_eq fun _ => ?_
  refine (Alike.policy _ _).bind_eq fun policy => ?_
  refine (Alike.ofNoted rfl rfl).bind_eq fun dependencies => ?_
  have hdependencies : FailAlike Eq dependencies dependencies := by
    cases dependencies with
    | ok dependsOn => exact .ok rfl
    | error failure => exact .error failure
  refine (Alike.ofExcept hdependencies).bind_eq fun dependsOn => ?_
  exact (Alike.ofNoted hnotes hvalue).bind_eq fun cluster => .done rfl

end Task

/-- Both works are alike, or they are rejected for the same reason as far as it is shown. -/
inductive WorkAlike (hide : String → String) :
    Except Rejection Activity → Except Rejection Activity → Prop
  | ok {activity activity' : Activity} (h : ActivityAlike hide activity activity') :
    WorkAlike hide (.ok activity) (.ok activity')
  | same (rejection : Rejection) : WorkAlike hide (.error rejection) (.error rejection)
  | value (property : String) {reason reason' : Obstacle}
    (h : hide reason.message = hide reason'.message) :
    WorkAlike hide (.error (.value property reason)) (.error (.value property reason'))

theorem WorkAlike.refl (work : Except Rejection Activity) : WorkAlike hide work work := by
  cases work with
  | ok activity => exact .ok rfl
  | error rejection => exact .same rejection

/-- A value is rejected alike for reasons of which the same is shown. -/
theorem reject_value_alike (task : Task) (property : String) {reason reason' : Obstacle}
    (h : hide reason.message = hide reason'.message) :
    Alike strict hide (ActivityAlike hide) (reject strict task (.value property reason))
      (reject strict task (.value property reason')) := by
  cases strict with
  | true => exact .fail (.untranslatable rfl task.name h)
  | false =>
    refine (Alike.record ?_).bind_eq fun _ => .done ?_
    · simp [Note.shown, h]
    · simp [ActivityAlike, Activity.placeholder, Activity.mapWork, Work.shown, h]

theorem reject_alike (task : Task) (rejection : Rejection) :
    Alike strict hide (ActivityAlike hide) (reject strict task rejection)
      (reject strict task rejection) := by
  cases rejection with
  | value property reason => exact reject_value_alike task property rfl
  | expression property reason =>
    cases strict with
    | true => exact .fail (.same _)
    | false => exact (Alike.record rfl).bind_eq fun _ => .done rfl

theorem settle_alike (task : Task) {work work' : Except Rejection Activity}
    (h : WorkAlike hide work work') :
    Alike strict hide (ActivityAlike hide) (settle strict task work) (settle strict task work') := by
  cases h with
  | ok h => exact .done h
  | same rejection => exact reject_alike task rejection
  | value property h => exact reject_value_alike task property h

/-! ## Containment -/

theorem mapWork_addDependency (g : Work → Work) (dependency : Option Dependency)
    (activity : Activity) :
    (activity.addDependency dependency).mapWork g
      = (activity.mapWork g).addDependency dependency := by
  cases activity <;>
    simp [Activity.addDependency, Activity.mapWork, Activity.withTask, Activity.task]

theorem contain_mapConnections (child : Json) (dependency : Option Dependency) (failure : Failure) :
    contain (child.mapConnections f) dependency failure = contain child dependency failure := by
  simp only [contain, Task.keyOf_mapConnections, Task.typeOf_mapConnections,
    Json.text?_mapConnections]

theorem branchChild_alike (child : Json) (dependency : Option Dependency)
    {c d : Conversion Activity} (h : Alike strict hide (ActivityAlike hide) c d) :
    Alike strict hide (ActivityAlike hide)
      (branchChild strict (child.mapConnections f) dependency c)
      (branchChild strict child dependency d) := by
  have hadd : Alike strict hide (ActivityAlike hide) (do return (← c).addDependency dependency)
      (do return (← d).addDependency dependency) := by
    refine h.bind fun activity activity' hsame => .done ?_
    simp only [ActivityAlike, mapWork_addDependency]
    rw [hsame]
  intro before before' hbefore
  have hends := hadd before before' hbefore
  unfold branchChild Conversion.recover
  dsimp only
  generalize (do return (← c).addDependency dependency : Conversion Activity) before = first,
    (do return (← d).addDependency dependency : Conversion Activity) before' = first' at hends ⊢
  cases hends with
  | ok hsame hafter => exact .ok hsame hafter
  | error hfailure hafter =>
    rename_i failure failure' after after'
    cases hfailure with
    | same =>
      by_cases hcontain : mayContain strict failure = true
      · have hplaceholder : Alike strict hide (ActivityAlike hide)
            (contain (child.mapConnections f) dependency failure)
            (contain child dependency failure) := by
          rw [contain_mapConnections]
          exact (Alike.inScope _ (Alike.record rfl)).bind_eq fun _ => .done rfl
        simp only [if_pos hcontain]
        exact hplaceholder _ _ hafter
      · simp only [if_neg hcontain]
        exact .error (.same failure) hafter
    | untranslatable hstrict activity hmessage =>
      -- strict mode contains no violation
      subst hstrict
      exact .error (.untranslatable rfl activity hmessage) hafter

/-! ## Activities -/

section Activities

variable (activity : Json)

theorem items_mapConnections_of_not_mem {key : String} (hkey : key ∉ Json.connectionKeys) :
    (activity.mapConnections f).items key = activity.items key := by
  simp only [Json.items, Json.items?, Json.get?_mapConnections f activity hkey]

theorem requireProperty_mapConnections {key : String} (hkey : key ∉ Json.connectionKeys)
    (kind : ActivityKind) :
    requireProperty (activity.mapConnections f) key kind = requireProperty activity key kind := by
  simp only [requireProperty, Json.filledText?_mapConnections,
    Json.getD_mapConnections f activity hkey]

theorem childNames_mapConnections :
    childNames (activity.mapConnections f) = childNames activity := by
  simp only [childNames,
    Json.items_mapConnections f activity (show "if_false_activities" ∈ Json.activityKeys by decide),
    Json.items_mapConnections f activity (show "if_true_activities" ∈ Json.activityKeys by decide),
    ← List.map_append, List.filterMap_map, Function.comp_def, Json.text?_mapConnections]

theorem branchCondition_mapConnections :
    branchCondition (activity.mapConnections f) = branchCondition activity := by
  simp only [branchCondition, childNames_mapConnections,
    Json.getD_mapConnections f activity (show "expression" ∉ Json.connectionKeys by decide)]

theorem loopHeader_mapConnections :
    loopHeader (activity.mapConnections f) = loopHeader activity := by
  simp only [loopHeader, loopItems,
    Json.getD_mapConnections f activity (show "items" ∉ Json.connectionKeys by decide),
    Json.items_mapConnections f activity (show "activities" ∈ Json.activityKeys by decide),
    List.isEmpty_map]

theorem itemNotes_mapConnections : itemNotes (activity.mapConnections f) = itemNotes activity := by
  simp only [itemNotes, Json.fields?, Json.text?_mapConnections,
    Json.get?_mapConnections f activity (show "base_parameters" ∉ Json.connectionKeys by decide)]

theorem convertNotebook_alike (inLoop : Bool) (task : Task) :
    Alike strict hide (ActivityAlike hide)
      (convertNotebook strict inLoop (activity.mapConnections f) task)
      (convertNotebook strict inLoop activity task) := by
  have hwork : Work.ofNotebook inLoop (activity.mapConnections f)
      = Work.ofNotebook inLoop activity := by
    simp only [Work.ofNotebook, baseParameters, Json.fields?,
      requireProperty_mapConnections activity
        (show "notebook_path" ∉ Json.connectionKeys by decide),
      Json.get?_mapConnections f activity (show "base_parameters" ∉ Json.connectionKeys by decide)]
  unfold convertNotebook
  rw [hwork]
  exact (Alike.ofNoted rfl rfl).bind_eq fun work => settle_alike task (.refl _)

theorem convertCopy_alike (hhides : Hides f hide) (task : Task) :
    Alike strict hide (ActivityAlike hide)
      (convertCopy strict (activity.mapConnections f) task) (convertCopy strict activity task) := by
  unfold convertCopy
  refine (Alike.ofExcept (Copy.ofActivity_alike hhides strict activity)).bind
    fun read read' hread => ?_
  refine (Alike.ofNoted (congrArg _ hread.1) hread.2).bind fun copy copy' hcopy => ?_
  refine settle_alike task ?_
  cases hcopy with
  | ok hsame =>
    refine .ok ?_
    simp only [ActivityAlike, Activity.mapWork, Work.shown, hsame]
  | error hreason => exact .value "copy" hreason

theorem convertBranch_alike (task : Task)
    {ifFalse ifFalse' ifTrue ifTrue' : Conversion (List Activity)}
    (hfalse : Alike strict hide (ActivitiesAlike hide) ifFalse ifFalse')
    (htrue : Alike strict hide (ActivitiesAlike hide) ifTrue ifTrue') :
    Alike strict hide (ActivityAlike hide)
      (convertBranch strict (activity.mapConnections f) task ifFalse ifTrue)
      (convertBranch strict activity task ifFalse' ifTrue') := by
  unfold convertBranch
  rw [branchCondition_mapConnections]
  cases branchCondition activity with
  | error rejection => exact reject_alike task rejection
  | ok condition =>
    refine hfalse.bind fun ifFalse ifFalse' hfalse => ?_
    refine htrue.bind fun ifTrue ifTrue' htrue => ?_
    have hchildren : ActivitiesAlike hide (ifFalse ++ ifTrue) (ifFalse' ++ ifTrue') := by
      simp only [ActivitiesAlike, Activity.mapWorkAll_append] at hfalse htrue ⊢
      rw [hfalse, htrue]
    have hempty : (ifFalse ++ ifTrue).isEmpty = (ifFalse' ++ ifTrue').isEmpty :=
      isEmpty_of_activitiesAlike hchildren
    dsimp only
    rw [hempty]
    split
    · refine (Alike.record rfl).bind_eq fun _ => .done ?_
      simp only [ActivityAlike, Activity.mapWork, hchildren]
    · refine Alike.done ?_
      simp only [ActivityAlike, Activity.mapWork, hchildren]

theorem convertLoop_alike (task : Task) {body body' : Conversion (List Activity)}
    (hbody : Alike strict hide (ActivitiesAlike hide) body body') :
    Alike strict hide (ActivityAlike hide)
      (convertLoop strict (activity.mapConnections f) task body)
      (convertLoop strict activity task body') := by
  have hnotes : loopNotes (activity.mapConnections f) = loopNotes activity := by
    simp only [loopNotes,
      Json.items_mapConnections f activity (show "activities" ∈ Json.activityKeys by decide),
      List.length_map]
  have hcount : (activity.mapConnections f).count? "batch_count" = activity.count? "batch_count" := by
    simp only [Json.count?,
      Json.get?_mapConnections f activity (show "batch_count" ∉ Json.connectionKeys by decide)]
  unfold convertLoop
  rw [loopHeader_mapConnections, hnotes, hcount]
  cases loopHeader activity with
  | error rejection => exact reject_alike task rejection
  | ok items =>
    refine (Alike.record rfl).bind_eq fun _ => ?_
    refine hbody.bind fun body body' hbody => .done ?_
    simp only [ActivityAlike, Activity.mapWork, hbody]

theorem convertWork_alike (hhides : Hides f hide) (inLoop : Bool) (task : Task)
    {ifFalse ifFalse' ifTrue ifTrue' body body' : Conversion (List Activity)}
    (hfalse : Alike strict hide (ActivitiesAlike hide) ifFalse ifFalse')
    (htrue : Alike strict hide (ActivitiesAlike hide) ifTrue ifTrue')
    (hbody : Alike strict hide (ActivitiesAlike hide) body body') :
    Alike strict hide (ActivityAlike hide)
      (convertWork strict inLoop (activity.mapConnections f) task ifFalse ifTrue body)
      (convertWork strict inLoop activity task ifFalse' ifTrue' body') := by
  have hjar : Work.ofSparkJar (activity.mapConnections f) = Work.ofSparkJar activity := by
    simp only [Work.ofSparkJar,
      requireProperty_mapConnections activity
        (show "main_class_name" ∉ Json.connectionKeys by decide),
      items_mapConnections_of_not_mem activity (show "parameters" ∉ Json.connectionKeys by decide),
      items_mapConnections_of_not_mem activity (show "libraries" ∉ Json.connectionKeys by decide)]
  have hpython : Work.ofSparkPython (activity.mapConnections f) = Work.ofSparkPython activity := by
    simp only [Work.ofSparkPython,
      requireProperty_mapConnections activity (show "python_file" ∉ Json.connectionKeys by decide),
      items_mapConnections_of_not_mem activity (show "parameters" ∉ Json.connectionKeys by decide)]
  unfold convertWork
  rw [hjar, hpython]
  split
  · exact (Alike.record rfl).bind_eq fun _ => .done rfl
  · exact convertNotebook_alike activity inLoop task
  · exact settle_alike task (.refl _)
  · exact settle_alike task (.refl _)
  · exact convertCopy_alike activity hhides task
  · exact convertBranch_alike activity task hfalse htrue
  · exact convertLoop_alike activity task hbody

/-- **Activities.** With changed connection strings an activity is converted alike. -/
theorem convert_alike (hhides : Hides f hide) (inLoop : Bool) :
    Alike strict hide (ActivityAlike hide) (convert strict inLoop (activity.mapConnections f))
      (convert strict inLoop activity) := by
  induction activity using Json.induction_items generalizing inLoop with
  | step activity ih =>
    have hchildren (task : Task) (outcome key : String) (hkey : key ∈ Json.activityKeys) :
        Alike strict hide (ActivitiesAlike hide)
          (Conversion.traverse (convertChild strict task outcome)
            ((activity.mapConnections f).items key))
          (Conversion.traverse (convertChild strict task outcome) (activity.items key)) := by
      rw [Json.items_mapConnections f activity hkey]
      exact traverse_alike fun child hchild =>
        branchChild_alike child _ (ih key child hchild false)
    have hbody : Alike strict hide (ActivitiesAlike hide)
        (Conversion.traverse (convertItem strict) ((activity.mapConnections f).items "activities"))
        (Conversion.traverse (convertItem strict) (activity.items "activities")) := by
      rw [Json.items_mapConnections f activity (by decide)]
      refine traverse_alike fun child hchild => ?_
      have hitems : recordItems (child.mapConnections f) = recordItems child := by
        simp only [recordItems, itemNotes_mapConnections, Json.text?_mapConnections]
      unfold convertItem
      rw [hitems]
      exact (Alike.inScope _ (Alike.record rfl)).bind_eq fun _ =>
        branchChild_alike child none (ih "activities" child hchild true)
    have hscope : Scope.ofActivity (activity.mapConnections f) = Scope.ofActivity activity := by
      simp only [Scope.ofActivity, Json.filledText?_mapConnections]
    rw [convert_eq, convert_eq, hscope]
    exact .inScope _ ((Task.ofDefinition_alike activity).bind_eq fun task =>
      convertWork_alike activity hhides inLoop task (hchildren task _ _ (by decide))
        (hchildren task _ _ (by decide)) hbody)

end Activities

/-! ## Documents -/

/-- Sessions of which the same is shown convert activities alike, with and without changed connection
strings. -/
theorem convertAll_alike (hhides : Hides f hide) (activities : List Json) (memory memory' : Memory)
    (hmemory : memory.shown hide = memory'.shown hide) :
    Conversion.RunsAlike strict hide (ActivitiesAlike hide)
      ((Session.convertAll ⟨memory, strict⟩ (activities.map (Json.mapConnections f))).1,
        (Session.convertAll ⟨memory, strict⟩ (activities.map (Json.mapConnections f))).2.toMemory)
      ((Session.convertAll ⟨memory', strict⟩ activities).1,
        (Session.convertAll ⟨memory', strict⟩ activities).2.toMemory) := by
  induction activities generalizing memory memory' with
  | nil => exact .ok rfl hmemory
  | cons activity rest ih =>
    have hfirst : Conversion.RunsAlike strict hide (ActivityAlike hide)
        (convert strict false (activity.mapConnections f) memory)
        (convert strict false activity memory') :=
      convert_alike activity hhides false memory memory' hmemory
    simp only [List.map_cons, Session.convertAll, Session.convert]
    generalize convert strict false (activity.mapConnections f) memory = first,
      convert strict false activity memory' = first' at hfirst ⊢
    cases hfirst with
    | error hfailure hafter => exact .error hfailure hafter
    | ok hsame hafter =>
      rename_i first first' after after'
      have hrest := ih after after' hafter
      dsimp only
      generalize Session.convertAll ⟨after, strict⟩ (rest.map (Json.mapConnections f)) = others,
        Session.convertAll ⟨after', strict⟩ rest = others' at hrest ⊢
      obtain ⟨result, session⟩ := others
      obtain ⟨result', session'⟩ := others'
      dsimp only at hrest ⊢
      generalize session.toMemory = memory, session'.toMemory = memory' at hrest ⊢
      cases hrest with
      | error hfailure hafter => exact .error hfailure hafter
      | ok hothers hafter =>
        refine .ok ?_ hafter
        simp only [ActivitiesAlike, ActivityAlike, Activity.mapWorkAll_append,
          Activity.mapWorkAll_flatten] at hsame hothers ⊢
        rw [hsame, hothers]

namespace Pipeline

theorem shown_ofTasks (document : Json) (trigger : Option Json) (tasks : List Activity) (log : Log) :
    (ofTasks document trigger tasks log).shown hide
      = { ofTasks document trigger (Activity.mapWorkAll (Work.shown hide) tasks) log with
          notTranslatable := ((log.shown hide).record
            ((scheduleOf (triggerOf document trigger)).notes.map (Note.shown hide))).entries } := by
  rw [← Log.shown_record]
  rfl

/-- Results that end alike show the same. -/
theorem shownResult_eq (document : Json) (trigger : Option Json)
    {result result' : Except Failure (List Activity)} {memory memory' : Memory}
    (h : Conversion.RunsAlike strict hide (ActivitiesAlike hide) (result, memory) (result', memory')) :
    shownResult hide (result.map (ofTasks document trigger · memory.log))
      = shownResult hide (result'.map (ofTasks document trigger · memory'.log)) := by
  cases h with
  | error hfailure hafter =>
    cases hfailure with
    | same => rfl
    | untranslatable hstrict activity hmessage =>
      simp only [shownResult, Except.map, Except.mapError, Failure.shown, hmessage]
  | ok hsame hafter =>
    obtain ⟨hcache, hlog⟩ := Memory.mk.inj hafter
    simp only [shownResult, Except.map, shown_ofTasks, hlog, hsame]
    rfl

theorem ofTasks_mapConnections (f : String → String) (document : Json) (trigger : Option Json) :
    ofTasks (document.mapConnections f) trigger = ofTasks document trigger := by
  funext tasks log
  simp only [ofTasks, triggerOf, Json.present?, Json.filledText?_mapConnections,
    Json.get?_mapConnections f document (show "trigger" ∉ Json.connectionKeys by decide),
    Json.get?_mapConnections f document (show "parameters" ∉ Json.connectionKeys by decide),
    Json.get?_mapConnections f document (show "tags" ∉ Json.connectionKeys by decide)]

theorem activitiesOf_mapConnections (f : String → String) (document : Json) :
    activitiesOf (document.mapConnections f)
      = (activitiesOf document).map (List.map (Json.mapConnections f)) := by
  have hfield : (document.mapConnections f).getD "activities"
      = (document.getD "activities").mapConnectionsField f "activities" := by
    rw [Json.mapConnections_eq, Json.getD_mapFields rfl]
  unfold activitiesOf
  rw [hfield]
  cases document.getD "activities" with
  | arr activities =>
    simp [Json.mapConnectionsField, Json.activityKeys, Json.mapConnectionsItems_eq_map, Except.map]
  | _ => rfl

/-- With changed connection strings a document is converted to a result of which the same is shown. -/
theorem ofDocument_mapConnections (hhides : Hides f hide) (strict : Bool) (document : Json)
    (trigger : Option Json) :
    shownResult hide (ofDocument strict (document.mapConnections f) trigger)
      = shownResult hide (ofDocument strict document trigger) := by
  have hobject : (document.mapConnections f).isObject = document.isObject :=
    Json.isObject_mapConnections f document
  cases hisObject : document.isObject with
  | false =>
    rw [ofDocument_of_not_isObject hisObject, ofDocument_of_not_isObject (hobject.trans hisObject)]
  | true =>
    rw [ofDocument_of_isObject hisObject, ofDocument_of_isObject (hobject.trans hisObject),
      activitiesOf_mapConnections, ofTasks_mapConnections]
    cases activitiesOf document with
    | error failure => rfl
    | ok activities =>
      have hnotes : nameNotes (document.mapConnections f) = nameNotes document := by
        simp only [nameNotes, Json.filledText?_mapConnections]
      have hconvert : Conversion.RunsAlike strict hide (ActivitiesAlike hide) _ _ :=
        convertAll_alike hhides activities ⟨.empty, Log.empty.record (nameNotes document)⟩ _ rfl
      show shownResult hide
          ((convertActivities strict (document.mapConnections f)
              (activities.map (Json.mapConnections f))).1.map _)
        = shownResult hide ((convertActivities strict document activities).1.map _)
      unfold convertActivities
      rw [hnotes]
      exact shownResult_eq document trigger hconvert

end Pipeline

end FactoryMigration
