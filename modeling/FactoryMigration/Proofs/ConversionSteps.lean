import FactoryMigration.Activity.Definition

set_option autoImplicit false

/-! # Steps of conversions

A conversion is put together of a few steps. A property of all these steps that is kept when they are
put together is a property of the conversion of every activity (`Conversion.Closed.convert`). So a
conversion only adds diagnostics to the log, and does not look at those that are there
(`Conversion.closed_appends`). -/

namespace FactoryMigration

/-! ## Settings and work -/

namespace Task

/-- The same task on another cluster. -/
def withCluster (cluster : Option Cluster) (task : Task) : Task :=
  { task with cluster := cluster }

/-- Reads what every task has, but for its cluster. -/
def settings (activity : Json) : Conversion Task := do
  Conversion.record (nameNotes activity)
  let policy ← Conversion.policy (keyOf activity) (activity.get? "policy")
  let dependencies ← Conversion.ofNoted (Dependency.ofValue (activity.get? "depends_on"))
  let dependsOn ← Conversion.ofExcept dependencies
  return {
    key := keyOf activity
    type := typeOf activity
    description := activity.text? "description"
    policy := policy
    dependsOn := dependsOn
    cluster := none }

/-- The cluster of a task is read last. -/
theorem ofDefinition_eq_settings (activity : Json) :
    ofDefinition activity = (do
      let task ← settings activity
      let cluster ← Conversion.ofNoted (clusterOf activity)
      return task.withCluster cluster) := by
  unfold ofDefinition settings
  simp only [bind_assoc, pure_bind]
  rfl

end Task

/-- The activity of a task, with the conversions of the activities inside it. -/
def workOf (strict inLoop : Bool) (activity : Json) (task : Task) : Conversion Activity :=
  convertWork strict inLoop activity task
    (Conversion.traverse (convertChild strict task "false") (activity.items "if_false_activities"))
    (Conversion.traverse (convertChild strict task "true") (activity.items "if_true_activities"))
    (Conversion.traverse (convertItem strict) (activity.items "activities"))

theorem convert_eq_workOf (strict inLoop : Bool) (activity : Json) :
    convert strict inLoop activity = Conversion.inScope (Scope.ofActivity activity)
      (Task.ofDefinition activity >>= workOf strict inLoop activity) :=
  convert_eq strict inLoop activity

/-! ## Closed properties -/

/-- The property holds of the single steps of conversions, and of what is put together of conversions
that have it. -/
structure Conversion.Closed (p : ∀ {α : Type}, Conversion α → Prop) : Prop where
  ofExcept {α : Type} (result : Except Failure α) : p (Conversion.ofExcept result)
  record (notes : List Note) : p (Conversion.record notes)
  policy (name : String) (block : Option Json) : p (Conversion.policy name block)
  bind {α β : Type} {c : Conversion α} {f : α → Conversion β} (hc : p c)
    (hf : ∀ value, p (f value)) : p (c >>= f)
  inScope {α : Type} (scope : Scope) {c : Conversion α} (hc : p c) : p (Conversion.inScope scope c)
  recover {α : Type} {c : Conversion α} {handle : Failure → Option (Conversion α)} (hc : p c)
    (hhandle : ∀ failure next, handle failure = some next → p next) : p (Conversion.recover c handle)

namespace Conversion.Closed

variable {p : ∀ {α : Type}, Conversion α → Prop} (h : Closed p) {α β : Type}

include h

theorem pure (value : α) : p (Pure.pure value : Conversion α) :=
  h.ofExcept (.ok value)

theorem ofNoted (noted : Noted α) : p (Conversion.ofNoted noted) :=
  h.bind (h.record noted.notes) fun _ => h.pure noted.value

theorem traverse {f : α → Conversion β} {xs : List α} (hf : ∀ x ∈ xs, p (f x)) :
    p (Conversion.traverse f xs) := by
  induction xs with
  | nil => exact h.pure []
  | cons x xs ih =>
    have hx : p (f x) := hf x List.mem_cons_self
    have hxs : p (Conversion.traverse f xs) := ih fun y hy => hf y (List.mem_cons_of_mem x hy)
    exact h.bind hx fun y => h.bind hxs fun ys => h.pure (y :: ys)

theorem settings (activity : Json) : p (Task.settings activity) :=
  h.bind (h.record _) fun _ => h.bind (h.policy _ _) fun _ =>
    h.bind (h.ofNoted _) fun dependencies => h.bind (h.ofExcept dependencies) fun _ => h.pure _

theorem ofDefinition (activity : Json) : p (Task.ofDefinition activity) := by
  rw [Task.ofDefinition_eq_settings]
  exact h.bind (h.settings activity) fun _ => h.bind (h.ofNoted _) fun _ => h.pure _

theorem reject (strict : Bool) (task : Task) (rejection : Rejection) :
    p (FactoryMigration.reject strict task rejection) := by
  cases strict with
  | true => cases rejection <;> exact h.ofExcept (.error _)
  | false => cases rejection <;> exact h.bind (h.record _) fun _ => h.pure _

theorem settle (strict : Bool) (task : Task) (converted : Except Rejection Activity) :
    p (FactoryMigration.settle strict task converted) := by
  cases converted with
  | ok activity => exact h.pure activity
  | error rejection => exact h.reject strict task rejection

theorem contain (child : Json) (dependency : Option Dependency) (failure : Failure) :
    p (FactoryMigration.contain child dependency failure) :=
  h.bind (h.inScope _ (h.record _)) fun _ => h.pure _

theorem branchChild (strict : Bool) (child : Json) (dependency : Option Dependency)
    {c : Conversion Activity} (hc : p c) :
    p (FactoryMigration.branchChild strict child dependency c) := by
  refine h.recover (h.bind hc fun _ => h.pure _) fun failure next hnext => ?_
  split at hnext
  · obtain rfl := Option.some.inj hnext
    exact h.contain child dependency failure
  · cases hnext

theorem convertBranch (strict : Bool) (activity : Json) (task : Task)
    {ifFalse ifTrue : Conversion (List Activity)} (hfalse : p ifFalse) (htrue : p ifTrue) :
    p (FactoryMigration.convertBranch strict activity task ifFalse ifTrue) := by
  unfold FactoryMigration.convertBranch
  cases branchCondition activity with
  | error rejection => exact h.reject strict task rejection
  | ok condition =>
    refine h.bind hfalse fun falseChildren => h.bind htrue fun trueChildren => ?_
    dsimp only
    split
    · exact h.bind (h.record _) fun _ => h.pure _
    · exact h.pure _

theorem convertLoop (strict : Bool) (activity : Json) (task : Task)
    {body : Conversion (List Activity)} (hbody : p body) :
    p (FactoryMigration.convertLoop strict activity task body) := by
  unfold FactoryMigration.convertLoop
  cases loopHeader activity with
  | error rejection => exact h.reject strict task rejection
  | ok items => exact h.bind (h.record _) fun _ => h.bind hbody fun _ => h.pure _

theorem convertWork (strict inLoop : Bool) (activity : Json) (task : Task)
    {ifFalse ifTrue body : Conversion (List Activity)} (hfalse : p ifFalse) (htrue : p ifTrue)
    (hbody : p body) :
    p (FactoryMigration.convertWork strict inLoop activity task ifFalse ifTrue body) := by
  unfold FactoryMigration.convertWork
  split
  · exact h.bind (h.record _) fun _ => h.pure _
  · exact h.bind (h.ofNoted _) fun _ => h.settle strict task _
  · exact h.settle strict task _
  · exact h.settle strict task _
  · exact h.bind (h.ofExcept _) fun copy => h.bind (h.ofNoted copy) fun _ => h.settle strict task _
  · exact h.convertBranch strict activity task hfalse htrue
  · exact h.convertLoop strict activity task hbody

/-- The work of a task has the property, if the conversions of the activities inside it have it. -/
theorem workOf_of_items {strict : Bool} {activity : Json}
    (hitems : ∀ key, ∀ child ∈ activity.items key, ∀ inLoop,
      p (FactoryMigration.convert strict inLoop child))
    (inLoop : Bool) (task : Task) : p (FactoryMigration.workOf strict inLoop activity task) := by
  have hchildren (outcome key : String) :
      p (Conversion.traverse (convertChild strict task outcome) (activity.items key)) :=
    h.traverse fun child hchild => h.branchChild strict child _ (hitems key child hchild false)
  have hbody : p (Conversion.traverse (convertItem strict) (activity.items "activities")) :=
    h.traverse fun child hchild => h.bind (h.inScope _ (h.record _)) fun _ =>
      h.branchChild strict child none (hitems _ child hchild true)
  exact h.convertWork strict inLoop activity task (hchildren _ _) (hchildren _ _) hbody

/-- **Activities.** A closed property holds of the conversion of every activity. -/
theorem convert (strict inLoop : Bool) (activity : Json) :
    p (FactoryMigration.convert strict inLoop activity) := by
  induction activity using Json.induction_items generalizing inLoop with
  | step activity ih =>
    rw [convert_eq_workOf]
    exact h.inScope _ (h.bind (h.ofDefinition activity) fun task =>
      h.workOf_of_items (fun key child hchild inLoop => ih key child hchild inLoop) inLoop task)

theorem workOf (strict inLoop : Bool) (activity : Json) (task : Task) :
    p (FactoryMigration.workOf strict inLoop activity task) :=
  h.workOf_of_items (fun _ child _ inLoop => h.convert strict inLoop child) inLoop task

end Conversion.Closed

/-! ## Earlier diagnostics -/

namespace Conversion

variable {α β : Type}

/-- From the given cache and scopes the conversion has this result, with this cache, and adds these
diagnostics, whatever diagnostics there are. -/
def Runs (c : Conversion α) (cache : Policy.Cache) (scopes : List Scope) (result : Except Failure α)
    (cache' : Policy.Cache) (recorded : List Diagnostic) : Prop :=
  ∀ entries, c ⟨cache, ⟨scopes, entries⟩⟩ = (result, ⟨cache', ⟨scopes, entries ++ recorded⟩⟩)

/-- What a conversion does, and which diagnostics it adds, does not depend on the diagnostics that are
there. -/
def Appends (c : Conversion α) : Prop :=
  ∀ cache scopes, ∃ result cache' recorded, c.Runs cache scopes result cache' recorded

variable {cache cache' cache'' : Policy.Cache} {scopes : List Scope}
  {recorded more : List Diagnostic}

theorem Runs.ofExcept (result : Except Failure α) :
    (ofExcept result).Runs cache scopes result cache [] := by
  intro entries
  rw [List.append_nil]
  rfl

theorem Runs.record (notes : List Note) :
    (record notes).Runs cache scopes (.ok ()) cache (notes.map (Log.tag ⟨scopes, []⟩)) :=
  fun _ => rfl

theorem Runs.bind_ok {c : Conversion α} {f : α → Conversion β} {value : α}
    {result : Except Failure β} (hc : c.Runs cache scopes (.ok value) cache' recorded)
    (hf : (f value).Runs cache' scopes result cache'' more) :
    (c >>= f).Runs cache scopes result cache'' (recorded ++ more) := by
  intro entries
  rw [bind_of_ok (hc entries), hf, List.append_assoc]

theorem Runs.bind_error {c : Conversion α} {f : α → Conversion β} {failure : Failure}
    (hc : c.Runs cache scopes (.error failure) cache' recorded) :
    (c >>= f).Runs cache scopes (.error failure) cache' recorded :=
  fun entries => bind_of_error (hc entries)

theorem Runs.ofNoted (noted : Noted α) :
    (ofNoted noted).Runs cache scopes (.ok noted.value) cache
      (noted.notes.map (Log.tag ⟨scopes, []⟩)) :=
  fun _ => rfl

theorem Runs.inScope {c : Conversion α} {scope : Scope} {result : Except Failure α}
    (hc : c.Runs cache (scope :: scopes) result cache' recorded) :
    (inScope scope c).Runs cache scopes result cache' recorded := by
  intro entries
  have hinner : c { (⟨cache, ⟨scopes, entries⟩⟩ : Memory) with
      log := Log.enter ⟨scopes, entries⟩ scope } = _ := hc entries
  simp only [Conversion.inScope, hinner]
  rfl

theorem Runs.recover {c next : Conversion α} {handle : Failure → Option (Conversion α)}
    {failure : Failure} {result : Except Failure α}
    (hc : c.Runs cache scopes (.error failure) cache' recorded) (hnext : handle failure = some next)
    (hrun : next.Runs cache' scopes result cache'' more) :
    (recover c handle).Runs cache scopes result cache'' (recorded ++ more) := by
  intro entries
  rw [recover_of_some (hc entries) hnext, hrun, List.append_assoc]

/-- **Earlier diagnostics.** No step looks at the diagnostics that are there. -/
theorem closed_appends : Closed @Appends where
  ofExcept result cache scopes := ⟨result, cache, [], .ofExcept result⟩
  record notes cache scopes := ⟨.ok (), cache, _, .record notes⟩
  policy name block cache scopes :=
    ⟨.ok (cache.read name block).1.value, (cache.read name block).2, _,
      fun entries => Runs.ofNoted (cache.read name block).1 entries⟩
  bind hc hf := by
    intro cache scopes
    obtain ⟨result, cache', recorded, hc⟩ := hc cache scopes
    cases result with
    | error failure => exact ⟨.error failure, cache', recorded, hc.bind_error⟩
    | ok value =>
      obtain ⟨result, cache'', more, hf⟩ := hf value cache' scopes
      exact ⟨result, cache'', recorded ++ more, hc.bind_ok hf⟩
  inScope scope _ hc := by
    intro cache scopes
    obtain ⟨result, cache', recorded, hc⟩ := hc cache (scope :: scopes)
    exact ⟨result, cache', recorded, hc.inScope⟩
  recover {_ c handle} hc hhandle := by
    intro cache scopes
    obtain ⟨result, cache', recorded, hc⟩ := hc cache scopes
    cases result with
    | ok value => exact ⟨.ok value, cache', recorded, fun entries => recover_of_ok (hc entries) handle⟩
    | error failure =>
      cases hnext : handle failure with
      | none =>
        exact ⟨.error failure, cache', recorded, fun entries => recover_of_none (hc entries) hnext⟩
      | some next =>
        obtain ⟨result, cache'', more, hrun⟩ := hhandle failure next hnext cache' scopes
        exact ⟨result, cache'', recorded ++ more, hc.recover hnext hrun⟩

end Conversion

end FactoryMigration
