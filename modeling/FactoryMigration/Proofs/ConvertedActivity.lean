import Mathlib.Data.List.Forall2
import FactoryMigration.Proofs.LenientFailure
import FactoryMigration.Proofs.Strictness

set_option autoImplicit false

/-! # What activities are converted to

One level of a conversion, taken apart: `Converted` says what an activity becomes by its kind, and
`Child` what becomes of the activities inside it. Claims on whole trees follow by induction on the
definition (`Json.induction_items`), one case for each form of `Converted`. -/

namespace FactoryMigration

namespace Conversion

variable {α β : Type}

/-- From some memory the conversion ends with the value. -/
def Yields (c : Conversion α) (value : α) : Prop :=
  ∃ before after, c before = (.ok value, after)

/-- From some memory the conversion ends with the failure. -/
def Fails (c : Conversion α) (failure : Failure) : Prop :=
  ∃ before after, c before = (.error failure, after)

theorem Yields.bind {c : Conversion α} {f : α → Conversion β} {value : β}
    (h : Yields (c >>= f) value) : ∃ x, Yields c x ∧ Yields (f x) value := by
  obtain ⟨before, after, h⟩ := h
  obtain ⟨x, between, hc, hf⟩ := exists_of_bind_ok h
  exact ⟨x, ⟨before, between, hc⟩, between, after, hf⟩

/-- What follows a conversion only matters for the values that it ends with. -/
theorem bind_congr_of_yields {c : Conversion α} {f g : α → Conversion β}
    (h : ∀ value, c.Yields value → f value = g value) : (c >>= f) = (c >>= g) := by
  funext memory
  rcases hc : c memory with ⟨failure | value, between⟩
  · rw [bind_of_error hc, bind_of_error hc]
  · rw [bind_of_ok hc, bind_of_ok hc, h value ⟨memory, between, hc⟩]

theorem Yields.inScope {scope : Scope} {c : Conversion α} {value : α}
    (h : Yields (inScope scope c) value) : Yields c value := by
  obtain ⟨before, after, h⟩ := h
  have hresult : (Conversion.inScope scope c before).1 = .ok value := congrArg Prod.fst h
  exact ⟨{ before with log := before.log.enter scope }, _, Prod.ext hresult rfl⟩

theorem Yields.eq_of_pure {value value' : α} (h : Yields (pure value : Conversion α) value') :
    value' = value := by
  obtain ⟨before, after, h⟩ := h
  exact (Except.ok.inj (congrArg Prod.fst h)).symm

theorem Yields.eq_of_ofNoted {noted : Noted α} {value : α} (h : Yields (ofNoted noted) value) :
    value = noted.value := by
  obtain ⟨before, after, h⟩ := h
  exact (Except.ok.inj (congrArg Prod.fst h)).symm

theorem Yields.eq_of_ofExcept {result : Except Failure α} {value : α}
    (h : Yields (ofExcept result) value) : result = .ok value := by
  obtain ⟨before, after, h⟩ := h
  exact congrArg Prod.fst h

theorem not_yields_fail {failure : Failure} {value : α} :
    ¬Yields (fail failure : Conversion α) value := by
  rintro ⟨before, after, h⟩
  cases h

theorem Yields.traverse {f : α → Conversion β} {xs : List α} {ys : List β}
    (h : Yields (traverse f xs) ys) : List.Forall₂ (fun x => Yields (f x)) xs ys := by
  induction xs generalizing ys with
  | nil =>
    obtain rfl := h.eq_of_pure
    exact .nil
  | cons x xs ih =>
    obtain ⟨y, hy, h⟩ := h.bind
    obtain ⟨ys', hys, h⟩ := h.bind
    obtain rfl := h.eq_of_pure
    exact .cons hy (ih hys)

/-- What comes out of a containment: the value of the conversion, or that of what was put in the
place of its failure. -/
theorem Yields.recover {c : Conversion α} {handle : Failure → Option (Conversion α)} {value : α}
    (h : Yields (recover c handle) value) :
    Yields c value ∨
      ∃ failure next, Fails c failure ∧ handle failure = some next ∧ Yields next value := by
  obtain ⟨before, after, h⟩ := h
  rcases hc : c before with ⟨failure | own, between⟩
  · cases hnext : handle failure with
    | none =>
      rw [recover_of_none hc hnext] at h
      cases h
    | some next =>
      rw [recover_of_some hc hnext] at h
      exact .inr ⟨failure, next, ⟨before, between, hc⟩, hnext, between, after, h⟩
  · rw [recover_of_ok hc] at h
    exact .inl ⟨before, after, hc.trans h⟩

theorem Fails.of_bind_pure {c : Conversion α} {f : α → β} {failure : Failure}
    (h : Fails (do return f (← c)) failure) : Fails c failure := by
  obtain ⟨before, after, h⟩ := h
  rcases hc : c before with ⟨failure' | own, between⟩
  · rw [bind_of_error hc] at h
    obtain rfl : failure' = failure := Except.error.inj (congrArg Prod.fst h)
    exact ⟨before, between, hc⟩
  · rw [bind_of_ok hc] at h
    cases h

end Conversion

/-! ## One level of a conversion -/

/-- What a task takes over from the definition of its activity. -/
structure Task.Of (activity : Json) (task : Task) : Prop where
  key : task.key = keyOf activity
  name : task.name = keyOf activity
  type : task.type = typeOf activity
  dependsOn : (Dependency.ofValue (activity.get? "depends_on")).value = .ok task.dependsOn

/-- The task of the placeholder for a child that failed. It has no dependency but the given one. -/
def Task.contained (child : Json) (dependency : Option Dependency) : Task where
  key := keyOf child
  type := typeOf child
  description := child.text? "description"
  policy := Policy.none
  dependsOn := dependency.toList
  cluster := none

/-- What a child of a branch or of a loop body becomes: its own conversion with one more dependency,
or a placeholder if the child has a fault. -/
inductive Child (strict inLoop : Bool) (dependency : Option Dependency) (child : Json) :
    Activity → Prop where
  | converted {own : Activity} (h : (convert strict inLoop child).Yields own) :
      Child strict inLoop dependency child (own.addDependency dependency)
  | contained {failure : Failure} (h : Task.Fault child failure) :
      Child strict inLoop dependency child
        (.placeholder (Task.contained child dependency) failure.message)

/-- What an activity becomes. Only a branch whose condition is understood has children, those for a
false condition first; only a loop that has a body is repeated. -/
inductive Converted (strict : Bool) (activity : Json) : Activity → Prop where
  | single {task : Task} {work : Work} (htask : Task.Of activity task)
      (hsingle : Task.typeOf activity = ActivityKind.ifCondition.tag →
        ∃ rejection, branchCondition activity = .error rejection) :
      Converted strict activity (.single task work)
  | branch {task : Task} {condition : Condition} {ifFalse ifTrue : List Activity}
      (htask : Task.Of activity task)
      (hkind : Task.typeOf activity = ActivityKind.ifCondition.tag)
      (hcondition : branchCondition activity = .ok condition)
      (hfalse : List.Forall₂ (Child strict false (some (.onOutcome task.key "false")))
        (activity.items "if_false_activities") ifFalse)
      (htrue : List.Forall₂ (Child strict false (some (.onOutcome task.key "true")))
        (activity.items "if_true_activities") ifTrue) :
      Converted strict activity (.branch task condition (ifFalse ++ ifTrue))
  | loop {task : Task} {items : String} {concurrency : Option Nat} {body : List Activity}
      (htask : Task.Of activity task)
      (hkind : Task.typeOf activity = ActivityKind.forEach.tag)
      (hitems : activity.items "activities" ≠ [])
      (hbody : List.Forall₂ (Child strict true none) (activity.items "activities") body) :
      Converted strict activity (.loop task items concurrency body)

theorem Task.of_yields {activity : Json} {task : Task} (h : (ofDefinition activity).Yields task) :
    Of activity task := by
  unfold ofDefinition at h
  obtain ⟨_, -, h⟩ := h.bind
  obtain ⟨policy, -, h⟩ := h.bind
  obtain ⟨dependencies, hnoted, h⟩ := h.bind
  obtain ⟨dependsOn, hdependsOn, h⟩ := h.bind
  obtain ⟨cluster, -, h⟩ := h.bind
  obtain rfl := h.eq_of_pure
  refine ⟨rfl, rfl, rfl, ?_⟩
  rw [← hnoted.eq_of_ofNoted]
  exact hdependsOn.eq_of_ofExcept

/-- A rejected activity that does not end the conversion is a placeholder. -/
theorem reject_yields {strict : Bool} {task : Task} {rejection : Rejection} {converted : Activity}
    (h : (reject strict task rejection).Yields converted) :
    ∃ reason, converted = .single task (.placeholder reason) := by
  cases strict with
  | true => cases rejection <;> exact absurd h Conversion.not_yields_fail
  | false =>
    cases rejection with
    | value property reason | expression property reason =>
      obtain ⟨_, -, h⟩ := h.bind
      exact ⟨reason.message, h.eq_of_pure⟩

/-- Settled work was read, or it stands for a rejection. -/
theorem settle_yields {strict : Bool} {task : Task} {read : Except Rejection Work}
    {converted : Activity} (h : (settle strict task (read.map (.single task))).Yields converted) :
    ∃ work, converted = .single task work ∧ (read = .ok work ∨ ∃ reason, work = .placeholder reason) := by
  cases read with
  | ok work => exact ⟨work, h.eq_of_pure, .inl rfl⟩
  | error rejection =>
    obtain ⟨reason, hreason⟩ := reject_yields h
    exact ⟨.placeholder reason, hreason, .inr ⟨reason, rfl⟩⟩

theorem contain_yields {child : Json} {dependency : Option Dependency} {failure : Failure}
    {converted : Activity} (h : (contain child dependency failure).Yields converted) :
    converted = .placeholder (Task.contained child dependency) failure.message := by
  obtain ⟨_, -, h⟩ := h.bind
  exact h.eq_of_pure

/-! ## Faults -/

/-- Dependencies that can be read have no fault. -/
theorem Dependency.not_ofFirst_fault {activity : Json} {declared : List Dependency}
    (h : (ofValue (activity.get? "depends_on")).value = .ok declared) (failure : Failure) :
    ¬Failure.OfFirst Fault (activity.items "depends_on") failure := by
  intro hfault
  have herror := (ofEntries_error_iff _ _).mpr hfault
  change (ofValue (activity.get? "depends_on")).value = .error failure at herror
  rw [h] at herror
  cases herror

/-- In both modes, a failure that a branch contains is the fault of the activity. -/
theorem convert_fault_of_fails {strict inLoop : Bool} {activity : Json} {failure : Failure}
    (h : (convert strict inLoop activity).Fails failure)
    (hcontain : mayContain strict failure = true) : Task.Fault activity failure := by
  obtain ⟨before, after, h⟩ := h
  have hlenient : (convert false inLoop activity before).1 = .error failure := by
    cases strict with
    | false => rw [h]
    | true =>
      rcases convert_agrees inLoop activity before with hsame | ⟨failure', after', h', hv⟩
      · rw [← hsame, h]
      · -- a strict violation is not contained in strict mode
        rw [h'] at h
        obtain rfl : failure' = failure := Except.error.inj (congrArg Prod.fst h)
        simp [mayContain, hv] at hcontain
  exact (convert_failsAs inLoop activity before failure).mp hlenient

/-- In both modes, an activity that is converted has no fault. -/
theorem not_fault_of_convert_yields {strict inLoop : Bool} {activity : Json} {converted : Activity}
    (h : (convert strict inLoop activity).Yields converted) (failure : Failure) :
    ¬Task.Fault activity failure := by
  obtain ⟨before, after, h⟩ := h
  intro hfault
  have hlenient : (convert false inLoop activity before).1 = .error failure :=
    (convert_failsAs inLoop activity before failure).mpr hfault
  cases strict with
  | false =>
    rw [h] at hlenient
    cases hlenient
  | true =>
    rcases convert_agrees inLoop activity before with hsame | ⟨failure', after', h', -⟩
    · rw [← hsame, h] at hlenient
      cases hlenient
    · rw [h] at h'
      cases h'

/-! ## Inversion -/

theorem branchChild_yields {strict inLoop : Bool} {child : Json} {dependency : Option Dependency}
    {converted : Activity}
    (h : (branchChild strict child dependency (convert strict inLoop child)).Yields converted) :
    Child strict inLoop dependency child converted := by
  rcases h.recover with h | ⟨failure, next, hfails, hnext, h⟩
  · obtain ⟨own, hown, h⟩ := h.bind
    obtain rfl := h.eq_of_pure
    exact .converted hown
  · split at hnext
    · rename_i hcontain
      obtain rfl := Option.some.inj hnext
      obtain rfl := contain_yields h
      exact .contained (convert_fault_of_fails hfails.of_bind_pure hcontain)
    · cases hnext

theorem convertItem_yields {strict : Bool} {child : Json} {converted : Activity}
    (h : (convertItem strict child).Yields converted) : Child strict true none child converted := by
  obtain ⟨_, -, h⟩ := h.bind
  exact branchChild_yields h

theorem convertBranch_yields {strict : Bool} {activity : Json} {task : Task} {converted : Activity}
    (htask : Task.Of activity task)
    (hkind : Task.typeOf activity = ActivityKind.ifCondition.tag)
    (h : (convertBranch strict activity task
      (Conversion.traverse (convertChild strict task "false") (activity.items "if_false_activities"))
      (Conversion.traverse (convertChild strict task "true")
        (activity.items "if_true_activities"))).Yields converted) :
    Converted strict activity converted := by
  unfold convertBranch at h
  cases hcondition : branchCondition activity with
  | error rejection =>
    rw [hcondition] at h
    obtain ⟨reason, rfl⟩ := reject_yields h
    exact .single htask fun _ => ⟨rejection, hcondition⟩
  | ok condition =>
    rw [hcondition] at h
    obtain ⟨ifFalse, hfalse, h⟩ := h.bind
    obtain ⟨ifTrue, htrue, h⟩ := h.bind
    have hconverted : converted = .branch task condition (ifFalse ++ ifTrue) := by
      dsimp only at h
      split at h
      · obtain ⟨_, -, h⟩ := h.bind
        exact h.eq_of_pure
      · exact h.eq_of_pure
    subst hconverted
    exact .branch htask hkind hcondition (hfalse.traverse.imp fun _ _ => branchChild_yields)
      (htrue.traverse.imp fun _ _ => branchChild_yields)

/-- A loop without a body is rejected. -/
theorem items_ne_nil_of_loopHeader {activity : Json} {items : String}
    (h : loopHeader activity = .ok items) : activity.items "activities" ≠ [] := by
  intro hnil
  unfold loopHeader at h
  rw [hnil] at h
  cases hitems : loopItems activity with
  | error rejection =>
    rw [hitems] at h
    cases h
  | ok text =>
    rw [hitems] at h
    cases h

theorem convertLoop_yields {strict : Bool} {activity : Json} {task : Task} {converted : Activity}
    (htask : Task.Of activity task) (hkind : Task.typeOf activity = ActivityKind.forEach.tag)
    (h : (convertLoop strict activity task
      (Conversion.traverse (convertItem strict) (activity.items "activities"))).Yields converted) :
    Converted strict activity converted := by
  unfold convertLoop at h
  cases hheader : loopHeader activity with
  | error rejection =>
    rw [hheader] at h
    obtain ⟨reason, rfl⟩ := reject_yields h
    refine .single htask fun hbranch => ?_
    rw [hkind] at hbranch
    exact absurd hbranch (by decide)
  | ok items =>
    rw [hheader] at h
    obtain ⟨_, -, h⟩ := h.bind
    obtain ⟨body, hbody, h⟩ := h.bind
    obtain rfl := h.eq_of_pure
    exact .loop htask hkind (items_ne_nil_of_loopHeader hheader)
      (hbody.traverse.imp fun _ _ => convertItem_yields)

/-- **Inversion.** What the conversion of an activity ends with. -/
theorem convert_yields {strict inLoop : Bool} {activity : Json} {converted : Activity}
    (h : (convert strict inLoop activity).Yields converted) :
    Converted strict activity converted := by
  rw [convert_eq] at h
  obtain ⟨task, htask, h⟩ := h.inScope.bind
  replace htask := Task.of_yields htask
  -- an activity of another kind than a branch becomes a single task or a loop
  have hsingle {kind : Option ActivityKind} (hkind : ActivityKind.ofTag? task.type = kind)
      (hother : kind ≠ some .ifCondition) {work : Work} (hwork : converted = .single task work) :
      Converted strict activity converted := by
    subst hwork
    refine .single htask fun hbranch => absurd ?_ hother
    rw [← hkind, htask.type, hbranch, ActivityKind.ofTag?_tag]
  unfold convertWork at h
  split at h
  · rename_i hkind
    obtain ⟨_, -, h⟩ := h.bind
    exact hsingle hkind nofun h.eq_of_pure
  · rename_i hkind
    obtain ⟨read, -, h⟩ := h.bind
    obtain ⟨work, hwork, -⟩ := settle_yields h
    exact hsingle hkind nofun hwork
  · rename_i hkind
    obtain ⟨work, hwork, -⟩ := settle_yields h
    exact hsingle hkind nofun hwork
  · rename_i hkind
    obtain ⟨work, hwork, -⟩ := settle_yields h
    exact hsingle hkind nofun hwork
  · rename_i hkind
    obtain ⟨noted, -, h⟩ := h.bind
    obtain ⟨copy, -, h⟩ := h.bind
    obtain ⟨work, hwork, -⟩ := settle_yields h
    exact hsingle hkind nofun hwork
  · rename_i hkind
    exact convertBranch_yields htask
      (htask.type.symm.trans (ActivityKind.tag_of_ofTag? hkind).symm) h
  · rename_i hkind
    exact convertLoop_yields htask
      (htask.type.symm.trans (ActivityKind.tag_of_ofTag? hkind).symm) h

/-! ## Single tasks -/

/-- What a definition is read as, by the kind of the activity. -/
inductive Work.IsReadAs (strict inLoop : Bool) (activity : Json) : ActivityKind → Work → Prop where
  | notebook {path : String} {parameters : Table String}
      (h : (ofNotebook inLoop activity).value = .ok (.notebook path parameters)) :
      IsReadAs strict inLoop activity .notebook (.notebook path parameters)
  | sparkJar (mainClass : String) (parameters libraries : List Json) :
      IsReadAs strict inLoop activity .sparkJar (.sparkJar mainClass parameters libraries)
  | sparkPython (file : String) (parameters : List Json) :
      IsReadAs strict inLoop activity .sparkPython (.sparkPython file parameters)
  | copy {body : Copy} {read : Noted (Except Obstacle Copy)}
      (hread : Copy.ofActivity strict activity = .ok read) (h : read.value = .ok body) :
      IsReadAs strict inLoop activity .copy (.copy body)

theorem Work.exists_of_ofNotebook {inLoop : Bool} {activity : Json} {work : Work}
    (h : (ofNotebook inLoop activity).value = .ok work) :
    ∃ path parameters, work = .notebook path parameters := by
  unfold ofNotebook at h
  split at h
  · cases h
  · exact ⟨_, _, (Except.ok.inj h).symm⟩

theorem Work.exists_of_ofCopy {read : Except Obstacle Copy} {work : Work}
    (h : ofCopy read = .ok work) : ∃ body, read = .ok body ∧ work = .copy body := by
  cases read with
  | ok body => exact ⟨body, rfl, (Except.ok.inj h).symm⟩
  | error obstacle => cases h

theorem settle_yields_single {strict : Bool} {task own : Task} {read : Except Rejection Work}
    {work : Work} (h : (settle strict task (read.map (.single task))).Yields (.single own work)) :
    read = .ok work ∨ ∃ reason, work = .placeholder reason := by
  obtain ⟨settled, hsingle, hwork⟩ := settle_yields h
  obtain ⟨-, rfl⟩ := Activity.single.inj hsingle
  exact hwork

/-- A branch becomes a single task only if it is rejected. -/
theorem convertBranch_yields_single {strict : Bool} {activity : Json} {task own : Task}
    {ifFalse ifTrue : Conversion (List Activity)} {work : Work}
    (h : (convertBranch strict activity task ifFalse ifTrue).Yields (.single own work)) :
    ∃ reason, work = .placeholder reason := by
  unfold convertBranch at h
  split at h
  · obtain ⟨reason, hreason⟩ := reject_yields h
    exact ⟨reason, (Activity.single.inj hreason).2⟩
  · obtain ⟨_, -, h⟩ := h.bind
    obtain ⟨_, -, h⟩ := h.bind
    dsimp only at h
    split at h
    · obtain ⟨_, -, h⟩ := h.bind
      cases h.eq_of_pure
    · cases h.eq_of_pure

/-- A loop becomes a single task only if it is rejected. -/
theorem convertLoop_yields_single {strict : Bool} {activity : Json} {task own : Task}
    {body : Conversion (List Activity)} {work : Work}
    (h : (convertLoop strict activity task body).Yields (.single own work)) :
    ∃ reason, work = .placeholder reason := by
  unfold convertLoop at h
  split at h
  · obtain ⟨reason, hreason⟩ := reject_yields h
    exact ⟨reason, (Activity.single.inj hreason).2⟩
  · obtain ⟨_, -, h⟩ := h.bind
    obtain ⟨_, -, h⟩ := h.bind
    cases h.eq_of_pure

/-- **Inversion of single tasks.** Work other than a placeholder is read from the definition, by the kind
of the activity. -/
theorem convertWork_yields_single {strict inLoop : Bool} {activity : Json} {task own : Task}
    {ifFalse ifTrue body : Conversion (List Activity)} {work : Work}
    (h : (convertWork strict inLoop activity task ifFalse ifTrue body).Yields (.single own work)) :
    (∃ kind, ActivityKind.ofTag? task.type = some kind ∧
      Work.IsReadAs strict inLoop activity kind work) ∨ ∃ reason, work = .placeholder reason := by
  unfold convertWork at h
  split at h
  · obtain ⟨_, -, h⟩ := h.bind
    exact .inr ⟨_, (Activity.single.inj h.eq_of_pure).2⟩
  · rename_i hkind
    obtain ⟨read, hread, h⟩ := h.bind
    obtain rfl := hread.eq_of_ofNoted
    refine (settle_yields_single h).imp_left fun hwork => ⟨_, hkind, ?_⟩
    obtain ⟨path, parameters, rfl⟩ := Work.exists_of_ofNotebook hwork
    exact .notebook hwork
  · rename_i hkind
    refine (settle_yields_single h).imp_left fun hwork => ⟨_, hkind, ?_⟩
    obtain ⟨mainClass, -, hwork⟩ := exists_of_bind_eq_ok hwork
    cases hwork
    exact .sparkJar mainClass _ _
  · rename_i hkind
    refine (settle_yields_single h).imp_left fun hwork => ⟨_, hkind, ?_⟩
    obtain ⟨file, -, hwork⟩ := exists_of_bind_eq_ok hwork
    cases hwork
    exact .sparkPython file _
  · rename_i hkind
    obtain ⟨noted, hnoted, h⟩ := h.bind
    obtain ⟨read, hread, h⟩ := h.bind
    obtain rfl := hread.eq_of_ofNoted
    refine (settle_yields_single h).imp_left fun hwork => ⟨_, hkind, ?_⟩
    obtain ⟨body, hbody, rfl⟩ := Work.exists_of_ofCopy hwork
    exact .copy hnoted.eq_of_ofExcept hbody
  · exact .inr (convertBranch_yields_single h)
  · exact .inr (convertLoop_yields_single h)

/-! ## Sessions and documents -/

/-- The tasks of a session are the flattened conversions of its activities, in order. -/
theorem Session.exists_trees_of_convertAll {session after : Session} {activities : List Json}
    {tasks : List Activity} (h : session.convertAll activities = (.ok tasks, after)) :
    ∃ trees, List.Forall₂ (fun activity => (FactoryMigration.convert session.strict false
      activity).Yields) activities trees ∧ tasks = Activity.flattenAll trees := by
  induction activities generalizing session tasks with
  | nil =>
    cases h
    exact ⟨[], .nil, rfl⟩
  | cons activity rest ih =>
    unfold convertAll at h
    rcases hfirst : session.convert activity with ⟨failure | first, between⟩
    · rw [hfirst] at h
      cases h
    · rw [hfirst] at h
      dsimp only at h
      rcases hothers : between.convertAll rest with ⟨failure | others, after'⟩
      · rw [hothers] at h
        cases h
      · rw [hothers] at h
        cases h
        have hmode : (session.convert activity).2.strict = session.strict := rfl
        rw [hfirst] at hmode
        obtain ⟨trees, htrees, rfl⟩ := ih hothers
        rw [hmode] at htrees
        have hresult : (session.convert activity).1 = .ok first := congrArg Prod.fst hfirst
        exact ⟨first :: trees, .cons ⟨session.toMemory, _, Prod.ext hresult rfl⟩ htrees, rfl⟩

/-- The tasks of a converted document are the flattened conversions of its activities, in order. -/
theorem Pipeline.exists_trees_of_ofDocument {strict : Bool} {document : Json}
    {trigger : Option Json} {pipeline : Pipeline}
    (h : ofDocument strict document trigger = .ok pipeline) :
    ∃ trees, List.Forall₂ (fun activity => (FactoryMigration.convert strict false activity).Yields)
      (document.items "activities") trees ∧ pipeline.tasks = Activity.flattenAll trees := by
  cases hobject : document.isObject with
  | false =>
    rw [ofDocument_of_not_isObject hobject] at h
    cases h
  | true =>
    rw [ofDocument_of_isObject hobject] at h
    cases hactivities : activitiesOf document with
    | error failure =>
      rw [hactivities] at h
      cases h
    | ok activities =>
      rw [hactivities] at h
      change (convertActivities strict document activities).1.map _ = .ok pipeline at h
      rcases hconverted : convertActivities strict document activities with ⟨failure | tasks, after⟩
      · rw [hconverted] at h
        cases h
      · rw [hconverted] at h
        cases h
        rw [← activitiesOf_eq hactivities]
        exact Session.exists_trees_of_convertAll hconverted

end FactoryMigration
