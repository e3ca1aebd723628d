import FactoryMigration.Pipeline

set_option autoImplicit false

/-! # Failures of lenient conversion

Lenient mode puts placeholders in the place of what is rejected, and in the place of every branch
child that fails. What is left are the faults of the document itself and of its top-level activities:
an ambiguous dependency, or a first dataset of a copy without a usable linked service.
`Pipeline.ofDocument_lenient` says so, with the failure that is reported. -/

namespace FactoryMigration

/-! ## Faults -/

/-- The failures of a first step, or else of a second one that is only reached without them. -/
def Failure.OrElse (first second : Failure → Prop) (failure : Failure) : Prop :=
  first failure ∨ (∀ other, ¬first other) ∧ second failure

/-- The failure of the first item that has one. -/
def Failure.OfFirst {α : Type} (fault : α → Failure → Prop) (items : List α) (failure : Failure) :
    Prop :=
  ∃ before item after, items = before ++ item :: after ∧
    (∀ earlier ∈ before, ∀ other, ¬fault earlier other) ∧ fault item failure

/-- A dependency that names an activity is ambiguous if it has several outcome conditions. -/
def Dependency.Fault (entry : Json) (failure : Failure) : Prop :=
  ∃ upstream, entry.filledText? "activity" = some upstream ∧ 1 < (conditions entry).length ∧
    failure = .ambiguousDependency upstream (conditions entry).length

/-- A dataset definition without a usable linked service. -/
def Dataset.Fault (definition : Json) (failure : Failure) : Prop :=
  Dataset.ofDefinition definition = .error failure ∧
    ∃ dataset reason, failure = .unresolvedLinkedService dataset reason

/-- The fault of the first definition of a list. -/
def Copy.FirstFault (activity : Json) (key : String) (failure : Failure) : Prop :=
  ∃ definition rest, activity.items key = definition :: rest ∧ Dataset.Fault definition failure

/-- The fault of an activity: of its first ambiguous dependency, or else, if it is a copy, of its
first input or else its first output. -/
def Task.Fault (activity : Json) : Failure → Prop :=
  Failure.OrElse
    (Failure.OfFirst Dependency.Fault (activity.items "depends_on"))
    (fun failure => Task.typeOf activity = ActivityKind.copy.tag ∧
      Failure.OrElse (Copy.FirstFault activity "input_dataset_definitions")
        (Copy.FirstFault activity "output_dataset_definitions") failure)

/-- The fault of a pipeline document. -/
inductive Pipeline.Fault (document : Json) : Failure → Prop where
  | noObject (h : document.isObject = false) :
      Fault document (.invalidDocument "pipeline definition must be an object")
  | noList {value : Json} (h : document.get? "activities" = some value)
      (hnull : value ≠ .null) (harr : ∀ items, value ≠ .arr items) :
      Fault document (.invalidDocument ("'activities' must be a list, found " ++ value.compact))
  | activity {failure : Failure}
      (h : Failure.OfFirst Task.Fault (document.items "activities") failure) :
      Fault document failure

namespace Failure

theorem not_ofFirst_nil {α : Type} {fault : α → Failure → Prop} {failure : Failure} :
    ¬OfFirst fault [] failure := by
  rintro ⟨before, item, after, h, -⟩
  cases before with
  | nil => cases h
  | cons => cases h

theorem ofFirst_cons {α : Type} {fault : α → Failure → Prop} {x : α} {xs : List α}
    {failure : Failure} :
    OfFirst fault (x :: xs) failure ↔ OrElse (fault x) (OfFirst fault xs) failure := by
  constructor
  · rintro ⟨before, item, after, h, hbefore, hitem⟩
    cases before with
    | nil =>
      obtain ⟨rfl, rfl⟩ := List.cons.inj h
      exact .inl hitem
    | cons first before =>
      obtain ⟨rfl, rfl⟩ := List.cons.inj h
      exact .inr ⟨hbefore x List.mem_cons_self, before, item, after, rfl,
        fun earlier hmem => hbefore earlier (List.mem_cons_of_mem x hmem), hitem⟩
  · rintro (h | ⟨hx, before, item, after, rfl, hbefore, hitem⟩)
    · exact ⟨[], x, xs, rfl, fun _ hmem => absurd hmem List.not_mem_nil, h⟩
    · refine ⟨x :: before, item, after, rfl, fun earlier hmem => ?_, hitem⟩
      rcases List.mem_cons.mp hmem with rfl | hmem
      · exact hx
      · exact hbefore earlier hmem

/-- A result fails like its first step, or else like the step after it. -/
theorem bind_error_iff {α β : Type} {x : Except Failure α} {f : α → Except Failure β}
    {first second : Failure → Prop} (h : ∀ failure, x = .error failure ↔ first failure)
    (hf : ∀ value, x = .ok value → ∀ failure, f value = .error failure ↔ second failure)
    (failure : Failure) : x >>= f = .error failure ↔ OrElse first second failure := by
  cases x with
  | error reason =>
    have hreason : first reason := (h reason).mp rfl
    constructor
    · intro hfailure
      obtain rfl : reason = failure := Except.error.inj hfailure
      exact .inl hreason
    · intro hfailure
      have hfirst : first failure :=
        hfailure.resolve_right fun hsecond => hsecond.1 reason hreason
      have hsame : reason = failure := Except.error.inj ((h failure).mpr hfirst)
      exact congrArg Except.error hsame
  | ok value =>
    have hnone : ∀ other, ¬first other := by
      intro other hother
      cases (h other).mpr hother
    show f value = .error failure ↔ OrElse first second failure
    rw [hf value rfl failure]
    exact ⟨fun hsecond => .inr ⟨hnone, hsecond⟩,
      fun hfailure => (hfailure.resolve_left (hnone failure)).2⟩

end Failure

/-! ## Conversions that fail alike from every memory -/

/-- From every memory the conversion fails with exactly the failures of `fault`. -/
def Conversion.FailsAs {α : Type} (c : Conversion α) (fault : Failure → Prop) : Prop :=
  ∀ memory failure, (c memory).1 = .error failure ↔ fault failure

/-- The conversion ends with a value from every memory. -/
def Conversion.Total {α : Type} (c : Conversion α) : Prop :=
  ∀ memory, ∃ value after, c memory = (.ok value, after)

namespace Conversion

variable {α β : Type}

theorem Total.failsAs {c : Conversion α} (h : Total c) : FailsAs c fun _ => False := by
  intro memory failure
  obtain ⟨value, after, hc⟩ := h memory
  rw [hc]
  exact ⟨nofun, False.elim⟩

theorem FailsAs.total {c : Conversion α} (h : FailsAs c fun _ => False) : Total c := by
  intro memory
  rcases hc : c memory with ⟨failure | value, after⟩
  · exact ((h memory failure).mp (by rw [hc])).elim
  · exact ⟨value, after, rfl⟩

theorem FailsAs.congr {c : Conversion α} {fault fault' : Failure → Prop} (h : FailsAs c fault)
    (hfault : ∀ failure, fault failure ↔ fault' failure) : FailsAs c fault' :=
  fun memory failure => (h memory failure).trans (hfault failure)

theorem FailsAs.ofExcept (result : Except Failure α) :
    FailsAs (ofExcept result) fun failure => result = .error failure :=
  fun _ _ => Iff.rfl

theorem Total.pure (value : α) : Total (pure value : Conversion α) :=
  fun memory => ⟨value, memory, rfl⟩

theorem Total.record (notes : List Note) : Total (record notes) := fun _ => ⟨(), _, rfl⟩

theorem Total.ofNoted (noted : Noted α) : Total (ofNoted noted) := fun _ => ⟨noted.value, _, rfl⟩

theorem Total.policy (name : String) (block : Option Json) : Total (policy name block) :=
  fun _ => ⟨_, _, rfl⟩

/-- What follows a conversion only has to fail alike after the values it can end with. -/
theorem FailsAs.bind {c : Conversion α} {f : α → Conversion β} {first second : Failure → Prop}
    (h : FailsAs c first)
    (hf : ∀ memory value after, c memory = (.ok value, after) → FailsAs (f value) second) :
    FailsAs (c >>= f) (Failure.OrElse first second) := by
  intro memory failure
  have hbind : ((c >>= f) memory).1
      = (c memory).1 >>= fun value => (f value (c memory).2).1 := by
    rcases hc : c memory with ⟨reason | value, after⟩
    · rw [bind_of_error hc]
      rfl
    · rw [bind_of_ok hc]
      rfl
  rw [hbind]
  refine Failure.bind_error_iff (h memory) (fun value hvalue => ?_) failure
  exact hf memory value (c memory).2 (Prod.ext hvalue rfl) (c memory).2

/-- A conversion after a total one fails as if it came first. -/
theorem Total.bind_failsAs {c : Conversion α} {f : α → Conversion β} {fault : Failure → Prop}
    (h : Total c) (hf : ∀ memory value after, c memory = (.ok value, after) → FailsAs (f value) fault) :
    FailsAs (c >>= f) fault :=
  (h.failsAs.bind hf).congr fun _ =>
    ⟨fun hfailure => (hfailure.resolve_left id).2, fun hfailure => .inr ⟨fun _ => id, hfailure⟩⟩

theorem Total.bind {c : Conversion α} {f : α → Conversion β} (h : Total c)
    (hf : ∀ value, Total (f value)) : Total (c >>= f) :=
  (h.bind_failsAs fun _ value _ _ => (hf value).failsAs).total

/-- A total conversion at the end adds no failure. -/
theorem FailsAs.bind_total {c : Conversion α} {f : α → Conversion β} {fault : Failure → Prop}
    (h : FailsAs c fault) (hf : ∀ value, Total (f value)) : FailsAs (c >>= f) fault :=
  (h.bind fun _ value _ _ => (hf value).failsAs).congr fun _ =>
    ⟨fun hfailure => hfailure.resolve_right And.right, .inl⟩

theorem exists_of_bind_ok {c : Conversion α} {f : α → Conversion β} {before after : Memory}
    {value : β} (h : (c >>= f) before = (.ok value, after)) :
    ∃ x between, c before = (.ok x, between) ∧ f x between = (.ok value, after) := by
  rcases hc : c before with ⟨failure | x, between⟩
  · rw [bind_of_error hc] at h
    cases h
  · rw [bind_of_ok hc] at h
    exact ⟨x, between, rfl, h⟩

theorem FailsAs.inScope {c : Conversion α} {fault : Failure → Prop} (scope : Scope)
    (h : FailsAs c fault) : FailsAs (inScope scope c) fault :=
  fun memory failure => h { memory with log := memory.log.enter scope } failure

theorem Total.inScope {c : Conversion α} (scope : Scope) (h : Total c) : Total (inScope scope c) :=
  (h.failsAs.inScope scope).total

theorem Total.traverse {f : α → Conversion β} {xs : List α} (h : ∀ x ∈ xs, Total (f x)) :
    Total (traverse f xs) := by
  induction xs with
  | nil => exact .pure []
  | cons x xs ih =>
    have hx : Total (f x) := h x List.mem_cons_self
    have hxs : Total (Conversion.traverse f xs) :=
      ih fun y hy => h y (List.mem_cons_of_mem x hy)
    exact hx.bind fun y => hxs.bind fun ys => .pure (y :: ys)

end Conversion

open Conversion (FailsAs Total)

/-! ## Dependencies and datasets -/

theorem Dependency.ofEntry_error_iff (entry : Json) (failure : Failure) :
    ofEntry entry = .error failure ↔ Fault entry failure := by
  unfold ofEntry Fault
  cases entry.filledText? "activity" with
  | none => simp
  | some upstream =>
    by_cases hmany : 1 < (conditions entry).length
    · simp only [gt_iff_lt, hmany, if_true, Except.error.injEq]
      constructor
      · rintro rfl
        exact ⟨upstream, rfl, trivial, rfl⟩
      · rintro ⟨_, ⟨⟩, -, rfl⟩
        rfl
    · simp only [gt_iff_lt, hmany, if_false, false_and, and_false, exists_false, iff_false]
      split <;> simp

/-- The entries before the first ambiguous one are read without failing. -/
theorem Dependency.ofEntries_error_iff (entries : List Json) (failure : Failure) :
    (ofEntries entries).value = .error failure ↔ Failure.OfFirst Fault entries failure := by
  induction entries generalizing failure with
  | nil => exact ⟨nofun, fun h => absurd h Failure.not_ofFirst_nil⟩
  | cons entry entries ih =>
    have hbind : (ofEntries (entry :: entries)).value
        = ofEntry entry >>= fun first =>
            (ofEntries entries).value.map (first.value.toList ++ ·) := by
      cases hentry : ofEntry entry <;> simp [ofEntries, hentry, Noted.quiet] <;> rfl
    rw [hbind, Failure.ofFirst_cons]
    refine Failure.bind_error_iff (ofEntry_error_iff entry) (fun first _ failure => ?_) failure
    rw [← ih failure]
    cases (ofEntries entries).value <;> simp [Except.map]

theorem Dataset.ofDefinition_error_iff (definition : Json) (failure : Failure) :
    ofDefinition definition = .error failure ↔ Fault definition failure := by
  refine ⟨fun h => ⟨h, ?_⟩, And.left⟩
  simp only [ofDefinition] at h
  split at h
  · cases h
  · split at h
    · rename_i reason hservice
      obtain rfl := Except.error.inj h
      unfold linkedServiceOf at hservice
      split at hservice
      · cases hservice
      · exact ⟨_, _, (Except.error.inj hservice).symm⟩
      · exact ⟨_, _, (Except.error.inj hservice).symm⟩
      · exact ⟨_, _, (Except.error.inj hservice).symm⟩
    · split at h
      · cases h
      · cases h

theorem Copy.firstDataset_error_iff (activity : Json) (key : String) (failure : Failure) :
    firstDataset activity key = .error failure ↔ FirstFault activity key failure := by
  unfold firstDataset FirstFault
  cases activity.items key with
  | nil => simp
  | cons definition rest =>
    rw [Dataset.ofDefinition_error_iff]
    constructor
    · exact fun h => ⟨definition, rest, rfl, h⟩
    · rintro ⟨_, _, h, hfault⟩
      obtain ⟨rfl, rfl⟩ := List.cons.inj h
      exact hfault

theorem Copy.ofActivity_error_iff (strict : Bool) (activity : Json) (failure : Failure) :
    ofActivity strict activity = .error failure ↔
      Failure.OrElse (FirstFault activity "input_dataset_definitions")
        (FirstFault activity "output_dataset_definitions") failure := by
  refine Failure.bind_error_iff (firstDataset_error_iff activity _) (fun source _ failure => ?_)
    failure
  rw [← firstDataset_error_iff]
  cases firstDataset activity "output_dataset_definitions" with
  | error reason =>
    show Except.error reason = .error failure ↔ Except.error reason = .error failure
    rw [Except.error.injEq, Except.error.injEq]
  | ok sink => exact ⟨nofun, nofun⟩

/-! ## Activities -/

theorem Task.ofDefinition_failsAs (activity : Json) :
    FailsAs (ofDefinition activity)
      (Failure.OfFirst Dependency.Fault (activity.items "depends_on")) := by
  have hdependencies : FailsAs
      (Conversion.ofExcept (Dependency.ofValue (activity.get? "depends_on")).value)
      (Failure.OfFirst Dependency.Fault (activity.items "depends_on")) :=
    (FailsAs.ofExcept _).congr (Dependency.ofEntries_error_iff _)
  -- the notes and the policy are read without failing
  refine (Total.record _).bind_failsAs fun _ _ _ _ => ?_
  refine (Total.policy _ _).bind_failsAs fun _ _ _ _ => ?_
  refine (Total.ofNoted _).bind_failsAs fun _ dependencies _ h => ?_
  obtain rfl : (Dependency.ofValue (activity.get? "depends_on")).value = dependencies :=
    Except.ok.inj (congrArg Prod.fst h)
  exact hdependencies.bind_total fun _ => (Total.ofNoted _).bind fun _ => .pure _

theorem Task.type_of_ofDefinition {activity : Json} {before after : Memory} {task : Task}
    (h : ofDefinition activity before = (.ok task, after)) : task.type = typeOf activity := by
  obtain ⟨_, _, -, h⟩ := Conversion.exists_of_bind_ok h
  obtain ⟨_, _, -, h⟩ := Conversion.exists_of_bind_ok h
  obtain ⟨_, _, -, h⟩ := Conversion.exists_of_bind_ok h
  obtain ⟨_, _, -, h⟩ := Conversion.exists_of_bind_ok h
  obtain ⟨_, _, -, h⟩ := Conversion.exists_of_bind_ok h
  cases h
  rfl

theorem reject_total (task : Task) (rejection : Rejection) : Total (reject false task rejection) := by
  cases rejection with
  | value property reason => exact (Total.record _).bind fun _ => .pure _
  | expression property reason => exact (Total.record _).bind fun _ => .pure _

theorem settle_total (task : Task) (converted : Except Rejection Activity) :
    Total (settle false task converted) := by
  cases converted with
  | ok activity => exact .pure activity
  | error rejection => exact reject_total task rejection

theorem contain_total (child : Json) (dependency : Option Dependency) (failure : Failure) :
    Total (contain child dependency failure) :=
  ((Total.record _).inScope _).bind fun _ => .pure _

/-- A branch contains every failure of a child that may be contained. -/
theorem branchChild_total {c : Conversion Activity} {fault : Failure → Prop} (h : FailsAs c fault)
    (hfault : ∀ failure, fault failure → failure.isContainable = true) (child : Json)
    (dependency : Option Dependency) : Total (branchChild false child dependency c) := by
  have hadd : FailsAs (do return (← c).addDependency dependency) fault :=
    h.bind_total fun _ => .pure _
  intro memory
  rcases hc : (do return (← c).addDependency dependency : Conversion Activity) memory with
    ⟨failure | value, after⟩
  · have hcontain : mayContain false failure = true := by
      have hfailure : fault failure := (hadd memory failure).mp (by rw [hc])
      simp [mayContain, hfault failure hfailure]
    rw [branchChild, Conversion.recover_of_some hc (if_pos hcontain)]
    exact contain_total child dependency failure after
  · exact ⟨value, after, Conversion.recover_of_ok hc _⟩

/-- Whatever fault an activity has, a branch may contain it. -/
theorem Task.Fault.isContainable {activity : Json} {failure : Failure}
    (h : Task.Fault activity failure) : failure.isContainable = true := by
  rcases h with ⟨_, _, _, _, _, _, _, _, rfl⟩ | ⟨-, -, h⟩
  · rfl
  · rcases h with ⟨_, _, _, -, _, _, rfl⟩ | ⟨-, _, _, _, -, _, _, rfl⟩
    · rfl
    · rfl

theorem convertCopy_failsAs (activity : Json) (task : Task) :
    FailsAs (convertCopy false activity task)
      (Failure.OrElse (Copy.FirstFault activity "input_dataset_definitions")
        (Copy.FirstFault activity "output_dataset_definitions")) :=
  ((FailsAs.ofExcept _).congr (Copy.ofActivity_error_iff false activity)).bind_total fun copy =>
    (Total.ofNoted copy).bind fun _ => settle_total task _

theorem convertBranch_total (activity : Json) (task : Task)
    {ifFalse ifTrue : Conversion (List Activity)} (hfalse : Total ifFalse) (htrue : Total ifTrue) :
    Total (convertBranch false activity task ifFalse ifTrue) := by
  unfold convertBranch
  cases branchCondition activity with
  | error rejection => exact reject_total task rejection
  | ok condition =>
    refine hfalse.bind fun falseChildren => htrue.bind fun trueChildren => ?_
    dsimp only
    split
    · exact (Total.record _).bind fun _ => .pure _
    · exact .pure _

theorem convertLoop_total (activity : Json) (task : Task) {body : Conversion (List Activity)}
    (h : Total body) : Total (convertLoop false activity task body) := by
  unfold convertLoop
  cases loopHeader activity with
  | error rejection => exact reject_total task rejection
  | ok items => exact (Total.record _).bind fun _ => h.bind fun _ => .pure _

theorem ActivityKind.tag_of_ofTag? {tag : String} {kind : ActivityKind}
    (h : ofTag? tag = some kind) : kind.tag = tag := by
  have := List.find?_some h
  exact eq_of_beq this

theorem ActivityKind.ofTag?_tag (kind : ActivityKind) : ofTag? kind.tag = some kind := by
  cases kind <;> decide

/-- Only a copy fails on its own work. -/
theorem convertWork_failsAs (inLoop : Bool) (activity : Json) (task : Task)
    {ifFalse ifTrue body : Conversion (List Activity)} (hfalse : Total ifFalse)
    (htrue : Total ifTrue) (hbody : Total body) :
    FailsAs (convertWork false inLoop activity task ifFalse ifTrue body) fun failure =>
      task.type = ActivityKind.copy.tag ∧
        Failure.OrElse (Copy.FirstFault activity "input_dataset_definitions")
          (Copy.FirstFault activity "output_dataset_definitions") failure := by
  by_cases hcopy : task.type = ActivityKind.copy.tag
  · unfold convertWork
    rw [hcopy, ActivityKind.ofTag?_tag]
    exact (convertCopy_failsAs activity task).congr fun _ => ⟨fun h => ⟨rfl, h⟩, And.right⟩
  · have htotal : Total (convertWork false inLoop activity task ifFalse ifTrue body) := by
      unfold convertWork
      split
      · exact (Total.record _).bind fun _ => .pure _
      · exact (Total.ofNoted _).bind fun _ => settle_total task _
      · exact settle_total task _
      · exact settle_total task _
      · rename_i hkind
        exact absurd (ActivityKind.tag_of_ofTag? hkind).symm hcopy
      · exact convertBranch_total activity task hfalse htrue
      · exact convertLoop_total activity task hbody
    exact htotal.failsAs.congr fun _ => ⟨False.elim, fun h => hcopy h.1⟩

/-- **Activities.** The lenient conversion of an activity fails with the activity's fault, and so
never because of an activity inside it. -/
theorem convert_failsAs (inLoop : Bool) (activity : Json) :
    FailsAs (convert false inLoop activity) (Task.Fault activity) := by
  induction activity using Json.induction_items generalizing inLoop with
  | step activity ih =>
    -- a child may fail, but only with what its branch or its loop contains
    have hchildren (task : Task) (outcome key : String) :
        Total (Conversion.traverse (convertChild false task outcome) (activity.items key)) :=
      .traverse fun child hchild =>
        branchChild_total (ih key child hchild false) (fun _ => Task.Fault.isContainable) child _
    have hbody : Total (Conversion.traverse (convertItem false) (activity.items "activities")) :=
      .traverse fun child hchild => ((Total.record _).inScope _).bind fun _ =>
        branchChild_total (ih _ child hchild true) (fun _ => Task.Fault.isContainable) child none
    rw [convert_eq]
    refine FailsAs.inScope _ ((Task.ofDefinition_failsAs activity).bind fun _ task _ htask => ?_)
    rw [← Task.type_of_ofDefinition htask]
    exact convertWork_failsAs inLoop activity task (hchildren task _ _) (hchildren task _ _) hbody

/-! ## Documents -/

/-- A lenient session fails with the fault of the first activity that has one. -/
theorem convertAll_error_iff (memory : Memory) (activities : List Json) (failure : Failure) :
    (Session.convertAll ⟨memory, false⟩ activities).1 = .error failure ↔
      Failure.OfFirst Task.Fault activities failure := by
  induction activities generalizing memory failure with
  | nil => exact ⟨nofun, fun h => absurd h Failure.not_ofFirst_nil⟩
  | cons activity rest ih =>
    have hbind : (Session.convertAll ⟨memory, false⟩ (activity :: rest)).1
        = (convert false false activity memory).1 >>= fun first =>
            (Session.convertAll ⟨(convert false false activity memory).2, false⟩ rest).1.map
              (first.flatten ++ ·) := by
      simp only [Session.convertAll, Session.convert]
      rcases convert false false activity memory with ⟨_ | first, after⟩
      · rfl
      · rfl
    rw [hbind, Failure.ofFirst_cons]
    refine Failure.bind_error_iff (convert_failsAs false activity memory)
      (fun first _ failure => ?_) failure
    rw [← ih (convert false false activity memory).2 failure]
    cases (Session.convertAll ⟨(convert false false activity memory).2, false⟩ rest).1 <;>
      simp [Except.map]

/-- Objects without a list of activities have no activities to convert. -/
theorem Pipeline.activitiesOf_error_iff {document : Json} (failure : Failure) :
    activitiesOf document = .error failure ↔
      ∃ value, document.get? "activities" = some value ∧ value ≠ .null ∧
        (∀ items, value ≠ .arr items) ∧
        failure = .invalidDocument ("'activities' must be a list, found " ++ value.compact) := by
  unfold activitiesOf Json.getD
  cases document.get? "activities" with
  | none => simp
  | some value => cases value <;> simp [eq_comm]

theorem Pipeline.activitiesOf_eq {document : Json} {activities : List Json}
    (h : activitiesOf document = .ok activities) : activities = document.items "activities" := by
  unfold activitiesOf Json.getD at h
  unfold Json.items Json.items?
  cases hvalue : document.get? "activities" with
  | none =>
    rw [hvalue] at h
    exact (Except.ok.inj h).symm
  | some value =>
    rw [hvalue] at h
    cases value with
    | null => exact (Except.ok.inj h).symm
    | arr items => exact (Except.ok.inj h).symm
    | _ => cases h

/-- The conversion of an object fails on its list of activities, or else on an activity. -/
theorem Pipeline.ofDocument_error_iff {document : Json} (hobject : document.isObject = true)
    (trigger : Option Json) (failure : Failure) :
    ofDocument false document trigger = .error failure ↔
      Failure.OrElse (fun failure => activitiesOf document = .error failure)
        (Failure.OfFirst Task.Fault (document.items "activities")) failure := by
  rw [ofDocument_of_isObject hobject]
  refine Failure.bind_error_iff (fun _ => Iff.rfl) (fun activities h failure => ?_) failure
  rw [← activitiesOf_eq h,
    ← convertAll_error_iff ⟨.empty, Log.empty.record (nameNotes document)⟩ activities failure]
  show (convertActivities false document activities).1.map _ = _ ↔
    (convertActivities false document activities).1 = _
  cases (convertActivities false document activities).1 <;> simp [Except.map]

/-- **Documents.** The lenient conversion of a document fails with exactly the document's fault.
Whatever stands in a branch or in the body of a loop is converted, from every memory. -/
theorem Pipeline.ofDocument_lenient (document : Json) (trigger : Option Json) :
    (∀ failure, ofDocument false document trigger = .error failure ↔ Fault document failure) ∧
    (∀ (task : Task) (outcome : String) (child : Json) (memory : Memory),
      ∃ converted after, convertChild false task outcome child memory = (.ok converted, after)) ∧
    ∀ (child : Json) (memory : Memory),
      ∃ converted after, convertItem false child memory = (.ok converted, after) := by
  refine ⟨fun failure => ?_, fun task outcome child => ?_, fun child => ?_⟩
  · cases hobject : document.isObject with
    | false =>
      rw [ofDocument_of_not_isObject hobject]
      constructor
      · rintro ⟨⟩
        exact .noObject hobject
      · rintro (h | ⟨hvalue, -, -⟩ | h)
        · rfl
        · cases document <;> cases hobject <;> cases hvalue
        · cases document <;> cases hobject <;> exact absurd h Failure.not_ofFirst_nil
    | true =>
      rw [ofDocument_error_iff hobject]
      constructor
      · rintro (h | ⟨-, h⟩)
        · obtain ⟨value, hvalue, hnull, harr, rfl⟩ := (activitiesOf_error_iff failure).mp h
          exact .noList hvalue hnull harr
        · exact .activity h
      · rintro (h | ⟨hvalue, hnull, harr⟩ | h)
        · rw [hobject] at h
          cases h
        · exact .inl ((activitiesOf_error_iff _).mpr ⟨_, hvalue, hnull, harr, rfl⟩)
        · refine .inr ⟨fun other hother => ?_, h⟩
          obtain ⟨value, hvalue, -, harr, -⟩ := (activitiesOf_error_iff other).mp hother
          have hitems : document.items "activities" = [] := by
            unfold Json.items Json.items?
            rw [hvalue]
            cases value with
            | arr items => exact absurd rfl (harr items)
            | _ => rfl
          rw [hitems] at h
          exact Failure.not_ofFirst_nil h
  · exact branchChild_total (convert_failsAs false child) (fun _ => Task.Fault.isContainable) child _
  · exact ((Total.record _).inScope _).bind fun _ =>
      branchChild_total (convert_failsAs true child) (fun _ => Task.Fault.isContainable) child none

end FactoryMigration
