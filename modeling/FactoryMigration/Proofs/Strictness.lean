import FactoryMigration.Pipeline

set_option autoImplicit false

/-! # Strict and lenient conversion

Strict mode only adds failures. A strict run and a lenient run of the same conversion from the same
memory end alike, unless the strict one ends with a strict violation (`convert_agrees`); containment
in a branch hides no strict violation. `ofDocument_strict` says this of whole documents. -/

namespace FactoryMigration

/-- Both conversions end alike from every memory, unless the first ends with a strict violation. -/
def Conversion.Agrees {α : Type} (strict lenient : Conversion α) : Prop :=
  ∀ memory, strict memory = lenient memory ∨
    ∃ failure after, strict memory = (.error failure, after) ∧ failure.isStrictViolation = true

namespace Conversion.Agrees

variable {α β : Type}

theorem refl (c : Conversion α) : Agrees c c := fun _ => .inl rfl

theorem bind {c d : Conversion α} {f g : α → Conversion β} (h : Agrees c d)
    (hf : ∀ x, Agrees (f x) (g x)) : Agrees (c >>= f) (d >>= g) := by
  intro memory
  rcases h memory with h | ⟨failure, after, h, hv⟩
  · rcases hd : d memory with ⟨result, after⟩
    rw [hd] at h
    cases result with
    | error failure => exact .inl (by rw [bind_of_error h, bind_of_error hd])
    | ok value =>
      rw [bind_of_ok h, bind_of_ok hd]
      exact hf value after
  · exact .inr ⟨failure, after, bind_of_error h, hv⟩

theorem inScope {c d : Conversion α} (scope : Scope) (h : Agrees c d) :
    Agrees (inScope scope c) (inScope scope d) := by
  intro memory
  rcases h { memory with log := memory.log.enter scope } with h | ⟨failure, after, h, hv⟩
  · exact .inl (by simp only [Conversion.inScope, h])
  · refine .inr ⟨failure, { after with log := after.log.exit }, ?_, hv⟩
    simp only [Conversion.inScope, h]

theorem traverse {f g : α → Conversion β} {xs : List α} (h : ∀ x ∈ xs, Agrees (f x) (g x)) :
    Agrees (traverse f xs) (traverse g xs) := by
  induction xs with
  | nil => exact refl _
  | cons x xs ih =>
    have hx : Agrees (f x) (g x) := h x List.mem_cons_self
    have hxs : Agrees (Conversion.traverse f xs) (Conversion.traverse g xs) :=
      ih fun y hy => h y (List.mem_cons_of_mem x hy)
    exact hx.bind fun y => hxs.bind fun ys => refl _

end Conversion.Agrees

open Conversion (Agrees)

/-! ## Rejection and containment -/

theorem reject_agrees (task : Task) (rejection : Rejection) :
    Agrees (reject true task rejection) (reject false task rejection) := by
  intro memory
  right
  cases rejection with
  | value property reason => exact ⟨_, memory, rfl, rfl⟩
  | expression property reason => exact ⟨_, memory, rfl, rfl⟩

theorem settle_agrees (task : Task) (converted : Except Rejection Activity) :
    Agrees (settle true task converted) (settle false task converted) := by
  cases converted with
  | ok activity => exact .refl _
  | error rejection => exact reject_agrees task rejection

/-- A strict violation is not contained in strict mode; any other failure is contained in both modes
or in neither. -/
theorem mayContain_strict (failure : Failure) :
    mayContain true failure = (mayContain false failure && !failure.isStrictViolation) := by
  simp [mayContain]

theorem branchChild_agrees (child : Json) (dependency : Option Dependency)
    {c d : Conversion Activity} (h : Agrees c d) :
    Agrees (branchChild true child dependency c) (branchChild false child dependency d) := by
  have hadd : Agrees (do return (← c).addDependency dependency)
      (do return (← d).addDependency dependency) := h.bind fun _ => .refl _
  intro memory
  rcases hadd memory with h | ⟨failure, after, h, hv⟩
  · simp only [branchChild, Conversion.recover, h]
    split
    · exact .inl rfl
    · rename_i failure after _
      cases hv : failure.isStrictViolation with
      | true => exact .inr ⟨failure, after, by simp [mayContain_strict, hv], hv⟩
      | false => exact .inl (by simp [mayContain_strict, hv])
  · have hescapes : mayContain true failure = false := by simp [mayContain_strict, hv]
    exact .inr ⟨failure, after, Conversion.recover_of_none h (by simp [hescapes]), hv⟩

/-! ## Copies -/

/-- In strict mode a query timeout is read as in lenient mode, or it is an obstacle. -/
theorem Side.queryTimeout_strict (block : Json) :
    Side.queryTimeout true block = Side.queryTimeout false block ∨
      ∃ obstacle, Side.queryTimeout true block = .quiet (.error obstacle) := by
  unfold Side.queryTimeout
  split
  · exact .inl rfl
  · split
    · exact .inl rfl
    · exact .inr ⟨_, rfl⟩

theorem Side.sqlOptions_strict (block : Json) :
    Side.sqlOptions true block = Side.sqlOptions false block ∨
      ∃ obstacle, (Side.sqlOptions true block).value = .error obstacle := by
  rcases Side.queryTimeout_strict block with h | ⟨obstacle, h⟩
  · exact .inl (by simp only [Side.sqlOptions, h])
  · exact .inr ⟨obstacle, by simp only [Side.sqlOptions, h]; rfl⟩

theorem Copy.side_strict (activity : Json) (key : String) :
    Copy.side true activity key = Copy.side false activity key ∨
      ∃ obstacle, (Copy.side true activity key).value = .error obstacle := by
  unfold Copy.side
  split
  · unfold Side.ofBlock
    split
    · exact .inl rfl
    · exact .inl rfl
    · exact .inl rfl
    · rcases Side.sqlOptions_strict (activity.getD key) with h | ⟨obstacle, h⟩
      · exact .inl (by rw [h])
      · exact .inr ⟨obstacle, by rw [Noted.value_bind, h]; rfl⟩
  · exact .inl rfl

/-- A copy with an obstacle on one of its sides has an obstacle. -/
theorem Copy.parts_of_side (source sink : Except Obstacle Dataset)
    {sourceSide sinkSide : Except Obstacle Side}
    (h : (∃ obstacle, sourceSide = .error obstacle) ∨ ∃ obstacle, sinkSide = .error obstacle) :
    ∃ obstacle, Copy.parts source sink sourceSide sinkSide = .error obstacle := by
  cases source with
  | error obstacle => exact ⟨obstacle, rfl⟩
  | ok source =>
    cases sink with
    | error obstacle => exact ⟨obstacle, rfl⟩
    | ok sink =>
      cases sourceSide with
      | error obstacle => exact ⟨obstacle, rfl⟩
      | ok sourceSide =>
        rcases h with ⟨obstacle, h⟩ | ⟨obstacle, rfl⟩
        · cases h
        · exact ⟨obstacle, rfl⟩

/-- In strict mode a copy of known datasets is read as in lenient mode, or it is an obstacle. -/
theorem Copy.ofDatasets_strict (activity : Json) (source sink : Except Obstacle Dataset) :
    Copy.ofDatasets true activity source sink = Copy.ofDatasets false activity source sink ∨
      ∃ obstacle, (Copy.ofDatasets true activity source sink).value = .error obstacle := by
  by_cases hside : (∃ obstacle, (Copy.side true activity "source").value = .error obstacle) ∨
      ∃ obstacle, (Copy.side true activity "sink").value = .error obstacle
  · right
    obtain ⟨obstacle, h⟩ := Copy.parts_of_side source sink hside
    exact ⟨obstacle, by simp only [Copy.ofDatasets, Noted.value_bind, h]; rfl⟩
  · left
    have hsource := (Copy.side_strict activity "source").resolve_right fun h => hside (.inl h)
    have hsink := (Copy.side_strict activity "sink").resolve_right fun h => hside (.inr h)
    simp only [Copy.ofDatasets, hsource, hsink]

theorem convertCopy_agrees (activity : Json) (task : Task) :
    Agrees (convertCopy true activity task) (convertCopy false activity task) := by
  unfold convertCopy Copy.ofActivity
  cases Copy.firstDataset activity "input_dataset_definitions" with
  | error failure => exact .refl _
  | ok source =>
    cases Copy.firstDataset activity "output_dataset_definitions" with
    | error failure => exact .refl _
    | ok sink =>
      show Agrees
        (Conversion.ofNoted (Copy.ofDatasets true activity source sink) >>= fun copy =>
          settle true task ((Work.ofCopy copy).map (.single task)))
        (Conversion.ofNoted (Copy.ofDatasets false activity source sink) >>= fun copy =>
          settle false task ((Work.ofCopy copy).map (.single task)))
      rcases Copy.ofDatasets_strict activity source sink with h | ⟨obstacle, h⟩
      · rw [h]
        exact (Agrees.refl _).bind fun copy => settle_agrees task _
      · -- the obstacle ends the strict conversion, whatever the lenient one makes of the copy
        intro memory
        right
        refine ⟨.untranslatable task.name obstacle.message,
          { memory with log := memory.log.record (Copy.ofDatasets true activity source sink).notes },
          ?_, rfl⟩
        rw [Conversion.bind_of_ok (Conversion.ofNoted_apply _ _), h]
        rfl

/-! ## Activities -/

theorem convertBranch_agrees (activity : Json) (task : Task)
    {ifFalse ifFalse' ifTrue ifTrue' : Conversion (List Activity)} (hfalse : Agrees ifFalse ifFalse')
    (htrue : Agrees ifTrue ifTrue') :
    Agrees (convertBranch true activity task ifFalse ifTrue)
      (convertBranch false activity task ifFalse' ifTrue') := by
  unfold convertBranch
  cases branchCondition activity with
  | error rejection => exact reject_agrees task rejection
  | ok condition => exact hfalse.bind fun _ => htrue.bind fun _ => .refl _

theorem convertLoop_agrees (activity : Json) (task : Task)
    {body body' : Conversion (List Activity)} (h : Agrees body body') :
    Agrees (convertLoop true activity task body) (convertLoop false activity task body') := by
  unfold convertLoop
  cases loopHeader activity with
  | error rejection => exact reject_agrees task rejection
  | ok items => exact (Agrees.refl _).bind fun _ => h.bind fun _ => .refl _

theorem convertWork_agrees (inLoop : Bool) (activity : Json) (task : Task)
    {ifFalse ifFalse' ifTrue ifTrue' body body' : Conversion (List Activity)}
    (hfalse : Agrees ifFalse ifFalse') (htrue : Agrees ifTrue ifTrue') (hbody : Agrees body body') :
    Agrees (convertWork true inLoop activity task ifFalse ifTrue body)
      (convertWork false inLoop activity task ifFalse' ifTrue' body') := by
  unfold convertWork
  split
  · exact .refl _
  · exact (Agrees.refl _).bind fun _ => settle_agrees task _
  · exact settle_agrees task _
  · exact settle_agrees task _
  · exact convertCopy_agrees activity task
  · exact convertBranch_agrees activity task hfalse htrue
  · exact convertLoop_agrees activity task hbody

/-- **Activities.** The strict conversion of an activity agrees with the lenient one. -/
theorem convert_agrees (inLoop : Bool) (activity : Json) :
    Agrees (convert true inLoop activity) (convert false inLoop activity) := by
  induction activity using Json.induction_items generalizing inLoop with
  | step activity ih =>
    have hchildren (task : Task) (outcome key : String) :
        Agrees (Conversion.traverse (convertChild true task outcome) (activity.items key))
          (Conversion.traverse (convertChild false task outcome) (activity.items key)) :=
      .traverse fun child hchild => branchChild_agrees child _ (ih key child hchild false)
    have hbody : Agrees (Conversion.traverse (convertItem true) (activity.items "activities"))
        (Conversion.traverse (convertItem false) (activity.items "activities")) :=
      .traverse fun child hchild =>
        (Agrees.refl _).bind fun _ => branchChild_agrees child none (ih _ child hchild true)
    rw [convert_eq, convert_eq]
    exact .inScope _ ((Agrees.refl _).bind fun task =>
      convertWork_agrees inLoop activity task (hchildren task _ _) (hchildren task _ _) hbody)

/-! ## Documents -/

/-- A strict and a lenient session with the same memory give the same tasks and keep the same memory,
or the strict one ends with a strict violation. -/
theorem convertAll_agrees (memory : Memory) (activities : List Json) :
    (Session.convertAll ⟨memory, true⟩ activities).1 =
        (Session.convertAll ⟨memory, false⟩ activities).1 ∧
      (Session.convertAll ⟨memory, true⟩ activities).2.toMemory =
        (Session.convertAll ⟨memory, false⟩ activities).2.toMemory ∨
    ∃ failure, (Session.convertAll ⟨memory, true⟩ activities).1 = .error failure ∧
      failure.isStrictViolation = true := by
  induction activities generalizing memory with
  | nil => exact .inl ⟨rfl, rfl⟩
  | cons activity rest ih =>
    simp only [Session.convertAll, Session.convert]
    rcases convert_agrees false activity memory with h | ⟨failure, after, h, hv⟩
    · rw [h]
      rcases convert false false activity memory with ⟨_ | first, after⟩
      · exact .inl ⟨rfl, rfl⟩
      · rcases ih after with ⟨hresult, hmemory⟩ | ⟨failure, hfailure, hv⟩
        · exact .inl ⟨by simp only [hresult], hmemory⟩
        · exact .inr ⟨failure, by simp only [hfailure]; rfl, hv⟩
    · exact .inr ⟨failure, by simp only [h], hv⟩

/-- **Documents.** The strict conversion of a document ends as the lenient one does, with the same
pipeline or the same failure, or it ends with a strict violation; so a pipeline that it gives is the
lenient one. -/
theorem Pipeline.ofDocument_strict (document : Json) (trigger : Option Json) :
    (ofDocument true document trigger = ofDocument false document trigger ∨
      ∃ failure, ofDocument true document trigger = .error failure ∧
        failure.isStrictViolation = true) ∧
    ∀ pipeline, ofDocument true document trigger = .ok pipeline →
      ofDocument false document trigger = .ok pipeline := by
  have hagree : ofDocument true document trigger = ofDocument false document trigger ∨
      ∃ failure, ofDocument true document trigger = .error failure ∧
        failure.isStrictViolation = true := by
    cases hobject : document.isObject with
    | false =>
      exact .inl (by rw [ofDocument_of_not_isObject hobject, ofDocument_of_not_isObject hobject])
    | true =>
      rw [ofDocument_of_isObject hobject, ofDocument_of_isObject hobject]
      cases activitiesOf document with
      | error failure => exact .inl rfl
      | ok activities =>
        have hconvert := convertAll_agrees ⟨.empty, Log.empty.record (nameNotes document)⟩ activities
        change (convertActivities true document activities).1 = _ ∧ _ ∨ _ at hconvert
        rcases hconvert with ⟨hresult, hmemory⟩ | ⟨failure, hfailure, hv⟩
        · have hlog : (convertActivities true document activities).2.log
              = (convertActivities false document activities).2.log := congrArg Memory.log hmemory
          left
          show (convertActivities true document activities).1.map _
            = (convertActivities false document activities).1.map _
          rw [hresult, hlog]
          rfl
        · right
          refine ⟨failure, ?_, hv⟩
          show (convertActivities true document activities).1.map _ = .error failure
          rw [show (convertActivities true document activities).1 = .error failure from hfailure]
          rfl
  refine ⟨hagree, fun pipeline h => ?_⟩
  rcases hagree with heq | ⟨failure, hfailure, -⟩
  · exact heq ▸ h
  · rw [h] at hfailure
    cases hfailure

end FactoryMigration
