import FactoryMigration.Proofs.ConversionSteps
import FactoryMigration.Proofs.DroppedBranches
import FactoryMigration.Proofs.LoopParameters

set_option autoImplicit false

/-! # Remarks on work

The work of a task is remarked on under properties of its own, and the activities inside it under tags of
their own (`workOf_leaves`). Whatever is recorded about other fields of an activity is recorded with the
settings of its task. -/

namespace FactoryMigration

/-! ## Properties of notes on work -/

/-- The properties that the work of a task may be remarked on. -/
inductive Work.IsRemarked : String → Prop where
  | type : IsRemarked "type"
  | required {key : String} (h : key ∈ ["notebook_path", "main_class_name", "python_file"]) :
      IsRemarked key
  | parameter (name : String) : IsRemarked ("parameters." ++ name)
  | copy {key : String} (h : key ∈ ["copy", "query_timeout", "translator.mappings"]) : IsRemarked key
  | branch {key : String} (h : key ∈ ["expression", "child_activities"]) : IsRemarked key
  | loop {key : String} (h : key ∈ ["items", "activities"]) : IsRemarked key

/-- No remark on work is about the settings of a task. -/
theorem Work.IsRemarked.not_mem_remarked {property : String} (h : IsRemarked property) :
    property ∉ Task.remarked := by
  cases h with
  | type => decide
  | parameter name => exact fun hmem => (Task.remarked_ne hmem name).2 rfl
  | required h | copy h | branch h | loop h =>
    revert property
    decide

theorem requireProperty_error {activity : Json} {key : String} {kind : ActivityKind}
    {rejection : Rejection} (h : requireProperty activity key kind = .error rejection) :
    rejection.note.property = key := by
  unfold requireProperty at h
  split at h
  · cases h
  · obtain rfl := Except.error.inj h
    rfl

namespace Work

/-- The rejection of work is about one of its properties. -/
def RejectedWith {α : Type} (read : Except Rejection α) : Prop :=
  ∀ rejection, read = .error rejection → IsRemarked rejection.note.property

theorem rejectedWith_ofNotebook (inLoop : Bool) (activity : Json) :
    RejectedWith (ofNotebook inLoop activity).value := by
  intro rejection h
  unfold ofNotebook at h
  cases hpath : requireProperty activity "notebook_path" .notebook with
  | error rejection' =>
    rw [hpath] at h
    obtain rfl : rejection' = rejection := Except.error.inj h
    exact .required (by rw [requireProperty_error hpath]; decide)
  | ok path =>
    rw [hpath] at h
    cases h

theorem isRemarked_of_mem_ofNotebook {inLoop : Bool} {activity : Json} {note : Note}
    (h : note ∈ (ofNotebook inLoop activity).notes) : IsRemarked note.property := by
  unfold ofNotebook at h
  cases hpath : requireProperty activity "notebook_path" .notebook with
  | error rejection =>
    rw [hpath] at h
    cases h
  | ok path =>
    rw [hpath] at h
    dsimp only at h
    rw [Noted.notes_bind, Noted.notes_pure, List.append_nil, notes_traverse_baseParameter,
      List.mem_map] at h
    obtain ⟨parameter, -, rfl⟩ := h
    exact .parameter parameter.1

/-- Work that is made from a property which the activity has to have. -/
theorem rejectedWith_property {activity : Json} {key : String} {kind : ActivityKind}
    {make : String → Work} (hkey : key ∈ ["notebook_path", "main_class_name", "python_file"]) :
    RejectedWith (do return make (← requireProperty activity key kind)) := by
  intro rejection h
  cases hproperty : requireProperty activity key kind with
  | error rejection' =>
    rw [hproperty] at h
    obtain rfl : rejection' = rejection := Except.error.inj h
    exact .required (by rwa [requireProperty_error hproperty])
  | ok text =>
    rw [hproperty] at h
    cases h

theorem rejectedWith_ofSparkJar (activity : Json) : RejectedWith (ofSparkJar activity) :=
  rejectedWith_property (by decide)

theorem rejectedWith_ofSparkPython (activity : Json) : RejectedWith (ofSparkPython activity) :=
  rejectedWith_property (by decide)

theorem rejectedWith_ofCopy (copy : Except Obstacle Copy) : RejectedWith (ofCopy copy) := by
  intro rejection h
  cases copy with
  | ok copy => cases h
  | error obstacle =>
    obtain rfl := Except.error.inj h
    have hmem : "copy" ∈ ["copy", "query_timeout", "translator.mappings"] := by decide
    exact .copy hmem

end Work

/-! ## Copies -/

theorem Side.property_of_mem_ofBlock {strict : Bool} {block : Json} {note : Note}
    (h : note ∈ (ofBlock strict block).notes) : note.property = "query_timeout" := by
  have htimeout : ∀ note ∈ (queryTimeout strict block).notes, note.property = "query_timeout" := by
    intro note h
    unfold queryTimeout at h
    split at h
    · cases h
    · dsimp only at h
      split at h
      · cases h
      · split at h
        · cases h
        · rw [List.mem_singleton.mp h]
  unfold ofBlock at h
  split at h
  · cases h
  · cases h
  · cases h
  · rw [Noted.notes_bind, Noted.notes_pure, List.append_nil, sqlOptions, Noted.notes_bind,
      List.mem_append] at h
    refine h.elim (htimeout note) fun h => ?_
    split at h
    · cases h
    · dsimp only at h
      split at h <;> cases h

theorem ColumnMapping.property_of_mem_ofTranslator {translator : Option Json} {note : Note}
    (h : note ∈ (ofTranslator translator).notes) : note.property = "translator.mappings" := by
  unfold ofTranslator at h
  rw [Noted.notes_select, List.mem_flatMap] at h
  obtain ⟨mapping, -, h⟩ := h
  unfold ofMapping at h
  split at h
  · rw [List.mem_singleton.mp h]
  · cases h

theorem Copy.isRemarked_of_mem_ofActivity {strict : Bool} {activity : Json}
    {read : Noted (Except Obstacle Copy)} (h : ofActivity strict activity = .ok read) {note : Note}
    (hnote : note ∈ read.notes) : Work.IsRemarked note.property := by
  have hside {key : String} {note : Note} (h : note ∈ (side strict activity key).notes) :
      note.property = "query_timeout" := by
    unfold side at h
    split at h
    · exact Side.property_of_mem_ofBlock h
    · cases h
  have hdatasets (source sink : Except Obstacle Dataset) :
      ∀ note ∈ (ofDatasets strict activity source sink).notes,
        note.property = "query_timeout" ∨ note.property = "translator.mappings" := by
    intro note h
    rw [ofDatasets, Noted.notes_bind, Noted.notes_bind, List.mem_append, List.mem_append] at h
    rcases h with h | h | h
    · exact .inl (hside h)
    · exact .inl (hside h)
    · split at h
      · cases h
      · rw [Noted.notes_bind, Noted.notes_pure, List.append_nil] at h
        exact .inr (ColumnMapping.property_of_mem_ofTranslator h)
  unfold ofActivity at h
  cases hsource : firstDataset activity "input_dataset_definitions" with
  | error failure =>
    rw [hsource] at h
    cases h
  | ok source =>
    cases hsink : firstDataset activity "output_dataset_definitions" with
    | error failure =>
      rw [hsource, hsink] at h
      cases h
    | ok sink =>
      rw [hsource, hsink] at h
      obtain rfl := Except.ok.inj h
      refine .copy ?_
      rcases hdatasets source sink note hnote with hproperty | hproperty <;> rw [hproperty] <;> decide

/-! ## Branches and loops -/

theorem rejectedWith_branchCondition (activity : Json) :
    Work.RejectedWith (branchCondition activity) := by
  intro rejection h
  have hproperty : rejection.note.property = "expression" := by
    unfold branchCondition at h
    dsimp only at h
    split at h
    · rw [← Except.error.inj h]
      rfl
    · split at h
      · cases h
      · split at h <;> rw [← Except.error.inj h] <;> rfl
  exact .branch (by rw [hproperty]; decide)

theorem rejectedWith_loopHeader (activity : Json) : Work.RejectedWith (loopHeader activity) := by
  have hitems : ∀ rejection, loopItems activity = .error rejection →
      rejection.note.property = "items" := by
    intro rejection h
    unfold loopItems at h
    split at h
    · rw [← Except.error.inj h]
      rfl
    · split at h
      · rw [← Except.error.inj h]
        rfl
      · split at h
        · cases h
        · rw [← Except.error.inj h]
          rfl
    · rw [← Except.error.inj h]
      rfl
  intro rejection h
  unfold loopHeader at h
  cases hread : loopItems activity with
  | error rejection' =>
    rw [hread] at h
    obtain rfl : rejection' = rejection := Except.error.inj h
    exact .loop (by rw [hitems _ hread]; decide)
  | ok items =>
    rw [hread] at h
    simp only [bind, Except.bind] at h
    split at h
    · rw [← Except.error.inj h]
      exact .loop (by decide)
    · cases h

theorem property_of_mem_loopNotes {activity : Json} {note : Note} (h : note ∈ loopNotes activity) :
    note.property = "activities" := by
  unfold loopNotes at h
  dsimp only at h
  split at h
  · rw [List.mem_singleton.mp h]
  · cases h

/-! ## Work -/

section

variable {p : Diagnostic → Prop} {scope : Scope}
  (hown : ∀ note : Note, Work.IsRemarked note.property → p (scope.tag note))

include hown

theorem reject_leaves (strict : Bool) (task : Task) {rejection : Rejection}
    (h : Work.IsRemarked rejection.note.property) :
    (reject strict task rejection).Leaves (some scope) p := by
  cases strict with
  | true => cases rejection <;> exact .ofExcept (.error _)
  | false =>
    rw [reject_lenient]
    refine (Conversion.Leaves.record ?_).bind fun _ => .pure _
    exact List.forall_mem_singleton.mpr (hown _ h)

theorem settle_leaves (strict : Bool) (task : Task) {work : Except Rejection Work}
    (h : Work.RejectedWith work) :
    (settle strict task (work.map (.single task))).Leaves (some scope) p := by
  cases work with
  | ok work => exact .pure _
  | error rejection => exact reject_leaves hown strict task (h rejection rfl)

theorem convertCopy_leaves (strict : Bool) (activity : Json) (task : Task) :
    (convertCopy strict activity task).Leaves (some scope) p := by
  unfold convertCopy
  cases hread : Copy.ofActivity strict activity with
  | error failure => exact .ofExcept (.error failure)
  | ok read =>
    have hsettle : (do
        let copy ← Conversion.ofNoted read
        settle strict task ((Work.ofCopy copy).map (.single task))).Leaves (some scope) p := by
      refine (Conversion.Leaves.ofNoted fun note hnote => ?_).bind fun copy => ?_
      · exact hown note (Copy.isRemarked_of_mem_ofActivity hread hnote)
      · exact settle_leaves hown strict task (Work.rejectedWith_ofCopy copy)
    exact hsettle

variable {ifFalse ifTrue body : Conversion (List Activity)}

theorem convertBranch_leaves (strict : Bool) (activity : Json) (task : Task)
    (hfalse : ifFalse.Leaves (some scope) p) (htrue : ifTrue.Leaves (some scope) p) :
    (convertBranch strict activity task ifFalse ifTrue).Leaves (some scope) p := by
  unfold convertBranch
  cases hcondition : branchCondition activity with
  | error rejection =>
    exact reject_leaves hown strict task (rejectedWith_branchCondition activity _ hcondition)
  | ok condition =>
    refine hfalse.bind fun falseChildren => htrue.bind fun trueChildren => ?_
    dsimp only
    split
    · refine (Conversion.Leaves.record ?_).bind fun _ => .pure _
      exact List.forall_mem_singleton.mpr (hown _ (.branch (by decide)))
    · exact .pure _

theorem convertLoop_leaves (strict : Bool) (activity : Json) (task : Task)
    (hbody : body.Leaves (some scope) p) :
    (convertLoop strict activity task body).Leaves (some scope) p := by
  unfold convertLoop
  cases hheader : loopHeader activity with
  | error rejection =>
    exact reject_leaves hown strict task (rejectedWith_loopHeader activity _ hheader)
  | ok items =>
    refine (Conversion.Leaves.record fun note hnote => ?_).bind fun _ => hbody.bind fun _ => .pure _
    exact hown note (.loop (by rw [property_of_mem_loopNotes hnote]; decide))

theorem convertWork_leaves (strict inLoop : Bool) (activity : Json) (task : Task)
    (hfalse : ifFalse.Leaves (some scope) p) (htrue : ifTrue.Leaves (some scope) p)
    (hbody : body.Leaves (some scope) p) :
    (convertWork strict inLoop activity task ifFalse ifTrue body).Leaves (some scope) p := by
  unfold convertWork
  split
  · refine (Conversion.Leaves.record ?_).bind fun _ => .pure _
    exact List.forall_mem_singleton.mpr (hown _ .type)
  · refine Conversion.Leaves.ofNoted_bind (fun note hnote => ?_) ?_
    · exact hown note (Work.isRemarked_of_mem_ofNotebook hnote)
    · exact settle_leaves hown strict task (Work.rejectedWith_ofNotebook inLoop activity)
  · exact settle_leaves hown strict task (Work.rejectedWith_ofSparkJar activity)
  · exact settle_leaves hown strict task (Work.rejectedWith_ofSparkPython activity)
  · exact convertCopy_leaves hown strict activity task
  · exact convertBranch_leaves hown strict activity task hfalse htrue
  · exact convertLoop_leaves hown strict activity task hbody

end

/-! ## Activities inside -/

/-- The tag is that of an activity inside, at any depth. -/
def Nested.TagsInside (activity : Json) (scope : Scope) : Prop :=
  ∃ key ∈ nestedKeys, ∃ child ∈ activity.items key, Nested.Tags child scope

theorem convertChild_leaves (strict : Bool) (task : Task) (outcome : String) (child : Json)
    (outer : Option Scope) :
    (convertChild strict task outcome child).Leaves outer fun diagnostic =>
      Nested.Tags child diagnostic.scope :=
  (branchChild_records strict child _ (convert_records strict false child outer)
    (.self ⟨Scope.shows_standIn .., Scope.shows_standIn ..⟩)).imp fun _ _ h => h.tagged

theorem convertItem_leaves (strict : Bool) (child : Json) (outer : Option Scope) :
    (convertItem strict child).Leaves outer fun diagnostic => Nested.Tags child diagnostic.scope := by
  have hitems : Nested.Tags child ⟨child.text? "name", child.text? "type"⟩ :=
    .self ⟨Scope.shows_text? .., Scope.shows_text? ..⟩
  have hrecords : (convertItem strict child).Records outer
      (Account (Nested.Tags child) Activity.placeholders) :=
    (recordItems_records hitems).quiet_bind fun _ _ =>
      branchChild_records strict child none (convert_records strict true child outer)
        (.self ⟨Scope.shows_standIn .., Scope.shows_standIn ..⟩)
  exact hrecords.imp fun _ _ h => h.tagged

/-- **Work.** With the work of a task, remarks on it and diagnostics of the activities inside it are
recorded. -/
theorem workOf_leaves (strict inLoop : Bool) (activity : Json) (task : Task) :
    (workOf strict inLoop activity task).Leaves (some (.ofActivity activity)) fun diagnostic =>
      Work.IsRemarked diagnostic.property ∨ Nested.TagsInside activity diagnostic.scope := by
  have hchildren (outcome : String) {key : String} (hkey : key ∈ nestedKeys) :
      (Conversion.traverse (convertChild strict task outcome) (activity.items key)).Leaves
        (some (.ofActivity activity)) fun diagnostic =>
          Work.IsRemarked diagnostic.property ∨ Nested.TagsInside activity diagnostic.scope :=
    .traverse fun child hchild => (convertChild_leaves strict task outcome child _).mono
      fun _ htags => .inr ⟨key, hkey, child, hchild, htags⟩
  have hbody : (Conversion.traverse (convertItem strict) (activity.items "activities")).Leaves
      (some (.ofActivity activity)) fun diagnostic =>
        Work.IsRemarked diagnostic.property ∨ Nested.TagsInside activity diagnostic.scope :=
    .traverse fun child hchild => (convertItem_leaves strict child _).mono
      fun _ htags => .inr ⟨"activities", by decide, child, hchild, htags⟩
  exact convertWork_leaves (fun note hnote => .inl hnote) strict inLoop activity task
    (hchildren _ (by decide)) (hchildren _ (by decide)) hbody

end FactoryMigration
