import FactoryMigration.Proofs.DefinitionFields
import FactoryMigration.Proofs.Recording

set_option autoImplicit false

/-! # Parameters in loop bodies

The body of a loop gets the current item without a parameter for it. A notebook in the body keeps the
other base parameters: texts as they are and all else empty, with a diagnostic for each parameter that is
dropped and for each that becomes empty. Apart from that it is converted as if the dropped parameters had
never been there (`loop_parameters`). -/

namespace FactoryMigration

/-! ## The current item -/

/-- The value is the current item, plainly or as the value of an object. -/
def CurrentItem (value : Json) : Prop :=
  value = .str itemReference ∨ value.get? "value" = some (.str itemReference)

theorem isItemReference_iff {value : Json} : isItemReference value = true ↔ CurrentItem value := by
  rw [isItemReference, Bool.or_eq_true, beq_iff_eq, beq_iff_eq, Json.text?_eq_some_iff]
  refine or_congr_left ?_
  cases value <;> simp [Json.asString?]

instance : DecidablePred CurrentItem :=
  fun value => decidable_of_iff (isItemReference value = true) isItemReference_iff

/-- The parameters that are the current item. -/
def droppedItems (parameters : List (String × Json)) : List (String × Json) :=
  parameters.filter fun parameter => CurrentItem parameter.2

/-- The parameters that are not the current item. -/
def keptParameters (parameters : List (String × Json)) : List (String × Json) :=
  parameters.filter fun parameter => ¬CurrentItem parameter.2

/-- The name of a parameter and its text, which is empty for a value that is no text. -/
def textParameter (parameter : String × Json) : String × String :=
  (parameter.1, parameter.2.asString?.getD "")

/-- What is recorded about a parameter of the child that is the current item. -/
def Diagnostic.droppedItem (child : Json) (parameter : String × Json) : Diagnostic :=
  ⟨"base_parameters." ++ parameter.1,
    "Removing redundant parameter " ++ parameter.1 ++ " with value " ++ itemReference,
    child.text? "name", child.text? "type"⟩

/-- What is recorded about a parameter of the child that is no text. -/
def Diagnostic.blankedParameter (child : Json) (parameter : String × Json) : Diagnostic :=
  ⟨"parameters." ++ parameter.1,
    "Could not resolve default value for parameter " ++ parameter.1 ++ ", setting to \"\"",
    child.filledText? "name", child.filledText? "type"⟩

/-- The other definition is that of the child without the parameters that are the current item. -/
structure LacksItems (child other : Json) (parameters : List (String × Json)) : Prop where
  same : SameBut ["base_parameters"] child other
  kept : other.fields? "base_parameters" = some (keptParameters parameters)

/-! ## Conversions that only add diagnostics -/

/-- The properties that the settings of a task may be remarked on. -/
def Task.remarked : List String :=
  "name" :: "depends_on" :: "linked_service_definition" :: Policy.properties

namespace Conversion

variable {α β : Type}

/-- The conversion keeps all earlier diagnostics. -/
def Grows (c : Conversion α) : Prop :=
  ∀ memory : Memory, memory.log.entries <+: (c memory).2.log.entries

theorem Grows.of_records {c : Conversion α} {post : Except Failure α → List Diagnostic → Prop}
    (h : ∀ scope, c.Records scope post) : c.Grows := by
  intro memory
  obtain ⟨recorded, hlog, -⟩ := h _ memory rfl
  exact ⟨recorded, (congrArg Log.entries hlog).symm⟩

theorem Grows.bind {c : Conversion α} {f : α → Conversion β} (hc : c.Grows) (hf : ∀ x, (f x).Grows) :
    (c >>= f).Grows := by
  intro memory
  have hfirst := hc memory
  rcases h : c memory with ⟨failure | x, between⟩
  · rw [bind_of_error h]
    rwa [h] at hfirst
  · rw [bind_of_ok h]
    rw [h] at hfirst
    exact hfirst.trans (hf x between)

theorem Grows.pure (value : α) : (pure value : Conversion α).Grows :=
  fun _ => List.prefix_refl _

theorem Grows.traverse {f : α → Conversion β} (hf : ∀ x, (f x).Grows) (xs : List α) :
    (Conversion.traverse f xs).Grows := by
  induction xs with
  | nil => exact .pure []
  | cons x xs ih => exact (hf x).bind fun _ => ih.bind fun _ => .pure _

/-- What a traversal does with the item at one place. -/
theorem exists_of_traverse {f : α → Conversion β} (hf : ∀ x, (f x).Grows) {xs : List α} {ys : List β}
    {before after : Memory} (h : traverse f xs before = (.ok ys, after)) {i : Nat} {x : α} {y : β}
    (hx : xs[i]? = some x) (hy : ys[i]? = some y) :
    ∃ start finish, before.log.entries <+: start.log.entries ∧ f x start = (.ok y, finish) ∧
      finish.log.entries <+: after.log.entries := by
  induction xs generalizing i before ys with
  | nil => cases hx
  | cons first rest ih =>
    obtain ⟨y', between, hfirst, h⟩ := exists_of_bind_ok h
    obtain ⟨ys', after', hrest, h⟩ := exists_of_bind_ok h
    obtain ⟨rfl, rfl⟩ : y' :: ys' = ys ∧ after' = after := by
      obtain ⟨hys, hafter⟩ := Prod.mk.inj h
      exact ⟨Except.ok.inj hys, hafter⟩
    have hgrown : before.log.entries <+: between.log.entries := by
      have := hf first before
      rwa [hfirst] at this
    cases i with
    | zero =>
      obtain rfl := Option.some.inj hx
      obtain rfl := Option.some.inj hy
      have hlater := Grows.traverse hf rest between
      rw [hrest] at hlater
      exact ⟨before, between, List.prefix_refl _, hfirst, hlater⟩
    | succ i =>
      obtain ⟨start, finish, hstart, hitem, hfinish⟩ := ih hrest hx hy
      exact ⟨start, finish, hgrown.trans hstart, hitem, hfinish⟩

/-- From a memory with the given innermost scope, the conversion only records such diagnostics. -/
def Leaves (c : Conversion α) (scope : Option Scope) (p : Diagnostic → Prop) : Prop :=
  c.Records scope fun _ recorded => ∀ diagnostic ∈ recorded, p diagnostic

section Leaves

variable {scope : Option Scope} {p q : Diagnostic → Prop}

theorem Leaves.mono {c : Conversion α} (h : c.Leaves scope p) (himp : ∀ diagnostic, p diagnostic →
    q diagnostic) : c.Leaves scope q :=
  Records.imp h fun _ _ hrecorded diagnostic hmem => himp diagnostic (hrecorded diagnostic hmem)

theorem Leaves.ofExcept (result : Except Failure α) : (ofExcept result).Leaves scope p :=
  Records.ofExcept (List.forall_mem_nil _)

theorem Leaves.pure (value : α) : (pure value : Conversion α).Leaves scope p :=
  .ofExcept (.ok value)

theorem Leaves.record {innermost : Scope} {notes : List Note}
    (h : ∀ note ∈ notes, p (innermost.tag note)) : (record notes).Leaves (some innermost) p :=
  Records.record (List.forall_mem_map.mpr h)

theorem Leaves.bind {c : Conversion α} {f : α → Conversion β} (hc : c.Leaves scope p)
    (hf : ∀ x, (f x).Leaves scope p) : (c >>= f).Leaves scope p := by
  refine Records.bind hc (fun x recorded _ hrecorded => ?_) fun _ _ hrecorded => hrecorded
  exact (hf x).imp fun _ more hmore => List.forall_mem_append.mpr ⟨hrecorded, hmore⟩

theorem Leaves.ofNoted {innermost : Scope} {noted : Noted α}
    (h : ∀ note ∈ noted.notes, p (innermost.tag note)) :
    (Conversion.ofNoted noted).Leaves (some innermost) p :=
  (Leaves.record h).bind fun _ => .pure _

/-- What follows a value that is known. -/
theorem Leaves.ofNoted_bind {innermost : Scope} {noted : Noted α} {f : α → Conversion β}
    (h : ∀ note ∈ noted.notes, p (innermost.tag note))
    (hf : (f noted.value).Leaves (some innermost) p) :
    (Conversion.ofNoted noted >>= f).Leaves (some innermost) p := by
  rw [Conversion.ofNoted, bind_assoc]
  simp only [pure_bind]
  exact (Leaves.record h).bind fun _ => hf

theorem Leaves.traverse {f : α → Conversion β} {xs : List α} (h : ∀ x ∈ xs, (f x).Leaves scope p) :
    (Conversion.traverse f xs).Leaves scope p := by
  induction xs with
  | nil => exact .pure []
  | cons x xs ih =>
    have hxs := ih fun y hy => h y (List.mem_cons_of_mem x hy)
    exact (h x List.mem_cons_self).bind fun y => hxs.bind fun ys => .pure (y :: ys)

end Leaves

/-- The conversion only records diagnostics with the tag of the scope and one of the properties. -/
def Remarks (c : Conversion α) (scope : Scope) (properties : List String) : Prop :=
  c.Records (some scope) fun _ recorded =>
    ∀ diagnostic ∈ recorded, diagnostic.scope = scope ∧ diagnostic.property ∈ properties

variable {scope : Scope} {properties : List String}

theorem Remarks.bind {c : Conversion α} {f : α → Conversion β} (hc : c.Remarks scope properties)
    (hf : ∀ x, (f x).Remarks scope properties) : (c >>= f).Remarks scope properties :=
  Leaves.bind hc hf

theorem Remarks.ofExcept (result : Except Failure α) : (ofExcept result).Remarks scope properties :=
  Leaves.ofExcept result

theorem Remarks.record {notes : List Note} (h : ∀ note ∈ notes, note.property ∈ properties) :
    (record notes).Remarks scope properties :=
  Leaves.record fun note hnote => ⟨rfl, h note hnote⟩

theorem Remarks.ofNoted {noted : Noted α} (h : ∀ note ∈ noted.notes, note.property ∈ properties) :
    (Conversion.ofNoted noted).Remarks scope properties :=
  Leaves.ofNoted fun note hnote => ⟨rfl, h note hnote⟩

theorem Remarks.mono {properties' : List String} {c : Conversion α} (h : c.Remarks scope properties)
    (hsubset : properties ⊆ properties') : c.Remarks scope properties' :=
  Leaves.mono h fun _ hdiagnostic => ⟨hdiagnostic.1, hsubset hdiagnostic.2⟩

end Conversion

/-! ## Settings of tasks -/

theorem Policy.Cache.property_of_mem_read {cache : Cache} {activity : String} {block : Option Json}
    {note : Note} (h : note ∈ (cache.read activity block).1.notes) : note.property ∈ properties := by
  unfold read at h
  split at h
  · cases h
  · split at h
    · cases h
    · exact property_of_mem_ofBlock h

theorem Dependency.property_of_mem_ofEntries {entries : List Json} {note : Note}
    (h : note ∈ (ofEntries entries).notes) : note.property = "depends_on" := by
  induction entries with
  | nil => cases h
  | cons entry entries ih =>
    unfold ofEntries at h
    split at h
    · cases h
    · rename_i first hfirst
      simp only [Noted.notes_bind, Noted.notes_pure, List.append_nil, List.mem_append] at h
      refine h.elim (fun h => ?_) ih
      unfold ofEntry at hfirst
      split at hfirst
      · obtain rfl := Except.ok.inj hfirst
        rw [List.mem_singleton.mp h]
      · dsimp only at hfirst
        split at hfirst
        · cases hfirst
        · split at hfirst <;> obtain rfl := Except.ok.inj hfirst
          · cases h
          · cases h
          · rw [List.mem_singleton.mp h]

namespace Task

theorem property_of_mem_nameNotes {activity : Json} {note : Note} (h : note ∈ nameNotes activity) :
    note.property = "name" := by
  unfold nameNotes at h
  split at h
  · cases h
  · rw [List.mem_singleton.mp h]

theorem property_of_mem_clusterOf {activity : Json} {note : Note}
    (h : note ∈ (clusterOf activity).notes) : note.property = "linked_service_definition" := by
  unfold clusterOf at h
  dsimp only at h
  split at h
  · split at h
    · cases h
    · rw [List.mem_singleton.mp h]
  · cases h

/-- The settings but for the cluster are remarked on under properties of their own. -/
theorem settings_remarks (activity : Json) (scope : Scope) :
    (settings activity).Remarks scope ("name" :: "depends_on" :: Policy.properties) := by
  have hpolicy (name : String) (block : Option Json) :
      (Conversion.policy name block).Remarks scope ("name" :: "depends_on" :: Policy.properties) := by
    intro memory hscope
    have hnotes : ∀ note ∈ (memory.cache.read name block).1.notes,
        note.property ∈ "name" :: "depends_on" :: Policy.properties :=
      fun note hnote => List.mem_append_right ["name", "depends_on"]
        (Policy.Cache.property_of_mem_read hnote)
    exact Conversion.Remarks.ofNoted hnotes
      { memory with cache := (memory.cache.read name block).2 } hscope
  refine (Conversion.Remarks.record fun note hnote => ?_).bind fun _ => ?_
  · rw [property_of_mem_nameNotes hnote]
    decide
  refine (hpolicy _ _).bind fun policy => ?_
  refine (Conversion.Remarks.ofNoted fun note hnote => ?_).bind fun dependencies => ?_
  · rw [Dependency.property_of_mem_ofEntries hnote]
    decide
  exact (Conversion.Remarks.ofExcept dependencies).bind fun dependsOn => .ofExcept (.ok _)

/-- The settings of a task are remarked on under properties of their own. -/
theorem ofDefinition_remarks (activity : Json) (scope : Scope) :
    (ofDefinition activity).Remarks scope remarked := by
  rw [ofDefinition_eq_settings]
  refine ((settings_remarks activity scope).mono (by decide)).bind fun task => ?_
  refine (Conversion.Remarks.ofNoted fun note hnote => ?_).bind fun cluster => .ofExcept (.ok _)
  rw [property_of_mem_clusterOf hnote]
  decide

end Task

/-! ## Notebooks -/

theorem value_baseParameter (parameter : String × Json) :
    (baseParameter parameter).value = textParameter parameter := by
  obtain ⟨name, value⟩ := parameter
  cases value <;> rfl

/-- What is noted about a parameter that is no text. -/
def blankedNote (parameter : String × Json) : Note :=
  ⟨"parameters." ++ parameter.1,
    "Could not resolve default value for parameter " ++ parameter.1 ++ ", setting to \"\""⟩

theorem notes_baseParameter (parameter : String × Json) :
    (baseParameter parameter).notes
      = if parameter.2.asString?.isNone then [blankedNote parameter] else [] := by
  obtain ⟨name, value⟩ := parameter
  cases value <;> rfl

theorem notes_traverse_baseParameter (parameters : List (String × Json)) :
    (Noted.traverse baseParameter parameters).notes
      = (parameters.filter (·.2.asString?.isNone)).map blankedNote := by
  rw [Noted.notes_traverse]
  induction parameters with
  | nil => rfl
  | cons parameter parameters ih =>
    rw [List.flatMap_cons, ih, notes_baseParameter, List.filter_cons]
    split <;> rfl

theorem baseParameters_inLoop {child : Json} {parameters : List (String × Json)}
    (h : child.fields? "base_parameters" = some parameters) :
    baseParameters true child = keptParameters parameters := by
  rw [baseParameters, h]
  refine List.filter_congr fun parameter _ => ?_
  simp [← isItemReference_iff]

theorem keptParameters_keptParameters (parameters : List (String × Json)) :
    keptParameters (keptParameters parameters) = keptParameters parameters := by
  rw [keptParameters, keptParameters, List.filter_filter]
  simp only [Bool.and_self]

theorem Work.ofNotebook_eq {child : Json} {parameters : List (String × Json)}
    (h : child.fields? "base_parameters" = some parameters) {path : String} {texts : Table String}
    (hvalue : (ofNotebook true child).value = .ok (.notebook path texts)) :
    texts = (keptParameters parameters).map textParameter ∧
      (ofNotebook true child).notes
        = ((keptParameters parameters).filter (·.2.asString?.isNone)).map blankedNote := by
  unfold ofNotebook at hvalue ⊢
  cases hpath : requireProperty child "notebook_path" .notebook with
  | error rejection =>
    rw [hpath] at hvalue
    cases hvalue
  | ok path' =>
    rw [hpath] at hvalue
    dsimp only at hvalue ⊢
    rw [baseParameters_inLoop h] at hvalue ⊢
    rw [Noted.notes_bind, Noted.notes_pure, List.append_nil, notes_traverse_baseParameter]
    rw [Noted.value_bind, Noted.value_pure, Noted.value_traverse] at hvalue
    obtain ⟨-, rfl⟩ := Work.notebook.inj (Except.ok.inj hvalue)
    exact ⟨List.map_congr_left fun parameter _ => value_baseParameter parameter, rfl⟩

/-- A notebook in a loop body: its parameters, and what is recorded for them. -/
theorem convertNotebook_apply {strict : Bool} {child : Json} {task own : Task}
    {parameters : List (String × Json)} (h : child.fields? "base_parameters" = some parameters)
    {path : String} {texts : Table String} {before after : Memory}
    (hconvert : convertNotebook strict true child task before
      = (.ok (.single own (.notebook path texts)), after)) :
    texts = (keptParameters parameters).map textParameter ∧
      after.log = before.log.record
        (((keptParameters parameters).filter (·.2.asString?.isNone)).map blankedNote) := by
  obtain ⟨read, between, hread, hsettle⟩ := Conversion.exists_of_bind_ok hconvert
  rw [Conversion.ofNoted_apply] at hread
  obtain ⟨hvalue, rfl⟩ := Prod.mk.inj hread
  obtain rfl := Except.ok.inj hvalue
  have hwork := (settle_yields_single ⟨_, _, hsettle⟩).resolve_right fun ⟨_, hreason⟩ => nomatch hreason
  obtain ⟨htexts, hnotes⟩ := Work.ofNotebook_eq h hwork
  rw [hwork] at hsettle
  obtain ⟨-, rfl⟩ := Prod.mk.inj hsettle
  exact ⟨htexts, by rw [hnotes]⟩

/-! ## Items of loop bodies -/

theorem Conversion.exists_of_inScope {α : Type} {scope : Scope} {c : Conversion α}
    {before after : Memory} {result : Except Failure α}
    (h : inScope scope c before = (result, after)) :
    ∃ inner, c { before with log := before.log.enter scope } = (result, inner) ∧
      after = { inner with log := inner.log.exit } := by
  obtain ⟨hresult, hafter⟩ := Prod.mk.inj h
  exact ⟨_, Prod.ext hresult rfl, hafter.symm⟩

theorem recordItems_apply {child : Json} {parameters : List (String × Json)}
    (h : child.fields? "base_parameters" = some parameters) (memory : Memory) :
    recordItems child memory
      = (.ok (), { memory with
          log := memory.log.append ((droppedItems parameters).map (.droppedItem child)) }) := by
  have hnotes : itemNotes child = (droppedItems parameters).map fun parameter =>
      ⟨"base_parameters." ++ parameter.1,
        "Removing redundant parameter " ++ parameter.1 ++ " with value " ++ itemReference⟩ := by
    rw [itemNotes, h, droppedItems]
    refine congrArg (List.map _) (List.filter_congr fun parameter _ => ?_)
    simp [← isItemReference_iff]
  rw [recordItems, hnotes]
  simp only [Conversion.inScope, Conversion.record, Log.record, Log.append, Log.enter, Log.exit,
    List.map_map]
  rfl

theorem Activity.addDependency_none (activity : Activity) : activity.addDependency none = activity := by
  cases activity <;> simp [addDependency, withTask, Activity.task]

theorem branchChild_of_notebook {strict : Bool} {child : Json} {c : Conversion Activity} {own : Task}
    {path : String} {texts : Table String} {before after : Memory}
    (h : branchChild strict child none c before = (.ok (.single own (.notebook path texts)), after)) :
    c before = (.ok (.single own (.notebook path texts)), after) := by
  unfold branchChild at h
  rcases hc : c before with ⟨failure | converted, between⟩
  · have hfails : (do return (← c).addDependency none : Conversion Activity) before
        = (.error failure, between) := Conversion.bind_of_error hc
    by_cases hcontain : mayContain strict failure = true
    · rw [Conversion.recover_of_some hfails (if_pos hcontain)] at h
      cases contain_yields ⟨_, _, h⟩
    · rw [Conversion.recover_of_none hfails (if_neg hcontain)] at h
      cases h
  · have hyields : (do return (← c).addDependency none : Conversion Activity) before
        = (.ok (converted.addDependency none), between) := Conversion.bind_of_ok hc
    rw [Conversion.recover_of_ok hyields] at h
    obtain ⟨hconverted, rfl⟩ := Prod.mk.inj h
    rw [← Except.ok.inj hconverted, Activity.addDependency_none]

namespace LacksItems

variable {child other : Json} {parameters : List (String × Json)}

theorem droppedItems_kept : droppedItems (keptParameters parameters) = [] := by
  rw [droppedItems, keptParameters, List.filter_filter, List.filter_eq_nil_iff]
  simp

/-- Without the dropped parameters, a notebook in a loop body is converted to the same. -/
theorem convert_eq (h : LacksItems child other parameters)
    (hparameters : child.fields? "base_parameters" = some parameters)
    (hkind : Task.typeOf child = ActivityKind.notebook.tag) (strict : Bool) :
    convert strict true other = convert strict true child := by
  have hpath : requireProperty other "notebook_path" .notebook
      = requireProperty child "notebook_path" .notebook :=
    h.same.requireProperty_eq (by decide) .notebook
  have hwork : Work.ofNotebook true other = Work.ofNotebook true child := by
    rw [Work.ofNotebook, Work.ofNotebook, hpath, baseParameters_inLoop h.kept,
      baseParameters_inLoop hparameters, keptParameters_keptParameters]
  rw [FactoryMigration.convert_eq, FactoryMigration.convert_eq, h.same.scope_eq (by decide),
    h.same.ofDefinition_eq (by decide)]
  refine congrArg (Conversion.inScope _) (Conversion.bind_congr_of_yields fun task hyields => ?_)
  have htag : ActivityKind.ofTag? task.type = some .notebook := by
    rw [(Task.of_yields hyields).type, hkind, ActivityKind.ofTag?_tag]
  simp only [convertWork, htag, convertNotebook, hwork]

/-- In a loop body, such a notebook differs in the diagnostics on the dropped parameters only. -/
theorem convertItem_eq (h : LacksItems child other parameters)
    (hparameters : child.fields? "base_parameters" = some parameters)
    (hkind : Task.typeOf child = ActivityKind.notebook.tag) (strict : Bool) (memory : Memory) :
    convertItem strict child memory
      = convertItem strict other { memory with
          log := memory.log.append ((droppedItems parameters).map (.droppedItem child)) } := by
  have hcontain (failure : Failure) : contain other none failure = contain child none failure := by
    rw [contain, contain, h.same.keyOf_eq (by decide), h.same.typeOf_eq (by decide),
      h.same.text?_eq (by decide)]
  have hchild : branchChild strict other none (convert strict true other)
      = branchChild strict child none (convert strict true child) := by
    rw [branchChild, branchChild, h.convert_eq hparameters hkind]
    simp only [hcontain]
  rw [convertItem, convertItem, Conversion.bind_of_ok (recordItems_apply hparameters memory),
    Conversion.bind_of_ok (recordItems_apply h.kept _), droppedItems_kept, hchild]
  simp only [List.map_nil, Log.append_nil]

end LacksItems

theorem filledText?_of_typeOf {child : Json} {kind : ActivityKind}
    (h : Task.typeOf child = kind.tag) : child.filledText? "type" = some kind.tag := by
  have huntyped : Task.untyped ≠ kind.tag := by
    cases kind <;> decide
  unfold Task.typeOf at h
  cases htype : child.filledText? "type" with
  | none =>
    rw [htype] at h
    exact absurd h huntyped
  | some type =>
    rw [htype] at h
    exact congrArg some h

/-- A notebook in a loop body: the diagnostics on dropped parameters, those on the settings of its task,
and those on parameters that become empty. -/
theorem convertItem_notebook {strict : Bool} {child : Json} {parameters : List (String × Json)}
    (hparameters : child.fields? "base_parameters" = some parameters) {own : Task} {path : String}
    {texts : Table String} {start finish : Memory}
    (h : convertItem strict child start = (.ok (.single own (.notebook path texts)), finish)) :
    Task.typeOf child = ActivityKind.notebook.tag ∧
      texts = (keptParameters parameters).map textParameter ∧
      ∃ settings, finish.log.entries = start.log.entries
          ++ (droppedItems parameters).map (.droppedItem child) ++ settings
          ++ ((keptParameters parameters).filter (·.2.asString?.isNone)).map
            (.blankedParameter child) ∧
        ∀ diagnostic ∈ settings, diagnostic.scope = Scope.ofActivity child ∧
          diagnostic.property ∈ Task.remarked := by
  rw [convertItem, Conversion.bind_of_ok (recordItems_apply hparameters start)] at h
  replace h := branchChild_of_notebook h
  rw [FactoryMigration.convert_eq] at h
  obtain ⟨inner, hinner, rfl⟩ := Conversion.exists_of_inScope h
  obtain ⟨task, between, htask, hwork⟩ := Conversion.exists_of_bind_ok hinner
  obtain ⟨settings, hlog, hsettings⟩ := Task.ofDefinition_remarks child (Scope.ofActivity child)
    { start with log := (start.log.append ((droppedItems parameters).map
      (.droppedItem child))).enter (Scope.ofActivity child) } rfl
  rw [htask] at hlog
  have htag : ActivityKind.ofTag? task.type = some .notebook := by
    obtain ⟨kind, hkind, hread⟩ | ⟨reason, hreason⟩ := convertWork_yields_single ⟨_, _, hwork⟩
    · cases hread with
      | notebook => exact hkind
    · cases hreason
  have hkind : Task.typeOf child = ActivityKind.notebook.tag := by
    rw [← (Task.of_yields ⟨_, _, htask⟩).type]
    exact (ActivityKind.tag_of_ofTag? htag).symm
  simp only [convertWork, htag] at hwork
  obtain ⟨htexts, hafter⟩ := convertNotebook_apply hparameters hwork
  refine ⟨hkind, htexts, settings, ?_, hsettings⟩
  have hblanked (parameter : String × Json) :
      (Scope.ofActivity child).tag (blankedNote parameter) = .blankedParameter child parameter := by
    rw [Scope.ofActivity, filledText?_of_typeOf hkind]
    rw [Diagnostic.blankedParameter, filledText?_of_typeOf hkind]
    rfl
  show inner.log.entries = _
  rw [hafter, Log.entries_record, List.map_map, hlog]
  exact congrArg _ (List.map_congr_left fun parameter _ => hblanked parameter)

/-- A loop converts its body item by item. -/
theorem exists_body_of_convert {strict inLoop : Bool} {activity : Json} {memory after : Memory}
    {task : Task} {items : String} {concurrency : Option Nat} {body : List Activity}
    (h : convert strict inLoop activity memory = (.ok (.loop task items concurrency body), after)) :
    ∃ start finish, memory.log.entries <+: start.log.entries ∧
      Conversion.traverse (convertItem strict) (activity.items "activities") start
        = (.ok body, finish) ∧
      finish.log.entries = after.log.entries := by
  have hkind : Task.typeOf activity = ActivityKind.forEach.tag := by
    cases convert_yields ⟨_, _, h⟩ with
    | loop _ hkind => exact hkind
  rw [FactoryMigration.convert_eq] at h
  obtain ⟨inner, hinner, rfl⟩ := Conversion.exists_of_inScope h
  obtain ⟨task', between, htask, hwork⟩ := Conversion.exists_of_bind_ok hinner
  obtain ⟨settings, hlog, -⟩ := Task.ofDefinition_remarks activity (Scope.ofActivity activity)
    { memory with log := memory.log.enter (Scope.ofActivity activity) } rfl
  rw [htask] at hlog
  have htag : ActivityKind.ofTag? task'.type = some .forEach := by
    rw [(Task.of_yields ⟨_, _, htask⟩).type, hkind, ActivityKind.ofTag?_tag]
  simp only [convertWork, htag, convertLoop] at hwork
  cases hheader : loopHeader activity with
  | error rejection =>
    rw [hheader] at hwork
    obtain ⟨reason, hreason⟩ := reject_yields ⟨_, _, hwork⟩
    cases hreason
  | ok items' =>
    rw [hheader] at hwork
    obtain ⟨_, start, hrecord, hwork⟩ := Conversion.exists_of_bind_ok hwork
    obtain ⟨body', finish, hbody, hwork⟩ := Conversion.exists_of_bind_ok hwork
    obtain ⟨hvalue, rfl⟩ := Prod.mk.inj hwork
    obtain ⟨-, -, -, rfl⟩ := Activity.loop.inj (Except.ok.inj hvalue)
    obtain ⟨-, rfl⟩ := Prod.mk.inj hrecord
    refine ⟨_, _, ⟨settings ++ (loopNotes activity).map between.log.tag, ?_⟩, hbody, rfl⟩
    rw [Log.entries_record, hlog, ← List.append_assoc]
    rfl

theorem convertItem_grows (strict : Bool) (child : Json) : (convertItem strict child).Grows := by
  have hrecords (scope : Option Scope) : (convertItem strict child).Records scope
      (Account (fun _ => True) Activity.placeholders) :=
    (recordItems_records trivial).quiet_bind fun _ _ => branchChild_records strict child none
      ((convert_records strict true child scope).imp fun _ _ h => h.mono fun _ _ => trivial) trivial
  exact .of_records hrecords

/-- No remark on the settings of a task is about a parameter. -/
theorem Task.remarked_ne {property : String} (h : property ∈ remarked) (key : String) :
    property ≠ "base_parameters." ++ key ∧ property ≠ "parameters." ++ key := by
  have hother : ∀ property ∈ remarked, ¬"base_parameters.".toList <+: property.toList ∧
      ¬"parameters.".toList <+: property.toList := by
    decide
  constructor
  · rintro rfl
    exact (hother _ h).1 ⟨key.toList, String.toList_append.symm⟩
  · rintro rfl
    exact (hother _ h).2 ⟨key.toList, String.toList_append.symm⟩

/-- **Parameters in loop bodies.** A notebook in the body of a loop has exactly the base parameters that
are not the current item, texts as they are and all else empty. There is one diagnostic for each that is
dropped and one for each that becomes empty, with the tag of the notebook, and no other on a parameter.
Everything else is as if the dropped parameters had never been there. -/
theorem loop_parameters {strict inLoop : Bool} {activity : Json} {memory after : Memory}
    {task : Task} {items : String} {concurrency : Option Nat} {body : List Activity}
    (hloop : convert strict inLoop activity memory = (.ok (.loop task items concurrency body), after))
    {i : Nat} {child : Json} (hchild : (activity.items "activities")[i]? = some child)
    {parameters : List (String × Json)}
    (hparameters : child.fields? "base_parameters" = some parameters) {own : Task} {path : String}
    {texts : Table String} (hnotebook : body[i]? = some (.single own (.notebook path texts))) :
    texts = (keptParameters parameters).map textParameter ∧
      ∃ start finish settings,
        memory.log.entries <+: start.log.entries ∧ finish.log.entries <+: after.log.entries ∧
        convertItem strict child start = (.ok (.single own (.notebook path texts)), finish) ∧
        finish.log.entries = start.log.entries
          ++ (droppedItems parameters).map (.droppedItem child) ++ settings
          ++ ((keptParameters parameters).filter (·.2.asString?.isNone)).map
            (.blankedParameter child) ∧
        (∀ diagnostic ∈ settings, diagnostic.scope.Tags child ∧ ∀ key,
          diagnostic.property ≠ "base_parameters." ++ key ∧
            diagnostic.property ≠ "parameters." ++ key) ∧
        ∀ other, LacksItems child other parameters →
          convertItem strict other { start with
              log := start.log.append ((droppedItems parameters).map (.droppedItem child)) }
            = (.ok (.single own (.notebook path texts)), finish) := by
  obtain ⟨first, last, hfirst, hbody, hlast⟩ := exists_body_of_convert hloop
  obtain ⟨start, finish, hstart, hitem, hfinish⟩ :=
    Conversion.exists_of_traverse (convertItem_grows strict) hbody hchild hnotebook
  obtain ⟨hkind, htexts, settings, hentries, hsettings⟩ := convertItem_notebook hparameters hitem
  refine ⟨htexts, start, finish, settings, hfirst.trans hstart, hlast ▸ hfinish, hitem, hentries,
    fun diagnostic hmem => ?_, fun other hother => ?_⟩
  · obtain ⟨hscope, hproperty⟩ := hsettings diagnostic hmem
    exact ⟨hscope ▸ Scope.tags_ofActivity child, Task.remarked_ne hproperty⟩
  · rw [← hother.convertItem_eq hparameters hkind, hitem]

/-! ## A loop over a notebook -/

/-- A notebook with the given base parameters. -/
def reportNotebook (parameters : List (String × Json)) : Json := .obj [
  ("base_parameters", .obj parameters),
  ("name", .str "Report"),
  ("notebook_path", .str "/report"),
  ("type", .str "DatabricksNotebook")]

theorem lacksItems_reportNotebook (parameters : List (String × Json)) :
    LacksItems (reportNotebook parameters) (reportNotebook (keptParameters parameters)) parameters where
  same key hkey := by
    have hne : key ≠ "base_parameters" := by simpa using hkey
    simp [reportNotebook, Json.get?, Table.lookup_cons, hne]
  kept := rfl

/-- The current item twice, a text and a number. -/
def reportParameters : List (String × Json) := [
  ("item", .obj [("type", .str "Expression"), ("value", .str "@item()")]),
  ("mode", .str "full"),
  ("plain", .str "@item()"),
  ("size", .num (.int 3))]

/-- A loop over the notebook with these parameters. -/
def reportLoop : Json := .obj [
  ("activities", .arr [reportNotebook reportParameters]),
  ("items", .obj [("value", .str "@createArray('a', 'b')")]),
  ("name", .str "Each"),
  ("type", .str "ForEach")]

/-- Whether the activity is a loop over one notebook. -/
def Activity.isNotebookLoop : Activity → Bool
  | loop _ _ _ [single _ (.notebook _ _)] => true
  | _ => false

theorem Activity.exists_of_isNotebookLoop {activity : Activity} (h : activity.isNotebookLoop = true) :
    ∃ task items concurrency own path texts,
      activity = .loop task items concurrency [.single own (.notebook path texts)] := by
  unfold isNotebookLoop at h
  split at h
  · exact ⟨_, _, _, _, _, _, rfl⟩
  · cases h

/-- The text and the number are left, the number as an empty text, as if there were only these two. -/
theorem reportLoop_parameters :
    ∃ task items concurrency body after own path texts,
      convert false false reportLoop (Session.start false).toMemory
        = (.ok (.loop task items concurrency body), after) ∧
      (reportLoop.items "activities")[0]? = some (reportNotebook reportParameters) ∧
      (reportNotebook reportParameters).fields? "base_parameters" = some reportParameters ∧
      body[0]? = some (.single own (.notebook path texts)) ∧
      texts = [("mode", "full"), ("size", "")] ∧
      ∃ (start finish : Memory) (settings : List Diagnostic),
        finish.log.entries = start.log.entries ++ [
            ⟨"base_parameters.item", "Removing redundant parameter item with value @item()",
              some "Report", some "DatabricksNotebook"⟩,
            ⟨"base_parameters.plain", "Removing redundant parameter plain with value @item()",
              some "Report", some "DatabricksNotebook"⟩] ++ settings ++ [
            ⟨"parameters.size", "Could not resolve default value for parameter size, setting to \"\"",
              some "Report", some "DatabricksNotebook"⟩] ∧
        (convertItem false (reportNotebook [("mode", .str "full"), ("size", .num (.int 3))])
          { start with log := start.log.append ((droppedItems reportParameters).map
            (.droppedItem (reportNotebook reportParameters))) }).2 = finish := by
  have hshape : (convert false false reportLoop (Session.start false).toMemory).1.toOption.any
      Activity.isNotebookLoop = true := by
    decide +kernel
  rcases h : convert false false reportLoop (Session.start false).toMemory with
    ⟨failure | converted, after⟩
  · rw [h] at hshape
    cases hshape
  · rw [h] at hshape
    obtain ⟨task, items, concurrency, own, path, texts, rfl⟩ :=
      Activity.exists_of_isNotebookLoop hshape
    obtain ⟨htexts, start, finish, settings, -, -, -, hentries, -, hother⟩ :=
      loop_parameters h (show (reportLoop.items "activities")[0]? = _ from rfl)
        (show (reportNotebook reportParameters).fields? "base_parameters" = _ from rfl) rfl
    refine ⟨task, items, concurrency, _, after, own, path, texts, rfl, rfl, rfl, rfl, ?_, start,
      finish, settings, ?_, ?_⟩
    · rw [htexts]
      decide +kernel
    · have hdropped : (droppedItems reportParameters).map
            (Diagnostic.droppedItem (reportNotebook reportParameters)) = [
              ⟨"base_parameters.item", "Removing redundant parameter item with value @item()",
                some "Report", some "DatabricksNotebook"⟩,
              ⟨"base_parameters.plain", "Removing redundant parameter plain with value @item()",
                some "Report", some "DatabricksNotebook"⟩] := by
        decide +kernel
      have hblanked : ((keptParameters reportParameters).filter (·.2.asString?.isNone)).map
            (Diagnostic.blankedParameter (reportNotebook reportParameters)) = [
              ⟨"parameters.size",
                "Could not resolve default value for parameter size, setting to \"\"",
                some "Report", some "DatabricksNotebook"⟩] := by
        decide +kernel
      rw [hentries, hdropped, hblanked]
    · exact congrArg Prod.snd (hother _ (lacksItems_reportNotebook reportParameters))

end FactoryMigration
