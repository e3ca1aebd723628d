import FactoryMigration.Proofs.DefinitionFields
import FactoryMigration.Proofs.KeySegments
import FactoryMigration.Proofs.Recording

set_option autoImplicit false

/-! # Branches that are dropped

A branch whose condition is rejected becomes a placeholder, and its children are lost with it. If its
expression has a text, a diagnostic names all of them. A branch without one is rejected before its
children are looked at: whatever they are, the outcome is the same, and no diagnostic can name them
(`Session.convert_reportsChildren_iff`). -/

namespace FactoryMigration

/-! ## Rejected conditions -/

/-- The note that a rejection leaves. -/
def Rejection.note : Rejection → Note
  | value property reason | expression property reason => ⟨property, reason.message⟩

theorem reject_lenient (task : Task) (rejection : Rejection) :
    reject false task rejection = (do
      Conversion.record [rejection.note]
      return .placeholder task rejection.note.message) := by
  cases rejection <;> rfl

/-- The expression of a branch has a text that is not blank. -/
def HasExpression (activity : Json) : Prop :=
  ∃ text, (activity.getD "expression").text? "value" = some text ∧ Text.trim text.toList ≠ []

/-- The rejection of a branch without a text for its condition. -/
def missingExpression (activity : Json) : Rejection :=
  .value "expression"
    ⟨activity.getD "expression", "Missing property 'expression' in IfCondition activity"⟩

theorem branchCondition_of_not_hasExpression {activity : Json} (h : ¬HasExpression activity) :
    branchCondition activity = .error (missingExpression activity) := by
  have hnone : ((activity.getD "expression").text? "value").filter
      (fun text => Text.trim text.toList ≠ []) = none := by
    rw [Option.filter_eq_none_iff]
    intro text htext
    simpa using fun hne => h ⟨text, htext, hne⟩
  unfold branchCondition
  dsimp only
  rw [hnone]
  rfl

/-- The fields in which a branch holds its children. -/
def branchKeys : List String := ["if_false_activities", "if_true_activities"]

theorem mem_childNames {activity child : Json} {key name : String} (hkey : key ∈ branchKeys)
    (hchild : child ∈ activity.items key) (hname : child.text? "name" = some name) :
    name ∈ childNames activity := by
  refine List.mem_filterMap.mpr ⟨child, List.mem_append.mpr ?_, hname⟩
  rcases List.mem_cons.mp hkey with rfl | hkey
  · exact .inl hchild
  · obtain rfl := List.mem_singleton.mp hkey
    exact .inr hchild

/-- A text that is no condition is rejected with the names of all children. -/
theorem infix_of_mem_childNames {activity : Json} (h : HasExpression activity) {rejection : Rejection}
    (hrejected : branchCondition activity = .error rejection) {name : String}
    (hname : name ∈ childNames activity) : name.toList <:+: rejection.note.message.toList := by
  obtain ⟨text, htext, hne⟩ := h
  unfold branchCondition at hrejected
  simp only [htext, Option.filter_some, hne, ne_eq, not_false_eq_true, decide_true, if_true]
    at hrejected
  cases hparse : Condition.parse text with
  | ok condition =>
    rw [hparse] at hrejected
    cases hrejected
  | error obstacle =>
    cases hnames : childNames activity with
    | nil =>
      rw [hnames] at hname
      cases hname
    | cons first rest =>
      simp only [hparse, hnames] at hrejected
      cases hrejected
      rw [← hnames]
      simp only [Rejection.note, String.toList_append]
      exact (Text.infix_joinWith_of_mem hname ", ").trans (List.suffix_append _ _).isInfix

/-! ## Definitions that only differ in their children -/

/-- The definitions have the same fields, apart from the children of a branch. -/
def SameButChildren (activity other : Json) : Prop :=
  ∀ key, key ∉ branchKeys → other.get? key = activity.get? key

namespace SameButChildren

variable {activity other : Json} (h : SameButChildren activity other)

include h

theorem sameBut : SameBut branchKeys activity other := h

theorem typeOf_eq : Task.typeOf other = Task.typeOf activity := h.sameBut.typeOf_eq (by decide)

theorem scope_eq : Scope.ofActivity other = Scope.ofActivity activity :=
  h.sameBut.scope_eq (by decide)

theorem ofDefinition_eq : Task.ofDefinition other = Task.ofDefinition activity :=
  h.sameBut.ofDefinition_eq (by decide)

theorem hasExpression_iff : HasExpression other ↔ HasExpression activity := by
  rw [HasExpression, HasExpression, h.sameBut.getD_eq (by decide)]

theorem missingExpression_eq : missingExpression other = missingExpression activity := by
  rw [missingExpression, missingExpression, h.sameBut.getD_eq (by decide)]

end SameButChildren

/-! ## Conversions of rejected branches -/

/-- The children of a rejected branch are not converted. -/
theorem convert_of_rejected {activity : Json} {rejection : Rejection}
    (hkind : Task.typeOf activity = ActivityKind.ifCondition.tag)
    (hrejected : branchCondition activity = .error rejection) (inLoop : Bool) :
    convert false inLoop activity = Conversion.inScope (Scope.ofActivity activity) (do
      let task ← Task.ofDefinition activity
      Conversion.record [rejection.note]
      return .placeholder task rejection.note.message) := by
  rw [convert_eq]
  refine congrArg (Conversion.inScope _) (Conversion.bind_congr_of_yields fun task htask => ?_)
  have htag : ActivityKind.ofTag? task.type = some .ifCondition := by
    rw [(Task.of_yields htask).type, hkind, ActivityKind.ofTag?_tag]
  simp only [convertWork, htag, convertBranch, hrejected]
  exact reject_lenient task rejection

/-- If the conversion of a rejected branch ends with an activity, its last diagnostic is the note of
the rejection. -/
theorem convert_records_of_rejected {activity : Json} {rejection : Rejection}
    (hkind : Task.typeOf activity = ActivityKind.ifCondition.tag)
    (hrejected : branchCondition activity = .error rejection) (inLoop : Bool) (outer : Option Scope) :
    (convert false inLoop activity).Records outer fun result recorded =>
      ∀ converted, result = .ok converted →
        (Scope.ofActivity activity).tag rejection.note ∈ recorded := by
  have hdefinition : (Task.ofDefinition activity).Records (some (Scope.ofActivity activity))
      (Account (fun _ => True) fun _ => []) := Task.ofDefinition_records trivial activity
  have hnote : (Conversion.record [rejection.note]).Records (some (Scope.ofActivity activity))
      fun _ recorded => recorded = [(Scope.ofActivity activity).tag rejection.note] := .record rfl
  rw [convert_of_rejected hkind hrejected]
  refine .inScope (hdefinition.bind (fun task recorded _ _ => ?_) fun _ _ _ => nofun)
  refine hnote.bind (fun _ more _ hmore => .ofExcept fun _ _ => ?_) fun _ _ _ => nofun
  simp [hmore]

namespace Session

/-- If the conversion of a branch ends with a placeholder, every child that has a name is named by a
diagnostic which the conversion records. -/
def ReportsChildren (session : Session) (activity : Json) : Prop :=
  ∀ converted after, session.convert activity = (.ok converted, after) →
    converted.isPlaceholder = true →
      ∃ recorded, after.log.entries = session.log.entries ++ recorded ∧
        ∀ key ∈ branchKeys, ∀ child ∈ activity.items key, ∀ name, child.text? "name" = some name →
          ∃ diagnostic ∈ recorded, name.toList <:+: diagnostic.message.toList

variable {session : Session} {activity : Json}

theorem convert_eq_of_lenient (hlenient : session.strict = false) :
    session.convert activity =
      ((FactoryMigration.convert false false activity session.toMemory).1,
        { session with
          toMemory := (FactoryMigration.convert false false activity session.toMemory).2 }) := by
  rw [convert, hlenient]

theorem yields_of_convert (hlenient : session.strict = false) {converted : Activity} {after : Session}
    (h : session.convert activity = (.ok converted, after)) :
    (FactoryMigration.convert false false activity).Yields converted := by
  rw [convert_eq_of_lenient hlenient] at h
  exact ⟨session.toMemory, _, Prod.ext (Prod.mk.inj h).1 rfl⟩

theorem exists_recorded_of_rejected (hlenient : session.strict = false)
    (hkind : Task.typeOf activity = ActivityKind.ifCondition.tag) {rejection : Rejection}
    (hrejected : branchCondition activity = .error rejection) {converted : Activity} {after : Session}
    (h : session.convert activity = (.ok converted, after)) :
    ∃ recorded, after.log.entries = session.log.entries ++ recorded ∧
      (Scope.ofActivity activity).tag rejection.note ∈ recorded := by
  rw [convert_eq_of_lenient hlenient] at h
  obtain ⟨hresult, rfl⟩ := Prod.mk.inj h
  obtain ⟨recorded, hlog, hnote⟩ :=
    convert_records_of_rejected hkind hrejected false _ session.toMemory rfl
  refine ⟨recorded, ?_, hnote converted hresult⟩
  rw [hlog]
  rfl

theorem isPlaceholder_of_rejected (hlenient : session.strict = false)
    (hkind : Task.typeOf activity = ActivityKind.ifCondition.tag) {rejection : Rejection}
    (hrejected : branchCondition activity = .error rejection) {converted : Activity} {after : Session}
    (h : session.convert activity = (.ok converted, after)) : converted.isPlaceholder = true := by
  have hyields := yields_of_convert hlenient h
  rw [convert_of_rejected hkind hrejected] at hyields
  obtain ⟨task, -, hyields⟩ := hyields.inScope.bind
  obtain ⟨_, -, hyields⟩ := hyields.bind
  rw [hyields.eq_of_pure]
  rfl

/-- A branch that becomes a placeholder had its condition rejected. -/
theorem exists_rejection_of_isPlaceholder (hlenient : session.strict = false)
    (hkind : Task.typeOf activity = ActivityKind.ifCondition.tag) {converted : Activity}
    {after : Session} (h : session.convert activity = (.ok converted, after))
    (hplaceholder : converted.isPlaceholder = true) :
    ∃ rejection, branchCondition activity = .error rejection := by
  cases convert_yields (yields_of_convert hlenient h) with
  | single htask hsingle => exact hsingle hkind
  | branch => cases hplaceholder
  | loop => cases hplaceholder

theorem reportsChildren_of_hasExpression (hlenient : session.strict = false)
    (hkind : Task.typeOf activity = ActivityKind.ifCondition.tag) (hexpression : HasExpression activity) :
    session.ReportsChildren activity := by
  intro converted after h hplaceholder
  obtain ⟨rejection, hrejected⟩ := exists_rejection_of_isPlaceholder hlenient hkind h hplaceholder
  obtain ⟨recorded, hentries, hnote⟩ := exists_recorded_of_rejected hlenient hkind hrejected h
  refine ⟨recorded, hentries, fun key hkey child hchild name hname => ⟨_, hnote, ?_⟩⟩
  exact infix_of_mem_childNames hexpression hrejected (mem_childNames hkey hchild hname)

/-- Without a text for its condition, a branch is converted alike with any children. -/
theorem convert_of_not_hasExpression (hlenient : session.strict = false)
    (hkind : Task.typeOf activity = ActivityKind.ifCondition.tag)
    (hexpression : ¬HasExpression activity) {other : Json} (hsame : SameButChildren activity other) :
    session.convert other = session.convert activity := by
  have hrejected : branchCondition other = .error (missingExpression activity) := by
    rw [branchCondition_of_not_hasExpression (mt hsame.hasExpression_iff.mp hexpression),
      hsame.missingExpression_eq]
  have hconvert : FactoryMigration.convert false false other
      = FactoryMigration.convert false false activity := by
    rw [convert_of_rejected (hsame.typeOf_eq.trans hkind) hrejected,
      convert_of_rejected hkind (branchCondition_of_not_hasExpression hexpression), hsame.scope_eq,
      hsame.ofDefinition_eq]
  rw [convert_eq_of_lenient hlenient, convert_eq_of_lenient hlenient, hconvert]

end Session

/-! ## A child that no diagnostic names -/

/-- The branch with one child, of the given name, in the place of its children for a true condition. -/
def withChild (name : String) : Json → Json
  | .obj fields => .obj (Table.insert "if_true_activities" (.arr [.obj [("name", .str name)]]) fields)
  | other => other

theorem sameButChildren_withChild (name : String) (activity : Json) :
    SameButChildren activity (withChild name activity) := by
  intro key hkey
  have hne : key ≠ "if_true_activities" := by
    rintro rfl
    exact hkey (by decide)
  cases activity with
  | obj fields =>
    show List.lookup key (Table.insert _ _ fields) = List.lookup key fields
    rw [Table.lookup_insert, if_neg hne]
  | _ => rfl

theorem items_withChild {activity : Json} (hkind : Task.typeOf activity = ActivityKind.ifCondition.tag)
    (name : String) :
    (withChild name activity).items "if_true_activities" = [.obj [("name", .str name)]] := by
  have huntyped : Task.untyped ≠ ActivityKind.ifCondition.tag := by decide
  cases activity with
  | obj fields =>
    simp [withChild, Json.items, Json.items?, Json.get?, Table.lookup_insert, Json.asItems?]
  | _ => exact absurd hkind huntyped -- only an object has a type

/-- A name that is longer than all messages. -/
theorem exists_name_not_infix (recorded : List Diagnostic) :
    ∃ name : String, ∀ diagnostic ∈ recorded, ¬name.toList <:+: diagnostic.message.toList := by
  refine ⟨String.ofList (List.replicate
    ((recorded.map fun diagnostic => diagnostic.message.toList.length).sum + 1) 'x'), ?_⟩
  intro diagnostic hmem hinfix
  have hlong := hinfix.length_le
  have hshort : diagnostic.message.toList.length
      ≤ (recorded.map fun diagnostic => diagnostic.message.toList.length).sum :=
    List.single_le_sum (fun _ _ => Nat.zero_le _) _ (List.mem_map_of_mem hmem)
  rw [String.toList_ofList, List.length_replicate] at hlong
  omega

/-- Without a text for its condition, a branch can have a child that no diagnostic names. -/
theorem Session.exists_not_reportsChildren {session after : Session} {activity : Json}
    {converted : Activity} (hlenient : session.strict = false)
    (hkind : Task.typeOf activity = ActivityKind.ifCondition.tag)
    (hexpression : ¬HasExpression activity)
    (h : session.convert activity = (.ok converted, after)) :
    ∃ name, ¬session.ReportsChildren (withChild name activity) := by
  have hrejected := branchCondition_of_not_hasExpression hexpression
  obtain ⟨recorded, hentries, -⟩ := exists_recorded_of_rejected hlenient hkind hrejected h
  obtain ⟨name, hname⟩ := exists_name_not_infix recorded
  refine ⟨name, fun hreports => ?_⟩
  have hconvert : session.convert (withChild name activity) = (.ok converted, after) :=
    (convert_of_not_hasExpression hlenient hkind hexpression
      (sameButChildren_withChild name activity)).trans h
  obtain ⟨recorded', hentries', hnamed⟩ :=
    hreports converted after hconvert (isPlaceholder_of_rejected hlenient hkind hrejected h)
  obtain rfl := List.append_cancel_left (hentries.symm.trans hentries')
  have hchild : .obj [("name", .str name)] ∈
      (withChild name activity).items "if_true_activities" := by
    rw [items_withChild hkind]
    exact List.mem_singleton_self _
  obtain ⟨diagnostic, hmem, hinfix⟩ := hnamed _ (by decide) _ hchild name rfl
  exact hname diagnostic hmem hinfix

/-- **Dropped branches.** If the conversion of a branch ends, all children it may have are reported with
a placeholder exactly if its expression has a text. Without one the branch is a placeholder, and the
same is recorded for all children. -/
theorem Session.convert_reportsChildren_iff {session after : Session} {activity : Json}
    {converted : Activity} (hlenient : session.strict = false)
    (hkind : Task.typeOf activity = ActivityKind.ifCondition.tag)
    (h : session.convert activity = (.ok converted, after)) :
    ((∀ other, SameButChildren activity other → session.ReportsChildren other) ↔
      HasExpression activity) ∧
    (¬HasExpression activity → converted.isPlaceholder = true ∧
      ∀ other, SameButChildren activity other → session.convert other = session.convert activity) := by
  refine ⟨⟨fun hreports => ?_, fun hexpression other hsame => ?_⟩, fun hexpression => ⟨?_, ?_⟩⟩
  · by_contra hexpression
    obtain ⟨name, hname⟩ := exists_not_reportsChildren hlenient hkind hexpression h
    exact hname (hreports _ (sameButChildren_withChild name activity))
  · exact reportsChildren_of_hasExpression hlenient (hsame.typeOf_eq.trans hkind)
      (hsame.hasExpression_iff.mpr hexpression)
  · exact isPlaceholder_of_rejected hlenient hkind
      (branchCondition_of_not_hasExpression hexpression) h
  · exact fun other hsame => convert_of_not_hasExpression hlenient hkind hexpression hsame

/-! ## A branch with and without an expression -/

/-- A branch with a notebook for a true condition, and maybe with an expression. -/
def notebookBranch (expression : Option String) : Json := .obj (
  (expression.map fun text => ("expression", .obj [("value", .str text)])).toList ++ [
  ("if_true_activities", .arr [.obj [
    ("name", .str "Deploy"),
    ("notebook_path", .str "/deploy"),
    ("type", .str "DatabricksNotebook")]]),
  ("name", .str "Check"),
  ("type", .str "IfCondition")])

/-- The notebook is named with an expression that is no condition. -/
theorem unmatchedBranch_reported :
    ∃ converted after,
      (Session.start false).convert (notebookBranch (some "@contains('abc', 'a')"))
        = (.ok converted, after) ∧ converted.isPlaceholder = true ∧
      (Session.start false).ReportsChildren (notebookBranch (some "@contains('abc', 'a')")) := by
  have hplaceholder : ((Session.start false).convert
      (notebookBranch (some "@contains('abc', 'a')"))).1.toOption.map Activity.isPlaceholder
      = some true := by
    decide +kernel
  rcases h : (Session.start false).convert (notebookBranch (some "@contains('abc', 'a')"))
    with ⟨failure | converted, after⟩
  · rw [h] at hplaceholder
    cases hplaceholder
  · rw [h] at hplaceholder
    refine ⟨converted, after, rfl, Option.some.inj hplaceholder, ?_⟩
    refine (Session.convert_reportsChildren_iff rfl (by decide) h).1.mpr ?_ _ fun _ _ => rfl
    exact ⟨"@contains('abc', 'a')", rfl, by decide⟩

/-- Without an expression nothing names the notebook. -/
theorem expressionlessBranch_unreported :
    ∃ converted after,
      (Session.start false).convert (notebookBranch none) = (.ok converted, after) ∧
      converted.isPlaceholder = true ∧
      after.log.entries = [⟨"expression", "Missing property 'expression' in IfCondition activity",
        some "Check", some "IfCondition"⟩] ∧
      ¬(Session.start false).ReportsChildren (notebookBranch none) := by
  have hplaceholder : ((Session.start false).convert (notebookBranch none)).1.toOption.map
      Activity.isPlaceholder = some true := by
    decide +kernel
  have hentries : ((Session.start false).convert (notebookBranch none)).2.log.entries
      = [⟨"expression", "Missing property 'expression' in IfCondition activity",
        some "Check", some "IfCondition"⟩] := by
    decide +kernel
  rcases h : (Session.start false).convert (notebookBranch none) with ⟨failure | converted, after⟩
  · rw [h] at hplaceholder
    cases hplaceholder
  · rw [h] at hplaceholder hentries
    refine ⟨converted, after, rfl, Option.some.inj hplaceholder, hentries, fun hreports => ?_⟩
    obtain ⟨recorded, hrecorded, hnamed⟩ := hreports converted after h (Option.some.inj hplaceholder)
    rw [hentries] at hrecorded
    obtain ⟨diagnostic, hmem, hinfix⟩ :=
      hnamed "if_true_activities" (by decide) _ (List.mem_singleton_self _) "Deploy" rfl
    obtain rfl : recorded = _ := hrecorded.symm
    obtain rfl := List.mem_singleton.mp hmem
    exact absurd hinfix (by decide)

end FactoryMigration
