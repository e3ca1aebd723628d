import Mathlib.Data.List.Forall2
import Mathlib.Data.List.NodupEquivFin
import FactoryMigration.Proofs.ConvertedActivity
import FactoryMigration.Proofs.History

set_option autoImplicit false

/-! # What conversions record

Whatever comes out of a conversion, it leaves the open scopes and the earlier diagnostics alone. What
it adds carries the tags of the activity and of the activities in it (`Session.convert_tags`), and
among it every placeholder of the result has a diagnostic of its own (`Session.convert_reports`).
Both follow from one account of each step (`Account`), which `Conversion.Records` says of conversions
in a scope. -/

namespace FactoryMigration

/-! ## Tags of nested activities -/

/-- The tag of a diagnostic. -/
def Diagnostic.scope (diagnostic : Diagnostic) : Scope :=
  ⟨diagnostic.activityName, diagnostic.activityType⟩

/-- A part of a tag is a text field of the activity; one that is missing or empty may be left out or
have a stand-in. -/
def Scope.Shows (activity : Json) (key standIn : String) (part : Option String) : Prop :=
  (∃ text, activity.text? key = some text ∧ part = some text) ∨
    activity.filledText? key = none ∧ (part = none ∨ part = some standIn)

/-- The tag is that of the activity. -/
structure Scope.Tags (scope : Scope) (activity : Json) : Prop where
  name : Shows activity "name" Task.unnamed scope.activityName
  type : Shows activity "type" Task.untyped scope.activityType

/-- The tag is that of the task, from which a name that stands for a missing one may be left out. -/
structure Scope.Labels (scope : Scope) (task : Task) : Prop where
  type : scope.activityType = some task.type
  name : scope.activityName = some task.name ∨
    scope.activityName = none ∧ task.name = Task.unnamed

/-- The fields in which an activity holds other activities. -/
def nestedKeys : List String := ["if_false_activities", "if_true_activities", "activities"]

/-- The activity itself, or an activity in it at any depth. -/
inductive Nested : Json → Json → Prop where
  | self (activity : Json) : Nested activity activity
  | within {activity child inner : Json} {key : String} (hkey : key ∈ nestedKeys)
      (hchild : child ∈ activity.items key) (hinner : Nested child inner) : Nested activity inner

/-- The tag is that of the activity or of an activity in it. -/
def Nested.Tags (activity : Json) (scope : Scope) : Prop :=
  ∃ inner, Nested activity inner ∧ scope.Tags inner

/-! ## Placeholders of a tree -/

/-- A placeholder with its task. -/
structure Placeholder where
  task : Task
  reason : String

/-- The placeholder of a task, if its work is one. -/
def Work.placeholder? (task : Task) : Work → Option Placeholder
  | .placeholder reason => some ⟨task, reason⟩
  | _ => none

mutual

/-- The placeholders of an activity, at any depth. -/
def Activity.placeholders : Activity → List Placeholder
  | .single task work => (work.placeholder? task).toList
  | .branch _ _ children => placeholdersAll children
  | .loop _ _ _ body => placeholdersAll body

/-- The placeholders of activities, one after another. -/
def Activity.placeholdersAll : List Activity → List Placeholder
  | [] => []
  | activity :: rest => activity.placeholders ++ placeholdersAll rest

end

theorem Activity.placeholdersAll_eq_flatMap (activities : List Activity) :
    placeholdersAll activities = activities.flatMap placeholders := by
  induction activities with
  | nil => rfl
  | cons first rest ih => rw [placeholdersAll, ih, List.flatMap_cons]

namespace Placeholder

/-- The diagnostic has the tag of the placeholder's task, and its message begins with the reason. -/
structure ReportedBy (placeholder : Placeholder) (diagnostic : Diagnostic) : Prop where
  tag : diagnostic.scope.Labels placeholder.task
  reason : ∃ more, diagnostic.message = placeholder.reason ++ more

/-- Every placeholder has a diagnostic of its own, in the order of the placeholders. -/
def Reported (placeholders : List Placeholder) (recorded : List Diagnostic) : Prop :=
  ∃ reports, List.Forall₂ ReportedBy placeholders reports ∧ reports.Sublist recorded

theorem Reported.nil (recorded : List Diagnostic) : Reported [] recorded :=
  ⟨[], .nil, List.nil_sublist recorded⟩

theorem Reported.append {placeholders placeholders' : List Placeholder}
    {recorded recorded' : List Diagnostic} (h : Reported placeholders recorded)
    (h' : Reported placeholders' recorded') :
    Reported (placeholders ++ placeholders') (recorded ++ recorded') := by
  obtain ⟨reports, hreports, hsublist⟩ := h
  obtain ⟨reports', hreports', hsublist'⟩ := h'
  exact ⟨reports ++ reports', List.rel_append hreports hreports', hsublist.append hsublist'⟩

/-- What is recorded before or after takes no report away. -/
theorem Reported.prepend {placeholders : List Placeholder} {recorded : List Diagnostic}
    (h : Reported placeholders recorded) (before : List Diagnostic) :
    Reported placeholders (before ++ recorded) :=
  (Reported.nil before).append h

/-- A report does not show what a task depends on. -/
theorem Reported.addDependency {activity : Activity} {recorded : List Diagnostic}
    (h : Reported activity.placeholders recorded) (dependency : Option Dependency) :
    Reported (activity.addDependency dependency).placeholders recorded := by
  cases activity with
  | single task work =>
    cases work with
    | placeholder reason =>
      obtain ⟨reports, hreports, hsublist⟩ := h
      refine ⟨reports, ?_, hsublist⟩
      cases hreports with
      | cons hreport hrest =>
        cases hrest
        exact .cons ⟨⟨hreport.tag.type, hreport.tag.name⟩, hreport.reason⟩ .nil
    | _ => exact .nil recorded
  | branch task condition children => exact h
  | loop task items concurrency body => exact h

end Placeholder

/-! ## Conversions in a scope -/

/-- From a memory whose innermost scope is the given one, the conversion leaves the open scopes and
adds diagnostics to the log. Its result and these diagnostics are as `post` says. -/
def Conversion.Records {α : Type} (c : Conversion α) (scope : Option Scope)
    (post : Except Failure α → List Diagnostic → Prop) : Prop :=
  ∀ memory : Memory, memory.log.scopes.head? = scope →
    ∃ recorded, (c memory).2.log = memory.log.append recorded ∧ post (c memory).1 recorded

/-- What is recorded on the way to a result: it has the given tags, and it reports the placeholders of
the value that comes out. -/
structure Account {α : Type} (tags : Scope → Prop) (placeholders : α → List Placeholder)
    (result : Except Failure α) (recorded : List Diagnostic) : Prop where
  tagged : ∀ diagnostic ∈ recorded, tags diagnostic.scope
  reported : ∀ value, result = .ok value → Placeholder.Reported (placeholders value) recorded

namespace Account

variable {α β γ : Type} {tags : Scope → Prop} {placeholders : α → List Placeholder}
  {recorded more : List Diagnostic}

/-- A result without placeholders has nothing to report. -/
theorem quiet {result : Except Failure α} (htagged : ∀ diagnostic ∈ recorded, tags diagnostic.scope)
    (hnone : ∀ value, result = .ok value → placeholders value = []) :
    Account tags placeholders result recorded := by
  refine ⟨htagged, fun value hvalue => ?_⟩
  rw [hnone value hvalue]
  exact .nil recorded

theorem error {placeholders' : β → List Placeholder} {failure : Failure}
    (h : Account tags placeholders (.error failure) recorded) :
    Account tags placeholders' (.error failure) recorded :=
  ⟨h.tagged, nofun⟩

/-- A failure after a value. -/
theorem append_error {next : β → List Placeholder} {last : γ → List Placeholder} {value : α}
    {failure : Failure} (h : Account tags placeholders (.ok value) recorded)
    (hmore : Account tags next (.error failure) more) :
    Account tags last (.error failure) (recorded ++ more) :=
  ⟨List.forall_mem_append.mpr ⟨h.tagged, hmore.tagged⟩, nofun⟩

/-- A value after a value: the last value has the placeholders of both. -/
theorem append {next : β → List Placeholder} {last : γ → List Placeholder} {value : α} {value' : β}
    {joined : γ} (h : Account tags placeholders (.ok value) recorded)
    (hmore : Account tags next (.ok value') more)
    (hjoined : last joined = placeholders value ++ next value') :
    Account tags last (.ok joined) (recorded ++ more) := by
  refine ⟨List.forall_mem_append.mpr ⟨h.tagged, hmore.tagged⟩, ?_⟩
  rintro _ ⟨⟩
  rw [hjoined]
  exact (h.reported value rfl).append (hmore.reported value' rfl)

theorem mono {tags' : Scope → Prop} {result : Except Failure α}
    (h : Account tags placeholders result recorded) (htags : ∀ scope, tags scope → tags' scope) :
    Account tags' placeholders result recorded :=
  ⟨fun diagnostic hmem => htags _ (h.tagged diagnostic hmem), h.reported⟩

end Account

namespace Conversion

variable {α β : Type} {scope : Option Scope}

theorem Records.imp {c : Conversion α} {post post' : Except Failure α → List Diagnostic → Prop}
    (h : c.Records scope post) (himp : ∀ result recorded, post result recorded → post' result recorded) :
    c.Records scope post' := by
  intro memory hscope
  obtain ⟨recorded, hlog, hpost⟩ := h memory hscope
  exact ⟨recorded, hlog, himp _ _ hpost⟩

theorem Records.ofExcept {result : Except Failure α}
    {post : Except Failure α → List Diagnostic → Prop} (h : post result []) :
    (Conversion.ofExcept result).Records scope post :=
  fun memory _ => ⟨[], (Log.append_nil memory.log).symm, h⟩

/-- In a scope, notes get its tag. -/
theorem Records.record {innermost : Scope} {notes : List Note}
    {post : Except Failure Unit → List Diagnostic → Prop}
    (h : post (.ok ()) (notes.map innermost.tag)) :
    (Conversion.record notes).Records (some innermost) post := by
  intro memory hscope
  refine ⟨notes.map memory.log.tag, rfl, ?_⟩
  have htag : memory.log.tag = (⟨[innermost], []⟩ : Log).tag := Log.tag_congr hscope
  rw [htag]
  exact h

/-- What comes first records what `first` says; if it gives a value, the rest adds to that. -/
theorem Records.bind {c : Conversion α} {f : α → Conversion β}
    {first : Except Failure α → List Diagnostic → Prop}
    {post : Except Failure β → List Diagnostic → Prop} (hc : c.Records scope first)
    (hf : ∀ value recorded, c.Yields value → first (.ok value) recorded →
      (f value).Records scope fun result more => post result (recorded ++ more))
    (hfail : ∀ failure recorded, first (.error failure) recorded → post (.error failure) recorded) :
    (c >>= f).Records scope post := by
  intro memory hscope
  obtain ⟨recorded, hlog, hfirst⟩ := hc memory hscope
  rcases h : c memory with ⟨failure | value, between⟩
  · rw [h] at hlog hfirst
    rw [bind_of_error h]
    exact ⟨recorded, hlog, hfail failure recorded hfirst⟩
  · rw [h] at hlog hfirst
    rw [bind_of_ok h]
    have hbetween : between.log.scopes.head? = scope := by
      rw [hlog]
      exact hscope
    obtain ⟨more, hmore, hpost⟩ :=
      hf value recorded ⟨memory, between, h⟩ hfirst between hbetween
    refine ⟨recorded ++ more, ?_, hpost⟩
    rw [hmore, hlog, Log.append_append]

/-- A conversion in a scope of its own records the same, whatever the scopes around it. -/
theorem Records.inScope {c : Conversion α} {own : Scope}
    {post : Except Failure α → List Diagnostic → Prop} (h : c.Records (some own) post) :
    (Conversion.inScope own c).Records scope post := by
  intro memory _
  obtain ⟨recorded, hlog, hpost⟩ := h { memory with log := memory.log.enter own } rfl
  refine ⟨recorded, ?_, hpost⟩
  show (c { memory with log := memory.log.enter own }).2.log.exit = memory.log.append recorded
  rw [hlog]
  rfl

/-- What is put in the place of a failure adds to what was recorded before the failure. -/
theorem Records.recover {c : Conversion α} {handle : Failure → Option (Conversion α)}
    {post : Except Failure α → List Diagnostic → Prop} (hc : c.Records scope post)
    (hhandle : ∀ failure next recorded, handle failure = some next → post (.error failure) recorded →
      next.Records scope fun result more => post result (recorded ++ more)) :
    (Conversion.recover c handle).Records scope post := by
  intro memory hscope
  obtain ⟨recorded, hlog, hpost⟩ := hc memory hscope
  rcases h : c memory with ⟨failure | value, between⟩
  · rw [h] at hlog hpost
    cases hnext : handle failure with
    | none =>
      rw [recover_of_none h hnext]
      exact ⟨recorded, hlog, hpost⟩
    | some next =>
      rw [recover_of_some h hnext]
      have hbetween : between.log.scopes.head? = scope := by
        rw [hlog]
        exact hscope
      obtain ⟨more, hmore, hpost'⟩ := hhandle failure next recorded hnext hpost between hbetween
      refine ⟨recorded ++ more, ?_, hpost'⟩
      rw [hmore, hlog, Log.append_append]
  · rw [h] at hlog hpost
    rw [recover_of_ok h]
    exact ⟨recorded, hlog, hpost⟩

variable {tags : Scope → Prop}

/-- A first step without placeholders leaves the account to what follows it. -/
theorem Records.quiet_bind {c : Conversion α} {f : α → Conversion β}
    {placeholders : β → List Placeholder} (hc : c.Records scope (Account tags fun _ => []))
    (hf : ∀ value, c.Yields value → (f value).Records scope (Account tags placeholders)) :
    (c >>= f).Records scope (Account tags placeholders) := by
  refine hc.bind (fun value recorded hyields haccount => ?_) fun _ _ hfailure => hfailure.error
  refine (hf value hyields).imp fun result more hmore => ?_
  cases result with
  | error failure => exact haccount.append_error hmore
  | ok last => exact haccount.append hmore rfl

theorem Records.pure {placeholders : α → List Placeholder} {value : α}
    (hnone : placeholders value = []) :
    (pure value : Conversion α).Records scope (Account tags placeholders) := by
  refine .ofExcept (.quiet (List.forall_mem_nil _) ?_)
  rintro _ ⟨⟩
  exact hnone

/-- What is made of the value reports its placeholders if the value reports its own. -/
theorem Records.map {c : Conversion α} {f : α → β} {placeholders : α → List Placeholder}
    {placeholders' : β → List Placeholder} (hc : c.Records scope (Account tags placeholders))
    (hf : ∀ value recorded, Placeholder.Reported (placeholders value) recorded →
      Placeholder.Reported (placeholders' (f value)) recorded) :
    (do return f (← c)).Records scope (Account tags placeholders') := by
  refine hc.bind (fun value recorded _ hvalue => .ofExcept ?_) fun _ _ hfailure => hfailure.error
  rw [List.append_nil]
  refine ⟨hvalue.tagged, ?_⟩
  rintro _ ⟨⟩
  exact hf value recorded (hvalue.reported value rfl)

theorem Records.fail {placeholders : α → List Placeholder} (failure : Failure) :
    (fail failure : Conversion α).Records scope (Account tags placeholders) :=
  .ofExcept (.quiet (List.forall_mem_nil _) nofun)

theorem Records.traverse {f : α → Conversion β} {placeholders : β → List Placeholder} {xs : List α}
    (h : ∀ x ∈ xs, (f x).Records scope (Account tags placeholders)) :
    (Conversion.traverse f xs).Records scope
      (Account tags fun ys => ys.flatMap placeholders) := by
  induction xs with
  | nil => exact .pure rfl
  | cons x xs ih =>
    have hrest := ih fun y hy => h y (List.mem_cons_of_mem x hy)
    refine (h x List.mem_cons_self).bind (fun y recorded _ hy => ?_) fun _ _ hfailure => hfailure.error
    refine hrest.bind (fun ys more _ hys => .ofExcept ?_) fun _ _ hfailure => hy.append_error hfailure
    rw [List.append_nil]
    exact hy.append hys List.flatMap_cons

/-- The notes of a conversion in a scope have its tag. -/
theorem Records.record_quiet {innermost : Scope} (htag : tags innermost) (notes : List Note) :
    (Conversion.record notes).Records (some innermost) (Account tags fun _ => []) := by
  refine .record (.quiet (fun diagnostic hmem => ?_) fun _ _ => rfl)
  obtain ⟨note, -, rfl⟩ := List.mem_map.mp hmem
  exact htag

theorem Records.ofNoted {innermost : Scope} (htag : tags innermost) (noted : Noted α) :
    (Conversion.ofNoted noted).Records (some innermost) (Account tags fun _ => []) :=
  (Records.record_quiet htag noted.notes).quiet_bind fun _ _ => .pure rfl

theorem Records.policy {innermost : Scope} (htag : tags innermost) (name : String)
    (block : Option Json) :
    (Conversion.policy name block).Records (some innermost) (Account tags fun _ => []) :=
  fun memory hscope => Records.ofNoted htag (memory.cache.read name block).1
    { memory with cache := (memory.cache.read name block).2 } hscope

end Conversion

/-! ## Work that is read is no placeholder -/

namespace Work

variable {task : Task} {activity : Json} {work : Work}

theorem placeholder?_of_ofNotebook {inLoop : Bool}
    (h : (ofNotebook inLoop activity).value = .ok work) : work.placeholder? task = none := by
  unfold ofNotebook at h
  cases hpath : requireProperty activity "notebook_path" .notebook with
  | error rejection =>
    rw [hpath] at h
    cases h
  | ok path =>
    rw [hpath] at h
    cases h
    rfl

/-- Work that is made from a property which the activity has to have. -/
theorem placeholder?_of_property {property : Except Rejection String} {make : String → Work}
    (hmake : ∀ text, (make text).placeholder? task = none)
    (h : (do return make (← property)) = .ok work) : work.placeholder? task = none := by
  cases property with
  | error rejection => cases h
  | ok text =>
    cases h
    exact hmake text

theorem placeholder?_of_ofSparkJar (h : ofSparkJar activity = .ok work) :
    work.placeholder? task = none :=
  placeholder?_of_property (fun _ => rfl) h

theorem placeholder?_of_ofSparkPython (h : ofSparkPython activity = .ok work) :
    work.placeholder? task = none :=
  placeholder?_of_property (fun _ => rfl) h

theorem placeholder?_of_ofCopy {copy : Except Obstacle Copy} (h : ofCopy copy = .ok work) :
    work.placeholder? task = none := by
  cases copy with
  | error obstacle => cases h
  | ok copy =>
    cases h
    rfl

end Work

/-! ## Steps of a conversion -/

section

variable {tags : Scope → Prop} {scope : Scope}

theorem Task.ofDefinition_records (htag : tags scope) (activity : Json) :
    (ofDefinition activity).Records (some scope) (Account tags fun _ => []) := by
  refine (Conversion.Records.record_quiet htag _).quiet_bind fun _ _ => ?_
  refine (Conversion.Records.policy htag _ _).quiet_bind fun policy _ => ?_
  refine (Conversion.Records.ofNoted htag _).quiet_bind fun dependencies _ => ?_
  refine (Conversion.Records.ofExcept ?_).quiet_bind fun dependsOn _ => ?_
  · exact .quiet (List.forall_mem_nil _) fun _ _ => rfl
  refine (Conversion.Records.ofNoted htag _).quiet_bind fun cluster _ => ?_
  exact .pure rfl

/-- A placeholder after the diagnostic that reports it. -/
theorem placeholder_records {outer : Option Scope} {report : Conversion Unit} {task : Task}
    {property message reason : String} (htag : tags scope) (hlabels : scope.Labels task)
    (hmessage : ∃ more, message = reason ++ more)
    (hreport : report.Records outer fun _ recorded => recorded = [scope.tag ⟨property, message⟩]) :
    (do report; return Activity.placeholder task reason).Records outer
      (Account tags Activity.placeholders) := by
  have hown : ∀ diagnostic ∈ [scope.tag ⟨property, message⟩], tags diagnostic.scope :=
    List.forall_mem_singleton.mpr htag
  have hreported : Placeholder.ReportedBy ⟨task, reason⟩ (scope.tag ⟨property, message⟩) :=
    ⟨hlabels, hmessage⟩
  refine hreport.bind (fun _ recorded _ hrecorded => .ofExcept ?_) fun failure recorded hrecorded => ?_
  · subst hrecorded
    refine ⟨hown, ?_⟩
    rintro _ ⟨⟩
    exact ⟨_, .cons hreported .nil, List.Sublist.refl _⟩
  · subst hrecorded
    exact ⟨hown, nofun⟩

theorem reject_records (htag : tags scope) {task : Task} (hlabels : scope.Labels task)
    (strict : Bool) (rejection : Rejection) :
    (reject strict task rejection).Records (some scope) (Account tags Activity.placeholders) := by
  cases strict with
  | true =>
    cases rejection with
    | value property reason => exact .fail _
    | expression property reason => exact .fail _
  | false =>
    cases rejection with
    | value property reason | expression property reason =>
      have hmessage : ∃ more, reason.message = reason.message ++ more :=
        ⟨"", (String.append_empty).symm⟩
      exact placeholder_records htag hlabels hmessage (.record rfl)

/-- Work that was read is no placeholder. -/
theorem settle_records (htag : tags scope) {task : Task} (hlabels : scope.Labels task) (strict : Bool)
    {work : Except Rejection Work} (hwork : ∀ own, work = .ok own → own.placeholder? task = none) :
    (settle strict task (work.map (.single task))).Records (some scope)
      (Account tags Activity.placeholders) := by
  cases work with
  | error rejection => exact reject_records htag hlabels strict rejection
  | ok own =>
    refine .pure ?_
    rw [Activity.placeholders, hwork own rfl]
    rfl

theorem contain_records {outer : Option Scope} (child : Json) (dependency : Option Dependency)
    (failure : Failure) (htag : tags ⟨some (Task.keyOf child), some (Task.typeOf child)⟩) :
    (contain child dependency failure).Records outer (Account tags Activity.placeholders) := by
  have hmessage : ∃ more, failure.message = failure.message ++ more :=
    ⟨"", (String.append_empty).symm⟩
  exact placeholder_records htag ⟨rfl, .inl rfl⟩ hmessage (.inScope (.record rfl))

theorem branchChild_records {outer : Option Scope} (strict : Bool) (child : Json)
    (dependency : Option Dependency) {c : Conversion Activity}
    (hc : c.Records outer (Account tags Activity.placeholders))
    (htag : tags ⟨some (Task.keyOf child), some (Task.typeOf child)⟩) :
    (branchChild strict child dependency c).Records outer (Account tags Activity.placeholders) := by
  have hadd : (do return (← c).addDependency dependency).Records outer
      (Account tags Activity.placeholders) :=
    hc.map fun own recorded hown => hown.addDependency dependency
  refine hadd.recover fun failure next recorded hnext hfailure => ?_
  split at hnext
  · obtain rfl := Option.some.inj hnext
    refine (contain_records child dependency failure htag).imp fun result more hmore => ?_
    -- the diagnostics of the failed conversion stay in front
    refine ⟨List.forall_mem_append.mpr ⟨hfailure.tagged, hmore.tagged⟩, fun value hvalue => ?_⟩
    exact (hmore.reported value hvalue).prepend recorded
  · cases hnext

theorem convertUnsupported_records (htag : tags scope) {task : Task} (hlabels : scope.Labels task) :
    (convertUnsupported task).Records (some scope) (Account tags Activity.placeholders) :=
  placeholder_records htag hlabels ⟨_, rfl⟩ (.record rfl)

theorem convertNotebook_records (htag : tags scope) {task : Task} (hlabels : scope.Labels task)
    (strict inLoop : Bool) (activity : Json) :
    (convertNotebook strict inLoop activity task).Records (some scope)
      (Account tags Activity.placeholders) := by
  refine (Conversion.Records.ofNoted htag _).quiet_bind fun work hwork => ?_
  refine settle_records htag hlabels strict fun own hown => ?_
  rw [hwork.eq_of_ofNoted] at hown
  exact Work.placeholder?_of_ofNotebook hown

theorem convertCopy_records (htag : tags scope) {task : Task} (hlabels : scope.Labels task)
    (strict : Bool) (activity : Json) :
    (convertCopy strict activity task).Records (some scope) (Account tags Activity.placeholders) := by
  refine (Conversion.Records.ofExcept ?_).quiet_bind fun noted _ => ?_
  · exact .quiet (List.forall_mem_nil _) fun _ _ => rfl
  refine (Conversion.Records.ofNoted htag _).quiet_bind fun copy _ => ?_
  exact settle_records htag hlabels strict fun _ => Work.placeholder?_of_ofCopy

theorem convertBranch_records (htag : tags scope) {task : Task} (hlabels : scope.Labels task)
    (strict : Bool) (activity : Json) {ifFalse ifTrue : Conversion (List Activity)}
    (hfalse : ifFalse.Records (some scope) (Account tags (List.flatMap Activity.placeholders)))
    (htrue : ifTrue.Records (some scope) (Account tags (List.flatMap Activity.placeholders))) :
    (convertBranch strict activity task ifFalse ifTrue).Records (some scope)
      (Account tags Activity.placeholders) := by
  unfold convertBranch
  cases branchCondition activity with
  | error rejection => exact reject_records htag hlabels strict rejection
  | ok condition =>
    refine hfalse.bind (fun xs recorded _ hxs => ?_) fun _ _ hfailure => hfailure.error
    refine htrue.bind (fun ys more _ hys => ?_) fun _ _ hfailure => hxs.append_error hfailure
    -- whatever note follows, the branch has the placeholders of both lists of children
    have hbranch {last : List Diagnostic} (hlast : Account tags (fun _ => []) (.ok ()) last) :
        Account tags Activity.placeholders (.ok (.branch task condition (xs ++ ys)))
          (recorded ++ (more ++ last)) := by
      have hmore : Account tags (List.flatMap Activity.placeholders) (.ok ys) (more ++ last) :=
        hys.append hlast (List.append_nil _).symm
      refine hxs.append hmore ?_
      rw [Activity.placeholders, Activity.placeholdersAll_eq_flatMap, List.flatMap_append]
    dsimp only
    split
    · refine (Conversion.Records.record_quiet htag _).bind (fun _ last _ hlast => .ofExcept ?_)
        fun failure last hfailure => ?_
      · rw [List.append_nil]
        exact hbranch hlast
      · have hmore : Account tags Activity.placeholders (.error failure) (more ++ last) :=
          hys.append_error hfailure
        exact hxs.append_error hmore
    · exact .ofExcept (hbranch (.quiet (List.forall_mem_nil _) fun _ _ => rfl))

theorem convertLoop_records (htag : tags scope) {task : Task} (hlabels : scope.Labels task)
    (strict : Bool) (activity : Json) {body : Conversion (List Activity)}
    (hbody : body.Records (some scope) (Account tags (List.flatMap Activity.placeholders))) :
    (convertLoop strict activity task body).Records (some scope)
      (Account tags Activity.placeholders) := by
  unfold convertLoop
  cases loopHeader activity with
  | error rejection => exact reject_records htag hlabels strict rejection
  | ok items =>
    refine (Conversion.Records.record_quiet htag _).quiet_bind fun _ _ => ?_
    refine hbody.map fun xs recorded hxs => ?_
    rw [Activity.placeholders, Activity.placeholdersAll_eq_flatMap]
    exact hxs

theorem convertWork_records (htag : tags scope) {task : Task} (hlabels : scope.Labels task)
    (strict inLoop : Bool) (activity : Json) {ifFalse ifTrue body : Conversion (List Activity)}
    (hfalse : ifFalse.Records (some scope) (Account tags (List.flatMap Activity.placeholders)))
    (htrue : ifTrue.Records (some scope) (Account tags (List.flatMap Activity.placeholders)))
    (hbody : body.Records (some scope) (Account tags (List.flatMap Activity.placeholders))) :
    (convertWork strict inLoop activity task ifFalse ifTrue body).Records (some scope)
      (Account tags Activity.placeholders) := by
  unfold convertWork
  split
  · exact convertUnsupported_records htag hlabels
  · exact convertNotebook_records htag hlabels strict inLoop activity
  · exact settle_records htag hlabels strict fun _ => Work.placeholder?_of_ofSparkJar
  · exact settle_records htag hlabels strict fun _ => Work.placeholder?_of_ofSparkPython
  · exact convertCopy_records htag hlabels strict activity
  · exact convertBranch_records htag hlabels strict activity hfalse htrue
  · exact convertLoop_records htag hlabels strict activity hbody

theorem recordItems_records {outer : Option Scope} {child : Json}
    (htag : tags ⟨child.text? "name", child.text? "type"⟩) :
    (recordItems child).Records outer (Account tags fun _ => []) :=
  .inScope (.record_quiet htag _)

end

/-! ## Activities -/

namespace Scope

theorem shows_text? (activity : Json) (key standIn : String) :
    Shows activity key standIn (activity.text? key) := by
  cases h : activity.text? key with
  | none => exact .inr ⟨by simp [Json.filledText?, h], .inl rfl⟩
  | some text => exact .inl ⟨text, h, rfl⟩

theorem shows_filledText? (activity : Json) (key standIn : String) :
    Shows activity key standIn (activity.filledText? key) := by
  cases h : activity.filledText? key with
  | none => exact .inr ⟨h, .inl rfl⟩
  | some text => exact .inl ⟨text, (Option.filter_eq_some_iff.mp h).1, rfl⟩

theorem shows_standIn (activity : Json) (key standIn : String) :
    Shows activity key standIn (some ((activity.filledText? key).getD standIn)) := by
  cases h : activity.filledText? key with
  | none => exact .inr ⟨h, .inr rfl⟩
  | some text => exact .inl ⟨text, (Option.filter_eq_some_iff.mp h).1, rfl⟩

theorem tags_ofActivity (activity : Json) : (ofActivity activity).Tags activity :=
  ⟨shows_filledText? activity _ _, shows_standIn activity _ _⟩

end Scope

/-- The tags of a child's conversion and of its containment are tags of the activity. -/
theorem Nested.Tags.of_child {activity child : Json} {key : String} (hkey : key ∈ nestedKeys)
    (hchild : child ∈ activity.items key) {scope : Scope} (h : Nested.Tags child scope) :
    Nested.Tags activity scope := by
  obtain ⟨inner, hinner, htags⟩ := h
  exact ⟨inner, .within hkey hchild hinner, htags⟩

theorem Nested.Tags.self {activity : Json} {scope : Scope} (h : scope.Tags activity) :
    Nested.Tags activity scope :=
  ⟨activity, .self activity, h⟩

/-- The tag of an activity labels its task. -/
theorem Task.Of.labels {activity : Json} {task : Task} (h : Of activity task) :
    (Scope.ofActivity activity).Labels task := by
  refine ⟨congrArg some h.type.symm, ?_⟩
  show activity.filledText? "name" = some task.name ∨
    activity.filledText? "name" = none ∧ task.name = Task.unnamed
  rw [h.name, keyOf]
  cases activity.filledText? "name" with
  | none => exact .inr ⟨rfl, rfl⟩
  | some name => exact .inl rfl

/-- **Activities.** In all scopes, an activity records diagnostics with its own tag and the tags of the
activities in it, and one of its own for every placeholder. -/
theorem convert_records (strict inLoop : Bool) (activity : Json) (outer : Option Scope) :
    (convert strict inLoop activity).Records outer
      (Account (Nested.Tags activity) Activity.placeholders) := by
  induction activity using Json.induction_items generalizing inLoop outer with
  | step activity ih =>
    have hown : Nested.Tags activity (.ofActivity activity) :=
      .self (Scope.tags_ofActivity activity)
    have hcontained {key : String} (hkey : key ∈ nestedKeys) {child : Json}
        (hchild : child ∈ activity.items key) :
        Nested.Tags activity ⟨some (Task.keyOf child), some (Task.typeOf child)⟩ :=
      .of_child hkey hchild (.self ⟨Scope.shows_standIn .., Scope.shows_standIn ..⟩)
    have hconvert {key : String} (hkey : key ∈ nestedKeys) {child : Json}
        (hchild : child ∈ activity.items key) (inLoop : Bool) :
        (convert strict inLoop child).Records (some (.ofActivity activity))
          (Account (Nested.Tags activity) Activity.placeholders) :=
      (ih key child hchild inLoop _).imp fun _ _ h => h.mono fun _ => .of_child hkey hchild
    have hchildren (task : Task) (outcome : String) {key : String} (hkey : key ∈ nestedKeys) :
        (Conversion.traverse (convertChild strict task outcome) (activity.items key)).Records
          (some (.ofActivity activity))
          (Account (Nested.Tags activity) (List.flatMap Activity.placeholders)) :=
      .traverse fun child hchild =>
        branchChild_records strict child _ (hconvert hkey hchild false) (hcontained hkey hchild)
    have hbody : (Conversion.traverse (convertItem strict) (activity.items "activities")).Records
        (some (.ofActivity activity))
        (Account (Nested.Tags activity) (List.flatMap Activity.placeholders)) := by
      refine .traverse fun child hchild => ?_
      have hkey : "activities" ∈ nestedKeys := by decide
      have hitems : Nested.Tags activity ⟨child.text? "name", child.text? "type"⟩ :=
        .of_child hkey hchild (.self ⟨Scope.shows_text? .., Scope.shows_text? ..⟩)
      exact (recordItems_records hitems).quiet_bind fun _ _ =>
        branchChild_records strict child none (hconvert hkey hchild true) (hcontained hkey hchild)
    rw [convert_eq]
    refine .inScope ((Task.ofDefinition_records hown activity).quiet_bind fun task htask => ?_)
    exact convertWork_records hown (Task.of_yields htask).labels strict inLoop activity
      (hchildren task _ (by decide)) (hchildren task _ (by decide)) hbody

/-! ## Sessions -/

theorem Session.convert_account (session : Session) (activity : Json) :
    ∃ recorded, (session.convert activity).2.log = session.log.append recorded ∧
      Account (Nested.Tags activity) Activity.placeholders (session.convert activity).1 recorded :=
  convert_records session.strict false activity _ session.toMemory rfl

/-- **Tags.** Whatever an activity is converted to, the open scopes stay open, the earlier diagnostics
stay as they are, and every new one carries the tag of the activity or of an activity in it. -/
theorem Session.convert_tags (session : Session) (activity : Json) :
    (session.convert activity).2.log.scopes = session.log.scopes ∧
      ∃ recorded, (session.convert activity).2.log.entries = session.log.entries ++ recorded ∧
        ∀ diagnostic ∈ recorded, ∃ inner, Nested activity inner ∧ diagnostic.scope.Tags inner := by
  obtain ⟨recorded, hlog, haccount⟩ := session.convert_account activity
  rw [hlog]
  exact ⟨rfl, recorded, rfl, haccount.tagged⟩

/-- The reports of placeholders stand at places of their own among the diagnostics. -/
theorem Placeholder.Reported.exists_embedding {placeholders : List Placeholder}
    {recorded : List Diagnostic} (h : Reported placeholders recorded) :
    ∃ assign : Fin placeholders.length ↪o Fin recorded.length,
      ∀ i, (placeholders.get i).ReportedBy (recorded.get (assign i)) := by
  obtain ⟨reports, hreports, hsublist⟩ := h
  obtain ⟨hlength, hget⟩ := List.forall₂_iff_get.mp hreports
  obtain ⟨place, hplace⟩ := List.sublist_iff_exists_fin_orderEmbedding_get_eq.mp hsublist
  refine ⟨(Fin.castOrderIso hlength).toOrderEmbedding.trans place, fun i => ?_⟩
  have hreport := hget i i.isLt (hlength ▸ i.isLt)
  rw [hplace] at hreport
  exact hreport

/-- **Placeholders.** Each placeholder of a converted activity, at any depth, has a diagnostic of its
own among those that the conversion records. -/
theorem Session.convert_reports {session after : Session} {activity : Json} {converted : Activity}
    (h : session.convert activity = (.ok converted, after)) :
    ∃ recorded, after.log.entries = session.log.entries ++ recorded ∧
      ∃ assign : Fin converted.placeholders.length ↪o Fin recorded.length,
        ∀ i, (converted.placeholders.get i).ReportedBy (recorded.get (assign i)) := by
  obtain ⟨recorded, hlog, haccount⟩ := session.convert_account activity
  rw [h] at hlog haccount
  refine ⟨recorded, ?_, (haccount.reported converted rfl).exists_embedding⟩
  rw [hlog]
  rfl

/-! ## Placeholders in a branch and in a loop -/

/-- A branch with an activity of an unknown type, a notebook without a path, a notebook without a name
whose dependency is ambiguous, and a loop over one more activity of an unknown type. -/
def replacedChildren : Json := .obj [
  ("expression", .obj [("value", .str "@equals(1, 2)")]),
  ("if_false_activities", .arr [
    .obj [("name", .str "Pause"), ("type", .str "Wait")],
    .obj [("name", .str "Report"), ("type", .str "DatabricksNotebook")]]),
  ("if_true_activities", .arr [
    .obj [
      ("depends_on", .arr [.obj [
        ("activity", .str "Pause"),
        ("dependency_conditions", .arr [.str "Succeeded", .str "Failed"])]]),
      ("notebook_path", .str "/report"),
      ("type", .str "DatabricksNotebook")],
    .obj [
      ("activities", .arr [.obj [("name", .str "Mail"), ("type", .str "WebActivity")]]),
      ("items", .obj [("value", .str "@createArray('a')")]),
      ("name", .str "Each"),
      ("type", .str "ForEach")]]),
  ("name", .str "Check"),
  ("type", .str "IfCondition")]

/-- All four are replaced, and the four placeholders have four different diagnostics. -/
theorem replacedChildren_reported :
    ∃ converted after, (Session.start false).convert replacedChildren = (.ok converted, after) ∧
      converted.placeholders.map (fun placeholder => (placeholder.task.name, placeholder.reason)) =
        [("Pause", "Unsupported activity type 'Wait'"),
          ("Report", "Missing property 'notebook_path' in DatabricksNotebook activity"),
          (Task.unnamed,
            "Dependency on 'Pause' has 2 outcome conditions; only one is supported"),
          ("Mail", "Unsupported activity type 'WebActivity'")] ∧
      ∃ recorded, after.log.entries = recorded ∧
        ∃ assign : Fin converted.placeholders.length ↪o Fin recorded.length,
          ∀ i, (converted.placeholders.get i).ReportedBy (recorded.get (assign i)) := by
  have hplaceholders : ((Session.start false).convert replacedChildren).1.toOption.map
        (fun converted => converted.placeholders.map fun placeholder =>
          (placeholder.task.name, placeholder.reason))
      = some [("Pause", "Unsupported activity type 'Wait'"),
          ("Report", "Missing property 'notebook_path' in DatabricksNotebook activity"),
          (Task.unnamed,
            "Dependency on 'Pause' has 2 outcome conditions; only one is supported"),
          ("Mail", "Unsupported activity type 'WebActivity'")] := by
    decide +kernel
  rcases h : (Session.start false).convert replacedChildren with ⟨failure | converted, after⟩
  · rw [h] at hplaceholders
    cases hplaceholders
  · rw [h] at hplaceholders
    exact ⟨converted, after, rfl, Option.some.inj hplaceholders, Session.convert_reports h⟩

end FactoryMigration
