import FactoryMigration.Proofs.ClusterSizes
import FactoryMigration.Proofs.DefinitionFields
import FactoryMigration.Proofs.WorkRemarks

set_option autoImplicit false

/-! # Clusters of activities

An activity whose linked service gives a size is converted with a cluster of that size, and one whose
linked service does not is converted without a cluster, with one diagnostic. Apart from that the linked
service changes nothing, whatever kind of activity it is (`convert_cluster`): the work of a task is the
same on every cluster (`workOf_withCluster`), and it is converted alike with and without a diagnostic
before it. -/

namespace FactoryMigration

/-! ## Work on another cluster -/

/-- The same activity on another cluster. -/
def Activity.withCluster (cluster : Option Cluster) (activity : Activity) : Activity :=
  activity.withTask (activity.task.withCluster cluster)

theorem Activity.cluster_withCluster (cluster : Option Cluster) (activity : Activity) :
    (activity.withCluster cluster).task.cluster = cluster := by
  cases activity <;> rfl

theorem Activity.withCluster_withCluster (cluster cluster' : Option Cluster) (activity : Activity) :
    (activity.withCluster cluster).withCluster cluster' = activity.withCluster cluster' := by
  cases activity <;> rfl

section

variable (cluster : Option Cluster) (strict inLoop : Bool) (activity : Json) (task : Task)

theorem reject_withCluster (rejection : Rejection) :
    reject strict (task.withCluster cluster) rejection
      = Activity.withCluster cluster <$> reject strict task rejection := by
  cases strict <;> cases rejection <;> rfl

theorem settle_withCluster (work : Except Rejection Work) :
    settle strict (task.withCluster cluster) (work.map (.single (task.withCluster cluster)))
      = Activity.withCluster cluster <$> settle strict task (work.map (.single task)) := by
  cases work with
  | ok work => rfl
  | error rejection => exact reject_withCluster cluster strict task rejection

theorem convertBranch_withCluster (ifFalse ifTrue : Conversion (List Activity)) :
    convertBranch strict activity (task.withCluster cluster) ifFalse ifTrue
      = Activity.withCluster cluster <$> convertBranch strict activity task ifFalse ifTrue := by
  unfold convertBranch
  cases branchCondition activity with
  | error rejection => exact reject_withCluster cluster strict task rejection
  | ok condition =>
    simp only [map_bind]
    refine bind_congr fun falseChildren => bind_congr fun trueChildren => ?_
    split
    · simp only [map_bind, map_pure]
      rfl
    · simp only [map_pure]
      rfl

theorem convertLoop_withCluster (body : Conversion (List Activity)) :
    convertLoop strict activity (task.withCluster cluster) body
      = Activity.withCluster cluster <$> convertLoop strict activity task body := by
  unfold convertLoop
  cases loopHeader activity with
  | error rejection => exact reject_withCluster cluster strict task rejection
  | ok items =>
    simp only [map_bind, map_pure]
    rfl

theorem convertWork_withCluster (ifFalse ifTrue body : Conversion (List Activity)) :
    convertWork strict inLoop activity (task.withCluster cluster) ifFalse ifTrue body
      = Activity.withCluster cluster
          <$> convertWork strict inLoop activity task ifFalse ifTrue body := by
  have htype : (task.withCluster cluster).type = task.type := rfl
  unfold convertWork
  rw [htype]
  split
  · rfl
  · simp only [convertNotebook, map_bind, settle_withCluster]
  · exact settle_withCluster cluster strict task _
  · exact settle_withCluster cluster strict task _
  · simp only [convertCopy, map_bind, settle_withCluster]
  · exact convertBranch_withCluster cluster strict activity task ifFalse ifTrue
  · exact convertLoop_withCluster cluster strict activity task body

/-- Work is the same on every cluster: the activities inside see the key of the task only. -/
theorem workOf_withCluster :
    workOf strict inLoop activity (task.withCluster cluster)
      = Activity.withCluster cluster <$> workOf strict inLoop activity task :=
  convertWork_withCluster cluster strict inLoop activity task _ _ _

end

/-! ## Runs -/

namespace Conversion

variable {α β : Type} {cache cache' : Policy.Cache} {scopes : List Scope} {recorded : List Diagnostic}

theorem Runs.map {c : Conversion α} {result : Except Failure α}
    (hc : c.Runs cache scopes result cache' recorded) (f : α → β) :
    (f <$> c).Runs cache scopes (result.map f) cache' recorded := by
  cases result with
  | error failure => exact hc.bind_error
  | ok value =>
    have hmapped := hc.bind_ok (f := fun value => pure (f value)) (Runs.ofExcept (.ok (f value)))
    rwa [List.append_nil] at hmapped

/-- What is recorded in a run is as is known of what is recorded from any memory. -/
theorem Runs.leaves {c : Conversion α} {scope : Scope} {p : Diagnostic → Prop}
    {result : Except Failure α} (hrun : c.Runs cache (scope :: scopes) result cache' recorded)
    (h : c.Leaves (some scope) p) : ∀ diagnostic ∈ recorded, p diagnostic := by
  obtain ⟨added, hlog, hadded⟩ := h ⟨cache, ⟨scope :: scopes, []⟩⟩ rfl
  rw [hrun] at hlog
  have hsame : [] ++ recorded = [] ++ added := congrArg Log.entries hlog
  rw [List.nil_append, List.nil_append] at hsame
  rwa [hsame]

end Conversion

/-- How an activity is converted: with the settings of its task, its cluster, and its work. -/
theorem convert_runs {strict inLoop : Bool} {activity : Json} {cache between cache' : Policy.Cache}
    {scopes : List Scope} {task : Task} {result : Except Failure Activity}
    {settings work : List Diagnostic}
    (hsettings : (Task.settings activity).Runs cache (.ofActivity activity :: scopes) (.ok task) between
      settings)
    (hwork : (workOf strict inLoop activity task).Runs between (.ofActivity activity :: scopes) result
      cache' work) :
    (convert strict inLoop activity).Runs cache scopes
      (result.map (Activity.withCluster (Task.clusterOf activity).value)) cache'
      (settings ++ ((Task.clusterOf activity).notes.map (Scope.ofActivity activity).tag ++ work)) := by
  have hinside : Task.ofDefinition activity >>= workOf strict inLoop activity
      = Task.settings activity >>= fun task => Conversion.ofNoted (Task.clusterOf activity)
          >>= fun cluster => Activity.withCluster cluster <$> workOf strict inLoop activity task := by
    simp only [Task.ofDefinition_eq_settings, bind_assoc, pure_bind, workOf_withCluster]
  rw [convert_eq_workOf, hinside]
  exact (hsettings.bind_ok ((Conversion.Runs.ofNoted _).bind_ok (hwork.map _))).inScope

/-- The settings and the work of an activity that is converted. -/
theorem exists_runs_of_convert {strict inLoop : Bool} {activity : Json} {memory after : Memory}
    {converted : Activity} (h : convert strict inLoop activity memory = (.ok converted, after)) :
    ∃ task between base settings work,
      (Task.settings activity).Runs memory.cache (.ofActivity activity :: memory.log.scopes) (.ok task)
        between settings ∧
      (workOf strict inLoop activity task).Runs between (.ofActivity activity :: memory.log.scopes)
        (.ok base) after.cache work := by
  obtain ⟨result, between, settings, hsettings⟩ :=
    Conversion.closed_appends.settings activity memory.cache (.ofActivity activity :: memory.log.scopes)
  cases result with
  | error failure =>
    have hfails : (convert strict inLoop activity).Runs memory.cache memory.log.scopes
        (.error failure) between settings := by
      rw [convert_eq_workOf, Task.ofDefinition_eq_settings, bind_assoc]
      exact hsettings.bind_error.inScope
    have herror := hfails memory.log.entries
    rw [h] at herror
    cases herror
  | ok task =>
    obtain ⟨result, cache', work, hwork⟩ := Conversion.closed_appends.workOf strict inLoop activity task
      between (.ofActivity activity :: memory.log.scopes)
    have hrun := convert_runs hsettings hwork memory.log.entries
    rw [h] at hrun
    obtain ⟨hresult, hafter⟩ := Prod.mk.inj hrun
    obtain rfl := congrArg Memory.cache hafter
    cases result with
    | error failure => cases hresult
    | ok base => exact ⟨task, between, base, settings, work, hsettings, hwork⟩

/-! ## Activities -/

/-- The diagnostics on the linked service of an activity: one if it gives no size, and else none. -/
inductive Task.RemarksService (activity : Json) : List Diagnostic → Prop where
  | quiet (h : HasService activity → ∃ workers, Sizes activity workers) : RemarksService activity []
  | unread (hservice : HasService activity) (h : ∀ workers, ¬Sizes activity workers)
      (message : String) : RemarksService activity
        [(Scope.ofActivity activity).tag ⟨"linked_service_definition", message⟩]

theorem Task.ReadsCluster.sizes_iff {activity : Json} {read : Noted (Option Cluster)}
    (h : ReadsCluster activity read) (workers : Option Workers) :
    (∃ cluster, read.value = some cluster ∧ cluster.workers = workers) ↔ Sizes activity workers := by
  cases h with
  | none h => exact ⟨fun ⟨_, hvalue, _⟩ => (nomatch hvalue), fun hsizes => absurd hsizes.service h⟩
  | unread hservice h message =>
    exact ⟨fun ⟨_, hvalue, _⟩ => (nomatch hvalue), fun hsizes => absurd hsizes (h workers)⟩
  | sized h =>
    constructor
    · rintro ⟨cluster, hvalue, rfl⟩
      obtain rfl := Option.some.inj hvalue
      exact h
    · intro hsizes
      exact ⟨_, rfl, h.unique hsizes⟩

theorem Task.ReadsCluster.remarks {activity : Json} {read : Noted (Option Cluster)}
    (h : ReadsCluster activity read) :
    RemarksService activity (read.notes.map (Scope.ofActivity activity).tag) := by
  cases h with
  | none h => exact .quiet fun hservice => absurd hservice h
  | sized h => exact .quiet fun _ => ⟨_, h⟩
  | unread hservice h message => exact .unread hservice h message

/-- **Clusters.** An activity that is converted has a cluster exactly if its linked service gives a size,
and the cluster has this size. A linked service that gives none leaves one diagnostic with the tag of the
activity. No other diagnostic is on a linked service but those of activities inside. An activity with
another linked service and the same other fields is converted to the same activity, but for its cluster,
with the same diagnostics but those on the linked service. -/
theorem convert_cluster {strict inLoop : Bool} {activity : Json} {memory after : Memory}
    {converted : Activity} (h : convert strict inLoop activity memory = (.ok converted, after)) :
    (∀ workers, (∃ cluster, converted.task.cluster = some cluster ∧ cluster.workers = workers) ↔
      Task.Sizes activity workers) ∧
    ∃ settings remarks work,
      after.log.entries = memory.log.entries ++ settings ++ remarks ++ work ∧
      Task.RemarksService activity remarks ∧
      (∀ diagnostic ∈ settings, diagnostic.property ≠ "linked_service_definition") ∧
      (∀ diagnostic ∈ work, diagnostic.property = "linked_service_definition" →
        Nested.TagsInside activity diagnostic.scope) ∧
      ∀ other, SameBut ["linked_service_definition"] activity other →
        ∃ cluster remarks', Task.RemarksService other remarks' ∧
          convert strict inLoop other memory = (.ok (converted.withCluster cluster),
            ⟨after.cache, ⟨after.log.scopes,
              memory.log.entries ++ settings ++ remarks' ++ work⟩⟩) := by
  obtain ⟨task, between, base, settings, work, hsettings, hwork⟩ := exists_runs_of_convert h
  -- the settings and the work are those of the other activity too
  have hconvert {other : Json} (hsame : SameBut ["linked_service_definition"] activity other) :
      convert strict inLoop other memory = (.ok (base.withCluster (Task.clusterOf other).value),
        ⟨after.cache, ⟨memory.log.scopes, memory.log.entries ++ settings
          ++ (Task.clusterOf other).notes.map (Scope.ofActivity other).tag ++ work⟩⟩) := by
    rw [← hsame.settings_eq (by decide), ← hsame.scope_eq (by decide)] at hsettings
    rw [← hsame.workOf_eq (by decide), ← hsame.scope_eq (by decide)] at hwork
    have hrun := convert_runs hsettings hwork memory.log.entries
    simp only [← List.append_assoc] at hrun
    exact hrun
  have hown := hconvert (SameBut.refl ["linked_service_definition"] activity)
  rw [h] at hown
  obtain ⟨hconverted, hafter⟩ := Prod.mk.inj hown
  obtain rfl := Except.ok.inj hconverted
  have hlog := congrArg Memory.log hafter
  refine ⟨fun workers => ?_, settings, _, work, congrArg Log.entries hlog,
    (Task.clusterOf_cases activity).remarks, fun diagnostic hmem => ?_, fun diagnostic hmem => ?_,
    fun other hother => ?_⟩
  · rw [Activity.cluster_withCluster]
    exact (Task.clusterOf_cases activity).sizes_iff workers
  · have hproperty := (hsettings.leaves (Task.settings_remarks activity _) diagnostic hmem).2
    rintro heq
    rw [heq] at hproperty
    exact absurd hproperty (by decide)
  · intro hproperty
    refine (hwork.leaves (workOf_leaves strict inLoop activity task) diagnostic hmem).resolve_left ?_
    intro hremarked
    rw [hproperty] at hremarked
    exact hremarked.not_mem_remarked (by decide)
  · refine ⟨(Task.clusterOf other).value, _, (Task.clusterOf_cases other).remarks, ?_⟩
    rw [hconvert hother, Activity.withCluster_withCluster, congrArg Log.scopes hlog]

/-! ## A branch with a linked service -/

/-- A branch with a linked service of the given size, and a child whose linked service gives none. -/
def sizedBranch (size : Json) : Json := .obj [
  ("expression", .obj [("value", .str "@equals(1, 2)")]),
  ("if_true_activities", .arr [.obj [
    ("linked_service_definition", .obj [
      ("properties", .obj [("new_cluster_num_of_worker", .bool true)])]),
    ("name", .str "Report"),
    ("notebook_path", .str "/report"),
    ("type", .str "DatabricksNotebook")]]),
  ("linked_service_definition", .obj [("properties", .obj [("new_cluster_num_of_worker", size)])]),
  ("name", .str "Check"),
  ("type", .str "IfCondition")]

theorem sameBut_sizedBranch (size size' : Json) :
    SameBut ["linked_service_definition"] (sizedBranch size) (sizedBranch size') := by
  intro key hkey
  have hne : key ≠ "linked_service_definition" := by simpa using hkey
  simp [sizedBranch, Json.get?, Table.lookup_cons, hne]

theorem hasService_sizedBranch (size : Json) : Task.HasService (sizedBranch size) :=
  ⟨_, List.cons_ne_nil _ _, rfl⟩

theorem sizes_sizedBranch_iff (size : Json) (workers : Option Workers) :
    Task.Sizes (sizedBranch size) workers ↔ Workers.Gives (some size) workers :=
  ⟨fun h => h.gives, fun h => ⟨hasService_sizedBranch size, h⟩⟩

/-- With two counts in order the branch has an autoscaled cluster. With the same counts the other way
round it has none, and one diagnostic more; all else is the same. -/
theorem sizedBranch_converted :
    ∃ converted after settings work,
      convert false false (sizedBranch (.str " 2 : +8 ")) (Session.start false).toMemory
        = (.ok converted, after) ∧
      (∃ cluster, converted.task.cluster = some cluster ∧
        cluster.workers = some (.autoscale 2 8)) ∧
      after.log.entries = settings ++ work ∧
      ∃ cluster message,
        convert false false (sizedBranch (.str "8:2")) (Session.start false).toMemory
          = (.ok (converted.withCluster cluster), ⟨after.cache, ⟨after.log.scopes, settings
            ++ ⟨"linked_service_definition", message, some "Check", some "IfCondition"⟩ :: work⟩⟩) := by
  have hok : (convert false false (sizedBranch (.str " 2 : +8 "))
      (Session.start false).toMemory).1.isOk = true := by
    decide +kernel
  have hsizes : Task.Sizes (sizedBranch (.str " 2 : +8 ")) (some (.autoscale 2 8)) :=
    (sizes_sizedBranch_iff _ _).mpr (Workers.ofValue_eq_ok_iff.mp rfl)
  have hnone (workers : Option Workers) : ¬Task.Sizes (sizedBranch (.str "8:2")) workers := by
    intro h
    have hread := Workers.ofValue_eq_ok_iff.mpr ((sizes_sizedBranch_iff _ _).mp h)
    have herror : (Workers.ofValue ((some (.str "8:2") : Option Json).filter (!·.isNull))).isOk
        = false := by
      decide +kernel
    rw [hread] at herror
    cases herror
  rcases h : convert false false (sizedBranch (.str " 2 : +8 ")) (Session.start false).toMemory
    with ⟨failure | converted, after⟩
  · rw [h] at hok
    cases hok
  · obtain ⟨hcluster, settings, remarks, work, hentries, hremarks, -, -, hother⟩ := convert_cluster h
    obtain ⟨cluster, remarks', hremarks', hconvert⟩ :=
      hother (sizedBranch (.str "8:2")) (sameBut_sizedBranch _ _)
    refine ⟨converted, after, settings, work, rfl, (hcluster _).mpr hsizes, ?_, cluster, ?_⟩
    · cases hremarks with
      | quiet _ => simpa [Session.start, Log.empty] using hentries
      | unread _ hunread => exact absurd hsizes (hunread _)
    · cases hremarks' with
      | quiet hquiet =>
        obtain ⟨workers, hsizes'⟩ := hquiet (hasService_sizedBranch _)
        exact absurd hsizes' (hnone workers)
      | unread _ _ message =>
        refine ⟨message, ?_⟩
        rw [hconvert]
        simp only [List.append_assoc]
        rfl

end FactoryMigration
