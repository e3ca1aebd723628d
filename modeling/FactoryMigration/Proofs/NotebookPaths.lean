import Mathlib.Data.List.Forall2
import Mathlib.Data.List.Nodup
import FactoryMigration.Workflow.Preparation

set_option autoImplicit false

/-! # Paths of notebooks

A notebook whose path is taken by another script goes to a path of its task; whether that path is
taken too is not asked. A copy is blocked if it is. `Workflow.ofPipeline_distinct_iff` shows that the
notebooks of a workflow have paths of their own, and every path that a task or a pipeline names leads
to the script of its own copy and to nothing else, exactly if no copy is blocked. -/

namespace FactoryMigration

/-! ## Copies in the order of their preparation -/

/-- A copy with its task. -/
structure CopyTask where
  task : Task
  copy : Copy

/-- The copy of a task, if its work is one. -/
def Work.copyTask? (task : Task) : Work → Option CopyTask
  | .copy body => some ⟨task, body⟩
  | _ => none

mutual

/-- The copies that are prepared with an activity. The children of a branch are tasks of their own
elsewhere. -/
def Activity.copyTasks : Activity → List CopyTask
  | .single task work => (work.copyTask? task).toList
  | .branch _ _ _ => []
  | .loop _ _ _ body => copyTasksAll body

/-- The copies that are prepared with activities, one after another. -/
def Activity.copyTasksAll : List Activity → List CopyTask
  | [] => []
  | activity :: rest => activity.copyTasks ++ copyTasksAll rest

end

/-- The copies of a pipeline. -/
def Pipeline.copyTasks (pipeline : Pipeline) : List CopyTask :=
  Activity.copyTasksAll (Activity.flattenAll pipeline.tasks)

/-- The notebooks with one more, unless it is there. -/
def Notebook.keep (notebooks : List Notebook) (notebook : Notebook) : List Notebook :=
  if notebook ∈ notebooks then notebooks else notebooks ++ [notebook]

/-- Another content stands under the path. -/
def Notebook.Taken (notebooks : List Notebook) (path content : String) : Prop :=
  ∃ notebook ∈ notebooks, notebook.path = path ∧ notebook.content ≠ content

instance (notebooks : List Notebook) (path content : String) :
    Decidable (Notebook.Taken notebooks path content) :=
  inferInstanceAs
    (Decidable (∃ notebook ∈ notebooks, notebook.path = path ∧ notebook.content ≠ content))

namespace CopyTask

variable (options : PreparationOptions)

/-- The notebooks with that of one more copy. -/
def store (notebooks : List Notebook) (copyTask : CopyTask) : List Notebook :=
  match (options.script copyTask.copy).value with
  | .error _ => notebooks
  | .ok content =>
    let path := Artifacts.pathFor notebooks (options.notebookPath copyTask.copy) content
      copyTask.task.key
    Notebook.keep notebooks ⟨path, content⟩

/-- Both the path of the copy and that of its task are taken by other scripts. -/
def Blocked (notebooks : List Notebook) (copyTask : CopyTask) : Prop :=
  ∃ content, (options.script copyTask.copy).value = .ok content ∧
    Notebook.Taken notebooks (options.notebookPath copyTask.copy) content ∧
    Notebook.Taken notebooks
      (Artifacts.taskPath (options.notebookPath copyTask.copy) copyTask.task.key) content

instance (notebooks : List Notebook) (copyTask : CopyTask) :
    Decidable (copyTask.Blocked options notebooks) :=
  match h : (options.script copyTask.copy).value with
  | .error _ => .isFalse fun ⟨_, hcontent, _⟩ => by cases h.symm.trans hcontent
  | .ok content =>
    decidable_of_iff
      (Notebook.Taken notebooks (options.notebookPath copyTask.copy) content ∧
        Notebook.Taken notebooks
          (Artifacts.taskPath (options.notebookPath copyTask.copy) copyTask.task.key) content)
      ⟨fun htaken => ⟨content, h, htaken⟩, fun ⟨_, hcontent, htaken⟩ => by
        cases h.symm.trans hcontent
        exact htaken⟩

/-- The path leads to a notebook with the script of the copy. -/
def LeadsTo (found : Notebook → Prop) (copyTask : CopyTask) (path : String) : Prop :=
  ∃ content, (options.script copyTask.copy).value = .ok content ∧ found ⟨path, content⟩

end CopyTask

/-- What a job has for an activity. The task of a copy runs a declarative pipeline or a notebook,
whose path leads to the script of that copy; a loop runs the first activity of its body. -/
inductive JobTask.Runs (options : PreparationOptions) (found : Notebook → Prop) :
    Activity → JobTask → Prop where
  | declarative {task : Task} {copy : Copy} (h : options.isDeclarative copy = true) :
      Runs options found (.single task (.copy copy)) (.run task .pipeline)
  | notebook {task : Task} {copy : Copy} {path : String} (h : options.isDeclarative copy = false)
      (leads : CopyTask.LeadsTo options found ⟨task, copy⟩ path) :
      Runs options found (.single task (.copy copy)) (.run task (.notebook path []))
  | work {task : Task} {work : Work} {jobWork : JobWork} (h : work.copyTask? task = none) :
      Runs options found (.single task work) (.run task jobWork)
  | branch {task : Task} {condition : Condition} {children : List Activity} :
      Runs options found (.branch task condition children) (.run task (.condition condition))
  | loop {task : Task} {items : String} {concurrency : Option Nat} {first : Activity}
      {rest : List Activity} {body : JobTask} (h : Runs options found first body) :
      Runs options found (.loop task items concurrency (first :: rest))
        (.forEach task items concurrency body)

/-- What is created for a declarative copy: a pipeline of the script under the path. -/
def PipelineInstruction.Creates (options : PreparationOptions) (found : Notebook → Prop)
    (copyTask : CopyTask) (instruction : PipelineInstruction) : Prop :=
  instruction.taskKey = copyTask.task.key ∧ copyTask.LeadsTo options found instruction.path

/-- The copies that become declarative pipelines. -/
def CopyTask.declarative (options : PreparationOptions) (copyTasks : List CopyTask) :
    List CopyTask :=
  copyTasks.filter fun copyTask => options.isDeclarative copyTask.copy

/-- Nothing but the notebook stands under its path. -/
def Workflow.Identifies (workflow : Workflow) (notebook : Notebook) : Prop :=
  workflow.notebooks.filter (·.path == notebook.path) = [notebook]

/-- The notebooks have paths of their own, and the path that a task or a pipeline names identifies
the script of its copy. -/
structure Workflow.Distinct (options : PreparationOptions) (pipeline : Pipeline)
    (workflow : Workflow) : Prop where
  paths : (workflow.notebooks.map Notebook.path).Nodup
  tasks : List.Forall₂ (JobTask.Runs options workflow.Identifies)
    (Activity.flattenAll pipeline.tasks) workflow.job.tasks
  pipelines : List.Forall₂ (PipelineInstruction.Creates options workflow.Identifies)
    (CopyTask.declarative options pipeline.copyTasks) workflow.pipelines

/-! ## The notebooks of one more copy -/

namespace Notebook

variable {notebooks : List Notebook}

theorem mem_keep_iff {notebook other : Notebook} :
    other ∈ keep notebooks notebook ↔ other ∈ notebooks ∨ other = notebook := by
  unfold keep
  split
  · rename_i hmem
    constructor
    · exact .inl
    · rintro (h | rfl)
      · exact h
      · exact hmem
  · rw [List.mem_append, List.mem_singleton]

theorem mem_keep (notebooks : List Notebook) (notebook : Notebook) :
    notebook ∈ keep notebooks notebook :=
  mem_keep_iff.mpr (.inr rfl)

theorem prefix_keep (notebooks : List Notebook) (notebook : Notebook) :
    notebooks <+: keep notebooks notebook := by
  unfold keep
  split
  · exact List.prefix_rfl
  · exact List.prefix_append _ _

/-- Among notebooks with paths of their own a path has one content. -/
theorem eq_of_path_eq (h : (notebooks.map path).Nodup) {a b : Notebook} (ha : a ∈ notebooks)
    (hb : b ∈ notebooks) (hpath : a.path = b.path) : a = b :=
  List.inj_on_of_nodup_map h ha hb hpath

theorem nodup_keep (h : (notebooks.map path).Nodup) {notebook : Notebook}
    (hfree : ¬Taken notebooks notebook.path notebook.content) :
    ((keep notebooks notebook).map path).Nodup := by
  unfold keep
  split
  · exact h
  · rename_i hnew
    rw [List.map_append, List.map_singleton]
    refine List.Nodup.append h (List.nodup_singleton _) ?_
    rw [List.disjoint_singleton]
    intro hmem
    obtain ⟨other, hother, hpath⟩ := List.mem_map.mp hmem
    refine hfree ⟨other, hother, hpath, fun hcontent => hnew ?_⟩
    obtain rfl : other = notebook := by
      cases other
      cases notebook
      simp_all
    exact hother

theorem not_nodup_keep {notebook : Notebook}
    (htaken : Taken notebooks notebook.path notebook.content) :
    ¬((keep notebooks notebook).map path).Nodup := by
  intro h
  obtain ⟨other, hother, hpath, hcontent⟩ := htaken
  have hsame : other = notebook :=
    eq_of_path_eq h ((prefix_keep _ _).subset hother) (mem_keep _ _) hpath
  exact hcontent (congrArg content hsame)

/-- Notebooks with paths of their own identify each of them. -/
theorem filter_path_eq (h : (notebooks.map path).Nodup) {notebook : Notebook}
    (hmem : notebook ∈ notebooks) : notebooks.filter (·.path == notebook.path) = [notebook] := by
  have hfilter : notebooks.filter (·.path == notebook.path) = notebooks.filter (· == notebook) := by
    refine List.filter_congr fun other hother => ?_
    by_cases hpath : other.path = notebook.path
    · simp [eq_of_path_eq h hother hmem hpath]
    · have hne : other ≠ notebook := fun hsame => hpath (congrArg path hsame)
      simp [hpath, hne]
  rw [hfilter, List.filter_beq, List.count_eq_one_of_mem (List.Nodup.of_map path h) hmem]
  rfl

end Notebook

namespace Artifacts

theorem notebooks_addNotebook (artifacts : Artifacts) (path content taskKey : String) :
    (artifacts.addNotebook path content taskKey).2.notebooks
      = Notebook.keep artifacts.notebooks
          ⟨pathFor artifacts.notebooks path content taskKey, content⟩ := by
  have hany (target : String) :
      (artifacts.notebooks.any fun n => n.path == target && n.content == content) = true ↔
        ⟨target, content⟩ ∈ artifacts.notebooks := by
    rw [List.any_eq_true]
    constructor
    · rintro ⟨⟨p, c⟩, hmem, h⟩
      simp only [Bool.and_eq_true, beq_iff_eq] at h
      obtain ⟨rfl, rfl⟩ := h
      exact hmem
    · exact fun hmem => ⟨_, hmem, by simp⟩
  unfold addNotebook Notebook.keep
  simp only [hany]
  split
  · rfl
  · rfl

theorem path_addNotebook (artifacts : Artifacts) (path content taskKey : String) :
    (artifacts.addNotebook path content taskKey).1
      = pathFor artifacts.notebooks path content taskKey := by
  unfold addNotebook
  dsimp only
  split
  · rfl
  · rfl

theorem pipelines_addNotebook (artifacts : Artifacts) (path content taskKey : String) :
    (artifacts.addNotebook path content taskKey).2.pipelines = artifacts.pipelines := by
  unfold addNotebook
  dsimp only
  split
  · rfl
  · rfl

/-- The path for a notebook is free of other contents, unless the path of its task is taken as
well. -/
theorem taken_pathFor_iff {notebooks : List Notebook} (h : (notebooks.map Notebook.path).Nodup)
    (path content taskKey : String) :
    Notebook.Taken notebooks (pathFor notebooks path content taskKey) content ↔
      Notebook.Taken notebooks path content ∧
        Notebook.Taken notebooks (taskPath path taskKey) content := by
  unfold pathFor
  cases hfind : notebooks.find? (·.path == path) with
  | none =>
    have hfree : ¬Notebook.Taken notebooks path content := by
      rintro ⟨other, hother, hpath, -⟩
      have := List.find?_eq_none.mp hfind other hother
      simp [hpath] at this
    simp [hfree]
  | some existing =>
    have hmem : existing ∈ notebooks := List.mem_of_find?_eq_some hfind
    have hpath : existing.path = path := by simpa using List.find?_some hfind
    by_cases hcontent : existing.content = content
    · have hfree : ¬Notebook.Taken notebooks path content := by
        rintro ⟨other, hother, hotherPath, hne⟩
        have hsame := Notebook.eq_of_path_eq h hother hmem (hotherPath.trans hpath.symm)
        exact hne (hsame ▸ hcontent)
      simp [hcontent, hfree]
    · have htaken : Notebook.Taken notebooks path content := ⟨existing, hmem, hpath, hcontent⟩
      simp [hcontent, htaken]

end Artifacts

namespace CopyTask

variable {options : PreparationOptions}

theorem prefix_store (notebooks : List Notebook) (copyTask : CopyTask) :
    notebooks <+: copyTask.store options notebooks := by
  unfold store
  split
  · exact List.prefix_rfl
  · exact Notebook.prefix_keep _ _

theorem prefix_foldl_store (copyTasks : List CopyTask) (notebooks : List Notebook) :
    notebooks <+: copyTasks.foldl (store options) notebooks := by
  induction copyTasks generalizing notebooks with
  | nil => exact List.prefix_rfl
  | cons copyTask rest ih => exact (prefix_store notebooks copyTask).trans (ih _)

/-- One more copy keeps the paths distinct exactly if it is not blocked. -/
theorem nodup_store_iff {notebooks : List Notebook} (h : (notebooks.map Notebook.path).Nodup)
    (copyTask : CopyTask) :
    ((copyTask.store options notebooks).map Notebook.path).Nodup ↔
      ¬copyTask.Blocked options notebooks := by
  unfold store Blocked
  cases hcontent : (options.script copyTask.copy).value with
  | error failure => simpa using h
  | ok content =>
    have htaken := Artifacts.taken_pathFor_iff h (options.notebookPath copyTask.copy) content
      copyTask.task.key
    constructor
    · rintro hkeep ⟨_, ⟨⟩, hblocked⟩
      exact Notebook.not_nodup_keep (htaken.mpr hblocked) hkeep
    · intro hblocked
      exact Notebook.nodup_keep h fun hpath => hblocked ⟨content, rfl, htaken.mp hpath⟩

/-- Copies keep the paths distinct exactly if none of them is blocked by those before it. -/
theorem nodup_foldl_store_iff (copyTasks : List CopyTask) {notebooks : List Notebook}
    (h : (notebooks.map Notebook.path).Nodup) :
    ((copyTasks.foldl (store options) notebooks).map Notebook.path).Nodup ↔
      ∀ before copyTask after, copyTasks = before ++ copyTask :: after →
        ¬copyTask.Blocked options (before.foldl (store options) notebooks) := by
  induction copyTasks generalizing notebooks with
  | nil => simp [h]
  | cons first rest ih =>
    rw [List.foldl_cons]
    constructor
    · -- no path is given up later, so the first copy has kept the paths distinct
      intro hall before copyTask after hsplit
      have hfirst : ((first.store options notebooks).map Notebook.path).Nodup :=
        hall.sublist ((prefix_foldl_store rest _).sublist.map _)
      cases before with
      | nil =>
        obtain ⟨rfl, rfl⟩ := List.cons.inj hsplit
        exact (nodup_store_iff h first).mp hfirst
      | cons _ before =>
        obtain ⟨rfl, rfl⟩ := List.cons.inj hsplit
        exact (ih hfirst).mp hall before copyTask after rfl
    · intro hnone
      have hfirst : ((first.store options notebooks).map Notebook.path).Nodup :=
        (nodup_store_iff h first).mpr (hnone [] first rest rfl)
      refine (ih hfirst).mpr fun before copyTask after hsplit => ?_
      exact hnone (first :: before) copyTask after (by rw [hsplit, List.cons_append])

end CopyTask

/-! ## The run of a preparation -/

/-- What a preparation that comes by the copies adds: their notebooks, and a pipeline for each
declarative one. -/
structure Preparation.Adds (options : PreparationOptions) (copyTasks : List CopyTask)
    (before after : Artifacts) : Prop where
  notebooks : after.notebooks = copyTasks.foldl (CopyTask.store options) before.notebooks
  pipelines : ∃ added, after.pipelines = before.pipelines ++ added ∧
    List.Forall₂ (PipelineInstruction.Creates options (· ∈ after.notebooks))
      (CopyTask.declarative options copyTasks) added

section

variable {options : PreparationOptions} {found found' : Notebook → Prop}

theorem CopyTask.LeadsTo.mono (hfound : ∀ notebook, found notebook → found' notebook)
    {copyTask : CopyTask} {path : String} (h : copyTask.LeadsTo options found path) :
    copyTask.LeadsTo options found' path := by
  obtain ⟨content, hcontent, hpath⟩ := h
  exact ⟨content, hcontent, hfound _ hpath⟩

theorem PipelineInstruction.Creates.mono (hfound : ∀ notebook, found notebook → found' notebook)
    {copyTask : CopyTask} {instruction : PipelineInstruction}
    (h : Creates options found copyTask instruction) :
    Creates options found' copyTask instruction :=
  ⟨h.1, h.2.mono hfound⟩

theorem JobTask.Runs.mono (hfound : ∀ notebook, found notebook → found' notebook)
    {activity : Activity} {jobTask : JobTask} (h : Runs options found activity jobTask) :
    Runs options found' activity jobTask := by
  induction h with
  | declarative h => exact .declarative h
  | notebook h leads => exact .notebook h (leads.mono hfound)
  | work h => exact .work h
  | branch => exact .branch
  | loop _ ih => exact .loop ih

end

namespace Preparation

variable {options : PreparationOptions}

theorem Adds.mono {copyTasks : List CopyTask} {before after : Artifacts}
    (h : Adds options copyTasks before after) :
    ∀ notebook ∈ before.notebooks, notebook ∈ after.notebooks := by
  intro notebook hmem
  rw [h.notebooks]
  exact (CopyTask.prefix_foldl_store copyTasks before.notebooks).subset hmem

theorem Adds.nil {before after : Artifacts} (hnotebooks : after.notebooks = before.notebooks)
    (hpipelines : after.pipelines = before.pipelines) : Adds options [] before after :=
  ⟨hnotebooks, [], by rw [hpipelines, List.append_nil], .nil⟩

theorem Adds.append {first second : List CopyTask} {before between after : Artifacts}
    (hfirst : Adds options first before between) (hsecond : Adds options second between after) :
    Adds options (first ++ second) before after := by
  obtain ⟨added, hadded, hfound⟩ := hfirst.pipelines
  obtain ⟨added', hadded', hfound'⟩ := hsecond.pipelines
  refine ⟨?_, added ++ added', ?_, ?_⟩
  · rw [hsecond.notebooks, hfirst.notebooks, List.foldl_append]
  · rw [hadded', hadded, List.append_assoc]
  · unfold CopyTask.declarative at hfound hfound' ⊢
    rw [List.filter_append]
    refine List.rel_append ?_ hfound'
    exact hfound.imp fun _ _ hcreates => hcreates.mono hsecond.mono

theorem exists_of_bind_ok {α β : Type} {first : Preparation α} {next : α → Preparation β}
    {before after : Artifacts} {value : β} (h : (first >>= next) before = .ok (value, after)) :
    ∃ x between, first before = .ok (x, between) ∧ next x between = .ok (value, after) := by
  simp only [Bind.bind, andThen] at h
  split at h
  · cases h
  · rename_i x between hfirst
    exact ⟨x, between, hfirst, h⟩

theorem exists_of_inScope_ok {α : Type} {scope : Scope} {body : Preparation α}
    {before after : Artifacts} {value : α} (h : inScope scope body before = .ok (value, after)) :
    ∃ log log', body { before with log := log } = .ok (value, { after with log := log' }) := by
  unfold inScope at h
  split at h
  · cases h
  · rename_i value' after' hbody
    cases h
    exact ⟨_, after'.log, hbody⟩

theorem addSecrets_eq (secrets : List Secret) (artifacts : Artifacts) :
    (secrets.foldl Artifacts.addSecret artifacts).notebooks = artifacts.notebooks ∧
      (secrets.foldl Artifacts.addSecret artifacts).pipelines = artifacts.pipelines := by
  induction secrets generalizing artifacts with
  | nil => exact ⟨rfl, rfl⟩
  | cons secret rest ih =>
    have hfirst : (artifacts.addSecret secret).notebooks = artifacts.notebooks ∧
        (artifacts.addSecret secret).pipelines = artifacts.pipelines := by
      unfold Artifacts.addSecret
      split
      · exact ⟨rfl, rfl⟩
      · exact ⟨rfl, rfl⟩
    rw [List.foldl_cons]
    exact ⟨(ih _).1.trans hfirst.1, (ih _).2.trans hfirst.2⟩

/-- What the preparation of a copy ends with: its notebook is stored, and the path is named by a
pipeline of its task if the copy is declarative, and by the work of its task if it is not. -/
structure Copied (options : PreparationOptions) (copyTask : CopyTask) (notebook : Notebook)
    (before after : Artifacts) (work : JobWork) : Prop where
  script : (options.script copyTask.copy).value = .ok notebook.content
  path : notebook.path = Artifacts.pathFor before.notebooks (options.notebookPath copyTask.copy)
    notebook.content copyTask.task.key
  notebooks : after.notebooks = Notebook.keep before.notebooks notebook
  work : work = if options.isDeclarative copyTask.copy then .pipeline else .notebook notebook.path []
  pipelines : after.pipelines = before.pipelines ++
    if options.isDeclarative copyTask.copy then
      [⟨copyTask.task.key, notebook.path, copyTask.task.key ++ "_pipeline"⟩]
    else []

theorem copy_copied {task : Task} {body : Copy} {before after : Artifacts} {work : JobWork}
    (h : copy options task body before = .ok (work, after)) :
    ∃ notebook, Copied options ⟨task, body⟩ notebook before after work := by
  obtain ⟨hnotebooks, hpipelines⟩ := addSecrets_eq (options.secrets body) before
  simp only [copy] at h
  split at h
  · cases h
  · rename_i content hcontent
    -- the secrets and the notes leave the notebooks and the pipelines alone
    generalize hstart : ((options.secrets body).foldl Artifacts.addSecret before).record
      (options.script body).notes = start at h
    have hstartNotebooks : start.notebooks = before.notebooks := by
      rw [← hstart]
      exact hnotebooks
    have hstartPipelines : start.pipelines = before.pipelines := by
      rw [← hstart]
      exact hpipelines
    have hpath := Artifacts.path_addNotebook start (options.notebookPath body) content task.key
    have hstored := Artifacts.notebooks_addNotebook start (options.notebookPath body) content task.key
    have hkept := Artifacts.pipelines_addNotebook start (options.notebookPath body) content task.key
    rw [hstartNotebooks] at hpath hstored
    rw [hstartPipelines] at hkept
    refine ⟨⟨Artifacts.pathFor before.notebooks (options.notebookPath body) content task.key,
      content⟩, ?_⟩
    split at h
    · rename_i hdeclarative
      cases h
      refine ⟨hcontent, rfl, hstored, by rw [if_pos hdeclarative], ?_⟩
      rw [if_pos hdeclarative, ← hpath]
      exact congrArg (· ++ _) hkept
    · rename_i hdeclarative
      cases h
      refine ⟨hcontent, rfl, hstored, by rw [if_neg hdeclarative, hpath], ?_⟩
      rw [if_neg hdeclarative, List.append_nil]
      exact hkept

/-- One copy: its notebook is stored, and its path leads to the notebook. -/
theorem copy_adds {task : Task} {body : Copy} {before after : Artifacts} {work : JobWork}
    (h : copy options task body before = .ok (work, after)) :
    Adds options [⟨task, body⟩] before after ∧
      JobTask.Runs options (· ∈ after.notebooks) (.single task (.copy body)) (.run task work) := by
  obtain ⟨notebook, hscript, hpath, hnotebooks, hwork, hpipelines⟩ := copy_copied h
  have hstored : after.notebooks
      = [(⟨task, body⟩ : CopyTask)].foldl (CopyTask.store options) before.notebooks := by
    rw [hnotebooks, List.foldl_cons, List.foldl_nil]
    simp only [CopyTask.store, hscript, ← hpath]
  have hleads : CopyTask.LeadsTo options (· ∈ after.notebooks) ⟨task, body⟩ notebook.path :=
    ⟨notebook.content, hscript, hnotebooks ▸ Notebook.mem_keep _ _⟩
  dsimp only at hwork hpipelines
  cases hdeclarative : options.isDeclarative body with
  | true =>
    rw [if_pos hdeclarative] at hwork hpipelines
    subst hwork
    refine ⟨⟨hstored, _, hpipelines, ?_⟩, .declarative hdeclarative⟩
    simp only [CopyTask.declarative, List.filter_cons, hdeclarative, if_true, List.filter_nil]
    exact .cons ⟨rfl, hleads⟩ .nil
  | false =>
    rw [hdeclarative, if_neg Bool.false_ne_true] at hwork hpipelines
    subst hwork
    refine ⟨⟨hstored, [], hpipelines, ?_⟩, .notebook hdeclarative hleads⟩
    simp only [CopyTask.declarative, List.filter_cons, hdeclarative, List.filter_nil]
    exact .nil

theorem work_adds {task : Task} {body : Work} {before after : Artifacts} {jobWork : JobWork}
    (h : work options task body before = .ok (jobWork, after)) :
    Adds options (body.copyTask? task).toList before after ∧
      JobTask.Runs options (· ∈ after.notebooks) (.single task body) (.run task jobWork) := by
  cases body with
  | copy body => exact copy_adds h
  | _ =>
    cases h
    exact ⟨.nil rfl rfl, .work rfl⟩

mutual

/-- **Activities.** A successful preparation of an activity stores the notebooks of its copies, and
the task it gives runs the activity. -/
theorem activity_adds : ∀ (item : Activity) {before after : Artifacts} {jobTask : JobTask},
    activity options item before = .ok (jobTask, after) →
    Adds options item.copyTasks before after ∧
      JobTask.Runs options (· ∈ after.notebooks) item jobTask
  | .single task body, before, after, jobTask, h => by
    rw [activity] at h
    obtain ⟨log, log', h⟩ := exists_of_inScope_ok h
    obtain ⟨jobWork, between, hwork, h⟩ := exists_of_bind_ok h
    obtain ⟨hadds, hruns⟩ := work_adds hwork
    obtain ⟨rfl, rfl⟩ := Prod.mk.inj (Except.ok.inj h)
    exact ⟨⟨hadds.notebooks, hadds.pipelines⟩, hruns⟩
  | .branch task condition children, before, after, jobTask, h => by
    rw [activity] at h
    obtain ⟨log, log', h⟩ := exists_of_inScope_ok h
    obtain ⟨rfl, hafter⟩ := Prod.mk.inj (Except.ok.inj h)
    exact ⟨.nil (congrArg Artifacts.notebooks hafter).symm
      (congrArg Artifacts.pipelines hafter).symm, .branch⟩
  | .loop task items concurrency body, before, after, jobTask, h => by
    rw [activity] at h
    obtain ⟨log, log', h⟩ := exists_of_inScope_ok h
    obtain ⟨jobTasks, between, hbody, h⟩ := exists_of_bind_ok h
    obtain ⟨hadds, hruns⟩ := activities_adds body hbody
    cases hruns with
    | nil => cases h
    | cons hfirst hrest =>
      obtain ⟨rfl, rfl⟩ := Prod.mk.inj (Except.ok.inj h)
      exact ⟨⟨hadds.notebooks, hadds.pipelines⟩, .loop hfirst⟩

theorem activities_adds : ∀ (items : List Activity) {before after : Artifacts}
    {jobTasks : List JobTask}, activities options items before = .ok (jobTasks, after) →
    Adds options (Activity.copyTasksAll items) before after ∧
      List.Forall₂ (JobTask.Runs options (· ∈ after.notebooks)) items jobTasks
  | [], before, after, jobTasks, h => by
    rw [activities] at h
    cases h
    exact ⟨.nil rfl rfl, .nil⟩
  | first :: rest, before, after, jobTasks, h => by
    rw [activities] at h
    obtain ⟨jobTask, between, hfirst, h⟩ := exists_of_bind_ok h
    obtain ⟨jobTasks', between', hrest, h⟩ := exists_of_bind_ok h
    cases h
    obtain ⟨haddsFirst, hrunsFirst⟩ := activity_adds first hfirst
    obtain ⟨haddsRest, hrunsRest⟩ := activities_adds rest hrest
    -- what the first activity has found is still there after the others
    exact ⟨haddsFirst.append haddsRest, .cons (hrunsFirst.mono haddsRest.mono) hrunsRest⟩

end

end Preparation

/-- A workflow is that of a preparation of all flattened tasks. -/
theorem Workflow.exists_artifacts {options : PreparationOptions} {pipeline : Pipeline}
    {workflow : Workflow} (h : ofPipeline options pipeline = .ok workflow) :
    ∃ artifacts, Preparation.activities options (Activity.flattenAll pipeline.tasks) .empty
        = .ok (workflow.job.tasks, artifacts) ∧
      workflow.notebooks = artifacts.notebooks ∧ workflow.secrets = artifacts.secrets ∧
      workflow.pipelines = artifacts.pipelines := by
  unfold ofPipeline at h
  cases hactivities : Preparation.activities options (Activity.flattenAll pipeline.tasks) .empty with
  | error failure =>
    rw [hactivities] at h
    cases h
  | ok prepared =>
    rw [hactivities] at h
    cases h
    exact ⟨prepared.2, rfl, rfl, rfl, rfl⟩

/-- **Workflows.** The notebooks of a workflow have paths of their own, and every path that a task or
a pipeline names identifies the script of its copy, exactly if no copy finds both its own path and
that of its task taken by other scripts. -/
theorem Workflow.ofPipeline_distinct_iff {options : PreparationOptions} {pipeline : Pipeline}
    {workflow : Workflow} (h : ofPipeline options pipeline = .ok workflow) :
    Distinct options pipeline workflow ↔
      ∀ before copyTask after, pipeline.copyTasks = before ++ copyTask :: after →
        ¬copyTask.Blocked options (before.foldl (CopyTask.store options) []) := by
  obtain ⟨artifacts, hactivities, hnotebooks, -, hpipelines⟩ := exists_artifacts h
  obtain ⟨hadds, hruns⟩ := Preparation.activities_adds _ hactivities
  have hstored : workflow.notebooks = pipeline.copyTasks.foldl (CopyTask.store options) [] :=
    hnotebooks.trans hadds.notebooks
  have hempty : (([] : List Notebook).map Notebook.path).Nodup := List.nodup_nil
  rw [← CopyTask.nodup_foldl_store_iff pipeline.copyTasks hempty, ← hstored]
  refine ⟨Distinct.paths, fun hpaths => ?_⟩
  have hidentifies : ∀ notebook ∈ artifacts.notebooks, workflow.Identifies notebook :=
    fun notebook hmem => Notebook.filter_path_eq hpaths (hnotebooks ▸ hmem)
  obtain ⟨added, hadded, hcreates⟩ := hadds.pipelines
  refine ⟨hpaths, hruns.imp fun _ _ hleads => hleads.mono hidentifies, ?_⟩
  rw [hpipelines, hadded]
  exact hcreates.imp fun _ _ hleads => hleads.mono hidentifies

/-! ## Three copies between the same datasets -/

namespace CopyTask

/-- A copy of one column between two tables. -/
def ofColumn (key column : String) : CopyTask where
  task :=
    { key := key
      type := ActivityKind.copy.tag
      description := none
      policy := Policy.none
      dependsOn := []
      cluster := none }
  copy :=
    { source := .delta ⟨"orders_raw", none, "lake", "raw", "workspace"⟩
      sink := .delta ⟨"orders", none, "lake", "orders", "workspace"⟩
      sourceSide := ⟨.delta, []⟩
      sinkSide := ⟨.delta, []⟩
      columns := [⟨column, column, none⟩] }

/-- Copies of three columns. The names of the second and the third task have one script name. -/
def threeColumns : List CopyTask :=
  [ofColumn "First" "id", ofColumn "Second-1" "price", ofColumn "Second_1" "tax"]

/-- A pipeline of nothing but copies. -/
def pipeline (copyTasks : List CopyTask) : Pipeline where
  name := "orders"
  parameters := []
  schedule := none
  tasks := copyTasks.map fun copyTask => .single copyTask.task (.copy copyTask.copy)
  tags := []
  notTranslatable := []

/-- Copies as notebooks of the built-in templates. -/
def notebookOptions : PreparationOptions where
  filesToDeltaSinks := some false
  secretScope := PreparationOptions.defaultSecretScope
  notebookRoot := PreparationOptions.defaultNotebookRoot
  library := .builtIn

/-- The third copy is blocked, so the three copies do not get paths of their own. -/
theorem threeColumns_not_distinct :
    ∃ workflow, Workflow.ofPipeline notebookOptions (pipeline threeColumns) = .ok workflow ∧
      ¬workflow.Distinct notebookOptions (pipeline threeColumns) := by
  have hok : (Workflow.ofPipeline notebookOptions (pipeline threeColumns)).isOk = true := by
    decide +kernel
  cases h : Workflow.ofPipeline notebookOptions (pipeline threeColumns) with
  | error failure =>
    rw [h] at hok
    cases hok
  | ok workflow =>
    refine ⟨workflow, rfl, fun hdistinct => ?_⟩
    have hblocked : (ofColumn "Second_1" "tax").Blocked notebookOptions
        ([ofColumn "First" "id", ofColumn "Second-1" "price"].foldl (store notebookOptions) []) := by
      decide +kernel
    exact (Workflow.ofPipeline_distinct_iff h).mp hdistinct _ _ [] rfl hblocked

/-- Two different notebooks of the three copies stand under one path. -/
theorem threeColumns_paths :
    ((Workflow.ofPipeline notebookOptions (pipeline threeColumns)).toOption.map fun workflow =>
        (workflow.notebooks.map Notebook.path, decide workflow.notebooks.Nodup))
      = some
        (["/pipemigrate/copy_data_notebooks/copy_orders_raw_to_orders",
          "/pipemigrate/copy_data_notebooks/copy_orders_raw_to_orders_Second_1",
          "/pipemigrate/copy_data_notebooks/copy_orders_raw_to_orders_Second_1"], true) := by
  decide +kernel

end CopyTask

end FactoryMigration
