import FactoryMigration.Workflow.Artifacts

set_option autoImplicit false

/-! # Preparing a workflow

A converted pipeline is prepared task by task. Each copy gets a notebook and its secrets. A loop
runs only the first activity of its body; the others still leave their artifacts. -/

namespace FactoryMigration

/-- How a workflow is prepared. -/
structure PreparationOptions where
  /-- Whether copies become declarative pipelines; if unset, those into Delta tables do. -/
  filesToDeltaSinks : Option Bool
  secretScope : String
  notebookRoot : String
  library : TemplateLibrary

namespace PreparationOptions

def defaultSecretScope : String := "pipemigrate_credentials_scope"

def defaultNotebookRoot : String := "/pipemigrate/copy_data_notebooks"

/-- The scripts' generator. -/
def generator (options : PreparationOptions) : Script.Generator :=
  ⟨options.library, options.secretScope⟩

/-- Whether a copy becomes a declarative pipeline. -/
def isDeclarative (options : PreparationOptions) (copy : Copy) : Bool :=
  options.filesToDeltaSinks.getD (copy.sink.format == .delta)

/-- The path of the notebook of a copy. -/
def notebookPath (options : PreparationOptions) (copy : Copy) : String :=
  String.ofList (Text.dropTrailing '/' options.notebookRoot.toList) ++ "/copy_"
    ++ Script.identifier copy.source.name ++ "_to_" ++ Script.identifier copy.sink.name

/-- The notebook of a copy. -/
def script (options : PreparationOptions) (copy : Copy) : Noted (Except Failure String) :=
  if options.isDeclarative copy then options.generator.declarativeNotebook copy
  else options.generator.copyNotebook copy

/-- The secrets of a copy, those of its source first. -/
def secrets (options : PreparationOptions) (copy : Copy) : List Secret :=
  Secret.ofDataset options.secretScope copy.source ++ Secret.ofDataset options.secretScope copy.sink

end PreparationOptions

/-- A preparation adds to the artifacts so far, or fails. -/
def Preparation (α : Type) : Type := Artifacts → Except Failure (α × Artifacts)

namespace Preparation

def done {α : Type} (value : α) : Preparation α :=
  fun artifacts => .ok (value, artifacts)

def andThen {α β : Type} (first : Preparation α) (next : α → Preparation β) : Preparation β :=
  fun artifacts =>
    match first artifacts with
    | .error failure => .error failure
    | .ok (value, artifacts) => next value artifacts

instance : Monad Preparation where
  pure := done
  bind := andThen

def fail {α : Type} (failure : Failure) : Preparation α :=
  fun _ => .error failure

/-- Opens a scope for a preparation and closes it afterwards. -/
def inScope {α : Type} (scope : Scope) (body : Preparation α) : Preparation α :=
  fun artifacts =>
    match body { artifacts with log := artifacts.log.enter scope } with
    | .error failure => .error failure
    | .ok (value, after) => .ok (value, { after with log := after.log.exit })

/-- Prepares a copy: its secrets, its notebook, and its pipeline if it is declarative. -/
def copy (options : PreparationOptions) (task : Task) (copy : Copy) : Preparation JobWork :=
  fun artifacts =>
    let artifacts := (options.secrets copy).foldl Artifacts.addSecret artifacts
    let script := options.script copy
    match script.value with
    | .error failure => .error failure
    | .ok content =>
      let artifacts := artifacts.record script.notes
      let (path, artifacts) :=
        artifacts.addNotebook (options.notebookPath copy) content task.key
      if options.isDeclarative copy then
        .ok (.pipeline, artifacts.addPipeline ⟨task.key, path, task.key ++ "_pipeline"⟩)
      else .ok (.notebook path [], artifacts)

/-- Prepares work without child activities. -/
def work (options : PreparationOptions) (task : Task) : Work → Preparation JobWork
  | .notebook path parameters => done (.notebook path parameters)
  | .sparkJar mainClass parameters libraries => done (.sparkJar mainClass parameters libraries)
  | .sparkPython file parameters => done (.sparkPython file parameters)
  | .copy body => copy options task body
  | .placeholder _ => done (.notebook Work.placeholderPath [])

mutual

/-- Prepares an activity. The children of a branch are tasks of their own elsewhere. -/
def activity (options : PreparationOptions) : Activity → Preparation JobTask
  | .single task body => inScope task.scope do return .run task (← work options task body)
  | .branch task condition _ => inScope task.scope (done (.run task (.condition condition)))
  | .loop task items concurrency body => inScope task.scope do
    match ← activities options body with
    | [] => fail (.untranslatable task.name "ForEach activity has no inner activities")
    | first :: _ => return .forEach task items concurrency first

/-- Prepares activities one after another. -/
def activities (options : PreparationOptions) : List Activity → Preparation (List JobTask)
  | [] => done []
  | first :: rest => do
    let task ← activity options first
    let tasks ← activities options rest
    return task :: tasks

end

end Preparation

/-- Prepares the workflow of a pipeline. -/
def Workflow.ofPipeline (options : PreparationOptions) (pipeline : Pipeline) :
    Except Failure Workflow := do
  let (tasks, artifacts) ←
    Preparation.activities options (Activity.flattenAll pipeline.tasks) .empty
  return {
    job := ⟨pipeline.name, pipeline.parameters, pipeline.schedule, pipeline.tags, tasks⟩
    notebooks := artifacts.notebooks
    pipelines := artifacts.pipelines
    secrets := artifacts.secrets
    notTranslatable := pipeline.notTranslatable ++ artifacts.log.entries }

end FactoryMigration
