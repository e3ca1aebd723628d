import FactoryMigration.Script.Notebook
import FactoryMigration.Workflow.Basic

set_option autoImplicit false

/-! # Artifacts

The artifacts of a preparation grow task by task. A secret is kept once for each scope and key.
Notebooks of the same path and content are kept once; a notebook whose path is taken by another
content goes to a path of its task. -/

namespace FactoryMigration

/-- The notebooks, pipelines and secrets so far, oldest first, and the log. -/
structure Artifacts where
  notebooks : List Notebook
  pipelines : List PipelineInstruction
  secrets : List Secret
  log : Log

namespace Artifacts

def empty : Artifacts := ⟨[], [], [], .empty⟩

/-- Adds a secret unless there is one of its scope and key. -/
def addSecret (artifacts : Artifacts) (secret : Secret) : Artifacts :=
  if artifacts.secrets.any fun s => s.scope == secret.scope && s.key == secret.key then artifacts
  else { artifacts with secrets := artifacts.secrets ++ [secret] }

/-- The path of a task for a notebook whose own path is taken. -/
def taskPath (path taskKey : String) : String :=
  path ++ "_" ++ Script.identifier taskKey

/-- The path for a notebook: its own if that is free or holds the same content, else one of its
task. -/
def pathFor (notebooks : List Notebook) (path content taskKey : String) : String :=
  match notebooks.find? (·.path == path) with
  | some existing => if existing.content = content then path else taskPath path taskKey
  | none => path

/-- Adds a notebook unless there is one of its path and content; gives the path. -/
def addNotebook (artifacts : Artifacts) (path content taskKey : String) : String × Artifacts :=
  let path := pathFor artifacts.notebooks path content taskKey
  if artifacts.notebooks.any fun n => n.path == path && n.content == content then (path, artifacts)
  else (path, { artifacts with notebooks := artifacts.notebooks ++ [⟨path, content⟩] })

/-- Adds the instruction to create a pipeline. -/
def addPipeline (artifacts : Artifacts) (instruction : PipelineInstruction) : Artifacts :=
  { artifacts with pipelines := artifacts.pipelines ++ [instruction] }

/-- Records notes in the innermost scope. -/
def record (artifacts : Artifacts) (notes : List Note) : Artifacts :=
  { artifacts with log := artifacts.log.record notes }

end Artifacts

end FactoryMigration
