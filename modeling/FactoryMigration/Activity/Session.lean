import FactoryMigration.Activity.Definition

set_option autoImplicit false

/-! # Conversion sessions

A session converts activities one after another. It keeps the policies it has read and a log of what
was recorded, also by conversions that failed. -/

namespace FactoryMigration

/-- The memory of the conversions so far, and whether placeholders are ruled out. -/
structure Session extends Memory where
  strict : Bool

namespace Session

/-- A session at its beginning. -/
def start (strict : Bool) : Session :=
  { cache := .empty, log := .empty, strict := strict }

/-- Opens a scope. -/
def enter (session : Session) (scope : Scope) : Session :=
  { session with log := session.log.enter scope }

/-- Closes the innermost scope, if one is open. -/
def exit (session : Session) : Session :=
  { session with log := session.log.exit }

/-- Records notes in the open scope. -/
def record (session : Session) (notes : List Note) : Session :=
  { session with log := session.log.record notes }

/-- Converts one activity. -/
def convert (session : Session) (activity : Json) : Except Failure Activity × Session :=
  let (result, memory) := FactoryMigration.convert session.strict false activity session.toMemory
  (result, { session with toMemory := memory })

/-- Converts activities up to the first failure, into a flat list of tasks. -/
def convertAll (session : Session) : List Json → Except Failure (List Activity) × Session
  | [] => (.ok [], session)
  | activity :: rest =>
    match session.convert activity with
    | (.error failure, session) => (.error failure, session)
    | (.ok first, session) =>
      let (others, session) := session.convertAll rest
      (others.map (first.flatten ++ ·), session)

end Session

end FactoryMigration
