set_option autoImplicit false

/-! # Diagnostics

A diagnostic reports something that has no counterpart in the job. It names a property and carries
the tag of the activity it was found in. Readers that know no activity leave notes; a note becomes a
diagnostic when a scope tags it. The log keeps the open scopes, innermost first, and all diagnostics
in the order in which they were recorded. -/

namespace FactoryMigration

/-- A remark on a property, not yet tagged. -/
structure Note where
  property : String
  message : String
deriving DecidableEq

/-- The activity that diagnostics are tagged with. -/
structure Scope where
  activityName : Option String
  activityType : Option String
deriving DecidableEq

/-- A remark on a property of an activity, or of the pipeline when it has no tag. -/
structure Diagnostic where
  property : String
  message : String
  activityName : Option String
  activityType : Option String
deriving DecidableEq

/-- A note outside every activity. -/
def Note.untagged (note : Note) : Diagnostic :=
  ⟨note.property, note.message, none, none⟩

/-- A note found in an activity. -/
def Scope.tag (scope : Scope) (note : Note) : Diagnostic :=
  ⟨note.property, note.message, scope.activityName, scope.activityType⟩

/-! ## Log -/

/-- Open scopes, innermost first, and recorded diagnostics, oldest first. -/
structure Log where
  scopes : List Scope
  entries : List Diagnostic

namespace Log

def empty : Log := ⟨[], []⟩

/-- Opens a scope. -/
def enter (log : Log) (scope : Scope) : Log :=
  { log with scopes := scope :: log.scopes }

/-- Closes the innermost scope, if one is open. -/
def exit (log : Log) : Log :=
  { log with scopes := log.scopes.tail }

/-- The diagnostic that a note becomes in the innermost scope. -/
def tag (log : Log) (note : Note) : Diagnostic :=
  match log.scopes with
  | [] => note.untagged
  | scope :: _ => scope.tag note

/-- Adds diagnostics that already have their tags. -/
def append (log : Log) (diagnostics : List Diagnostic) : Log :=
  { log with entries := log.entries ++ diagnostics }

/-- Records notes in the innermost scope. -/
def record (log : Log) (notes : List Note) : Log :=
  log.append (notes.map log.tag)

@[simp]
theorem entries_record (log : Log) (notes : List Note) :
    (log.record notes).entries = log.entries ++ notes.map log.tag :=
  rfl

end Log

/-! ## Values with notes -/

/-- A value and the notes left on the way to it. -/
structure Noted (α : Type) where
  value : α
  notes : List Note

namespace Noted

/-- A value without notes. -/
def quiet {α : Type} (value : α) : Noted α := ⟨value, []⟩

/-- Goes on from a value, keeping its notes in front. -/
def andThen {α β : Type} (first : Noted α) (next : α → Noted β) : Noted β :=
  let second := next first.value
  ⟨second.value, first.notes ++ second.notes⟩

instance : Monad Noted where
  pure := quiet
  bind := andThen

@[simp]
theorem value_pure {α : Type} (value : α) : (pure value : Noted α).value = value := rfl

@[simp]
theorem notes_pure {α : Type} (value : α) : (pure value : Noted α).notes = [] := rfl

@[simp]
theorem value_bind {α β : Type} (first : Noted α) (next : α → Noted β) :
    (first >>= next).value = (next first.value).value :=
  rfl

@[simp]
theorem notes_bind {α β : Type} (first : Noted α) (next : α → Noted β) :
    (first >>= next).notes = first.notes ++ (next first.value).notes :=
  rfl

@[simp]
theorem value_map {α β : Type} (f : α → β) (x : Noted α) : (f <$> x).value = f x.value := rfl

@[simp]
theorem notes_map {α β : Type} (f : α → β) (x : Noted α) : (f <$> x).notes = x.notes :=
  List.append_nil x.notes

instance : LawfulMonad Noted :=
  LawfulMonad.mk' Noted
    (fun x => by
      cases x
      simp [Functor.map, andThen, quiet])
    (fun _ _ => by simp [Bind.bind, Pure.pure, andThen, quiet])
    (fun _ _ _ => by simp [Bind.bind, andThen])

/-- Leaves one note. -/
def note (property message : String) : Noted Unit :=
  ⟨(), [⟨property, message⟩]⟩

/-- One value after another. -/
def traverse {α β : Type} (f : α → Noted β) : List α → Noted (List β)
  | [] => quiet []
  | x :: xs => do
    let y ← f x
    let ys ← traverse f xs
    return y :: ys

theorem value_traverse {α β : Type} (f : α → Noted β) (xs : List α) :
    (traverse f xs).value = xs.map fun x => (f x).value := by
  induction xs with
  | nil => rfl
  | cons x xs ih => simp [traverse, ih]

theorem notes_traverse {α β : Type} (f : α → Noted β) (xs : List α) :
    (traverse f xs).notes = xs.flatMap fun x => (f x).notes := by
  induction xs with
  | nil => rfl
  | cons x xs ih => simp [traverse, ih]

/-- The values of those that have one, in order. -/
def select {α β : Type} (f : α → Noted (Option β)) (xs : List α) : Noted (List β) := do
  let found ← traverse f xs
  return found.filterMap id

theorem value_select {α β : Type} (f : α → Noted (Option β)) (xs : List α) :
    (select f xs).value = xs.filterMap fun x => (f x).value := by
  simp [select, value_traverse, List.filterMap_map]

theorem notes_select {α β : Type} (f : α → Noted (Option β)) (xs : List α) :
    (select f xs).notes = xs.flatMap fun x => (f x).notes := by
  simp [select, notes_traverse]

end Noted

end FactoryMigration
