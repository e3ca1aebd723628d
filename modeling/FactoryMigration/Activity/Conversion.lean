import FactoryMigration.Policy
import FactoryMigration.Failure

set_option autoImplicit false

/-! # Conversions

A conversion may fail. Whether it does or not, what it remembered of policies and recorded in the log
is kept. Notes are recorded in the innermost scope of the log; a conversion that opens a scope closes
it on every way out. -/

namespace FactoryMigration

/-- What conversions share: the policies read so far, and the log. -/
structure Memory where
  cache : Policy.Cache
  log : Log

/-- A conversion starts from a memory and ends with a value or a failure, and a memory. -/
def Conversion (α : Type) : Type := Memory → Except Failure α × Memory

namespace Conversion

/-- Ends with a value. -/
def done {α : Type} (value : α) : Conversion α :=
  fun memory => (.ok value, memory)

/-- Goes on after a success; a failure ends the conversion. -/
def andThen {α β : Type} (first : Conversion α) (next : α → Conversion β) : Conversion β :=
  fun memory =>
    match first memory with
    | (.error failure, memory) => (.error failure, memory)
    | (.ok value, memory) => next value memory

instance : Monad Conversion where
  pure := done
  bind := andThen

theorem bind_of_ok {α β : Type} {first : Conversion α} {next : α → Conversion β}
    {before after : Memory} {value : α} (h : first before = (.ok value, after)) :
    (first >>= next) before = next value after := by
  simp [Bind.bind, andThen, h]

theorem bind_of_error {α β : Type} {first : Conversion α} {next : α → Conversion β}
    {before after : Memory} {failure : Failure} (h : first before = (.error failure, after)) :
    (first >>= next) before = (.error failure, after) := by
  simp [Bind.bind, andThen, h]

instance : LawfulMonad Conversion :=
  LawfulMonad.mk' Conversion
    (fun x => by
      funext memory
      simp only [Functor.map, andThen, done, Function.comp]
      rcases x memory with ⟨_ | _, _⟩ <;> rfl)
    (fun _ _ => rfl)
    (fun x f g => by
      funext memory
      simp only [Bind.bind, andThen]
      rcases x memory with ⟨_ | _, _⟩ <;> rfl)

/-- Ends with a failure. -/
def fail {α : Type} (failure : Failure) : Conversion α :=
  fun memory => (.error failure, memory)

/-- Ends as a result says. -/
def ofExcept {α : Type} (result : Except Failure α) : Conversion α :=
  fun memory => (result, memory)

/-- Records notes in the innermost scope. -/
def record (notes : List Note) : Conversion Unit :=
  fun memory => (.ok (), { memory with log := memory.log.record notes })

/-- Takes a value and records its notes. -/
def ofNoted {α : Type} (noted : Noted α) : Conversion α := do
  record noted.notes
  return noted.value

theorem ofNoted_apply {α : Type} (noted : Noted α) (memory : Memory) :
    ofNoted noted memory
      = (.ok noted.value, { memory with log := memory.log.record noted.notes }) :=
  rfl

/-- Opens a scope for a conversion and closes it afterwards, also if the conversion failed. -/
def inScope {α : Type} (scope : Scope) (body : Conversion α) : Conversion α :=
  fun memory =>
    let (result, after) := body { memory with log := memory.log.enter scope }
    (result, { after with log := after.log.exit })

/-- Reads a policy under an activity name, or remembers it. -/
def policy (name : String) (block : Option Json) : Conversion Policy :=
  fun memory =>
    let (policy, cache) := memory.cache.read name block
    ofNoted policy { memory with cache := cache }

/-- Puts another conversion after a failure, if there is one for it. -/
def recover {α : Type} (first : Conversion α) (handle : Failure → Option (Conversion α)) :
    Conversion α :=
  fun memory =>
    match first memory with
    | (.ok value, memory) => (.ok value, memory)
    | (.error failure, memory) =>
      match handle failure with
      | none => (.error failure, memory)
      | some next => next memory

theorem recover_of_ok {α : Type} {first : Conversion α} {before after : Memory} {value : α}
    (h : first before = (.ok value, after)) (handle : Failure → Option (Conversion α)) :
    recover first handle before = (.ok value, after) := by
  simp [recover, h]

theorem recover_of_none {α : Type} {first : Conversion α} {handle : Failure → Option (Conversion α)}
    {before after : Memory} {failure : Failure} (h : first before = (.error failure, after))
    (hhandle : handle failure = none) : recover first handle before = (.error failure, after) := by
  simp [recover, h, hhandle]

theorem recover_of_some {α : Type} {first next : Conversion α}
    {handle : Failure → Option (Conversion α)} {before after : Memory} {failure : Failure}
    (h : first before = (.error failure, after)) (hhandle : handle failure = some next) :
    recover first handle before = next after := by
  simp [recover, h, hhandle]

/-- One value after another, up to the first failure. -/
def traverse {α β : Type} (f : α → Conversion β) : List α → Conversion (List β)
  | [] => done []
  | x :: xs => do
    let y ← f x
    let ys ← traverse f xs
    return y :: ys

theorem traverse_map {α β γ : Type} (f : β → Conversion γ) (g : α → β) (xs : List α) :
    traverse f (xs.map g) = traverse (fun x => f (g x)) xs := by
  induction xs with
  | nil => rfl
  | cons x xs ih => simp only [List.map_cons, traverse, ih]

/-- The items of a list with the proofs that they are in it are traversed like the list. -/
theorem traverse_attach {α β : Type} (f : α → Conversion β) (xs : List α) :
    traverse (fun x : { x // x ∈ xs } => f x.1) xs.attach = traverse f xs := by
  rw [← traverse_map f (fun x : { x // x ∈ xs } => x.1), List.attach_map_subtype_val]

end Conversion

end FactoryMigration
