import FactoryMigration.Diagnostic
import FactoryMigration.Duration
import FactoryMigration.Json.Field

set_option autoImplicit false

/-! # Retry policies

The policy block of an activity becomes the timeout and the retries of its task. What cannot be read
is noted and left out. Policies are remembered under a key that is made from the activity's name and
the text of the block, so that a block which occurs again under the same name leaves its notes only
once. -/

namespace FactoryMigration

/-- Timeout and retries of a task; what is absent is left to the job's defaults. -/
structure Policy where
  timeoutSeconds : Option Nat
  maxRetries : Option Nat
  minRetryIntervalMillis : Option Nat
deriving DecidableEq

namespace Policy

def none : Policy := ⟨.none, .none, .none⟩

/-- Notes a flag that has no counterpart, whatever its value. -/
def noteFlag (block : Json) (key message : String) : Noted Unit :=
  if (block.get? key).isSome then .note key message else .quiet ()

/-- A setting that is read unless it is missing or null; a value that cannot be read is noted. -/
def setting (block : Json) (key : String) (read : Json → Option Nat) (complaint : String → String) :
    Noted (Option Nat) :=
  match block.present? key with
  | .none => .quiet .none
  | some raw =>
    match read raw with
    | some n => .quiet (some n)
    | .none => do
      .note key (complaint raw.scalarText)
      return .none

/-- Reads a policy block. -/
def ofBlock (block : Json) : Noted Policy := do
  noteFlag block "secure_input" "Secure input logging not applicable to Databricks workflows."
  noteFlag block "secure_output" "Secure output logging not applicable to Databricks workflows."
  let timeout ← setting block "timeout"
    (fun raw => raw.asString?.bind (Duration.ofTimeout? ·.toList))
    ("Could not parse timeout '" ++ · ++ "', task will run without one")
  let retries ← setting block "retry"
    (fun _ => (block.count? "retry").filter (· < Text.limit32))
    ("Could not parse retry count '" ++ · ++ "'")
  let interval ← setting block "retry_interval_in_seconds"
    (fun _ => ((block.count? "retry_interval_in_seconds").map (· * 1000)).filter
      (· < Text.limit64))
    ("Could not parse retry interval '" ++ · ++ "'")
  return ⟨timeout, retries, interval⟩

/-- The policies read so far, each under its key. -/
structure Cache where
  entries : List (String × Policy)

namespace Cache

def empty : Cache := ⟨[]⟩

def size (cache : Cache) : Nat := cache.entries.length

/-- The key of a policy block under an activity name: both texts with a zero character between
them. -/
def key (activity : String) (block : Json) : String :=
  activity ++ "\x00" ++ block.compact

/-- The policy of an activity: none without a block, the remembered one if there is one under the key
of the block, else the one read now. -/
def read (cache : Cache) (activity : String) (block : Option Json) : Noted Policy × Cache :=
  match block.filter (!·.isNull) with
  | .none => (.quiet Policy.none, cache)
  | some block =>
    match cache.entries.lookup (key activity block) with
    | some known => (.quiet known, cache)
    | .none =>
      let policy := ofBlock block
      (policy, ⟨(key activity block, policy.value) :: cache.entries⟩)

end Cache

end Policy

end FactoryMigration
