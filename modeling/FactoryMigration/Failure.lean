import FactoryMigration.Json.Basic

set_option autoImplicit false

/-! # What cannot be done

An obstacle is a value without counterpart, with the reason; the activity that meets one is replaced
by a placeholder. A failure ends the whole conversion, unless it can be contained in a branch. -/

namespace FactoryMigration

/-- A value that has no counterpart in a job, and why. -/
structure Obstacle where
  value : Json
  message : String

namespace Obstacle

/-- The same reason, found with a larger value. -/
def within (obstacle : Obstacle) (value : Json) : Obstacle :=
  { obstacle with value := value }

/-- The reason with a wider one in front of it. -/
def context (obstacle : Obstacle) (wider : String) : Obstacle :=
  { obstacle with message := wider ++ "; " ++ obstacle.message }

end Obstacle

/-- Why a conversion or a preparation ends. -/
inductive Failure where
  | ambiguousDependency (activity : String) (count : Nat)
  | unmatchedExpression (activity expression : String)
  | untranslatable (activity message : String)
  | unresolvedLinkedService (dataset reason : String)
  | unsupportedSinkFormat (format : String)
  | unsupportedSourceFormat (format : String)
  | template (name message : String)
  | invalidDocument (message : String)
deriving DecidableEq

namespace Failure

/-- The report of a failure. -/
def message : Failure → String
  | ambiguousDependency activity count =>
    "Dependency on '" ++ activity ++ "' has " ++ toString count
      ++ " outcome conditions; only one is supported"
  | unmatchedExpression activity expression =>
    "Could not match expression '" ++ expression ++ "' in activity '" ++ activity ++ "'"
  | untranslatable activity message =>
    "Could not translate activity '" ++ activity ++ "': " ++ message
  | unresolvedLinkedService dataset reason =>
    "Dataset '" ++ dataset ++ "' has no usable linked service: " ++ reason
  | unsupportedSinkFormat format => "Writing data to '" ++ format ++ "' is not supported"
  | unsupportedSourceFormat format => "Reading data from '" ++ format ++ "' is not supported"
  | template name message => "Template '" ++ name ++ "' failed: " ++ message
  | invalidDocument message => "Invalid pipeline document: " ++ message

/-- Whether the failure only arises because placeholders were ruled out. -/
def isStrictViolation : Failure → Bool
  | unmatchedExpression .. | untranslatable .. => true
  | _ => false

/-- Whether a branch may put a placeholder in the place of the activity that failed. -/
def isContainable : Failure → Bool
  | ambiguousDependency .. | unmatchedExpression .. | untranslatable ..
  | unresolvedLinkedService .. => true
  | _ => false

end Failure

/-- A result of two steps comes from a result of the first one. -/
theorem exists_of_bind_eq_ok {ε α β : Type} {first : Except ε α} {next : α → Except ε β} {result : β}
    (h : first >>= next = .ok result) : ∃ value, first = .ok value ∧ next value = .ok result := by
  cases first with
  | error reason => cases h
  | ok value => exact ⟨value, rfl, h⟩

end FactoryMigration
