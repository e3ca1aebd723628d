import FactoryMigration.Failure
import FactoryMigration.Text.Blank
import FactoryMigration.Text.Segment

set_option autoImplicit false

/-! # Conditions

A condition compares two operands: it is a call such as the one of `equals`, written head, left
operand, comma, right operand and closer. What follows the closer is not read. Operands are not
empty and stay on their line; blanks after the comma may break lines. Of all ways to cut the call
up, the left operand is as long as possible, then the blanks after the comma, then the right
operand. -/

namespace FactoryMigration

/-- How a condition task compares its operands. -/
inductive Comparison where
  | equal
  | greater
  | greaterOrEqual
  | less
  | lessOrEqual
  | notEqual
deriving DecidableEq

namespace Comparison

/-- All comparisons, in the order in which their calls are tried. -/
def all : List Comparison :=
  [equal, greater, greaterOrEqual, less, lessOrEqual, notEqual]

/-- The name of the comparison in a condition task. -/
def name : Comparison → String
  | equal => "EQUAL_TO"
  | greater => "GREATER_THAN"
  | greaterOrEqual => "GREATER_THAN_OR_EQUAL"
  | less => "LESS_THAN"
  | lessOrEqual => "LESS_THAN_OR_EQUAL"
  | notEqual => "NOT_EQUAL"

/-- What the call begins with. -/
def head : Comparison → String
  | equal => "@equals("
  | greater => "@greater("
  | greaterOrEqual => "@greaterOrEquals("
  | less => "@less("
  | lessOrEqual => "@lessOrEquals("
  | notEqual => "@not(equals("

/-- What the call ends with. -/
def closer : Comparison → String
  | notEqual => "))"
  | _ => ")"

end Comparison

/-- A comparison of two operands. -/
structure Condition where
  op : Comparison
  left : String
  right : String
deriving DecidableEq

namespace Expression

/-- The longest text on the line that `closer` follows; it may be empty. -/
def longestBefore (closer : List Char) : List Char → Option (List Char)
  | [] => if closer = [] then some [] else none
  | c :: rest =>
    let here := if (Text.afterStart closer (c :: rest)).isSome then some [] else none
    -- A longer text wins over the empty one that ends here.
    if c = '\n' then here
    else match longestBefore closer rest with
      | some operand => some (c :: operand)
      | none => here

/-- The longest text of at least one character on the line that `closer` follows. -/
def operandBefore (closer : List Char) : List Char → Option (List Char)
  | [] => none
  | c :: rest => if c = '\n' then none else (longestBefore closer rest).map (c :: ·)

/-- The right operand, after as many blanks as leave one. -/
def rightOperand (closer : List Char) : List Char → Option (List Char)
  | [] => none
  | c :: rest =>
    -- The blank is given back to the operand only if nothing can be read without it.
    if Text.isBlank c then
      match rightOperand closer rest with
      | some operand => some operand
      | none => operandBefore closer (c :: rest)
    else operandBefore closer (c :: rest)

/-- Both operands, the left one as long as possible; it may be empty. -/
def operandsFrom (closer : List Char) : List Char → Option (List Char × List Char)
  | [] => none
  | c :: rest =>
    let here := if c = ',' then (rightOperand closer rest).map ([], ·) else none
    if c = '\n' then none
    else match operandsFrom closer rest with
      | some (left, right) => some (c :: left, right)
      | none => here

/-- Both operands, the left one with at least one character. -/
def operands (closer : List Char) : List Char → Option (List Char × List Char)
  | [] => none
  | c :: rest =>
    if c = '\n' then none
    else (operandsFrom closer rest).map fun (left, right) => (c :: left, right)

/-- Drops the quotes of an operand, wherever they stand. -/
def dropQuotes (cs : List Char) : List Char :=
  cs.filter fun c => c ≠ '"' ∧ c ≠ '\''

/-- The text of an operand: without outer blanks, then without quotes. -/
def operandText (cs : List Char) : String :=
  String.ofList (dropQuotes (Text.trim cs))

end Expression

namespace Condition

/-- Reads the call of one comparison. -/
def ofCall? (op : Comparison) (cs : List Char) : Option Condition := do
  let body ← Text.afterStart op.head.toList cs
  let (left, right) ← Expression.operands op.closer.toList body
  return ⟨op, Expression.operandText left, Expression.operandText right⟩

/-- Reads a condition, with blanks around it. -/
def parse (text : String) : Except Obstacle Condition :=
  let cs := Text.trim text.toList
  match Comparison.all.findSome? (ofCall? · cs) with
  | some condition => .ok condition
  | none =>
    let trimmed := String.ofList cs
    .error ⟨.str trimmed, "Unsupported conditional expression '" ++ trimmed ++ "'"⟩

end Condition

end FactoryMigration
