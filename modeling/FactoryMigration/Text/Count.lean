set_option autoImplicit false

/-! # Decimal counts

A count is written with ASCII digits, after at most one plus sign, and stays below a limit that
depends on where it is stored. -/

namespace FactoryMigration.Text

/-- The number of values of a 32-bit count. -/
def limit32 : Nat := 4294967296

/-- The number of values of a 64-bit count. -/
def limit64 : Nat := 18446744073709551616

/-- The value of an ASCII digit; only used behind `Char.isDigit`. -/
def digitValue (c : Char) : Nat :=
  c.toNat - '0'.toNat

/-- The number that a row of digits writes. -/
def ofDigits (cs : List Char) : Nat :=
  cs.foldl (fun n c => 10 * n + digitValue c) 0

/-- Reads one or more ASCII digits, and nothing else. -/
def digits? (cs : List Char) : Option Nat :=
  if cs ≠ [] ∧ cs.all Char.isDigit then some (ofDigits cs) else none

/-- Reads a count: an optional plus sign, then digits whose value stays below `limit`. -/
def count? (limit : Nat) (cs : List Char) : Option Nat :=
  let read := match cs with
    | '+' :: rest => digits? rest
    | _ => digits? cs
  read.filter (· < limit)

end FactoryMigration.Text
