import FactoryMigration.Text.Blank
import FactoryMigration.Text.Count
import FactoryMigration.Text.Segment

set_option autoImplicit false

/-! # Durations

A duration is written hours, minutes and seconds with colons between them, and a timeout may have
days and a point in front. The result is in seconds and stays below `2 ^ 64`. -/

namespace FactoryMigration.Duration

def secondsPerDay : Nat := 86400

/-- The seconds of a clock text `H:M:S`; hours have no bound of their own. -/
def ofClock? (cs : List Char) : Option Nat :=
  match Text.segments ':' (Text.trim cs) with
  | [hours, minutes, seconds] => do
    let h ← Text.count? Text.limit64 hours
    let m ← Text.count? Text.limit64 minutes
    let s ← Text.count? Text.limit64 seconds
    if m < 60 ∧ s < 60 then some (h * 3600 + m * 60 + s) |>.filter (· < Text.limit64) else none
  | _ => none

/-- The seconds of a timeout `H:M:S` or `D.H:M:S`; after a number of days the clock stays below a
day. -/
def ofTimeout? (cs : List Char) : Option Nat :=
  match Text.cutFirst '.' (Text.trim cs) with
  | none => ofClock? (Text.trim cs)
  | some (days, clock) => do
    let d ← Text.count? Text.limit64 days
    let s ← ofClock? clock
    if s < secondsPerDay then some (d * secondsPerDay + s) |>.filter (· < Text.limit64) else none

end FactoryMigration.Duration
