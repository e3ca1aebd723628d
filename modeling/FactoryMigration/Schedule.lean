import FactoryMigration.Diagnostic
import FactoryMigration.Json.Field

set_option autoImplicit false

/-! # Schedules

A trigger's recurrence becomes a quartz cron expression: second, minute, hour, day of month, month
and day of week, with blanks between them. Times are in UTC. -/

namespace FactoryMigration

/-- When a job runs. -/
structure Schedule where
  cron : String
  timezone : String
deriving DecidableEq

/-- The unit of a recurrence. -/
inductive Frequency where
  | hour
  | day
  | week
  | month
deriving DecidableEq

namespace Schedule

/-- Lower case for ASCII letters; all other characters stay. -/
def lowerCase (s : String) : String :=
  String.ofList (s.toList.map Char.toLower)

/-- The unit with the given name, in any case of ASCII letters. -/
def frequency? (name : String) : Option Frequency :=
  match lowerCase name with
  | "hour" => some .hour
  | "day" => some .day
  | "week" => some .week
  | "month" => some .month
  | _ => none

/-- The number of a day of the week, Sunday first, in any case of ASCII letters. -/
def weekDayNumber? (name : String) : Option Nat :=
  match lowerCase name with
  | "sunday" => some 1
  | "monday" => some 2
  | "tuesday" => some 3
  | "wednesday" => some 4
  | "thursday" => some 5
  | "friday" => some 6
  | "saturday" => some 7
  | _ => none

/-- The values of a list with commas between them, or zero without any. -/
def numberList (times : Json) (key : String) : String :=
  match times.items key with
  | [] => "0"
  | values => Text.joinWith "," (values.map Json.scalarText)

/-- The number of one day of the week; a name that is none is noted. -/
def weekDay (day : Json) : Noted (Option String) :=
  match weekDayNumber? day.scalarText with
  | some number => .quiet (some (toString number))
  | none =>
    ⟨none, [⟨"schedule.week_days",
      "Unknown week day '" ++ day.scalarText ++ "' dropped from schedule"⟩]⟩

/-- The days of the week by number with commas between them, or Sunday without any. -/
def weekDays (times : Json) : Noted String := do
  let numbers ← Noted.select weekDay (times.items "week_days")
  return if numbers.isEmpty then "1" else Text.joinWith "," numbers

/-- The interval of a recurrence; one that is missing, zero or unreadable counts as one. -/
def interval (recurrence : Json) : Noted Nat :=
  match (recurrence.count? "interval").filter (0 < ·) with
  | some n => .quiet n
  | none => ⟨1, [⟨"schedule.num_intervals", "Setting empty \"num_intervals\" to \"1\" by default"⟩]⟩

/-- Notes an interval that a unit cannot keep. -/
def noteIgnoredInterval (n : Nat) (message : String) : Noted Unit :=
  if 1 < n then .note "schedule.num_intervals" message else .quiet ()

/-- The cron expression of a recurrence, unless its unit is unknown. -/
def cronExpression (recurrence : Json) : Noted (Option String) := do
  let name := (recurrence.text? "frequency").getD ""
  match frequency? name with
  | none =>
    .note "schedule.frequency"
      ("Unsupported trigger frequency '" ++ name ++ "'; the job will not be scheduled")
    return none
  | some frequency =>
    let n ← interval recurrence
    let times := recurrence.getD "schedule"
    let clock := "0 " ++ numberList times "minutes" ++ " " ++ numberList times "hours" ++ " "
    match frequency with
    | .hour => return some ("0 0 */" ++ toString n ++ " * * ?")
    | .day => return some (clock ++ "*/" ++ toString n ++ " * ?")
    | .week =>
      noteIgnoredInterval n
        "Ignoring \"num_intervals\" > 1 for weekly triggers; Using weekly interval"
      let days ← weekDays times
      return some (clock ++ "? * " ++ days)
    | .month =>
      noteIgnoredInterval n
        "Ignoring \"num_intervals\" > 1 for monthly triggers; Using monthly interval"
      return some (clock ++ numberList times "days" ++ " * ?")

/-- The schedule of a trigger definition. -/
def ofTrigger (trigger : Json) : Noted (Option Schedule) := do
  match ((trigger.get? "properties").bind (·.get? "recurrence")).filter Json.isObject with
  | none =>
    .note "trigger.recurrence" "Trigger has no recurrence; the job will not be scheduled"
    return none
  | some recurrence =>
    let cron ← cronExpression recurrence
    return cron.map fun cron => ⟨cron, "UTC"⟩

end Schedule

end FactoryMigration
