import FactoryMigration.Proofs.KeySegments
import FactoryMigration.Proofs.WeekDays

set_option autoImplicit false

/-! # Fields of cron expressions

A cron expression has six fields, each with values in a range of its own, and leaves exactly one of
its two fields for days open. The expression of a regular recurrence always has such fields. Their
values are in range unless hours or days go by a step that is longer than the field, or a month lists
no days, which puts a zero in the place of a day (`Schedule.cronExpression_inRange_iff`). -/

namespace FactoryMigration

namespace Text

theorem digits?_toDigits (n : Nat) : digits? (Nat.toDigits 10 n) = some n := by
  rw [digits?_of_isDigit Nat.toDigits_ne_nil fun _ => isDigit_of_mem_toDigits, ofDigits_toDigits]

theorem not_mem_toDigits {c : Char} (h : c.isDigit = false) (n : Nat) : c ∉ Nat.toDigits 10 n := by
  intro hmem
  rw [isDigit_of_mem_toDigits hmem] at h
  cases h

end Text

/-! ## Fields -/

namespace Cron

/-- The least and the greatest value of a field. -/
structure Range where
  least : Nat
  greatest : Nat
deriving DecidableEq

namespace Range

/-- Seconds and minutes. -/
def sixty : Range := ⟨0, 59⟩

def hour : Range := ⟨0, 23⟩

/-- Days of a month. -/
def day : Range := ⟨1, 31⟩

def month : Range := ⟨1, 12⟩

/-- Days of a week, Sunday first. -/
def weekDay : Range := ⟨1, 7⟩

/-- The number is in the range. -/
def Has (range : Range) (n : Nat) : Prop :=
  range.least ≤ n ∧ n ≤ range.greatest

instance (range : Range) (n : Nat) : Decidable (range.Has n) :=
  inferInstanceAs (Decidable (_ ∧ _))

/-- The steps through a range: at least one, and no longer than the greatest value. -/
def steps (range : Range) : Range := ⟨1, range.greatest⟩

/-- Whether the text is a number of the range in digits. -/
def isNumber (range : Range) (text : List Char) : Bool :=
  (Text.digits? text).any fun n => range.Has n

/-- Whether a field of the range may have the text: a star for all values, a star with a step, or
numbers with commas between them. -/
def allows (range : Range) : List Char → Bool
  | ['*'] => true
  | '*' :: '/' :: step => range.steps.isNumber step
  | text => (Text.segments ',' text).all range.isNumber

end Range

/-- The fields of a cron expression. -/
structure Fields where
  second : List Char
  minute : List Char
  hour : List Char
  day : List Char
  month : List Char
  weekDay : List Char
deriving DecidableEq

/-- Reads the fields of a cron expression: six, with one blank between neighbours. -/
def fields? (cron : String) : Option Fields :=
  match Text.segments ' ' cron.toList with
  | [second, minute, hour, day, month, weekDay] => some ⟨second, minute, hour, day, month, weekDay⟩
  | _ => none

/-- A field for all values. -/
def anyValue : List Char := ['*']

/-- A field for days that leaves them to the other one. -/
def openDay : List Char := ['?']

namespace Fields

/-- Exactly one of the fields for days is open. -/
def OneDayOpen (fields : Fields) : Prop :=
  fields.day = openDay ↔ fields.weekDay ≠ openDay

instance (fields : Fields) : Decidable fields.OneDayOpen :=
  inferInstanceAs (Decidable (_ ↔ _))

/-- All numbers and steps are in the ranges of their fields. -/
structure InRange (fields : Fields) : Prop where
  second : Range.sixty.allows fields.second = true
  minute : Range.sixty.allows fields.minute = true
  hour : Range.hour.allows fields.hour = true
  day : fields.day = openDay ∨ Range.day.allows fields.day = true
  month : Range.month.allows fields.month = true
  weekDay : fields.weekDay = openDay ∨ Range.weekDay.allows fields.weekDay = true

/-- The fields with blanks between them. -/
def text (fields : Fields) : List Char :=
  Text.join [' '] [fields.second, fields.minute, fields.hour, fields.day, fields.month,
    fields.weekDay]

/-- No field has a blank in it. -/
structure Unbroken (fields : Fields) : Prop where
  second : ' ' ∉ fields.second
  minute : ' ' ∉ fields.minute
  hour : ' ' ∉ fields.hour
  day : ' ' ∉ fields.day
  month : ' ' ∉ fields.month
  weekDay : ' ' ∉ fields.weekDay

theorem fields?_text {fields : Fields} (h : fields.Unbroken) :
    fields? (String.ofList fields.text) = some fields := by
  unfold fields? text
  rw [String.toList_ofList, Text.segments_join (List.cons_ne_nil _ _)]
  simp [h.second, h.minute, h.hour, h.day, h.month, h.weekDay]

end Fields

/-! ## Texts of fields -/

/-- Numbers with commas between them. -/
def numbersText (numbers : List Nat) : List Char :=
  Text.join [','] (numbers.map (Nat.toDigits 10))

/-- All values of a field by a step. -/
def stepText (n : Nat) : List Char :=
  '*' :: '/' :: Nat.toDigits 10 n

theorem isNumber_toDigits (range : Range) (n : Nat) :
    range.isNumber (Nat.toDigits 10 n) = true ↔ range.Has n := by
  rw [Range.isNumber, Text.digits?_toDigits, Option.any_some, decide_eq_true_eq]

theorem allows_stepText (range : Range) (n : Nat) :
    range.allows (stepText n) = true ↔ range.steps.Has n := by
  rw [← isNumber_toDigits]
  rfl

theorem not_mem_numbersText {c : Char} (hdigit : c.isDigit = false) (hcomma : c ≠ ',')
    (numbers : List Nat) : c ∉ numbersText numbers := by
  refine Text.not_mem_join (by simpa using hcomma) ?_
  simp only [List.forall_mem_map]
  exact fun n _ => Text.not_mem_toDigits hdigit n

theorem blank_not_mem_numbersText (numbers : List Nat) : ' ' ∉ numbersText numbers :=
  not_mem_numbersText rfl (by decide) numbers

theorem blank_not_mem_stepText (n : Nat) : ' ' ∉ stepText n := by
  simp [stepText, Text.not_mem_toDigits (show ' '.isDigit = false from rfl) n]

theorem blank_not_mem_anyValue : ' ' ∉ anyValue := by decide

theorem blank_not_mem_openDay : ' ' ∉ openDay := by decide

theorem numbersText_ne_openDay (numbers : List Nat) : numbersText numbers ≠ openDay := by
  intro h
  have hmem : '?' ∈ numbersText numbers := by
    rw [h]
    decide
  exact not_mem_numbersText rfl (by decide) numbers hmem

theorem segments_numbersText {numbers : List Nat} (hne : numbers ≠ []) :
    Text.segments ',' (numbersText numbers) = numbers.map (Nat.toDigits 10) := by
  refine Text.segments_join (by simpa using hne) ?_
  simp only [List.forall_mem_map]
  exact fun n _ => Text.not_mem_toDigits rfl n

/-- Numbers may stand in a field exactly if all of them are in its range. -/
theorem allows_numbersText {numbers : List Nat} (hne : numbers ≠ []) (range : Range) :
    range.allows (numbersText numbers) = true ↔ ∀ n ∈ numbers, range.Has n := by
  have hstar : '*' ∉ numbersText numbers := not_mem_numbersText rfl (by decide) numbers
  have hallows : range.allows (numbersText numbers)
      = (Text.segments ',' (numbersText numbers)).all range.isNumber := by
    unfold Range.allows
    split
    · rename_i h
      simp [h] at hstar
    · rename_i h
      simp [h] at hstar
    · rfl
  rw [hallows, segments_numbersText hne]
  simp only [List.all_map, List.all_eq_true, Function.comp, isNumber_toDigits]

end Cron

/-! ## Regular recurrences -/

namespace Schedule

open Cron

/-- An integer of the range. -/
def IsValue (range : Range) (value : Json) : Prop :=
  ∃ n : Nat, value = .num (.int n) ∧ range.Has n

/-- A recurrence with a unit, an interval of one or more, and lists of values that have their places in
a clock, a month or a week. A list may be missing or empty. -/
structure IsRegular (recurrence : Json) (frequency : Frequency) (n : Nat) : Prop where
  frequency : (recurrence.text? "frequency").bind frequency? = some frequency
  interval : recurrence.count? "interval" = some n
  pos : 0 < n
  minutes : ∀ value ∈ (recurrence.getD "schedule").items "minutes", IsValue .sixty value
  hours : ∀ value ∈ (recurrence.getD "schedule").items "hours", IsValue .hour value
  days : ∀ value ∈ (recurrence.getD "schedule").items "days", IsValue .day value
  weekDays : ∀ value ∈ (recurrence.getD "schedule").items "week_days",
    ∃ name, value = .str name ∧ (weekDayNumber? name).isSome

/-- The numbers of a field: those of a list, or one number if the list is empty. -/
def orDefault (default : Nat) (numbers : List Nat) : List Nat :=
  if numbers = [] then [default] else numbers

theorem orDefault_ne_nil (default : Nat) (numbers : List Nat) : orDefault default numbers ≠ [] := by
  unfold orDefault
  split
  · exact List.cons_ne_nil _ _
  · assumption

theorem forall_mem_orDefault {p : Nat → Prop} {default : Nat} {numbers : List Nat}
    (h : ∀ n ∈ numbers, p n) : (∀ n ∈ orDefault default numbers, p n) ↔ numbers = [] → p default := by
  unfold orDefault
  split
  · simp [*]
  · simp_all

/-- Numbers of the range may stand in a field, and so may the default if it is in the range too. -/
theorem allows_orDefault {range : Range} {default : Nat} {numbers : List Nat}
    (h : ∀ n ∈ numbers, range.Has n) :
    range.allows (numbersText (orDefault default numbers)) = true ↔
      (numbers = [] → range.Has default) := by
  rw [allows_numbersText (orDefault_ne_nil _ _), forall_mem_orDefault h]

theorem exists_numbers {range : Range} {values : List Json}
    (h : ∀ value ∈ values, IsValue range value) :
    ∃ numbers : List Nat, values = numbers.map (fun n : Nat => .num (.int n)) ∧
      ∀ n ∈ numbers, range.Has n := by
  induction values with
  | nil => exact ⟨[], rfl, nofun⟩
  | cons value rest ih =>
    obtain ⟨⟨n, rfl, hn⟩, hrest⟩ := List.forall_mem_cons.mp h
    obtain ⟨numbers, rfl, hnumbers⟩ := ih hrest
    exact ⟨n :: numbers, rfl, List.forall_mem_cons.mpr ⟨hn, hnumbers⟩⟩

theorem toList_scalarText_int (n : Nat) :
    (Json.num (.int n)).scalarText.toList = Nat.toDigits 10 n := by
  have hnumber : (Json.num (.int n)).scalarText = (Number.int n).text := by
    simp [Json.scalarText, Json.compact]
  rw [hnumber, Number.toList_text_int, if_pos (Int.natCast_nonneg n), List.nil_append, Int.natAbs_natCast]

theorem toList_numberList {times : Json} {key : String} {numbers : List Nat}
    (h : times.items key = numbers.map fun n : Nat => .num (.int n)) :
    (numberList times key).toList = numbersText (orDefault 0 numbers) := by
  unfold numberList
  rw [h]
  cases numbers with
  | nil => rfl
  | cons first rest =>
    show (Text.joinWith "," (((first :: rest).map fun n : Nat => Json.num (.int n)).map
      Json.scalarText)).toList = numbersText (first :: rest)
    rw [Text.toList_joinWith, List.map_map, List.map_map, numbersText]
    congr 1
    exact List.map_congr_left fun n _ => toList_scalarText_int n

theorem SortsDays.inRange {days : List Json} {numbers : List Nat} {others : List Json}
    (h : SortsDays days numbers others) : ∀ n ∈ numbers, Range.weekDay.Has n := by
  have hnames : ∀ entry ∈ weekDayNames, Range.weekDay.Has entry.1 := by decide
  induction h with
  | nil => exact nofun
  | named h hrest ih =>
    obtain ⟨-, -, entry, hentry, rfl, -⟩ := h
    exact List.forall_mem_cons.mpr ⟨hnames entry hentry, ih⟩
  | other h hrest ih => exact ih

/-- The days of a week are written by the numbers of those that are named. -/
theorem exists_weekDays (times : Json) :
    ∃ numbers others, SortsDays (times.items "week_days") numbers others ∧
      (weekDays times).value.toList = numbersText (orDefault 1 numbers) ∧
      (weekDays times).notes = others.map unknownDay := by
  obtain ⟨numbers, others, hsorts, hvalue, hnotes⟩ := exists_sortsDays (times.items "week_days")
  refine ⟨numbers, others, hsorts, ?_, ?_⟩
  · rw [weekDays, Noted.value_bind, Noted.value_pure, hvalue]
    cases numbers with
    | nil => rfl
    | cons first rest =>
      show (Text.joinWith "," ((first :: rest).map toString)).toList = numbersText (first :: rest)
      rw [Text.toList_joinWith, List.map_map, numbersText]
      congr 1
      exact List.map_congr_left fun n _ => Nat.toList_repr
  · rw [weekDays, Noted.notes_bind, Noted.notes_pure, List.append_nil, hnotes]

/-! ## Expressions -/

/-- The fields that the expression of a recurrence is written with. Listed values stand in them as they
are, so that they need not be numbers and may have blanks. -/
def writtenFields (recurrence : Json) (frequency : Frequency) : Fields :=
  let times := recurrence.getD "schedule"
  let zero := numbersText [0]
  let step := stepText (interval recurrence).value
  let minutes := (numberList times "minutes").toList
  let hours := (numberList times "hours").toList
  match frequency with
  | .hour => ⟨zero, zero, step, anyValue, anyValue, openDay⟩
  | .day => ⟨zero, minutes, hours, step, anyValue, openDay⟩
  | .week => ⟨zero, minutes, hours, openDay, anyValue, (weekDays times).value.toList⟩
  | .month => ⟨zero, minutes, hours, (numberList times "days").toList, anyValue, openDay⟩

theorem value_cronExpression {recurrence : Json} {frequency : Frequency}
    (h : (recurrence.text? "frequency").bind frequency? = some frequency) :
    (cronExpression recurrence).value
      = some (String.ofList (writtenFields recurrence frequency).text) := by
  obtain ⟨name, hname, hfrequency⟩ := Option.bind_eq_some_iff.mp h
  have hzero : numbersText [0] = ['0'] := rfl
  unfold cronExpression
  simp only [hname, Option.getD_some, hfrequency, Noted.value_bind]
  cases frequency <;>
    · refine congrArg some (String.toList_inj.mp ?_)
      simp [writtenFields, Fields.text, Text.join, hzero, stepText, anyValue, openDay]

/-- The values that a recurrence gives for a clock, a month and a week. -/
structure Times where
  minutes : List Nat
  hours : List Nat
  days : List Nat
  weekDays : List Nat

/-- The values have their places in a clock, a month and a week. -/
structure Times.InRange (times : Times) : Prop where
  minutes : ∀ n ∈ times.minutes, Range.sixty.Has n
  hours : ∀ n ∈ times.hours, Range.hour.Has n
  days : ∀ n ∈ times.days, Range.day.Has n
  weekDays : ∀ n ∈ times.weekDays, Range.weekDay.Has n

/-- The fields of the expression of a unit and its interval. -/
def fieldsOf (frequency : Frequency) (n : Nat) (times : Times) : Fields :=
  let zero := numbersText [0]
  let minutes := numbersText (orDefault 0 times.minutes)
  let hours := numbersText (orDefault 0 times.hours)
  match frequency with
  | .hour => ⟨zero, zero, stepText n, anyValue, anyValue, openDay⟩
  | .day => ⟨zero, minutes, hours, stepText n, anyValue, openDay⟩
  | .week => ⟨zero, minutes, hours, openDay, anyValue, numbersText (orDefault 1 times.weekDays)⟩
  | .month => ⟨zero, minutes, hours, numbersText (orDefault 0 times.days), anyValue, openDay⟩

/-- The expression of a regular recurrence has the fields of its unit. -/
theorem exists_times_of_isRegular {recurrence : Json} {frequency : Frequency} {n : Nat}
    (h : IsRegular recurrence frequency n) :
    ∃ times : Times, times.InRange ∧
      (times.days = [] ↔ (recurrence.getD "schedule").items "days" = []) ∧
      (cronExpression recurrence).value = some (String.ofList (fieldsOf frequency n times).text) := by
  obtain ⟨minutes, hminutes, hminutesIn⟩ := exists_numbers h.minutes
  obtain ⟨hours, hhours, hhoursIn⟩ := exists_numbers h.hours
  obtain ⟨days, hdays, hdaysIn⟩ := exists_numbers h.days
  obtain ⟨weekDays, _, hsorts, hweekDays, -⟩ := exists_weekDays (recurrence.getD "schedule")
  refine ⟨⟨minutes, hours, days, weekDays⟩, ⟨hminutesIn, hhoursIn, hdaysIn, hsorts.inRange⟩, ?_, ?_⟩
  · rw [hdays, List.map_eq_nil_iff]
  · have hinterval : (interval recurrence).value = n := by
      simp [interval, h.interval, Option.filter_some, h.pos, Noted.quiet]
    have hfields : writtenFields recurrence frequency
        = fieldsOf frequency n ⟨minutes, hours, days, weekDays⟩ := by
      cases frequency <;>
        simp only [writtenFields, fieldsOf, hinterval, toList_numberList hminutes,
          toList_numberList hhours, toList_numberList hdays, hweekDays]
    rw [value_cronExpression h.frequency, hfields]

/-- A month without days has a zero in the place of a day. -/
theorem day_fieldsOf_month (n : Nat) {times : Times} (h : times.days = []) :
    (fieldsOf .month n times).day = numbersText [0] := by
  show numbersText (orDefault 0 times.days) = numbersText [0]
  rw [h, orDefault, if_pos rfl]

theorem unbroken_fieldsOf (frequency : Frequency) (n : Nat) (times : Times) :
    (fieldsOf frequency n times).Unbroken := by
  have hnumbers := blank_not_mem_numbersText
  have hstep := blank_not_mem_stepText n
  have hany := blank_not_mem_anyValue
  have hopen := blank_not_mem_openDay
  cases frequency with
  | hour => exact ⟨hnumbers _, hnumbers _, hstep, hany, hany, hopen⟩
  | day => exact ⟨hnumbers _, hnumbers _, hnumbers _, hstep, hany, hopen⟩
  | week => exact ⟨hnumbers _, hnumbers _, hnumbers _, hopen, hany, hnumbers _⟩
  | month => exact ⟨hnumbers _, hnumbers _, hnumbers _, hnumbers _, hany, hopen⟩

theorem oneDayOpen_fieldsOf (frequency : Frequency) (n : Nat) (times : Times) :
    (fieldsOf frequency n times).OneDayOpen := by
  cases frequency with
  | hour => simp [fieldsOf, Fields.OneDayOpen, anyValue, openDay]
  | day => simp [fieldsOf, Fields.OneDayOpen, stepText, openDay]
  | week => simp [fieldsOf, Fields.OneDayOpen, numbersText_ne_openDay]
  | month => simp [fieldsOf, Fields.OneDayOpen, numbersText_ne_openDay]

/-- An interval that is no step through the hours or the days, or a month without days, puts a value
out of range, and nothing else does. -/
theorem inRange_fieldsOf_iff {times : Times} (htimes : times.InRange) (frequency : Frequency) {n : Nat}
    (hpos : 0 < n) :
    (fieldsOf frequency n times).InRange ↔
      (frequency = .hour → n ≤ 23) ∧ (frequency = .day → n ≤ 31) ∧
        (frequency = .month → times.days ≠ []) := by
  have hzero : Range.sixty.allows (numbersText [0]) = true := by decide
  have hany (range : Range) : range.allows anyValue = true := rfl
  have hminutes : Range.sixty.allows (numbersText (orDefault 0 times.minutes)) = true :=
    (allows_orDefault htimes.minutes).mpr fun _ => by decide
  have hhours : Range.hour.allows (numbersText (orDefault 0 times.hours)) = true :=
    (allows_orDefault htimes.hours).mpr fun _ => by decide
  have hweekDays : Range.weekDay.allows (numbersText (orDefault 1 times.weekDays)) = true :=
    (allows_orDefault htimes.weekDays).mpr fun _ => by decide
  have hdays : Range.day.allows (numbersText (orDefault 0 times.days)) = true ↔ times.days ≠ [] := by
    rw [allows_orDefault htimes.days]
    have hnone : ¬Range.day.Has 0 := by decide
    simp only [hnone, ne_eq, imp_false]
  have hlongStep (range : Range) : range.allows (stepText n) = true ↔ n ≤ range.greatest := by
    rw [allows_stepText]
    exact and_iff_right hpos
  cases frequency with
  | hour =>
    constructor
    · intro h
      exact ⟨fun _ => (hlongStep .hour).mp h.hour, nofun, nofun⟩
    · rintro ⟨hlong, -, -⟩
      exact ⟨hzero, hzero, (hlongStep .hour).mpr (hlong rfl), .inr (hany _), hany _, .inl rfl⟩
  | day =>
    have hclosed : stepText n ≠ openDay := by
      simp [stepText, openDay]
    constructor
    · intro h
      exact ⟨nofun, fun _ => (hlongStep .day).mp (h.day.resolve_left hclosed), nofun⟩
    · rintro ⟨-, hlong, -⟩
      exact ⟨hzero, hminutes, hhours, .inr ((hlongStep .day).mpr (hlong rfl)), hany _, .inl rfl⟩
  | week =>
    refine iff_of_true ?_ ⟨nofun, nofun, nofun⟩
    exact ⟨hzero, hminutes, hhours, .inl rfl, hany _, .inr hweekDays⟩
  | month =>
    constructor
    · intro h
      have hlisted := h.day.resolve_left (numbersText_ne_openDay _)
      exact ⟨nofun, nofun, fun _ => hdays.mp hlisted⟩
    · rintro ⟨-, -, hlisted⟩
      exact ⟨hzero, hminutes, hhours, .inr (hdays.mpr (hlisted rfl)), hany _, .inl rfl⟩

/-- **Expressions.** A regular recurrence has an expression of six fields, of which exactly one for
days is open. All values are in the ranges of their fields exactly if an interval of hours is below a
day, an interval of days is no longer than a month, and a month lists days. Otherwise the interval
is written as it is, and the day of the month is zero. -/
theorem cronExpression_inRange_iff {recurrence : Json} {frequency : Frequency} {n : Nat}
    (h : IsRegular recurrence frequency n) :
    ∃ cron fields, (cronExpression recurrence).value = some cron ∧ fields? cron = some fields ∧
      fields.OneDayOpen ∧
      (fields.InRange ↔ (frequency = .hour → n ≤ 23) ∧ (frequency = .day → n ≤ 31) ∧
        (frequency = .month → (recurrence.getD "schedule").items "days" ≠ [])) ∧
      (frequency = .hour → fields.hour = stepText n) ∧
      (frequency = .day → fields.day = stepText n) ∧
      (frequency = .month → (recurrence.getD "schedule").items "days" = [] →
        fields.day = numbersText [0]) := by
  obtain ⟨times, htimes, hdays, hcron⟩ := exists_times_of_isRegular h
  have hread := Fields.fields?_text (unbroken_fieldsOf frequency n times)
  refine ⟨_, _, hcron, hread, oneDayOpen_fieldsOf frequency n times, ?_, ?_, ?_, ?_⟩
  · rw [inRange_fieldsOf_iff htimes frequency h.pos, ne_eq, hdays]
  · rintro rfl
    rfl
  · rintro rfl
    rfl
  · rintro rfl hnone
    exact day_fieldsOf_month n (hdays.mpr hnone)

/-! ## Months -/

/-- A monthly recurrence in the evening, on the given days. -/
def monthlyOn (days : List Nat) : Json := .obj [
  ("frequency", .str "Month"),
  ("interval", .num (.int 1)),
  ("schedule", .obj [
    ("days", .arr (days.map fun n : Nat => .num (.int n))),
    ("hours", .arr [.num (.int 21)]),
    ("minutes", .arr [.num (.int 0), .num (.int 30)])])]

theorem monthlyOn_isRegular {days : List Nat} (h : ∀ n ∈ days, Range.day.Has n) :
    IsRegular (monthlyOn days) .month 1 where
  frequency := by
    show frequency? "Month" = some .month
    decide
  interval := rfl
  pos := Nat.one_pos
  minutes := by
    show ∀ value ∈ [Json.num (.int 0), .num (.int 30)], IsValue .sixty value
    simp only [List.forall_mem_cons, List.not_mem_nil, false_imp_iff, implies_true, and_true]
    exact ⟨⟨0, rfl, by decide⟩, 30, rfl, by decide⟩
  hours := by
    show ∀ value ∈ [Json.num (.int 21)], IsValue .hour value
    rw [List.forall_mem_singleton]
    exact ⟨21, rfl, by decide⟩
  days := by
    show ∀ value ∈ days.map fun n : Nat => Json.num (.int n), IsValue .day value
    rw [List.forall_mem_map]
    exact fun n hn => ⟨n, rfl, h n hn⟩
  weekDays := by
    show ∀ value ∈ [], _
    exact nofun

/-- On the first and the last day of a month all values are in range. -/
theorem monthlyOn_ends :
    ∃ cron fields, (cronExpression (monthlyOn [1, 31])).value = some cron ∧
      fields? cron = some fields ∧ fields.OneDayOpen ∧ fields.InRange := by
  obtain ⟨cron, fields, hcron, hfields, hopen, hrange, -⟩ :=
    cronExpression_inRange_iff (monthlyOn_isRegular (show ∀ n ∈ [1, 31], Range.day.Has n by decide))
  have hlisted : ((monthlyOn [1, 31]).getD "schedule").items "days" ≠ [] := List.cons_ne_nil _ _
  exact ⟨cron, fields, hcron, hfields, hopen, hrange.mpr ⟨nofun, nofun, fun _ => hlisted⟩⟩

/-- Without days the month has a day zero. -/
theorem monthlyOn_nothing :
    IsRegular (monthlyOn []) .month 1 ∧
      (cronExpression (monthlyOn [])).value = some "0 0,30 21 0 * ?" ∧
      ∃ fields, fields? "0 0,30 21 0 * ?" = some fields ∧ ¬fields.InRange := by
  refine ⟨monthlyOn_isRegular nofun, by decide +kernel, ?_⟩
  refine ⟨⟨['0'], ['0', ',', '3', '0'], ['2', '1'], ['0'], ['*'], ['?']⟩, by decide +kernel, ?_⟩
  intro h
  exact absurd h.day (by decide)

end Schedule

end FactoryMigration
