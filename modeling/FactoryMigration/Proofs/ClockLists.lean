import FactoryMigration.Proofs.CronExpressions

set_option autoImplicit false

/-! # Lists of minutes and hours

A recurrence lists minutes and hours for the clock of its expression. By the day, the week and the
month both lists stand in their fields, as far as no value breaks the expression with a blank. A
recurrence by the hour ignores both lists, and no note tells so (`Schedule.clockLists_accounted_iff`). -/

namespace FactoryMigration

theorem Text.length_segments (sep : Char) (cs : List Char) :
    (segments sep cs).length = cs.count sep + 1 := by
  induction cs with
  | nil => rfl
  | cons c rest ih =>
    by_cases hsep : c = sep
    · simp [segments, hsep, ih]
    · cases hpieces : segments sep rest with
      | nil => exact absurd hpieces (segments_ne_nil sep rest)
      | cons piece pieces =>
        rw [hpieces] at ih
        simpa [segments, hsep, hpieces] using ih

namespace Cron.Fields

/-- An expression is read as the fields it was written with, unless a blank in one of them gives it
another field. -/
theorem fields?_text_iff {fields other : Fields} :
    fields? (String.ofList fields.text) = some other ↔ fields.Unbroken ∧ other = fields := by
  constructor
  · intro h
    have hsix : (Text.segments ' ' fields.text).length = 6 := by
      unfold fields? at h
      rw [String.toList_ofList] at h
      split at h
      · rename_i hsegments
        rw [hsegments]
        rfl
      · cases h
    -- the five blanks between the fields are all there are
    have hblanks : fields.text.count ' ' = 5 := by
      rw [Text.length_segments] at hsix
      omega
    simp only [text, Text.join, List.count_append, List.count_singleton_self] at hblanks
    have hunbroken : fields.Unbroken := by
      refine ⟨?_, ?_, ?_, ?_, ?_, ?_⟩ <;>
        · rw [← List.count_eq_zero]
          omega
    rw [fields?_text hunbroken] at h
    exact ⟨hunbroken, (Option.some.inj h).symm⟩
  · rintro ⟨hunbroken, rfl⟩
    exact fields?_text hunbroken

end Cron.Fields

namespace Schedule

open Cron

/-! ## The expression of a trigger -/

/-- The trigger has the recurrence, by a known unit. -/
structure Recurs (trigger recurrence : Json) (frequency : Frequency) : Prop where
  found :
    ((trigger.get? "properties").bind (·.get? "recurrence")).filter Json.isObject = some recurrence
  unit : (recurrence.text? "frequency").bind frequency? = some frequency

namespace Recurs

variable {trigger recurrence : Json} {frequency : Frequency}

theorem ofTrigger_eq (h : Recurs trigger recurrence frequency) :
    ofTrigger trigger = (do
      let cron ← cronExpression recurrence
      return cron.map fun cron => ⟨cron, "UTC"⟩) := by
  rw [ofTrigger, h.found]

theorem value_ofTrigger (h : Recurs trigger recurrence frequency) :
    (ofTrigger trigger).value
      = some ⟨String.ofList (writtenFields recurrence frequency).text, "UTC"⟩ := by
  rw [h.ofTrigger_eq, Noted.value_bind, value_cronExpression h.unit]
  rfl

/-- By the hour, only the interval decides on the schedule and its notes. -/
theorem ofTrigger_hour {other recurrence' : Json} (h : Recurs trigger recurrence .hour)
    (h' : Recurs other recurrence' .hour)
    (hinterval : recurrence'.count? "interval" = recurrence.count? "interval") :
    ofTrigger other = ofTrigger trigger := by
  have hcron {recurrence : Json} (h : (recurrence.text? "frequency").bind frequency? = some .hour) :
      cronExpression recurrence = (do
        let n ← interval recurrence
        return some ("0 0 */" ++ toString n ++ " * * ?")) := by
    obtain ⟨name, hname, hfrequency⟩ := Option.bind_eq_some_iff.mp h
    simp only [cronExpression, hname, Option.getD_some, hfrequency]
  have hsame : interval recurrence' = interval recurrence := by
    rw [interval, interval, hinterval]
  rw [h'.ofTrigger_eq, h.ofTrigger_eq, hcron h'.unit, hcron h.unit, hsame]

end Recurs

/-! ## Notes -/

theorem property_of_mem_interval {recurrence : Json} {note : Note}
    (h : note ∈ (interval recurrence).notes) : note.property = "schedule.num_intervals" := by
  unfold interval at h
  split at h
  · cases h
  · rw [List.mem_singleton.mp h]

theorem property_of_mem_noteIgnoredInterval {n : Nat} {message : String} {note : Note}
    (h : note ∈ (noteIgnoredInterval n message).notes) : note.property = "schedule.num_intervals" := by
  unfold noteIgnoredInterval at h
  split at h
  · rw [List.mem_singleton.mp h]
  · cases h

theorem property_of_mem_weekDays {times : Json} {note : Note} (h : note ∈ (weekDays times).notes) :
    note.property = "schedule.week_days" := by
  rw [weekDays, Noted.notes_bind, Noted.notes_select, Noted.notes_pure, List.append_nil,
    List.mem_flatMap] at h
  obtain ⟨day, -, hday⟩ := h
  unfold weekDay at hday
  split at hday
  · cases hday
  · rw [List.mem_singleton.mp hday]

/-- The notes on a recurrence by a known unit are about its interval and its days of the week. -/
theorem Recurs.property_of_mem {trigger recurrence : Json} {frequency : Frequency}
    (h : Recurs trigger recurrence frequency) {note : Note} (hnote : note ∈ (ofTrigger trigger).notes) :
    note.property = "schedule.num_intervals" ∨ note.property = "schedule.week_days" := by
  obtain ⟨name, hname, hfrequency⟩ := Option.bind_eq_some_iff.mp h.unit
  rw [h.ofTrigger_eq, Noted.notes_bind, Noted.notes_pure, List.append_nil] at hnote
  simp only [cronExpression, hname, Option.getD_some, hfrequency, Noted.notes_bind,
    List.mem_append] at hnote
  rcases hnote with hnote | hnote
  · exact .inl (property_of_mem_interval hnote)
  · cases frequency with
    | hour => cases hnote
    | day => cases hnote
    | week =>
      simp only [Noted.notes_bind, Noted.notes_pure, List.append_nil, List.mem_append] at hnote
      rcases hnote with hnote | hnote
      · exact .inl (property_of_mem_noteIgnoredInterval hnote)
      · exact .inr (property_of_mem_weekDays hnote)
    | month =>
      simp only [Noted.notes_bind, Noted.notes_pure, List.append_nil] at hnote
      exact .inl (property_of_mem_noteIgnoredInterval hnote)

/-! ## Accounts of lists -/

/-- A part of the clock that a recurrence may list values for. -/
inductive ClockPart where
  | minute
  | hour
deriving DecidableEq

namespace ClockPart

/-- Where a recurrence lists the values. -/
def key : ClockPart → String
  | minute => "minutes"
  | hour => "hours"

/-- The field of an expression for the values. -/
def field : ClockPart → Fields → List Char
  | minute => Fields.minute
  | hour => Fields.hour

/-- The values that a recurrence lists. -/
def values (part : ClockPart) (recurrence : Json) : List Json :=
  (recurrence.getD "schedule").items part.key

/-- The listed values, in order and with commas between them. -/
def listed (part : ClockPart) (recurrence : Json) : List Char :=
  Text.join [','] ((part.values recurrence).map fun value => value.scalarText.toList)

/-- The listed values are a field of the trigger's expression, or a note is about their list. -/
def Accounted (part : ClockPart) (trigger recurrence : Json) : Prop :=
  (∃ schedule fields, (ofTrigger trigger).value = some schedule ∧
    fields? schedule.cron = some fields ∧ part.field fields = part.listed recurrence) ∨
  ∃ note ∈ (ofTrigger trigger).notes, part.key.toList <:+: note.property.toList

/-- What stands in the field of an expression by the hour. -/
def hourly (n : Nat) : ClockPart → List Char
  | minute => ['0']
  | hour => stepText n

theorem toList_numberList {recurrence : Json} {part : ClockPart} (h : part.values recurrence ≠ []) :
    (numberList (recurrence.getD "schedule") part.key).toList = part.listed recurrence := by
  unfold numberList listed
  rw [← values]
  split
  · contradiction
  · rw [Text.toList_joinWith, List.map_map]
    rfl

/-- No part of the clock is one of the properties that notes are about. -/
theorem not_infix_property (part : ClockPart) {property : String}
    (h : property = "schedule.num_intervals" ∨ property = "schedule.week_days") :
    ¬part.key.toList <:+: property.toList := by
  rcases h with rfl | rfl <;> cases part <;> decide

theorem accounted_iff {trigger recurrence : Json} {frequency : Frequency}
    (h : Recurs trigger recurrence frequency) (part : ClockPart) :
    part.Accounted trigger recurrence ↔
      (writtenFields recurrence frequency).Unbroken ∧
        part.field (writtenFields recurrence frequency) = part.listed recurrence := by
  have hnotes : ¬∃ note ∈ (ofTrigger trigger).notes, part.key.toList <:+: note.property.toList := by
    rintro ⟨note, hnote, hkey⟩
    exact part.not_infix_property (h.property_of_mem hnote) hkey
  rw [Accounted, or_iff_left hnotes, h.value_ofTrigger]
  constructor
  · rintro ⟨_, fields, ⟨⟩, hfields, hlisted⟩
    obtain ⟨hunbroken, rfl⟩ := Fields.fields?_text_iff.mp hfields
    exact ⟨hunbroken, hlisted⟩
  · rintro ⟨hunbroken, hlisted⟩
    exact ⟨_, _, rfl, Fields.fields?_text hunbroken, hlisted⟩

end ClockPart

/-- The lists that stand in the expressions by a unit. -/
def listKeys : Frequency → List String
  | .hour => []
  | .day => ["minutes", "hours"]
  | .week => ["minutes", "hours"]
  | .month => ["minutes", "hours", "days"]

theorem blank_not_mem_numberList {times : Json} {key : String} :
    ' ' ∉ (numberList times key).toList ↔
      ∀ value ∈ times.items key, ' ' ∉ value.scalarText.toList := by
  unfold numberList
  split
  · rename_i hnone
    simp [hnone]
  · rw [Text.toList_joinWith]
    constructor
    · intro h value hvalue hblank
      have hpiece : value.scalarText.toList ∈
          ((times.items key).map Json.scalarText).map String.toList :=
        List.mem_map_of_mem (List.mem_map_of_mem hvalue)
      exact h ((Text.infix_join_of_mem hpiece _).subset hblank)
    · intro h
      refine Text.not_mem_join (by decide) ?_
      simpa using h

/-- A blank in a value breaks the expressions that its list stands in, and nothing else does. -/
theorem unbroken_writtenFields_iff (recurrence : Json) (frequency : Frequency) :
    (writtenFields recurrence frequency).Unbroken ↔
      ∀ key ∈ listKeys frequency, ∀ value ∈ (recurrence.getD "schedule").items key,
        ' ' ∉ value.scalarText.toList := by
  have hnumbers := blank_not_mem_numbersText
  have hstep := blank_not_mem_stepText
  have hany := blank_not_mem_anyValue
  have hopen := blank_not_mem_openDay
  obtain ⟨weekDays, -, -, hweekDays, -⟩ := exists_weekDays (recurrence.getD "schedule")
  simp only [← blank_not_mem_numberList]
  cases frequency with
  | hour =>
    exact iff_of_true ⟨hnumbers _, hnumbers _, hstep _, hany, hany, hopen⟩ (List.forall_mem_nil _)
  | day =>
    simp only [listKeys, List.forall_mem_cons, List.not_mem_nil, false_imp_iff, implies_true, and_true]
    exact ⟨fun h => ⟨h.minute, h.hour⟩,
      fun h => ⟨hnumbers _, h.1, h.2, hstep _, hany, hopen⟩⟩
  | week =>
    simp only [listKeys, List.forall_mem_cons, List.not_mem_nil, false_imp_iff, implies_true, and_true]
    refine ⟨fun h => ⟨h.minute, h.hour⟩, fun h => ⟨hnumbers _, h.1, h.2, hopen, hany, ?_⟩⟩
    rw [writtenFields, hweekDays]
    exact hnumbers _
  | month =>
    simp only [listKeys, List.forall_mem_cons, List.not_mem_nil, false_imp_iff, implies_true, and_true]
    exact ⟨fun h => ⟨h.minute, h.hour, h.day⟩,
      fun h => ⟨hnumbers _, h.1, h.2.1, h.2.2, hany, hopen⟩⟩

/-- **Lists of the clock.** By the day, the week or the month, the values of a list are accounted for
as long as no value in the expression has a blank. By the hour they are only if they happen to be what
stands in the field anyway: two such triggers with one interval have the same schedule and the same
notes, whatever they list. -/
theorem clockLists_accounted_iff {trigger recurrence : Json} {frequency : Frequency}
    (h : Recurs trigger recurrence frequency) (part : ClockPart)
    (hlisted : part.values recurrence ≠ []) :
    (frequency ≠ .hour → (part.Accounted trigger recurrence ↔
      ∀ key ∈ listKeys frequency, ∀ value ∈ (recurrence.getD "schedule").items key,
        ' ' ∉ value.scalarText.toList)) ∧
    (frequency = .hour →
      (part.Accounted trigger recurrence ↔
        part.listed recurrence = part.hourly (interval recurrence).value) ∧
      ∀ other recurrence', Recurs other recurrence' .hour →
        recurrence'.count? "interval" = recurrence.count? "interval" →
          ofTrigger other = ofTrigger trigger) := by
  constructor
  · intro hfrequency
    have hfield : part.field (writtenFields recurrence frequency) = part.listed recurrence := by
      rw [← ClockPart.toList_numberList hlisted]
      cases frequency with
      | hour => exact absurd rfl hfrequency
      | day | week | month => cases part <;> rfl
    rw [part.accounted_iff h, and_iff_left hfield, unbroken_writtenFields_iff]
  · rintro rfl
    refine ⟨?_, fun other recurrence' h' hinterval => h.ofTrigger_hour h' hinterval⟩
    have hfield : part.field (writtenFields recurrence .hour)
        = part.hourly (interval recurrence).value := by
      cases part <;> rfl
    have hunbroken := (unbroken_writtenFields_iff recurrence .hour).mpr nofun
    rw [part.accounted_iff h, and_iff_right hunbroken, hfield, eq_comm]

/-! ## A clock by the week and by the hour -/

/-- A recurrence every six times its unit, with values for the clock. -/
def clockRecurrence (unit : String) (minutes hours : List Nat) : Json := .obj [
  ("frequency", .str unit),
  ("interval", .num (.int 6)),
  ("schedule", .obj [
    ("hours", .arr (hours.map fun n : Nat => .num (.int n))),
    ("minutes", .arr (minutes.map fun n : Nat => .num (.int n)))])]

/-- A trigger with the recurrence. -/
def clockTrigger (unit : String) (minutes hours : List Nat) : Json :=
  .obj [("properties", .obj [("recurrence", clockRecurrence unit minutes hours)])]

theorem clockTrigger_recurs {unit : String} {frequency : Frequency}
    (h : frequency? unit = some frequency) (minutes hours : List Nat) :
    Recurs (clockTrigger unit minutes hours) (clockRecurrence unit minutes hours) frequency :=
  ⟨rfl, h⟩

/-- By the week both lists stand in the expression. -/
theorem weeklyClock_accounted :
    ClockPart.minute.Accounted (clockTrigger "Week" [0, 30] [9]) (clockRecurrence "Week" [0, 30] [9]) ∧
      ClockPart.hour.Accounted (clockTrigger "Week" [0, 30] [9]) (clockRecurrence "Week" [0, 30] [9]) := by
  have hrecurs := clockTrigger_recurs (show frequency? "Week" = some .week by decide) [0, 30] [9]
  have hplain : ∀ key ∈ listKeys .week,
      ∀ value ∈ ((clockRecurrence "Week" [0, 30] [9]).getD "schedule").items key,
        ' ' ∉ value.scalarText.toList := by
    decide +kernel
  constructor
  · exact ((clockLists_accounted_iff hrecurs .minute (List.cons_ne_nil _ _)).1 nofun).mpr hplain
  · exact ((clockLists_accounted_iff hrecurs .hour (List.cons_ne_nil _ _)).1 nofun).mpr hplain

/-- By the hour, half past the hour becomes the full hour without a note. -/
theorem hourlyMinutes_ignored :
    Recurs (clockTrigger "Hour" [30] []) (clockRecurrence "Hour" [30] []) .hour ∧
      ClockPart.minute.values (clockRecurrence "Hour" [30] []) = [.num (.int 30)] ∧
      ofTrigger (clockTrigger "Hour" [30] []) = ⟨some ⟨"0 0 */6 * * ?", "UTC"⟩, []⟩ ∧
      ¬ClockPart.minute.Accounted (clockTrigger "Hour" [30] []) (clockRecurrence "Hour" [30] []) := by
  have hrecurs := clockTrigger_recurs (show frequency? "Hour" = some .hour by decide) [30] []
  have hlisted : ClockPart.minute.listed (clockRecurrence "Hour" [30] []) = ['3', '0'] := by
    decide +kernel
  have hschedule : ofTrigger (clockTrigger "Hour" [30] []) = ⟨some ⟨"0 0 */6 * * ?", "UTC"⟩, []⟩ := by
    rw [hrecurs.ofTrigger_eq]
    rfl
  refine ⟨hrecurs, rfl, hschedule, ?_⟩
  rw [ClockPart.accounted_iff hrecurs, hlisted]
  rintro ⟨-, hminute⟩
  cases hminute

end Schedule

end FactoryMigration
