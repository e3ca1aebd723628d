import FactoryMigration.Proofs.CronExpressions
import FactoryMigration.Proofs.FieldCounts

set_option autoImplicit false

/-! # Recurrences without a unit and by the week

A recurrence has an expression exactly if its unit is known. A weekly one ends with the numbers of the
days that are named, and notes its interval before the entries that name no day
(`Schedule.cronExpression_weekly`). -/

namespace FactoryMigration

namespace Text

/-- A separator cuts a text into the pieces before and after it. -/
theorem segments_append_cons (sep : Char) (front back : List Char) :
    segments sep (front ++ sep :: back) = segments sep front ++ segments sep back := by
  induction front with
  | nil => simp [segments]
  | cons c front ih =>
    rw [List.cons_append, segments, segments, ih]
    split
    · rfl
    · cases hs : segments sep front with
      | nil => exact absurd hs (segments_ne_nil sep front)
      | cons piece pieces => rfl

theorem getLast?_segments {sep : Char} {back : List Char} (h : sep ∉ back) (front : List Char) :
    (segments sep (front ++ sep :: back)).getLast? = some back := by
  rw [segments_append_cons, segments_of_not_mem h, List.getLast?_concat]

end Text

namespace Schedule

open Cron

/-! ## Units -/

/-- The recurrence names the unit. -/
def HasUnit (recurrence : Json) (frequency : Frequency) : Prop :=
  ∃ name, recurrence.get? "frequency" = some (.str name) ∧ SameLetters name frequency.name

theorem bind_frequency?_eq_some_iff {recurrence : Json} {frequency : Frequency} :
    (recurrence.text? "frequency").bind frequency? = some frequency ↔
      HasUnit recurrence frequency := by
  simp only [Option.bind_eq_some_iff, Json.text?_eq_some_iff, frequency?_eq_some_iff, HasUnit]

/-- What is noted about a recurrence that names no unit. -/
def unknownUnit (recurrence : Json) : Note :=
  ⟨"schedule.frequency", "Unsupported trigger frequency '" ++ (recurrence.text? "frequency").getD ""
    ++ "'; the job will not be scheduled"⟩

/-- Without a unit there is one note and no expression. -/
theorem cronExpression_of_not_hasUnit {recurrence : Json}
    (h : ∀ frequency, ¬HasUnit recurrence frequency) :
    cronExpression recurrence = ⟨none, [unknownUnit recurrence]⟩ := by
  have hnone : frequency? ((recurrence.text? "frequency").getD "") = none := by
    refine Option.eq_none_iff_forall_ne_some.mpr fun frequency hfrequency => ?_
    cases hname : recurrence.text? "frequency" with
    | none =>
      rw [hname] at hfrequency
      exact not_sameLetters_empty frequency (frequency?_eq_some_iff.mp hfrequency)
    | some name =>
      rw [hname] at hfrequency
      exact h frequency (bind_frequency?_eq_some_iff.mp (by rw [hname]; exact hfrequency))
  unfold cronExpression
  simp only [hnone]
  rfl

theorem cronExpression_eq_none_iff (recurrence : Json) :
    (cronExpression recurrence).value = none ↔ ∀ frequency, ¬HasUnit recurrence frequency := by
  constructor
  · intro h frequency hunit
    rw [value_cronExpression (bind_frequency?_eq_some_iff.mpr hunit)] at h
    cases h
  · intro h
    rw [cronExpression_of_not_hasUnit h]

/-! ## Weeks -/

/-- The interval of the recurrence reads as the number. -/
def HasInterval (recurrence : Json) (n : Nat) : Prop :=
  ∃ field, recurrence.get? "interval" = some field ∧ field.Counts n

/-- What is noted about the interval of a weekly recurrence: one note unless it is one. -/
inductive NotesInterval (recurrence : Json) : List Note → Prop where
  | unset (h : ∀ n, HasInterval recurrence n → n = 0) : NotesInterval recurrence
      [⟨"schedule.num_intervals", "Setting empty \"num_intervals\" to \"1\" by default"⟩]
  | one (h : HasInterval recurrence 1) : NotesInterval recurrence []
  | more {n : Nat} (h : HasInterval recurrence n) (hmore : 1 < n) : NotesInterval recurrence
      [⟨"schedule.num_intervals",
        "Ignoring \"num_intervals\" > 1 for weekly triggers; Using weekly interval"⟩]

/-- Both rules for the interval of a week leave at most one note. -/
theorem notesInterval (recurrence : Json) :
    NotesInterval recurrence ((interval recurrence).notes ++
      (noteIgnoredInterval (interval recurrence).value
        "Ignoring \"num_intervals\" > 1 for weekly triggers; Using weekly interval").notes) := by
  cases hcount : (recurrence.count? "interval").filter (0 < ·) with
  | none =>
    have hzero : ∀ n, HasInterval recurrence n → n = 0 := by
      intro n hn
      rw [Json.count?_eq_some_iff.mpr hn, Option.filter_eq_none_iff] at hcount
      simpa using hcount n rfl
    have hinterval : interval recurrence = ⟨1, [⟨"schedule.num_intervals",
        "Setting empty \"num_intervals\" to \"1\" by default"⟩]⟩ := by
      rw [interval, hcount]
    rw [hinterval]
    exact .unset hzero
  | some n =>
    have hinterval : interval recurrence = .quiet n := by
      rw [interval, hcount]
    obtain ⟨hread, hpos⟩ := Option.filter_eq_some_iff.mp hcount
    have hn : HasInterval recurrence n := Json.count?_eq_some_iff.mp hread
    rw [hinterval]
    show NotesInterval recurrence ([] ++ (noteIgnoredInterval n _).notes)
    unfold noteIgnoredInterval
    by_cases hmore : 1 < n
    · rw [if_pos hmore]
      exact .more hn hmore
    · have hone : n = 1 := by
        have := of_decide_eq_true hpos
        omega
      subst hone
      rw [if_neg hmore]
      exact .one hn

theorem notes_cronExpression_week {recurrence : Json} (h : HasUnit recurrence .week) :
    (cronExpression recurrence).notes
      = ((interval recurrence).notes ++ (noteIgnoredInterval (interval recurrence).value
          "Ignoring \"num_intervals\" > 1 for weekly triggers; Using weekly interval").notes)
        ++ (weekDays (recurrence.getD "schedule")).notes := by
  obtain ⟨name, hname, hfrequency⟩ :=
    Option.bind_eq_some_iff.mp (bind_frequency?_eq_some_iff.mpr h)
  unfold cronExpression
  simp only [hname, Option.getD_some, hfrequency, Noted.notes_bind, Noted.notes_pure, List.append_nil,
    List.append_assoc]

/-- The days stand in the last field. -/
theorem text_writtenFields_week (recurrence : Json) :
    ∃ front, (writtenFields recurrence .week).text
      = front ++ ' ' :: (weekDays (recurrence.getD "schedule")).value.toList := by
  simp only [Fields.text, writtenFields, Text.join, ← List.append_assoc]
  rw [List.append_assoc]
  exact ⟨_, rfl⟩

/-- **Weeks.** A recurrence has no expression exactly if it names none of the four units, and then one
note tells so. A weekly one has an expression whose last field is the numbers of the days that are named,
in order and with repetitions, or Sunday alone if none is. Each other entry of the list has a note of its
own, in order, after the note on an interval that is unset or above one. -/
theorem cronExpression_weekly (recurrence : Json) :
    ((cronExpression recurrence).value = none ↔ ∀ frequency, ¬HasUnit recurrence frequency) ∧
    ((cronExpression recurrence).value = none →
      (cronExpression recurrence).notes = [unknownUnit recurrence]) ∧
    (HasUnit recurrence .week → ∃ cron numbers others intervalNotes,
      (cronExpression recurrence).value = some cron ∧
      SortsDays ((recurrence.getD "schedule").items "week_days") numbers others ∧
      numbers.length + others.length = ((recurrence.getD "schedule").items "week_days").length ∧
      (Text.segments ' ' cron.toList).getLast? = some (numbersText (orDefault 1 numbers)) ∧
      NotesInterval recurrence intervalNotes ∧
      (cronExpression recurrence).notes = intervalNotes ++ others.map unknownDay) := by
  refine ⟨cronExpression_eq_none_iff recurrence, fun hnone => ?_, fun hweek => ?_⟩
  · rw [cronExpression_of_not_hasUnit ((cronExpression_eq_none_iff recurrence).mp hnone)]
  · obtain ⟨numbers, others, hsorts, hdays, hnotes⟩ := exists_weekDays (recurrence.getD "schedule")
    obtain ⟨front, hfront⟩ := text_writtenFields_week recurrence
    refine ⟨_, numbers, others, _, value_cronExpression (bind_frequency?_eq_some_iff.mpr hweek), hsorts,
      hsorts.length, ?_, notesInterval recurrence, ?_⟩
    · rw [String.toList_ofList, hfront, hdays]
      exact Text.getLast?_segments (blank_not_mem_numbersText _) front
    · rw [notes_cronExpression_week hweek, hnotes]

end Schedule

end FactoryMigration
