import FactoryMigration.Proofs.CompactText
import FactoryMigration.Schedule

set_option autoImplicit false

/-! # Units and days of the week by name

Units of a recurrence and days of the week have names, in any case of ASCII letters. A list of week days
is sorted into the numbers of the days that are named and the entries that name none, each in order
(`Schedule.select_weekDay`). -/

namespace FactoryMigration

/-- The name of the unit. -/
def Frequency.name : Frequency → String
  | hour => "Hour"
  | day => "Day"
  | week => "Week"
  | month => "Month"

namespace Schedule

/-- The texts differ at most in the case of ASCII letters. -/
def SameLetters (s t : String) : Prop :=
  s.toList.map Char.toLower = t.toList.map Char.toLower

instance (s t : String) : Decidable (SameLetters s t) :=
  inferInstanceAs (Decidable (_ = _))

theorem sameLetters_iff_lowerCase {s t : String} : SameLetters s t ↔ lowerCase s = lowerCase t :=
  String.ofList_inj.symm

/-! ## Units -/

theorem frequency?_eq_some_iff {name : String} {frequency : Frequency} :
    frequency? name = some frequency ↔ SameLetters name frequency.name := by
  rw [sameLetters_iff_lowerCase]
  constructor
  · intro h
    unfold frequency? at h
    split at h <;> cases h <;> (rename_i hname; rw [hname]; decide)
  · intro h
    unfold frequency?
    rw [h]
    cases frequency <;> decide

theorem not_sameLetters_empty (frequency : Frequency) : ¬SameLetters "" frequency.name := by
  cases frequency <;> decide

/-! ## Days -/

/-- The days of a week by number. -/
def weekDayNames : List (Nat × String) :=
  [(1, "Sunday"), (2, "Monday"), (3, "Tuesday"), (4, "Wednesday"), (5, "Thursday"), (6, "Friday"),
    (7, "Saturday")]

theorem weekDayNumber?_eq_some_iff {name : String} {n : Nat} :
    weekDayNumber? name = some n ↔
      ∃ entry ∈ weekDayNames, entry.1 = n ∧ SameLetters name entry.2 := by
  simp only [sameLetters_iff_lowerCase]
  constructor
  · intro h
    unfold weekDayNumber? at h
    split at h <;> cases h <;> (rename_i hname; rw [hname]; decide)
  · rintro ⟨entry, hentry, rfl, h⟩
    have hdays : ∀ entry ∈ weekDayNames, weekDayNumber? entry.2 = some entry.1 := by decide
    unfold weekDayNumber?
    rw [h]
    exact hdays entry hentry

/-- The value is a name of the day with the number. -/
def NamesDay (value : Json) (n : Nat) : Prop :=
  ∃ name, value = .str name ∧ ∃ entry ∈ weekDayNames, entry.1 = n ∧ SameLetters name entry.2

/-- What the name of a day begins with. -/
def startsDay (c : Char) : Bool :=
  ['s', 'm', 't', 'w', 'f'].contains c.toLower

theorem startsDay_of_weekDayNumber? {name : String} {n : Nat} (h : weekDayNumber? name = some n) :
    ∃ c rest, name.toList = c :: rest ∧ startsDay c = true := by
  obtain ⟨entry, hentry, -, hname⟩ := weekDayNumber?_eq_some_iff.mp h
  have hdays : ∀ entry ∈ weekDayNames,
      (entry.2.toList.map Char.toLower).head?.any ['s', 'm', 't', 'w', 'f'].contains = true := by
    decide
  have hstart := hdays entry hentry
  rw [← hname] at hstart
  cases hlist : name.toList with
  | nil =>
    rw [hlist] at hstart
    cases hstart
  | cons c rest =>
    rw [hlist] at hstart
    exact ⟨c, rest, rfl, hstart⟩

theorem not_startsDay_of_isDigit {c : Char} (h : c.isDigit = true) : startsDay c = false := by
  have hlower : c.toLower = c := by
    have hnot : ¬(c.val ≥ 'A'.val ∧ c.val ≤ 'Z'.val) := by
      simp only [Char.isDigit, Bool.and_eq_true, decide_eq_true_eq] at h
      grind
    exact dif_neg hnot
  have hletters : ['s', 'm', 't', 'w', 'f'].all (!·.isDigit) = true := rfl
  by_contra hstart
  rw [startsDay, hlower, Bool.not_eq_false, List.contains_iff_mem] at hstart
  have hc := List.all_eq_true.mp hletters c hstart
  rw [h] at hc
  cases hc

/-- Only a text or a truth value begins like the name of a day. -/
theorem opening_of_startsDay {c : Char} (h : startsDay c = true) :
    Json.Opening.ofChar c ∈ [.str, .bool, .other] := by
  unfold Json.Opening.ofChar
  split
  · subst c
    cases h
  split
  · simp
  split
  · simp
  split
  · subst c
    cases h
  split
  · subst c
    cases h
  split
  · rename_i hmark
    simp only [Decimal.isMark, Bool.or_eq_true, beq_iff_eq] at hmark
    rcases hmark with (((hdigit | rfl) | rfl) | rfl) | rfl
    · rw [not_startsDay_of_isDigit hdigit] at h
      cases h
    all_goals cases h
  · simp

/-- A day is recognised by its name only. -/
theorem weekDayNumber?_scalarText_eq_some_iff {value : Json} {n : Nat} :
    weekDayNumber? value.scalarText = some n ↔ NamesDay value n := by
  constructor
  · intro h
    obtain ⟨c, rest, hlist, hstart⟩ := startsDay_of_weekDayNumber? h
    have hopening := opening_of_startsDay hstart
    have hhead (value : Json) (hvalue : value.compact.toList = c :: rest) :
        value.opening ∈ [.str, .bool, .other] := by
      obtain ⟨c', rest', hlist', hopening'⟩ := Json.exists_head_compact value
      rw [hvalue] at hlist'
      rw [← hopening', ← (List.cons.inj hlist').1]
      exact hopening
    cases value with
    | str name => exact ⟨name, rfl, weekDayNumber?_eq_some_iff.mp h⟩
    | null => cases h
    | bool b => cases b <;> cases h
    | num n => exact absurd (hhead (.num n) hlist) (by simp [Json.opening])
    | arr items => exact absurd (hhead (.arr items) hlist) (by simp [Json.opening])
    | obj fields => exact absurd (hhead (.obj fields) hlist) (by simp [Json.opening])
  · rintro ⟨name, rfl, hname⟩
    exact weekDayNumber?_eq_some_iff.mpr hname

/-! ## Lists of days -/

/-- The list sorted: the numbers of the days that are named, repetitions kept, and the entries that name
no day, both in order. -/
inductive SortsDays : List Json → List Nat → List Json → Prop where
  | nil : SortsDays [] [] []
  | named {day : Json} {n : Nat} {days : List Json} {numbers : List Nat} {others : List Json}
      (h : NamesDay day n) (hrest : SortsDays days numbers others) :
      SortsDays (day :: days) (n :: numbers) others
  | other {day : Json} {days : List Json} {numbers : List Nat} {others : List Json}
      (h : ∀ n, ¬NamesDay day n) (hrest : SortsDays days numbers others) :
      SortsDays (day :: days) numbers (day :: others)

/-- Each entry is counted once. -/
theorem SortsDays.length {days : List Json} {numbers : List Nat} {others : List Json}
    (h : SortsDays days numbers others) : numbers.length + others.length = days.length := by
  induction h with
  | nil => rfl
  | named h hrest ih =>
    rw [List.length_cons, List.length_cons, ← ih]
    omega
  | other h hrest ih => rw [List.length_cons, List.length_cons, ← ih, Nat.add_assoc]

/-- What is noted about an entry that names no day. -/
def unknownDay (day : Json) : Note :=
  ⟨"schedule.week_days", "Unknown week day '" ++ day.scalarText ++ "' dropped from schedule"⟩

theorem weekDay_of_namesDay {day : Json} {n : Nat} (h : NamesDay day n) :
    weekDay day = .quiet (some (toString n)) := by
  rw [weekDay, weekDayNumber?_scalarText_eq_some_iff.mpr h]

theorem weekDay_of_not_namesDay {day : Json} (h : ∀ n, ¬NamesDay day n) :
    weekDay day = ⟨none, [unknownDay day]⟩ := by
  have hnone : weekDayNumber? day.scalarText = none := by
    refine Option.eq_none_iff_forall_ne_some.mpr fun n hn => ?_
    exact h n (weekDayNumber?_scalarText_eq_some_iff.mp hn)
  rw [weekDay, hnone]
  rfl

/-- The days of a list are read by their numbers, and the other entries noted. -/
theorem exists_sortsDays (days : List Json) :
    ∃ numbers others, SortsDays days numbers others ∧
      (Noted.select weekDay days).value = numbers.map toString ∧
      (Noted.select weekDay days).notes = others.map unknownDay := by
  simp only [Noted.value_select, Noted.notes_select]
  induction days with
  | nil => exact ⟨[], [], .nil, rfl, rfl⟩
  | cons day days ih =>
    obtain ⟨numbers, others, hsorts, hvalues, hnotes⟩ := ih
    rw [List.filterMap_cons, List.flatMap_cons, hvalues, hnotes]
    by_cases hday : ∃ n, NamesDay day n
    · obtain ⟨n, hn⟩ := hday
      rw [weekDay_of_namesDay hn]
      exact ⟨n :: numbers, others, .named hn hsorts, rfl, rfl⟩
    · have hother : ∀ n, ¬NamesDay day n := fun n hn => hday ⟨n, hn⟩
      rw [weekDay_of_not_namesDay hother]
      exact ⟨numbers, day :: others, .other hother hsorts, rfl, rfl⟩

end Schedule

end FactoryMigration
