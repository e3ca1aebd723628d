import FactoryMigration.Proofs.FieldCounts
import FactoryMigration.Proofs.History

set_option autoImplicit false

/-! # Fields of policies

No field of a policy is dropped silently. A setting that is there and not null is read exactly, or left
out with one note of its own; a flag leaves one note; and there are no other notes
(`Policy.ofBlock_accounts`). -/

namespace FactoryMigration

theorem Json.asString?_eq_some_iff {value : Json} {text : String} :
    value.asString? = some text ↔ value = .str text := by
  cases value <;> simp [asString?]

theorem Json.present?_eq_some_iff {value field : Json} {key : String} :
    value.present? key = some field ↔ value.get? key = some field ∧ field ≠ .null := by
  rw [present?, Option.filter_eq_some_iff]
  cases field <;> simp [isNull]

namespace Policy

/-! ## Settings and flags -/

/-- What a policy sets. -/
inductive Setting where
  | timeout
  | retries
  | interval
deriving DecidableEq

namespace Setting

/-- The field that the setting is read from. -/
def key : Setting → String
  | timeout => "timeout"
  | retries => "retry"
  | interval => "retry_interval_in_seconds"

/-- What a policy says of the setting. -/
def value : Setting → Policy → Option Nat
  | timeout => timeoutSeconds
  | retries => maxRetries
  | interval => minRetryIntervalMillis

/-- What the value of a field sets: a timeout in seconds below `2 ^ 64`, a count of retries below
`2 ^ 32`, or an interval of whole seconds, which are less than `2 ^ 64` milliseconds. -/
inductive Sets : Setting → Json → Nat → Prop where
  | timeout {text : String} {n : Nat} (h : Duration.IsTimeout (Text.trim text.toList) n)
      (hlimit : n < Text.limit64) : Sets timeout (.str text) n
  | retries {field : Json} {n : Nat} (h : field.Counts n) (hlimit : n < Text.limit32) :
      Sets retries field n
  | interval {field : Json} {seconds : Nat} (h : field.Counts seconds)
      (hlimit : 1000 * seconds < Text.limit64) : Sets interval field (1000 * seconds)

theorem Sets.ne_null {setting : Setting} {field : Json} {n : Nat} (h : setting.Sets field n) :
    field ≠ .null := by
  cases h with
  | timeout => exact nofun
  | retries h | interval h => exact h.ne_null

end Setting

/-- The flags, which have no counterpart. -/
def flags : List String := ["secure_input", "secure_output"]

/-- How many of the notes are about a property. -/
def notesOn (property : String) (notes : List Note) : Nat :=
  (notes.map (·.property)).count property

theorem notesOn_append (property : String) (first second : List Note) :
    notesOn property (first ++ second) = notesOn property first + notesOn property second := by
  rw [notesOn, List.map_append, List.count_append, notesOn, notesOn]

theorem notesOn_singleton (property key message : String) :
    notesOn property [⟨key, message⟩] = if key = property then 1 else 0 := by
  rw [notesOn, List.map_singleton, List.count_singleton]
  simp only [beq_iff_eq]

/-! ## One field -/

theorem notesOn_noteFlag (block : Json) (key message property : String) :
    notesOn property (noteFlag block key message).notes
      = if key = property ∧ (block.get? key).isSome then 1 else 0 := by
  unfold noteFlag
  by_cases h : (block.get? key).isSome = true
  · rw [if_pos h]
    simp only [Noted.note, notesOn_singleton, h, and_true]
  · rw [if_neg h, if_neg fun hboth => h hboth.2]
    rfl

section

variable {block : Json} {key : String} {read : Json → Option Nat} {complaint : String → String}

theorem value_setting : (setting block key read complaint).value = (block.present? key).bind read := by
  unfold setting
  cases block.present? key with
  | none => rfl
  | some raw =>
    dsimp only
    cases h : read raw with
    | none => exact h.symm
    | some n => exact h.symm

theorem notesOn_setting (property : String) :
    notesOn property (setting block key read complaint).notes
      = if key = property ∧ (block.present? key).isSome ∧ (block.present? key).bind read = .none
        then 1 else 0 := by
  unfold setting
  cases block.present? key with
  | none => simp [Noted.quiet, notesOn]
  | some raw =>
    dsimp only
    cases h : read raw with
    | none => simp [Noted.note, notesOn_singleton, h]
    | some n => simp [Noted.quiet, notesOn, h]

end

/-! ## All fields -/

/-- A setting is what its field sets. -/
theorem value_ofBlock_eq_some_iff (block : Json) (setting : Setting) (n : Nat) :
    setting.value (ofBlock block).value = some n ↔
      ∃ field, block.get? setting.key = some field ∧ setting.Sets field n := by
  cases setting with
  | timeout =>
    show (Policy.setting block "timeout" _ _).value = some n ↔ _
    rw [value_setting, Option.bind_eq_some_iff]
    constructor
    · rintro ⟨field, hfield, hread⟩
      obtain ⟨text, htext, htimeout⟩ := Option.bind_eq_some_iff.mp hread
      obtain rfl := Json.asString?_eq_some_iff.mp htext
      obtain ⟨h, hlimit⟩ := (Duration.ofTimeout?_eq_some_iff _ _).mp htimeout
      exact ⟨_, (Json.present?_eq_some_iff.mp hfield).1, .timeout h hlimit⟩
    · rintro ⟨field, hfield, hsets⟩
      cases hsets with
      | @timeout text _ h hlimit =>
        exact ⟨.str text, Json.present?_eq_some_iff.mpr ⟨hfield, nofun⟩,
          (Duration.ofTimeout?_eq_some_iff _ _).mpr ⟨h, hlimit⟩⟩
  | retries =>
    show (Policy.setting block "retry" _ _).value = some n ↔ _
    rw [value_setting, Option.bind_eq_some_iff]
    simp only [Option.filter_eq_some_iff, decide_eq_true_eq, Json.count?_eq_some_iff]
    constructor
    · rintro ⟨-, -, ⟨field, hfield, h⟩, hlimit⟩
      exact ⟨field, hfield, .retries h hlimit⟩
    · rintro ⟨field, hfield, hsets⟩
      cases hsets with
      | retries h hlimit =>
        exact ⟨field, Json.present?_eq_some_iff.mpr ⟨hfield, h.ne_null⟩, ⟨field, hfield, h⟩, hlimit⟩
  | interval =>
    show (Policy.setting block "retry_interval_in_seconds" _ _).value = some n ↔ _
    rw [value_setting, Option.bind_eq_some_iff]
    simp only [Option.filter_eq_some_iff, Option.map_eq_some_iff, decide_eq_true_eq,
      Json.count?_eq_some_iff]
    constructor
    · rintro ⟨-, -, ⟨seconds, ⟨field, hfield, h⟩, rfl⟩, hlimit⟩
      rw [Nat.mul_comm] at hlimit ⊢
      exact ⟨field, hfield, .interval h hlimit⟩
    · rintro ⟨field, hfield, hsets⟩
      cases hsets with
      | @interval _ seconds h hlimit =>
        refine ⟨field, Json.present?_eq_some_iff.mpr ⟨hfield, h.ne_null⟩,
          ⟨seconds, ⟨field, hfield, h⟩, Nat.mul_comm _ _⟩, hlimit⟩

theorem value_ofBlock_of_missing {block : Json} {setting : Setting}
    (h : block.present? setting.key = .none) : setting.value (ofBlock block).value = .none := by
  refine Option.eq_none_iff_forall_ne_some.mpr fun n hn => ?_
  obtain ⟨field, hfield, hsets⟩ := (value_ofBlock_eq_some_iff block setting n).mp hn
  rw [Json.present?_eq_some_iff.mpr ⟨hfield, hsets.ne_null⟩] at h
  cases h

/-- A count stays what it is, or is left out if it reaches the limit of its setting. -/
theorem value_setting_of_count? {block : Json} {key : String} {count : Nat}
    (h : block.count? key = some count) (read : Option Nat → Option Nat)
    (complaint : String → String) :
    (setting block key (fun _ => read (block.count? key)) complaint).value = read (some count) := by
  obtain ⟨field, hfield, hcounts⟩ := Json.count?_eq_some_iff.mp h
  rw [value_setting, Json.present?_eq_some_iff.mpr ⟨hfield, hcounts.ne_null⟩, Option.bind_some, h]

/-- How many notes are about a property. -/
theorem notesOn_ofBlock (block : Json) (property : String) :
    notesOn property (ofBlock block).notes
      = (if "secure_input" = property ∧ (block.get? "secure_input").isSome then 1 else 0)
        + (if "secure_output" = property ∧ (block.get? "secure_output").isSome then 1 else 0)
        + (if "timeout" = property ∧ (block.present? "timeout").isSome ∧
            (ofBlock block).value.timeoutSeconds = .none then 1 else 0)
        + (if "retry" = property ∧ (block.present? "retry").isSome ∧
            (ofBlock block).value.maxRetries = .none then 1 else 0)
        + (if "retry_interval_in_seconds" = property ∧
            (block.present? "retry_interval_in_seconds").isSome ∧
            (ofBlock block).value.minRetryIntervalMillis = .none then 1 else 0) := by
  simp only [ofBlock, Noted.notes_bind, Noted.notes_pure, Noted.value_bind, Noted.value_pure,
    List.append_nil, notesOn_append, notesOn_noteFlag, notesOn_setting, value_setting, Nat.add_assoc]

/-- A setting has one note exactly if its field is there and sets nothing. -/
theorem notesOn_setting_key (block : Json) (setting : Setting) :
    notesOn setting.key (ofBlock block).notes
      = if (block.present? setting.key).isSome ∧ setting.value (ofBlock block).value = .none
        then 1 else 0 := by
  rw [notesOn_ofBlock]
  cases setting <;>
    · simp [Setting.key, Setting.value]
      rfl

theorem notesOn_flag (block : Json) {flag : String} (h : flag ∈ flags) :
    notesOn flag (ofBlock block).notes = if (block.get? flag).isSome then 1 else 0 := by
  rw [notesOn_ofBlock]
  rcases List.mem_cons.mp h with rfl | h
  · simp
  · obtain rfl := List.mem_singleton.mp h
    simp

/-- A note is about a flag, or about a setting that is left out. -/
theorem property_cases {block : Json} {note : Note} (h : note ∈ (ofBlock block).notes) :
    note.property ∈ flags ∨ ∃ setting : Setting, note.property = setting.key ∧
      block.present? setting.key ≠ .none ∧ setting.value (ofBlock block).value = .none := by
  have hmem : note.property ∈ flags ∨ ∃ setting : Setting, note.property = setting.key := by
    have := property_of_mem_ofBlock h
    simp only [properties, List.mem_cons, List.not_mem_nil, or_false] at this
    rcases this with hkey | hkey | hkey | hkey | hkey
    · exact .inl (hkey ▸ List.mem_cons_self)
    · exact .inl (hkey ▸ List.mem_cons_of_mem _ List.mem_cons_self)
    · exact .inr ⟨.timeout, hkey⟩
    · exact .inr ⟨.retries, hkey⟩
    · exact .inr ⟨.interval, hkey⟩
  refine hmem.imp_right fun ⟨setting, hkey⟩ => ⟨setting, hkey, ?_⟩
  have hcount : notesOn setting.key (ofBlock block).notes ≠ 0 := by
    rw [← hkey]
    exact (List.count_pos_iff.mpr (List.mem_map_of_mem h)).ne'
  rw [notesOn_setting_key] at hcount
  exact (ite_ne_right_iff.mp hcount).1.imp_left Option.isSome_iff_ne_none.mp

/-- **Fields of policies.** A setting is left out exactly if its field is missing or null or one note is
about it, and else it is what the field sets. One note is about each flag that is there, and all other
notes are about settings that are left out. A count of retries is taken over exactly below `2 ^ 32`, and
an interval is turned into milliseconds exactly if these are less than `2 ^ 64`. -/
theorem ofBlock_accounts (block : Json) :
    (∀ setting : Setting,
      (setting.value (ofBlock block).value = .none ↔
        block.present? setting.key = .none ∨ notesOn setting.key (ofBlock block).notes = 1) ∧
      ∀ n, setting.value (ofBlock block).value = some n ↔
        ∃ field, block.get? setting.key = some field ∧ setting.Sets field n) ∧
    (∀ flag ∈ flags, notesOn flag (ofBlock block).notes
      = if (block.get? flag).isSome then 1 else 0) ∧
    (∀ note ∈ (ofBlock block).notes, note.property ∈ flags ∨
      ∃ setting : Setting, note.property = setting.key ∧ block.present? setting.key ≠ .none ∧
        setting.value (ofBlock block).value = .none) ∧
    (∀ n, block.count? "retry" = some n →
      (ofBlock block).value.maxRetries = if n < Text.limit32 then some n else .none) ∧
    (∀ seconds, block.count? "retry_interval_in_seconds" = some seconds →
      (ofBlock block).value.minRetryIntervalMillis
        = if 1000 * seconds < Text.limit64 then some (1000 * seconds) else .none) := by
  refine ⟨fun setting => ⟨?_, value_ofBlock_eq_some_iff block setting⟩, fun flag => notesOn_flag block,
    fun note hnote => ?_, fun n hcount => ?_, fun seconds hcount => ?_⟩
  · constructor
    · intro hnone
      rw [notesOn_setting_key, hnone]
      cases block.present? setting.key <;> simp
    · rintro (hmissing | hnote)
      · exact value_ofBlock_of_missing hmissing
      · rw [notesOn_setting_key] at hnote
        exact (ite_ne_right_iff.mp (hnote ▸ Nat.one_ne_zero)).1.2
  · exact property_cases hnote
  · show (Policy.setting block "retry" _ _).value = _
    rw [value_setting_of_count? hcount (·.filter (· < Text.limit32))]
    simp [Option.filter_some]
  · show (Policy.setting block "retry_interval_in_seconds" _ _).value = _
    rw [value_setting_of_count? hcount fun count => (count.map (· * 1000)).filter (· < Text.limit64)]
    simp [Option.filter_some, Nat.mul_comm]

end Policy

end FactoryMigration
