import FactoryMigration.Proofs.LenientFailure
import Mathlib.Data.List.Forall2

set_option autoImplicit false

/-! # Entries of dependencies

Reading the dependencies of an activity stops at the first ambiguous entry: one that names an activity
and has several conditions. Without such an entry each entry that names an activity becomes a
dependency, and the others leave a note. `Dependency.ofValue_outcome` says so for any list of values. -/

namespace FactoryMigration.Dependency

/-- The entry names the activity that it waits for. -/
def Names (entry : Json) (activity : String) : Prop :=
  entry.get? "activity" = some (.str activity) ∧ activity ≠ ""

/-- The conditions of the entry. The second spelling of the key counts only where the first one is
missing, even if the value of the first is no list. -/
inductive HasConditions (entry : Json) : List Json → Prop where
  | first {value : Json} (h : entry.get? "dependency_conditions" = some value) :
      HasConditions entry (value.asItems?.getD [])
  | second {value : Json} (hfirst : entry.get? "dependency_conditions" = none)
      (h : entry.get? "dependencyConditions" = some value) :
      HasConditions entry (value.asItems?.getD [])
  | missing (hfirst : entry.get? "dependency_conditions" = none)
      (hsecond : entry.get? "dependencyConditions" = none) : HasConditions entry []

/-- The entry stops the reading with this failure. -/
inductive Stops (entry : Json) : Failure → Prop where
  | mk {activity : String} {conditions : List Json} (hname : Names entry activity)
      (hconditions : HasConditions entry conditions) (h : 1 < conditions.length) :
      Stops entry (.ambiguousDependency activity conditions.length)

/-- What an entry that does not stop the reading becomes. -/
inductive Reads (entry : Json) : Noted (Option Dependency) → Prop where
  | unnamed (h : ∀ activity, ¬Names entry activity) :
      Reads entry ⟨none, [⟨"depends_on", "Dropped a dependency without an upstream activity"⟩]⟩
  | plain {activity : String} {conditions : List Json} (hname : Names entry activity)
      (hconditions : HasConditions entry conditions)
      (h : ∀ condition, conditions.head? = some (.str condition) → condition = "Succeeded") :
      Reads entry ⟨some ⟨activity, none⟩, []⟩
  | unsupported {activity condition : String} {conditions : List Json}
      (hname : Names entry activity) (hconditions : HasConditions entry conditions)
      (h : conditions.head? = some (.str condition)) (hcondition : condition ≠ "Succeeded") :
      Reads entry ⟨some ⟨activity, none⟩, [⟨"depends_on",
        "Dependency condition '" ++ condition ++ "' on '" ++ activity
          ++ "' is not supported; the task runs when '" ++ activity ++ "' succeeds"⟩]⟩

/-- What a list of entries becomes. The entries before the first one that stops are read, or else all
of them. -/
inductive Outcome (entries : List Json) : Noted (Except Failure (List Dependency)) → Prop where
  | stopped {before after : List Json} {entry : Json} {failure : Failure}
      {reads : List (Noted (Option Dependency))} (hentries : entries = before ++ entry :: after)
      (hbefore : ∀ earlier ∈ before, ∀ other, ¬Stops earlier other) (h : Stops entry failure)
      (hreads : List.Forall₂ Reads before reads) :
      Outcome entries ⟨.error failure, reads.flatMap (·.notes)⟩
  | finished {reads : List (Noted (Option Dependency))}
      (h : ∀ entry ∈ entries, ∀ failure, ¬Stops entry failure)
      (hreads : List.Forall₂ Reads entries reads) :
      Outcome entries ⟨.ok (reads.filterMap (·.value)), reads.flatMap (·.notes)⟩

/-! ## One entry -/

theorem names_iff {entry : Json} {activity : String} :
    Names entry activity ↔ entry.filledText? "activity" = some activity :=
  Json.filledText?_eq_some_iff.symm

theorem hasConditions_iff {entry : Json} {values : List Json} :
    HasConditions entry values ↔ values = conditions entry := by
  unfold conditions
  constructor
  · rintro (h | ⟨hfirst, h⟩ | ⟨hfirst, hsecond⟩)
    · rw [h]
      rfl
    · rw [hfirst, h]
      rfl
    · rw [hfirst, hsecond]
      rfl
  · rintro rfl
    cases hfirst : entry.get? "dependency_conditions" with
    | some value => exact .first hfirst
    | none =>
      cases hsecond : entry.get? "dependencyConditions" with
      | some value => exact .second hfirst hsecond
      | none => exact .missing hfirst hsecond

theorem head_eq_str_iff {values : List Json} {condition : String} :
    values.head? = some (.str condition) ↔ values.head?.bind Json.asString? = some condition := by
  cases values with
  | nil => simp
  | cons value values => cases value <;> simp [Json.asString?]

theorem ofEntry_error_iff_stops {entry : Json} {failure : Failure} :
    ofEntry entry = .error failure ↔ Stops entry failure := by
  rw [ofEntry_error_iff]
  constructor
  · rintro ⟨activity, hname, h, rfl⟩
    exact .mk (names_iff.mpr hname) (hasConditions_iff.mpr rfl) h
  · rintro ⟨hname, hconditions, h⟩
    obtain rfl := hasConditions_iff.mp hconditions
    exact ⟨_, names_iff.mp hname, h, rfl⟩

theorem reads_of_ofEntry {entry : Json} {read : Noted (Option Dependency)}
    (h : ofEntry entry = .ok read) : Reads entry read := by
  unfold ofEntry at h
  cases hname : entry.filledText? "activity" with
  | none =>
    rw [hname] at h
    obtain rfl := Except.ok.inj h
    refine .unnamed fun activity hnamed => ?_
    rw [names_iff, hname] at hnamed
    cases hnamed
  | some activity =>
    have hnamed : Names entry activity := names_iff.mpr hname
    have hconditions : HasConditions entry (conditions entry) := hasConditions_iff.mpr rfl
    rw [hname] at h
    dsimp only at h
    split at h
    · cases h
    · split at h
      · rename_i hhead
        obtain rfl := Except.ok.inj h
        refine .plain hnamed hconditions fun condition hcondition => ?_
        rw [head_eq_str_iff, hhead] at hcondition
        cases hcondition
      · rename_i hhead
        obtain rfl := Except.ok.inj h
        refine .plain hnamed hconditions fun condition hcondition => ?_
        rw [head_eq_str_iff, hhead] at hcondition
        exact (Option.some.inj hcondition).symm
      · rename_i condition hother hhead
        obtain rfl := Except.ok.inj h
        exact .unsupported hnamed hconditions (head_eq_str_iff.mpr hhead) hother

/-- Whatever its condition is, an entry waits for success. -/
theorem outcome_of_reads {entries : List Json} {reads : List (Noted (Option Dependency))}
    (h : List.Forall₂ Reads entries reads) :
    ∀ read ∈ reads, ∀ dependency ∈ read.value, dependency.outcome = none := by
  induction h with
  | nil => exact fun _ hmem => absurd hmem List.not_mem_nil
  | cons hread _ ih =>
    refine List.forall_mem_cons.mpr ⟨?_, ih⟩
    cases hread <;> simp

/-! ## All entries -/

/-- What an entry becomes that does not stop the reading stands in front of all else. -/
theorem Outcome.cons {entry : Json} {entries : List Json} {read : Noted (Option Dependency)}
    {result : Noted (Except Failure (List Dependency))}
    (hnone : ∀ failure, ¬Stops entry failure) (hread : Reads entry read)
    (h : Outcome entries result) :
    Outcome (entry :: entries)
      ⟨result.value.map (read.value.toList ++ ·), read.notes ++ result.notes⟩ := by
  cases h with
  | @stopped before after stop failure reads hentries hbefore h hreads =>
    have hmore : entry :: entries = (entry :: before) ++ stop :: after :=
      congrArg (entry :: ·) hentries
    exact .stopped hmore (List.forall_mem_cons.mpr ⟨hnone, hbefore⟩) h (.cons hread hreads)
  | @finished reads h hreads =>
    have hvalues : (read :: reads).filterMap (·.value)
        = read.value.toList ++ reads.filterMap (·.value) := by
      cases hvalue : read.value with
      | none => rw [List.filterMap_cons_none hvalue]; rfl
      | some dependency => rw [List.filterMap_cons_some hvalue]; rfl
    have hall := Outcome.finished (List.forall_mem_cons.mpr ⟨hnone, h⟩) (.cons hread hreads)
    rwa [hvalues] at hall

theorem ofEntries_cons_ok {entry : Json} {read : Noted (Option Dependency)}
    (h : ofEntry entry = .ok read) (entries : List Json) :
    ofEntries (entry :: entries)
      = ⟨(ofEntries entries).value.map (read.value.toList ++ ·),
          read.notes ++ (ofEntries entries).notes⟩ := by
  rw [ofEntries, h]
  show (⟨(ofEntries entries).value.map (read.value.toList ++ ·),
    read.notes ++ ((ofEntries entries).notes ++ [])⟩ : Noted (Except Failure (List Dependency))) = _
  rw [List.append_nil]

theorem outcome_ofEntries (entries : List Json) : Outcome entries (ofEntries entries) := by
  induction entries with
  | nil => exact .finished (fun _ hmem => absurd hmem List.not_mem_nil) .nil
  | cons entry entries ih =>
    cases h : ofEntry entry with
    | error failure =>
      rw [ofEntries, h]
      -- nothing is read before this entry
      have hfirst : entry :: entries = [] ++ entry :: entries := rfl
      exact .stopped hfirst (fun _ hmem => absurd hmem List.not_mem_nil)
        (ofEntry_error_iff_stops.mp h) .nil
    | ok read =>
      have hnone : ∀ failure, ¬Stops entry failure := fun failure hstops => by
        rw [ofEntry_error_iff_stops.mpr hstops] at h
        cases h
      rw [ofEntries_cons_ok h]
      exact ih.cons hnone (reads_of_ofEntry h)

/-- No dependency that is read of a list waits for an outcome. -/
theorem outcome_of_ofEntries {entries : List Json} {dependencies : List Dependency}
    (h : (ofEntries entries).value = .ok dependencies) :
    ∀ dependency ∈ dependencies, dependency.outcome = none := by
  have houtcome := outcome_ofEntries entries
  generalize ofEntries entries = result at h houtcome
  cases houtcome with
  | stopped => cases h
  | @finished reads _ hreads =>
    obtain rfl := Except.ok.inj h
    intro dependency hmem
    obtain ⟨read, hread, hvalue⟩ := List.mem_filterMap.mp hmem
    exact outcome_of_reads hreads read hread dependency hvalue

/-- **Dependencies.** From a list of any values, the first ambiguous entry fails with its activity and
the count of its conditions, after the notes on the entries before it. Without one, the dependencies
are those of the entries that name an activity, in their order, with one note for each entry that names
none and for each unsupported condition. -/
theorem ofValue_outcome (entries : List Json) : Outcome entries (ofValue (some (.arr entries))) :=
  outcome_ofEntries entries

end FactoryMigration.Dependency
