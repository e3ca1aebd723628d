import FactoryMigration.Proofs.SecretLookups

set_option autoImplicit false

/-! # Names in scripts

Every text becomes an identifier, and identifiers stay as they are. Different names may become one
identifier; the frames and options of the two sides of a copy have different variables all the same
(`Script.identifier_variables`). -/

namespace FactoryMigration

namespace Script

/-- A text that can name a variable: ASCII letters, digits and underscores, one at least, and no digit
in front. -/
structure IsIdentifier (name : String) : Prop where
  ne_nil : name.toList ≠ []
  characters : ∀ c ∈ name.toList, c.isAlphanum = true ∨ c = '_'
  first : ∀ c ∈ name.toList.head?, c.isDigit = false

theorem isNameCharacter_iff {c : Char} :
    isNameCharacter c = true ↔ c.isAlphanum = true ∨ c = '_' := by
  simp [isNameCharacter]

theorem isDigit_head_identifier (s : String) :
    ∀ c ∈ (identifier s).toList.head?, c.isDigit = false := by
  unfold identifier
  dsimp only
  split
  · rintro _ ⟨⟩
    rfl
  · rename_i first rest hcs
    rw [String.toList_ofList]
    split
    · rintro _ ⟨⟩
      rfl
    · rename_i hdigit
      rw [hcs]
      rintro _ ⟨⟩
      exact Bool.not_eq_true _ ▸ hdigit

theorem isIdentifier_identifier (s : String) : IsIdentifier (identifier s) where
  ne_nil := (isName_identifier s).1
  characters := fun c hc => isNameCharacter_iff.mp ((isName_identifier s).2 c hc)
  first := isDigit_head_identifier s

/-- Nothing in an identifier is replaced, and nothing is put in front of it. -/
theorem IsIdentifier.identifier_eq {name : String} (h : IsIdentifier name) :
    identifier name = name := by
  have hkept : ∀ c ∈ name.toList, (if isNameCharacter c then c else '_') = id c := fun c hc =>
    if_pos (isNameCharacter_iff.mpr (h.characters c hc))
  have hmap : name.toList.map (fun c => if isNameCharacter c then c else '_') = name.toList :=
    (List.map_congr_left hkept).trans (List.map_id _)
  unfold identifier
  dsimp only
  rw [hmap]
  split
  · rename_i hnil
    exact absurd hnil h.ne_nil
  · rename_i first rest hcs
    have hfirst : first.isDigit = false := h.first first (by rw [hcs]; rfl)
    rw [hfirst]
    exact String.ofList_toList

theorem identifier_eq_self_iff (s : String) : identifier s = s ↔ IsIdentifier s :=
  ⟨fun h => h ▸ isIdentifier_identifier s, IsIdentifier.identifier_eq⟩

/-! ## Variables -/

namespace Names

/-- The names of both sides differ, also where their datasets have one name or one identifier. -/
theorem source_ne_sink (copy : Copy) : (ofCopy copy).source ≠ (ofCopy copy).sink := by
  unfold ofCopy
  dsimp only
  split
  · rename_i hsame
    rw [hsame]
    intro h
    have hlength := congrArg String.length h
    simp at hlength
  · rename_i hother
    exact Ne.symm hother

/-- The variables of a script: the frame and the options of each side. -/
def scriptVariables (names : Names) : List String :=
  [names.source ++ "_df", names.source ++ "_options", names.sink ++ "_df", names.sink ++ "_options"]

theorem append_right_ne {first second : String} (h : first ≠ second) (ending : String) :
    first ++ ending ≠ second ++ ending := by
  intro heq
  have hlists := congrArg String.toList heq
  rw [String.toList_append, String.toList_append, List.append_cancel_right_eq] at hlists
  exact h (String.toList_inj.mp hlists)

/-- Frames and options end differently, whatever stands in front. -/
theorem frame_ne_options (first second : String) : first ++ "_df" ≠ second ++ "_options" := by
  intro heq
  have hlast := congrArg (fun s => s.toList.getLast?) heq
  simp at hlast

theorem nodup_scriptVariables {names : Names} (h : names.source ≠ names.sink) :
    names.scriptVariables.Nodup := by
  unfold scriptVariables
  have hframes := append_right_ne h "_df"
  have hoptions := append_right_ne h "_options"
  simp only [List.nodup_cons, List.mem_cons, List.not_mem_nil, not_or, or_false]
  exact ⟨⟨frame_ne_options _ _, hframes, frame_ne_options _ _⟩,
    ⟨(frame_ne_options _ _).symm, hoptions⟩, frame_ne_options _ _, not_false, List.nodup_nil⟩

end Names

/-- **Variables.** Every text becomes an identifier, exactly the identifiers stay as they are, and so
does what has become one. The frames and the options of both sides of a copy have four different
variables, whatever its datasets are called. -/
theorem identifier_variables :
    (∀ s, IsIdentifier (identifier s)) ∧ (∀ s, identifier s = s ↔ IsIdentifier s) ∧
    (∀ s, identifier (identifier s) = identifier s) ∧
    ∀ copy, (Names.ofCopy copy).scriptVariables.Nodup :=
  ⟨isIdentifier_identifier, identifier_eq_self_iff,
    fun s => (isIdentifier_identifier s).identifier_eq,
    fun copy => Names.nodup_scriptVariables (Names.source_ne_sink copy)⟩

end Script

end FactoryMigration
