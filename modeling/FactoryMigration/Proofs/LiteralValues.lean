import FactoryMigration.Proofs.StatementText

set_option autoImplicit false

/-! # Values of literals

What an ordinary double-quoted literal of a script stands for. A quoted text is such a literal, and its
value is the text (`Script.literalValue?_quoted`). An escaped text is the text itself exactly if none of
its characters needs an escape (`Text.escape_eq_self_iff`), so a text that is escaped before it is
quoted becomes a literal of another text. -/

namespace FactoryMigration

/-! ## Reading a literal -/

namespace Script

/-- The character of an escape with one letter. -/
def letterEscape? : Char → Option Char
  | '"' => some '"'
  | '\\' => some '\\'
  | 'b' => some '\x08'
  | 'f' => some '\x0c'
  | 'n' => some '\n'
  | 'r' => some '\r'
  | 't' => some '\t'
  | _ => none

/-- The text up to the quote that ends a literal, if nothing follows it. Control characters, quotes
within and all escapes other than those of one letter and of four digits are refused. -/
def literalText? : List Char → Option (List Char)
  | [] => none
  | ['"'] => some []
  | '\\' :: 'u' :: a :: b :: c :: d :: rest =>
    match Text.hexValue4? a b c d with
    | none => none
    | some code =>
      if code.isValidChar then (literalText? rest).map (Char.ofNat code :: ·) else none
  | '\\' :: letter :: rest =>
    match letterEscape? letter with
    | none => none
    | some c => (literalText? rest).map (c :: ·)
  | c :: rest =>
    if c.toNat < 0x20 ∨ c = '\\' ∨ c = '"' then none
    else (literalText? rest).map (c :: ·)

/-- The value of an ordinary double-quoted literal. -/
def literalValue? (literal : String) : Option String :=
  match literal.toList with
  | '"' :: rest => (literalText? rest).map String.ofList
  | _ => none

end Script

/-! ## Escaped characters -/

namespace Text

/-- Neither a quote nor a backslash nor a control character. -/
def IsPlainChar (c : Char) : Prop :=
  c ≠ '"' ∧ c ≠ '\\' ∧ 0x20 ≤ c.toNat

instance (c : Char) : Decidable (IsPlainChar c) :=
  inferInstanceAs (Decidable (_ ∧ _))

/-- How a character is written: as it is, as a letter after a backslash, or by its number. -/
theorem escapeChar_forms (c : Char) :
    (IsPlainChar c ∧ escapeChar c = [c]) ∨
      ¬IsPlainChar c ∧
        ((∃ letter, Script.letterEscape? letter = some c ∧ escapeChar c = ['\\', letter]) ∨
          c.toNat < 0x20 ∧ escapeChar c = '\\' :: 'u' :: hex4 c.toNat) := by
  rcases escapeChar_eq c with ⟨letter, hletter, h⟩ | ⟨hcontrol, h⟩ | ⟨hquote, hbackslash, hcontrol, h⟩
  · -- the solidus has an escape, but is written as it is
    have hne : letter ≠ '/' := by
      rintro rfl
      cases hletter
      exact absurd h (by decide)
    have hescaped : ¬IsPlainChar c ∧ Script.letterEscape? letter = some c := by
      unfold shortEscape? at hletter
      split at hletter
      all_goals cases hletter
      any_goals exact absurd rfl hne
      all_goals exact ⟨by decide, rfl⟩
    exact .inr ⟨hescaped.1, .inl ⟨letter, hescaped.2, h⟩⟩
  · exact .inr ⟨fun hplain => Nat.not_le.mpr hcontrol hplain.2.2, .inr ⟨hcontrol, h⟩⟩
  · exact .inl ⟨⟨hquote, hbackslash, Nat.le_of_not_lt hcontrol⟩, h⟩

theorem length_le_escape (cs : List Char) : cs.length ≤ (escape cs).length := by
  induction cs with
  | nil => exact Nat.zero_le _
  | cons c cs ih =>
    have hchar : 1 ≤ (escapeChar c).length := by
      rcases escapeChar_forms c with ⟨-, h⟩ | ⟨-, ⟨letter, -, h⟩ | ⟨-, h⟩⟩ <;> simp [h]
    simp only [escape, List.flatMap_cons, List.length_append, List.length_cons] at ih ⊢
    omega

theorem escape_eq_self_iff (cs : List Char) : escape cs = cs ↔ ∀ c ∈ cs, IsPlainChar c := by
  induction cs with
  | nil => simp [escape]
  | cons c cs ih =>
    have hcons : escape (c :: cs) = escapeChar c ++ escape cs := List.flatMap_cons
    rw [hcons, List.forall_mem_cons, ← ih]
    rcases escapeChar_forms c with ⟨hplain, hself⟩ | ⟨hplain, hescaped⟩
    · simp [hplain, hself]
    · -- an escape is longer than the character
      refine iff_of_false (fun h => ?_) fun h => hplain h.1
      have hlonger : 1 < (escapeChar c).length := by
        rcases hescaped with ⟨letter, -, h⟩ | ⟨-, h⟩ <;> simp [h]
      have hlength := congrArg List.length h
      have hle := length_le_escape cs
      simp only [List.length_append, List.length_cons] at hlength
      omega

theorem escaped_eq_self_iff (s : String) : escaped s = s ↔ ∀ c ∈ s.toList, IsPlainChar c := by
  rw [← escape_eq_self_iff, ← String.toList_inj, escaped, String.toList_ofList]

theorem escaped_eq_empty_iff (s : String) : escaped s = "" ↔ s = "" := by
  constructor
  · intro h
    have hnil : escape s.toList = [] := by simpa [escaped] using congrArg String.toList h
    have hlength := length_le_escape s.toList
    rw [hnil, List.length_nil, Nat.le_zero, List.length_eq_zero_iff] at hlength
    exact String.toList_inj.mp hlength
  · rintro rfl
    rfl

end Text

/-! ## Quoted texts as literals -/

namespace Script

variable {value text : List Char}

/-- One escaped character is read back, in front of a text that is. -/
theorem literalText?_escapeChar (c : Char) (h : literalText? text = some value) :
    literalText? (Text.escapeChar c ++ text) = some (c :: value) := by
  rcases Text.escapeChar_forms c with ⟨⟨hquote, hbackslash, hcontrol⟩, hself⟩ |
    ⟨-, ⟨letter, hletter, hescaped⟩ | ⟨hcontrol, hescaped⟩⟩
  · rw [hself, List.singleton_append]
    simp [literalText?, hquote, hbackslash, Nat.not_lt.mpr hcontrol, h]
  · have hne : letter ≠ 'u' := by
      rintro rfl
      cases hletter
    rw [hescaped]
    simp [literalText?, hne, hletter, h]
  · have hvalid : c.toNat.isValidChar := c.valid
    rw [hescaped]
    simp [literalText?, Text.hex4, Text.hexValue4?_hex4 c.toNat hcontrol, hvalid, h]

theorem literalText?_escape (cs : List Char) :
    literalText? (Text.escape cs ++ ['"']) = some cs := by
  induction cs with
  | nil => rfl
  | cons c cs ih =>
    have hcons : Text.escape (c :: cs) = Text.escapeChar c ++ Text.escape cs := List.flatMap_cons
    rw [hcons, List.append_assoc]
    exact literalText?_escapeChar c ih

/-- A quoted text is a literal of that text. -/
theorem literalValue?_quoted (s : String) : literalValue? (Text.quoted s) = some s := by
  unfold literalValue?
  rw [Text.toList_quoted, Text.quote, List.cons_append]
  simp only [literalText?_escape, Option.map_some, String.ofList_toList]

end Script

end FactoryMigration
