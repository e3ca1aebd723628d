import FactoryMigration.Decimal.Numeral
import FactoryMigration.Expression.Condition
import FactoryMigration.Json.Printer

set_option autoImplicit false

/-! # Lists of loop items

The items of a loop are written in one of two notations: `@array('a,b')` cuts one text at its
commas, and `@createArray('a', 2)` lists literals. Literals are quoted texts, in which a backslash
makes the next character literal, and numbers; calls and nested lists are no literals. The result is
the JSON list of the items as texts. -/

namespace FactoryMigration.Expression

/-! ## Literals -/

/-- The text up to the closing quote, and what follows it. -/
def scanLiteral (quote : Char) : List Char → Option (List Char × List Char)
  | [] => none
  | '\\' :: rest =>
    match rest with
    | [] => none
    | c :: rest => (scanLiteral quote rest).map fun (text, after) => (c :: text, after)
  | c :: rest =>
    if c = quote then some ([], rest)
    else (scanLiteral quote rest).map fun (text, after) => (c :: text, after)

theorem scanLiteral_length_lt (quote : Char) : ∀ (n : Nat) (cs text rest : List Char),
    cs.length ≤ n → scanLiteral quote cs = some (text, rest) → rest.length < cs.length := by
  intro n
  induction n with
  | zero =>
    intro cs text rest hn h
    cases cs with
    | nil => simp [scanLiteral] at h
    | cons c cs => simp at hn
  | succ n ih =>
    intro cs text rest hn h
    unfold scanLiteral at h
    split at h
    · simp at h
    · rename_i tail
      split at h
      · simp at h
      · rename_i c tail'
        obtain ⟨⟨t, r⟩, hr, he⟩ := Option.map_eq_some_iff.1 h
        obtain ⟨rfl, rfl⟩ := Prod.mk.inj he
        have := ih tail' t r (by simp only [List.length_cons] at hn ⊢; omega) hr
        simp only [List.length_cons]
        omega
    · rename_i c tail _
      split at h
      · simp only [Option.some.injEq, Prod.mk.injEq] at h
        simp [← h.2]
      · obtain ⟨⟨t, r⟩, hr, he⟩ := Option.map_eq_some_iff.1 h
        obtain ⟨rfl, rfl⟩ := Prod.mk.inj he
        have := ih tail t r (by simp only [List.length_cons] at hn; omega) hr
        simp only [List.length_cons]
        omega

/-- Characters that a number literal goes on with. -/
def isRun (c : Char) : Bool :=
  c ≠ ',' && !Text.isBlank c

/-- Characters that a number literal begins with. -/
def startsNumber (c : Char) : Bool :=
  c.isDigit || c == '-' || c == '+' || c == '.'

/-- One literal: its text, and what follows it. A number loses the plus sign before it. -/
def literal? : List Char → Option (List Char × List Char)
  | [] => none
  | c :: rest =>
    if c = '\'' ∨ c = '"' then scanLiteral c rest
    else if startsNumber c then
      let number := c :: rest.takeWhile isRun
      if Decimal.isNumeral number then
        some (number.dropWhile (· == '+'), rest.dropWhile isRun)
      else none
    else none

theorem literal?_length_lt {cs text rest : List Char} (h : literal? cs = some (text, rest)) :
    rest.length < cs.length := by
  cases cs with
  | nil => simp [literal?] at h
  | cons c tail =>
    simp only [literal?] at h
    split at h
    · have := scanLiteral_length_lt c tail.length tail text rest (Nat.le_refl _) h
      simp only [List.length_cons]
      omega
    · split at h
      · split at h
        · simp only [Option.some.injEq, Prod.mk.injEq] at h
          have := (List.dropWhile_sublist isRun : (tail.dropWhile isRun).Sublist tail).length_le
          rw [← h.2]
          simp only [List.length_cons]
          omega
        · simp at h
      · simp at h

theorem trimStart_length_le (cs : List Char) : (Text.trimStart cs).length ≤ cs.length :=
  (List.dropWhile_sublist Text.isBlank : (cs.dropWhile Text.isBlank).Sublist cs).length_le

/-- Literals with a comma between neighbours, none at the end, and blanks anywhere around them. -/
def literals? (cs : List Char) : Option (List (List Char)) :=
  match _h : literal? (Text.trimStart cs) with
  | none => none
  | some (text, rest) =>
    match _h' : Text.trimStart rest with
    | [] => some [text]
    | ',' :: more => (literals? more).map (text :: ·)
    | _ => none
termination_by cs.length
decreasing_by
  have h₁ := literal?_length_lt _h
  have h₂ := trimStart_length_le cs
  have h₃ := trimStart_length_le rest
  rw [_h'] at h₃
  simp only [List.length_cons] at h₃
  omega

/-- A list of literals; a blank text is the list of none. -/
def literalList? (cs : List Char) : Option (List (List Char)) :=
  if Text.trim cs = [] then some [] else literals? (Text.trim cs)

/-! ## Notations -/

/-- The JSON list of texts. -/
def itemText (items : List (List Char)) : String :=
  (Json.arr (items.map fun item => .str (String.ofList item))).compact

/-- The text that a call encloses, up to the last closer on its line. -/
def enclosed? (head closer : String) (cs : List Char) : Option (List Char) :=
  (Text.afterStart head.toList cs).bind (operandBefore closer.toList)

/-- Reads the items of a loop as a JSON list of texts. -/
def parseItems (text : String) : Except Obstacle String :=
  let cs := Text.trim text.toList
  let trimmed := String.ofList cs
  match enclosed? "@array('" "')" cs with
  | some joined =>
    .ok (itemText ((Text.segments ',' joined).map fun item => dropQuotes (Text.trim item)))
  | none =>
    match enclosed? "@createArray(" ")" cs with
    | some listed =>
      match literalList? listed with
      | some items => .ok (itemText items)
      | none => .error ⟨.str trimmed, "Unsupported array literal in expression '" ++ trimmed ++ "'"⟩
    | none => .error ⟨.str trimmed, "Unsupported array expression '" ++ trimmed ++ "'"⟩

end FactoryMigration.Expression
