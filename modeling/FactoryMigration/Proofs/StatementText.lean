import FactoryMigration.Proofs.CompactText
import FactoryMigration.Proofs.KeySegments
import FactoryMigration.Script.Options

set_option autoImplicit false

/-! # The text of statements

A statement is code with quoted literals in it. A literal may hold any text, also one that looks like
code, but none of its quotes ends it: each is escaped. So a call with quoted arguments that occurs in
a statement, at whatever place, is either a call of the statement's code, or it begins at the end of
a literal that at least two others follow (`infix_statement_cases`). -/

namespace FactoryMigration

/-! ## Quotes in escaped texts -/

namespace Text

theorem toList_quoted (s : String) : (quoted s).toList = quote s.toList :=
  String.toList_ofList

theorem quote_ne_hexDigit : ∀ n < 16, '"' ≠ hexDigit n := by
  decide

theorem lineFeed_ne_hexDigit : ∀ n < 16, '\n' ≠ hexDigit n := by
  decide

/-- A character is written as itself, or after a backslash and without a line feed; then a quote can
only be the second character. -/
theorem escapeChar_cases (c : Char) :
    (escapeChar c = [c] ∧ c ≠ '"' ∧ c ≠ '\n') ∨
      ∃ first rest, escapeChar c = '\\' :: first :: rest ∧ '"' ∉ rest ∧
        '\n' ∉ '\\' :: first :: rest := by
  have hdigit (n : Nat) : '"' ≠ hexDigit (n % 16) ∧ '\n' ≠ hexDigit (n % 16) :=
    ⟨quote_ne_hexDigit _ (Nat.mod_lt _ (by decide)), lineFeed_ne_hexDigit _ (Nat.mod_lt _ (by decide))⟩
  by_cases hquote : c = '"'
  · exact .inr ⟨'"', [], by simp [escapeChar, hquote]⟩
  · by_cases hfeed : c = '\n'
    · exact .inr ⟨'n', [], by simp [escapeChar, hfeed]⟩
    · unfold escapeChar
      simp only [hquote, hfeed, if_false]
      split_ifs
      any_goals exact .inr ⟨_, [], rfl, by decide, by decide⟩
      · exact .inr ⟨'u', hex4 c.toNat, rfl, by simp [hex4, hdigit], by simp [hex4, hdigit]⟩
      · exact .inl ⟨rfl, hquote, hfeed⟩

/-- A quote inside an escaped text follows a backslash. -/
theorem getLast?_of_escape_eq {cs before after : List Char}
    (h : escape cs = before ++ '"' :: after) : before.getLast? = some '\\' := by
  induction cs generalizing before with
  | nil => simp [escape] at h
  | cons c cs ih =>
    have hcons : escape (c :: cs) = escapeChar c ++ escape cs := List.flatMap_cons
    rw [hcons] at h
    rcases List.append_eq_append_iff.mp h with ⟨behind, rfl, hrest⟩ | ⟨inside, hchar, hquote⟩
    · -- the quote is of a later character
      rw [List.getLast?_append, ih hrest, Option.some_or]
    · cases inside with
      | nil =>
        have hfirst : ([] : List Char).getLast? = some '\\' := ih hquote.symm
        simp at hfirst
      | cons quote inside =>
        obtain ⟨rfl, -⟩ := List.cons.inj hquote
        rcases escapeChar_cases c with ⟨hself, hne, -⟩ | ⟨first, rest, hescaped, hrest, -⟩
        · have hmem : '"' ∈ [c] := by rw [← hself, hchar]; simp
          exact absurd (List.mem_singleton.mp hmem).symm hne
        · rw [hescaped] at hchar
          cases before with
          | nil => cases hchar
          | cons backslash before =>
            obtain ⟨rfl, hbehind⟩ := List.cons.inj hchar
            cases before with
            | nil => rfl
            | cons other before =>
              have hmem : '"' ∈ rest := by
                rw [(List.cons.inj hbehind).2]
                simp
              exact absurd hmem hrest

/-- Before a quote that no backslash precedes, an escaped text ends there or its own quote comes
first. -/
theorem escape_append_cases {cs rest before after : List Char}
    (h : before ++ '"' :: after = escape cs ++ '"' :: rest) (hlast : before.getLast? ≠ some '\\') :
    (before = escape cs ∧ after = rest) ∨
      ∃ behind, before = escape cs ++ '"' :: behind ∧ behind ++ '"' :: after = rest := by
  rcases List.append_eq_append_iff.mp h with ⟨inside, hescape, hquote⟩ | ⟨behind, rfl, hquote⟩
  · cases inside with
    | nil =>
      rw [List.append_nil] at hescape
      exact .inl ⟨hescape.symm, (List.cons.inj hquote).2⟩
    | cons quote inside =>
      obtain ⟨rfl, -⟩ := List.cons.inj hquote
      exact absurd (getLast?_of_escape_eq hescape) hlast
  · cases behind with
    | nil => exact .inl ⟨List.append_nil _, (List.cons.inj hquote).2.symm⟩
    | cons quote behind =>
      obtain ⟨rfl, hrest⟩ := List.cons.inj hquote
      exact .inr ⟨behind, rfl, hrest.symm⟩

/-- Texts without quotes end at the first quote. -/
theorem append_quote_injective {before before' after after' : List Char} (h : '"' ∉ before)
    (h' : '"' ∉ before') (heq : before ++ '"' :: after = before' ++ '"' :: after') :
    before = before' ∧ after = after' := by
  rcases List.append_eq_append_iff.mp heq with ⟨more, rfl, hafter⟩ | ⟨more, rfl, hafter⟩
  · cases more with
    | nil => exact ⟨(List.append_nil _).symm, (List.cons.inj hafter).2⟩
    | cons c more =>
      obtain ⟨rfl, -⟩ := List.cons.inj hafter
      exact absurd (by simp) h'
  · cases more with
    | nil => exact ⟨List.append_nil _, (List.cons.inj hafter).2.symm⟩
    | cons c more =>
      obtain ⟨rfl, -⟩ := List.cons.inj hafter
      exact absurd (by simp) h

theorem lineFeed_not_mem_escape (cs : List Char) : '\n' ∉ escape cs := by
  unfold escape
  rw [List.mem_flatMap]
  rintro ⟨c, -, hmem⟩
  rcases escapeChar_cases c with ⟨hself, -, hne⟩ | ⟨first, rest, hescaped, -, hnone⟩
  · rw [hself] at hmem
    exact hne (List.mem_singleton.mp hmem).symm
  · rw [hescaped] at hmem
    exact hnone hmem

/-! ## Texts without a separator -/

/-- A text without the separator occurs before it or after it. -/
theorem infix_append_cons_iff {sep : Char} {text before after : List Char} (htext : sep ∉ text) :
    text <:+: before ++ sep :: after ↔ text <:+: before ∨ text <:+: after := by
  constructor
  · intro h
    rcases List.infix_append_iff.mp h with hbefore | hafter | ⟨first, second, rfl, hfirst, hsecond⟩
    · exact .inl hbefore
    · rcases List.infix_cons_iff.mp hafter with hprefix | hafter
      · cases text with
        | nil => exact .inr (List.nil_infix)
        | cons c text =>
          obtain ⟨rfl, -⟩ := List.cons_prefix_cons.mp hprefix
          exact absurd List.mem_cons_self htext
      · exact .inr hafter
    · cases second with
      | nil => exact .inl (by simpa using hfirst.isInfix)
      | cons c second =>
        obtain ⟨rfl, -⟩ := List.cons_prefix_cons.mp hsecond
        exact absurd (by simp) htext
  · rintro (h | h)
    · exact h.trans (List.prefix_append _ _).isInfix
    · exact h.trans ((List.suffix_cons _ _).trans (List.suffix_append _ _)).isInfix

theorem infix_joinWith_lineFeed {text : List Char} (hne : text ≠ []) (hfeed : '\n' ∉ text)
    (lines : List String) :
    text <:+: (joinWith "\n" lines).toList ↔ ∃ line ∈ lines, text <:+: line.toList := by
  induction lines with
  | nil => simp [joinWith, hne]
  | cons line rest ih =>
    cases rest with
    | nil => simp [joinWith]
    | cons next rest =>
      have hjoin : (joinWith "\n" (line :: next :: rest)).toList
          = line.toList ++ '\n' :: (joinWith "\n" (next :: rest)).toList := by
        simp [joinWith]
      rw [hjoin, infix_append_cons_iff hfeed, ih]
      simp only [List.exists_mem_cons_iff]

end Text

/-! ## Statements -/

namespace Script

/-- Code up to a quoted literal, and the literal. -/
structure Part where
  code : List Char
  literal : List Char

/-- The text of a statement: its parts with their literals quoted, and the code after them. -/
def statement : List Part → List Char → List Char
  | [], last => last
  | part :: rest, last => part.code ++ Text.quote part.literal ++ statement rest last

/-- Text outside of literals, up to one of them. -/
structure IsCode (code : List Char) : Prop where
  unquoted : '"' ∉ code
  last : code.getLast? ≠ some '\\'

instance (code : List Char) : Decidable (IsCode code) :=
  decidable_of_iff ('"' ∉ code ∧ code.getLast? ≠ some '\\')
    ⟨fun h => ⟨h.1, h.2⟩, fun h => ⟨h.unquoted, h.last⟩⟩

theorem IsCode.append {front code : List Char} (hfront : '"' ∉ front) (h : IsCode code)
    (hne : code ≠ []) : IsCode (front ++ code) := by
  constructor
  · rw [List.mem_append, not_or]
    exact ⟨hfront, h.unquoted⟩
  · rw [List.getLast?_append_of_ne_nil _ hne]
    exact h.last

/-- The literals of a statement are those of its parts. -/
structure WellQuoted (parts : List Part) (last : List Char) : Prop where
  codes : ∀ part ∈ parts, IsCode part.code
  last : '"' ∉ last

theorem WellQuoted.tail {part : Part} {parts : List Part} {last : List Char}
    (h : WellQuoted (part :: parts) last) : WellQuoted parts last :=
  ⟨fun other hother => h.codes other (List.mem_cons_of_mem _ hother), h.last⟩

theorem WellQuoted.head {part : Part} {parts : List Part} {last : List Char}
    (h : WellQuoted (part :: parts) last) : IsCode part.code :=
  h.codes part List.mem_cons_self

/-- How a look-up begins: the code before its first argument. -/
def lookupOpening : List Char :=
  "dbutils.secrets.get(scope=".toList

/-- The code between the arguments of a look-up. -/
def keyArgument : List Char :=
  ", key=".toList

theorem toList_secretLookup (scope key : String) :
    (secretLookup scope key).toList = lookupOpening ++ '"' :: (Text.escape scope.toList ++ '"' ::
      (keyArgument ++ '"' :: (Text.escape key.toList ++ ['"', ')']))) := by
  have hclose : (")" : String).toList = [')'] := by decide
  unfold secretLookup lookupOpening keyArgument
  rw [String.toList_append, String.toList_append, String.toList_append, String.toList_append,
    Text.toList_quoted, Text.toList_quoted, hclose]
  simp only [Text.quote, List.cons_append, List.append_assoc, List.nil_append]

theorem quote_not_mem_lookupOpening : '"' ∉ lookupOpening := by
  decide

theorem getLast?_lookupOpening : lookupOpening.getLast? = some '=' := by
  decide

theorem quote_not_mem_keyArgument : '"' ∉ keyArgument := by
  decide

theorem getLast?_keyArgument : keyArgument.getLast? = some '=' := by
  decide

theorem getLast?_of_lookupOpening_suffix {text : List Char} (h : lookupOpening <:+ text) :
    text.getLast? = some '=' := by
  obtain ⟨front, rfl⟩ := h
  rw [List.getLast?_append, getLast?_lookupOpening, Option.some_or]

/-- A quote in a statement that follows the opening of a look-up begins a literal of the statement,
or it ends one. -/
theorem statement_cases {parts : List Part} {before after last : List Char}
    (hparts : WellQuoted parts last) (hbefore : lookupOpening <:+ before)
    (h : before ++ '"' :: after = statement parts last) :
    (∃ init part rest, parts = init ++ part :: rest ∧ lookupOpening <:+ part.code ∧
        '"' :: after = Text.quote part.literal ++ statement rest last) ∨
      ∃ init part rest, parts = init ++ part :: rest ∧
        lookupOpening <:+ Text.escape part.literal ∧ after = statement rest last := by
  induction parts generalizing before with
  | nil =>
    rw [statement] at h
    exact absurd (by simp [← h]) hparts.last
  | cons part rest ih =>
    have htext : before ++ '"' :: after = part.code ++ '"' ::
        (Text.escape part.literal ++ '"' :: statement rest last) := by
      simpa [statement, Text.quote] using h
    have hcode := hparts.head
    rcases List.append_eq_append_iff.mp htext with ⟨inside, hin, hquote⟩ | ⟨behind, rfl, hquote⟩
    · cases inside with
      | nil =>
        rw [List.append_nil] at hin
        refine .inl ⟨[], part, rest, rfl, hin ▸ hbefore, ?_⟩
        rw [(List.cons.inj hquote).2]
        simp [Text.quote]
      | cons quote inside =>
        obtain ⟨rfl, -⟩ := List.cons.inj hquote
        exact absurd (by simp [hin]) hcode.unquoted
    · cases behind with
      | nil =>
        rw [List.append_nil] at hbefore
        refine .inl ⟨[], part, rest, rfl, hbefore, ?_⟩
        rw [← (List.cons.inj hquote).2]
        simp [Text.quote]
      | cons quote behind =>
        obtain ⟨rfl, hrest⟩ := List.cons.inj hquote
        have hbehind : lookupOpening <:+ behind :=
          Text.suffix_of_suffix_append_cons quote_not_mem_lookupOpening hbefore
        have hlast : behind.getLast? ≠ some '\\' := by
          rw [getLast?_of_lookupOpening_suffix hbehind]
          decide
        rcases Text.escape_append_cases hrest.symm hlast with ⟨rfl, rfl⟩ | ⟨further, rfl, hfurther⟩
        · exact .inr ⟨[], part, rest, rfl, hbehind, rfl⟩
        · -- the quote comes after the literal
          have hsuffix : lookupOpening <:+ further :=
            Text.suffix_of_suffix_append_cons quote_not_mem_lookupOpening hbehind
          rcases ih hparts.tail hsuffix hfurther with
            ⟨init, other, others, rfl, hother⟩ | ⟨init, other, others, rfl, hother⟩
          · exact .inl ⟨part :: init, other, others, rfl, hother⟩
          · exact .inr ⟨part :: init, other, others, rfl, hother⟩

theorem not_unquoted_nil {before after last : List Char} (hlast : '"' ∉ last) :
    before ++ '"' :: after ≠ statement [] last := by
  rintro h
  rw [statement] at h
  exact hlast (by simp [← h])

/-- **Look-ups in a statement.** Two neighbouring literals of the statement are the arguments of the
call, or a literal ends like the beginning of the call and at least two others follow. -/
theorem infix_statement_cases {parts : List Part} {last : List Char}
    (hparts : WellQuoted parts last) {scope key : String}
    (h : (secretLookup scope key).toList <:+: statement parts last) :
    (∃ code, lookupOpening <:+ code ∧
        [⟨code, scope.toList⟩, ⟨keyArgument, key.toList⟩] <:+: parts) ∨
      ∃ part second third, [part, second, third] <:+: parts ∧
        lookupOpening <:+ Text.escape part.literal := by
  obtain ⟨before, after, h⟩ := h
  have htext : (before ++ lookupOpening) ++ '"' :: (Text.escape scope.toList ++ '"' ::
      (keyArgument ++ '"' :: (Text.escape key.toList ++ '"' :: ')' :: after)))
      = statement parts last := by
    rw [← h, toList_secretLookup]
    simp only [List.append_assoc, List.cons_append, List.nil_append]
  rcases statement_cases hparts (List.suffix_append _ _) htext with
    ⟨init, part, rest, rfl, hcode, hrest⟩ | ⟨init, part, rest, rfl, hliteral, hrest⟩
  · -- the first argument is the literal, the second one the next literal
    have hquoted : Text.quote scope.toList ++ (keyArgument ++ '"' ::
        (Text.escape key.toList ++ '"' :: ')' :: after))
        = Text.quote part.literal ++ statement rest last := by
      rw [← hrest]
      simp [Text.quote]
    obtain ⟨hscope, hkey⟩ := Text.quote_append_injective hquoted
    cases rest with
    | nil => exact absurd hkey (not_unquoted_nil hparts.last)
    | cons second rest =>
      have hsecond := hparts.codes second (by simp)
      have hnext : keyArgument ++ '"' :: (Text.escape key.toList ++ '"' :: ')' :: after)
          = second.code ++ '"' :: (Text.escape second.literal ++ '"' :: statement rest last) := by
        rw [hkey]
        simp [statement, Text.quote]
      obtain ⟨hargument, hend⟩ :=
        Text.append_quote_injective quote_not_mem_keyArgument hsecond.unquoted hnext
      have hquoted' : Text.quote key.toList ++ ')' :: after
          = Text.quote second.literal ++ statement rest last := by
        simp [Text.quote, hend]
      obtain ⟨hkey, -⟩ := Text.quote_append_injective hquoted'
      refine .inl ⟨part.code, hcode, init, rest, ?_⟩
      rw [hscope, hargument, hkey]
      simp
  · cases rest with
    | nil => exact absurd hrest (not_unquoted_nil hparts.last)
    | cons second rest =>
      cases rest with
      | cons third rest => exact .inr ⟨part, second, third, ⟨init, rest, by simp⟩, hliteral⟩
      | nil =>
        -- the last literal would have to hold the rest of the call, with its quotes
        have hcode := hparts.codes second (by simp)
        have hsecond : second.code ++ '"' :: (Text.escape second.literal ++ '"' :: last)
            = Text.escape scope.toList ++ '"' :: (keyArgument ++ '"' ::
              (Text.escape key.toList ++ '"' :: ')' :: after)) := by
          rw [hrest]
          simp [statement, Text.quote]
        have hend : keyArgument ++ '"' :: (Text.escape key.toList ++ '"' :: ')' :: after)
            = Text.escape second.literal ++ '"' :: last := by
          rcases Text.escape_append_cases hsecond hcode.last with ⟨-, hend⟩ | ⟨behind, hquote, -⟩
          · exact hend.symm
          · exact absurd (by simp [hquote]) hcode.unquoted
        have hargument : keyArgument.getLast? ≠ some '\\' := by
          rw [getLast?_keyArgument]
          decide
        rcases Text.escape_append_cases hend hargument with ⟨-, hafter⟩ | ⟨behind, hquote, -⟩
        · exact absurd (by simp [← hafter]) hparts.last
        · exact absurd (by simp [hquote]) quote_not_mem_keyArgument

/-- A statement without the code between two arguments has no look-up, if no literal that others
follow ends like the beginning of one. -/
theorem not_infix_statement {parts : List Part} {last : List Char} (hparts : WellQuoted parts last)
    (hcodes : ∀ part ∈ parts, part.code ≠ keyArgument)
    (hliterals : parts.length ≤ 2 ∨ ∀ part ∈ parts, ¬lookupOpening <:+ Text.escape part.literal)
    (scope key : String) : ¬(secretLookup scope key).toList <:+: statement parts last := by
  intro h
  rcases infix_statement_cases hparts h with
    ⟨code, -, hwithin⟩ | ⟨part, second, third, hwithin, hliteral⟩
  · exact hcodes ⟨keyArgument, key.toList⟩ (hwithin.subset (by simp)) rfl
  · rcases hliterals with hlength | hliterals
    · have hlength' := hwithin.length_le
      simp only [List.length_cons, List.length_nil] at hlength'
      omega
    · exact hliterals part (hwithin.subset (by simp)) hliteral

/-- The same for a statement of two literals, which may be any texts. -/
theorem not_infix_two_literals {code next last literal value : List Char}
    (hcode : IsCode code ∧ code ≠ keyArgument) (hnext : IsCode next ∧ next ≠ keyArgument)
    (hlast : '"' ∉ last) (scope key : String) :
    ¬(secretLookup scope key).toList <:+:
      code ++ Text.quote literal ++ (next ++ Text.quote value ++ last) := by
  have hparts : WellQuoted [⟨code, literal⟩, ⟨next, value⟩] last :=
    ⟨by simp [hcode.1, hnext.1], hlast⟩
  exact not_infix_statement hparts (by simp [hcode.2, hnext.2]) (.inl (by simp)) scope key

/-- A statement of one literal and then a look-up has no other look-up. -/
theorem infix_lookup_iff {code literal front last : List Char} {scope key : String}
    (hcode : IsCode code) (hliteral : ¬lookupOpening <:+ Text.escape literal)
    (hfront : '"' ∉ front) (hlast : '"' ∉ last) (scope' key' : String) :
    (secretLookup scope' key').toList <:+:
        code ++ Text.quote literal ++ (front ++ ((secretLookup scope key).toList ++ last)) ↔
      scope' = scope ∧ key' = key := by
  constructor
  · intro h
    have htext : code ++ Text.quote literal ++ (front ++ ((secretLookup scope key).toList ++ last))
        = statement [⟨code, literal⟩, ⟨front ++ lookupOpening, scope.toList⟩,
          ⟨keyArgument, key.toList⟩] (')' :: last) := by
      rw [toList_secretLookup]
      simp [statement, Text.quote]
    have hopening : IsCode (front ++ lookupOpening) :=
      .append hfront (by decide) (by decide +kernel)
    have hargument : IsCode keyArgument := by decide
    have hparts : WellQuoted [⟨code, literal⟩, ⟨front ++ lookupOpening, scope.toList⟩,
        ⟨keyArgument, key.toList⟩] (')' :: last) :=
      ⟨by simp [hcode, hopening, hargument], by simp [hlast]⟩
    rw [htext] at h
    rcases infix_statement_cases hparts h with
      ⟨call, -, hwithin⟩ | ⟨part, second, third, hwithin, hpart⟩
    · -- the arguments are the last two literals
      have hnext : front ++ lookupOpening ≠ keyArgument := by
        intro heq
        have hlength : (front ++ lookupOpening).length = keyArgument.length := congrArg _ heq
        rw [List.length_append, show lookupOpening.length = 26 by decide,
          show keyArgument.length = 6 by decide] at hlength
        omega
      simp only [List.infix_cons_iff, List.cons_prefix_cons, List.infix_nil, Part.mk.injEq] at hwithin
      rcases hwithin with ⟨-, ⟨hsame, -⟩, -⟩ | ⟨⟨-, hscope⟩, ⟨-, hkey⟩, -⟩ | hnone
      · exact absurd hsame.symm hnext
      · exact ⟨String.toList_injective hscope, String.toList_injective hkey⟩
      · simp at hnone
    · have hall := hwithin.eq_of_length rfl
      rw [(List.cons.inj hall).1] at hpart
      exact absurd hpart hliteral
  · rintro ⟨rfl, rfl⟩
    refine ⟨code ++ Text.quote literal ++ front, last, ?_⟩
    simp only [List.append_assoc]

end Script

end FactoryMigration
