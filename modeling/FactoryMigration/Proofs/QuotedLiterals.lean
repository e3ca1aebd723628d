import FactoryMigration.Proofs.OptionStatements
import FactoryMigration.Proofs.ScriptModes

set_option autoImplicit false

/-! # Quoted texts in scripts

A quoted text is a literal of the text, wherever it stands: its quotes are escaped, it has no control
characters, and the escapes it has are read back. So the statements of option blocks and the projection
of a copy show the texts they take over as literals, each on one line and with code around it
(`Script.quoted_literals`). -/

namespace FactoryMigration

namespace Text

/-! ## What stands between the quotes -/

/-- Text in which every quote is behind the backslash of its escape. -/
inductive QuotesEscaped : List Char → Prop where
  | nil : QuotesEscaped []
  | plain {c : Char} {text : List Char} (hquote : c ≠ '"') (hbackslash : c ≠ '\\')
      (h : QuotesEscaped text) : QuotesEscaped (c :: text)
  | escape {c : Char} {text : List Char} (h : QuotesEscaped text) :
      QuotesEscaped ('\\' :: c :: text)

/-- No control characters. -/
def IsPrinted (text : List Char) : Prop :=
  ∀ c ∈ text, 0x20 ≤ c.toNat

instance (text : List Char) : Decidable (IsPrinted text) :=
  List.decidableBAll (fun c : Char => 0x20 ≤ c.toNat) text

theorem IsPrinted.append {first second : List Char} (hfirst : IsPrinted first)
    (hsecond : IsPrinted second) : IsPrinted (first ++ second) :=
  List.forall_mem_append.mpr ⟨hfirst, hsecond⟩

theorem isPlainChar_hexDigit : ∀ n < 16, IsPlainChar (hexDigit n) := by
  decide

theorem isPlainChar_of_mem_hex4 {n : Nat} {c : Char} (h : c ∈ hex4 n) : IsPlainChar c := by
  simp only [hex4, List.mem_cons, List.not_mem_nil, or_false] at h
  rcases h with rfl | rfl | rfl | rfl
  all_goals exact isPlainChar_hexDigit _ (Nat.mod_lt _ (by decide))

theorem QuotesEscaped.append_of_plain {front text : List Char} (hfront : ∀ c ∈ front, IsPlainChar c)
    (h : QuotesEscaped text) : QuotesEscaped (front ++ text) := by
  induction front with
  | nil => exact h
  | cons c front ih =>
    obtain ⟨⟨hquote, hbackslash, -⟩, hrest⟩ := List.forall_mem_cons.mp hfront
    exact .plain hquote hbackslash (ih hrest)

theorem quotesEscaped_escape (cs : List Char) : QuotesEscaped (escape cs) := by
  induction cs with
  | nil => exact .nil
  | cons c cs ih =>
    have hcons : escape (c :: cs) = escapeChar c ++ escape cs := List.flatMap_cons
    rw [hcons]
    rcases escapeChar_forms c with ⟨hplain, hself⟩ | ⟨-, ⟨letter, -, hescaped⟩ | ⟨-, hescaped⟩⟩
    · rw [hself]
      exact .plain hplain.1 hplain.2.1 ih
    · rw [hescaped]
      exact .escape ih
    · rw [hescaped]
      exact .escape (.append_of_plain (fun d hd => isPlainChar_of_mem_hex4 hd) ih)

theorem isPrinted_escapeChar (c : Char) : IsPrinted (escapeChar c) := by
  rcases escapeChar_forms c with ⟨hplain, hself⟩ | ⟨-, ⟨letter, hletter, hescaped⟩ | ⟨-, hescaped⟩⟩
  · rw [hself]
    exact List.forall_mem_singleton.mpr hplain.2.2
  · have hprinted : 0x20 ≤ letter.toNat := by
      unfold Script.letterEscape? at hletter
      split at hletter
      any_goals decide
      cases hletter
    rw [hescaped]
    exact List.forall_mem_cons.mpr ⟨by decide, List.forall_mem_singleton.mpr hprinted⟩
  · rw [hescaped]
    refine List.forall_mem_cons.mpr ⟨by decide, List.forall_mem_cons.mpr ⟨by decide, ?_⟩⟩
    intro d hd
    exact (isPlainChar_of_mem_hex4 hd).2.2

theorem isPrinted_escape (cs : List Char) : IsPrinted (escape cs) := by
  intro d hd
  obtain ⟨c, -, hd⟩ := List.mem_flatMap.mp hd
  exact isPrinted_escapeChar c d hd

theorem isPrinted_quote (cs : List Char) : IsPrinted (quote cs) :=
  IsPrinted.append (List.forall_mem_cons.mpr ⟨by decide, isPrinted_escape cs⟩) (by decide)

end Text

namespace Script

open Mode (IsPlainCode)
open Text (IsPrinted)

/-! ## Reading what has been quoted -/

theorem escape?_of_letterEscape? {letter c : Char} (h : letterEscape? letter = some c)
    (rest : List Char) : escape? (letter :: rest) = some ([c], rest) := by
  unfold letterEscape? at h
  split at h
  all_goals cases h
  all_goals simp [escape?, escapedCharacter?]

theorem characterOf?_hex4 : ∀ n < 0x20, characterOf? 16 (Text.hex4 n) = some (Char.ofNat n) := by
  decide

theorem all_isHexDigit_hex4 : ∀ n < 0x20, (Text.hex4 n).all isHexDigit = true := by
  decide

theorem escape?_hex4 {c : Char} (hc : c.toNat < 0x20) (rest : List Char) :
    escape? ('u' :: (Text.hex4 c.toNat ++ rest)) = some ([c], rest) := by
  have htake : (Text.hex4 c.toNat ++ rest).take 4 = Text.hex4 c.toNat := rfl
  have hdrop : (Text.hex4 c.toNat ++ rest).drop 4 = rest := rfl
  have hlength : (Text.hex4 c.toNat).length = 4 := rfl
  have hescape : escape? ('u' :: (Text.hex4 c.toNat ++ rest))
      = hexEscape? 4 (Text.hex4 c.toNat ++ rest) := by
    simp [escape?]
  rw [hescape, hexEscape?, htake, hdrop, if_pos ⟨hlength, all_isHexDigit_hex4 _ hc⟩,
    characterOf?_hex4 _ hc, Char.ofNat_toNat]
  rfl

/-- One escaped character is read back, and then what follows it. -/
theorem scanLiteral?_escapeChar (c : Char) (rest : List Char) :
    scanLiteral? (Text.escapeChar c ++ rest)
      = (scanLiteral? rest).map fun (text, behind) => (c :: text, behind) := by
  rcases Text.escapeChar_forms c with ⟨⟨hquote, hbackslash, hcontrol⟩, hself⟩ |
    ⟨-, ⟨letter, hletter, hescaped⟩ | ⟨hcontrol, hescaped⟩⟩
  · have hend : ¬(c = '\n' ∨ c = '\r' ∨ c = '\x00') := by
      rintro (rfl | rfl | rfl) <;> exact absurd hcontrol (by decide)
    rw [hself, List.singleton_append, scanLiteral?, if_neg hend]
    · exact hquote
    · exact hbackslash
  · rw [hescaped]
    exact scanLiteral?_escape (escape?_of_letterEscape? hletter rest)
  · rw [hescaped]
    exact scanLiteral?_escape (escape?_hex4 hcontrol rest)

theorem scanLiteral?_escape_append (cs behind : List Char) :
    scanLiteral? (Text.escape cs ++ '"' :: behind) = some (cs, behind) := by
  induction cs with
  | nil =>
    show scanLiteral? ('"' :: behind) = _
    rw [scanLiteral?]
  | cons c cs ih =>
    have hcons : Text.escape (c :: cs) = Text.escapeChar c ++ Text.escape cs := List.flatMap_cons
    rw [hcons, List.append_assoc, scanLiteral?_escapeChar, ih]
    rfl

theorem head?_escapeChar_ne (c : Char) (rest : List Char) :
    (Text.escapeChar c ++ rest).head? ≠ some '"' := by
  rcases Text.escapeChar_forms c with ⟨⟨hquote, -, -⟩, hself⟩ |
    ⟨-, ⟨letter, -, hescaped⟩ | ⟨-, hescaped⟩⟩
  · rw [hself]
    simpa using hquote
  · rw [hescaped]
    simp
  · rw [hescaped]
    simp

/-- A quoted text is a literal where it stands, unless another quote follows. -/
theorem literal?_quote (cs : List Char) {behind : List Char} (hbehind : behind.head? ≠ some '"') :
    literal? (Text.quote cs ++ behind) = some (cs, behind) := by
  have htext : Text.quote cs ++ behind = '"' :: (Text.escape cs ++ '"' :: behind) := by
    simp [Text.quote]
  rw [htext, literal?_cons, scanLiteral?_escape_append]
  intro more heq
  cases cs with
  | nil =>
    have hmore : behind = '"' :: more := (List.cons.inj heq).2
    rw [hmore] at hbehind
    exact hbehind rfl
  | cons c cs =>
    have hcons : Text.escape (c :: cs) = Text.escapeChar c ++ Text.escape cs := List.flatMap_cons
    refine head?_escapeChar_ne c (Text.escape cs ++ '"' :: behind) ?_
    rw [← List.append_assoc, ← hcons, heq]
    rfl

/-! ## Scripts with literals -/

/-- A script shows these texts: it is code with literals of them, one after another. No literal has a
control character, so it stands on one line. -/
inductive HasLiterals : List Char → List String → Prop where
  | code {code : List Char} (h : IsPlainCode code) : HasLiterals code []
  | literal {code written behind : List Char} {text : String} {texts : List String}
      (hcode : IsPlainCode code) (hwritten : IsPrinted written)
      (hread : literal? (written ++ behind) = some (text.toList, behind))
      (h : HasLiterals behind texts) : HasLiterals (code ++ (written ++ behind)) (text :: texts)

theorem head?_ne_of_isPlainCode {code : List Char} (h : IsPlainCode code) :
    code.head? ≠ some '"' := by
  intro hhead
  obtain ⟨rest, rfl⟩ := List.head?_eq_some_iff.mp hhead
  exact h '"' List.mem_cons_self (by simp)

theorem hasLiterals_statement {parts : List Part} {last : List Char} {texts : List String}
    (hparts : ∀ code ∈ parts.map Part.code, IsJoint code) (hlast : IsPlainCode last)
    (htexts : parts.map Part.literal = texts.map String.toList) :
    HasLiterals (statement parts last) texts := by
  induction parts generalizing texts with
  | nil =>
    obtain rfl : texts = [] := List.map_eq_nil_iff.mp htexts.symm
    exact .code hlast
  | cons part rest ih =>
    cases texts with
    | nil => cases htexts
    | cons text texts =>
      obtain ⟨htext, hbehind⟩ := List.cons.inj htexts
      obtain ⟨hpart, hrest⟩ := List.forall_mem_cons.mp hparts
      -- the next literal does not follow at once
      have hapart : (statement rest last).head? ≠ some '"' := by
        cases rest with
        | nil => exact head?_ne_of_isPlainCode hlast
        | cons next others =>
          obtain ⟨c, code, hcode, hc⟩ := (hrest next.code List.mem_cons_self).exists_cons
          rw [statement, hcode]
          simpa using hc
      rw [statement, List.append_assoc]
      refine .literal hpart.1 (Text.isPrinted_quote part.literal) ?_ (ih hrest hbehind)
      rw [literal?_quote part.literal hapart, htext]

theorem Quotes.hasLiterals {text : String} {literals : List String} (h : Quotes text literals) :
    HasLiterals text.toList literals := by
  obtain ⟨parts, last, htext, hparts, hlast, hliterals⟩ := h
  rw [htext]
  exact hasLiterals_statement hparts hlast hliterals

/-! ## Option blocks -/

theorem IsName.isPrinted {name : String} (h : IsName name) : IsPrinted name.toList := by
  intro c hc
  by_contra hcontrol
  have hnone : ∀ n < 0x20, isNameCharacter (Char.ofNat n) = false := by decide
  have hname := h.2 c hc
  rw [← Char.ofNat_toNat c, hnone c.toNat (Nat.lt_of_not_le hcontrol)] at hname
  cases hname

section

variable {name : String}

theorem isPrinted_setOption (hname : IsPrinted name.toList) {option expression : String}
    (hoption : Plain option) (h : IsPrinted expression.toList) :
    IsPrinted (setOption name option expression).toList := by
  rw [toList_setOption hoption, optionCode]
  exact ((hname.append (by decide)).append (Text.isPrinted_quote _)).append
    (IsPrinted.append (by decide) h)

theorem isPrinted_secretLookup (scope key : String) : IsPrinted (secretLookup scope key).toList := by
  have hopening : IsPrinted lookupOpening := by decide
  have hbetween : IsPrinted keyArgument := by decide
  have htext : (secretLookup scope key).toList = lookupOpening ++ (Text.quote scope.toList
      ++ (keyArgument ++ (Text.quote key.toList ++ [')']))) := by
    simp [toList_secretLookup, Text.quote]
  rw [htext]
  exact hopening.append ((Text.isPrinted_quote _).append
    (hbetween.append ((Text.isPrinted_quote _).append (by decide))))

theorem isPrinted_statement {parts : List Part} {last : List Char}
    (hparts : ∀ code ∈ parts.map Part.code, IsPrinted code) (hlast : IsPrinted last) :
    IsPrinted (statement parts last) := by
  induction parts with
  | nil => exact hlast
  | cons part rest ih =>
    obtain ⟨hpart, hrest⟩ := List.forall_mem_cons.mp hparts
    exact (hpart.append (Text.isPrinted_quote _)).append (ih hrest)

/-- The statements of option blocks take one line each. -/
theorem SetsUp.isPrinted {scope line : String} {texts : List String}
    (h : SetsUp scope name line texts) (hname : IsPrinted name.toList) : IsPrinted line.toList := by
  cases h with
  | nothing =>
    rw [noOptions, String.toList_append]
    exact hname.append (by decide)
  | value hoption value =>
    refine isPrinted_setOption hname hoption ?_
    rw [Text.toList_quoted]
    exact Text.isPrinted_quote value.toList
  | secret hoption key => exact isPrinted_setOption hname hoption (isPrinted_secretLookup scope key)
  | address =>
    have hoptions : IsPrinted (optionCode name) := hname.append (by decide)
    rw [toList_serverAddress]
    refine isPrinted_statement ?_ (by decide)
    simp only [List.map_cons, List.map_nil, List.forall_mem_cons, List.not_mem_nil,
      IsEmpty.forall_iff, implies_true, and_true]
    exact ⟨hoptions, by decide, IsPrinted.append (by decide) hoptions, by decide,
      IsPrinted.append (by decide) hoptions⟩
  | limit records =>
    rw [toList_recordLimit]
    refine isPrinted_statement ?_ (by decide)
    simp only [List.map_cons, List.map_nil]
    decide
  | access service =>
    rw [toList_accountAccess]
    exact (IsPrinted.append (by decide) (Text.isPrinted_quote _)).append
      (IsPrinted.append (by decide) ((isPrinted_secretLookup _ _).append (by decide)))

end

/-- **Quoted texts.** A quoted text begins and ends with a quote. In between every quote is escaped and
there is no control character, and the value of the literal is the text. The option blocks of a copy
and its projection show the texts that have been quoted: each is one literal, and it is on one line. A
statement of an option block has no control character at all. -/
theorem quoted_literals :
    (∀ s : String, ∃ body, (Text.quoted s).toList = '"' :: (body ++ ['"']) ∧ IsPrinted body ∧
      Text.QuotesEscaped body ∧ literalValue? (Text.quoted s) = some s) ∧
    (∀ (scope : String) (copy : Copy), ∀ side ∈ scriptSides copy, ∀ line ∈ side.block scope,
      IsPrinted line.toList ∧
        ∃ texts, SetsUp scope side.name line texts ∧ HasLiterals line.toList texts) ∧
    ∀ (sink : Format) (copy : Copy),
      HasLiterals (projection (Names.ofCopy copy) sink copy.columns).value.toList
        (copy.columns.map fun column => (projectColumn sink column).value) := by
  refine ⟨fun s => ?_, fun scope copy => ?_, fun sink copy => ?_⟩
  · refine ⟨Text.escape s.toList, ?_, Text.isPrinted_escape _, Text.quotesEscaped_escape _,
      literalValue?_quoted s⟩
    rw [Text.toList_quoted, Text.quote, List.cons_append]
  · obtain ⟨hsource, hsink⟩ := Names.isName_ofCopy copy
    have hsides : ∀ side ∈ scriptSides copy, IsName side.name :=
      forall_scriptSides.mpr ⟨hsource, hsink⟩
    intro side hside line hline
    obtain ⟨texts, hline⟩ := exists_setsUp_of_mem hline
    have hname := hsides side hside
    exact ⟨hline.isPrinted hname.isPrinted, texts, hline, (hline.quotes hname.isPlainCode).hasLiterals⟩
  · obtain ⟨hsource, hsink⟩ := Names.isName_ofCopy copy
    exact (quotes_projection hsource.isPlainCode hsink.isPlainCode sink copy.columns).hasLiterals

/-- A copy of a text file whose fields are between quotes. One of its columns has a line feed in its
name. -/
def quotedFields : Copy where
  source := .file ⟨"rows", .csv, "raw", "rows.csv", [("quote", "\"")],
    ⟨"lake", "lake01", "https://lake01.blob.core.windows.net/", none⟩⟩
  sink := .delta ⟨"prices", none, "sales", "prices", "tables"⟩
  sourceSide := ⟨.file .csv, []⟩
  sinkSide := ⟨.delta, []⟩
  columns := [⟨"unit\nprice", "price", none⟩]

theorem quotedFields_literals :
    (∃ side ∈ scriptSides quotedFields, ∃ line ∈ side.block "credentials",
      line = "rows_options[\"quote\"] = \"\\\"\"" ∧ IsPrinted line.toList ∧
        ∃ texts, HasLiterals line.toList texts) ∧
    HasLiterals "prices_df = rows_df.selectExpr(\n    \"`unit\\nprice` as `price`\",\n)".toList
      ["`unit\nprice` as `price`"] := by
  obtain ⟨-, hlines, hprojections⟩ := quoted_literals
  constructor
  · have hside : (scriptSides quotedFields)[0] ∈ scriptSides quotedFields := List.getElem_mem _
    have hline : "rows_options[\"quote\"] = \"\\\"\""
        ∈ (scriptSides quotedFields)[0].block "credentials" := by
      decide +kernel
    obtain ⟨hprinted, texts, -, hliterals⟩ := hlines _ _ _ hside _ hline
    exact ⟨_, hside, _, hline, rfl, hprinted, texts, hliterals⟩
  · have hprojection := hprojections .delta quotedFields
    have hvalue : (projection (Names.ofCopy quotedFields) .delta quotedFields.columns).value
        = "prices_df = rows_df.selectExpr(\n    \"`unit\\nprice` as `price`\",\n)" := by
      decide +kernel
    rw [hvalue] at hprojection
    exact hprojection

end Script

end FactoryMigration
