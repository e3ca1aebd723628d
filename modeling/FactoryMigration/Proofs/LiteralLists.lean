import FactoryMigration.Proofs.ItemNotations
import FactoryMigration.Proofs.NumeralLanguage

set_option autoImplicit false

/-! # The language of literal lists

A list of literals is blank, or it consists of quoted texts and numbers that are separated by single
commas and may have blanks around them. Its items are the texts without quotes and escapes and the
numbers without a plus sign in front (`Expression.literalList?_language`). -/

namespace FactoryMigration

namespace Expression

/-! ## Literals -/

/-- A text as it stands between quotes, and the text it means: a backslash makes the next character
literal, whichever it is, and there is no other quote of the kind. -/
inductive Unescapes (quote : Char) : List Char → List Char → Prop where
  | nil : Unescapes quote [] []
  | escaped (c : Char) {body text : List Char} (h : Unescapes quote body text) :
      Unescapes quote ('\\' :: c :: body) (c :: text)
  | plain {c : Char} (hquote : c ≠ quote) (hescape : c ≠ '\\') {body text : List Char}
      (h : Unescapes quote body text) : Unescapes quote (c :: body) (c :: text)

/-- A number without the plus sign in front. -/
def withoutPlus : List Char → List Char
  | '+' :: rest => rest
  | cs => cs

/-- A literal and its text: one between equal quotes, or a numeral that begins with a digit, a sign or
a point and goes on without commas and blanks. -/
inductive IsLiteral : List Char → List Char → Prop where
  | quoted {quote : Char} {body text : List Char} (hquote : quote = '\'' ∨ quote = '"')
      (h : Unescapes quote body text) : IsLiteral (quote :: (body ++ [quote])) text
  | number {c : Char} {rest : List Char}
      (hfirst : c.isDigit = true ∨ c = '-' ∨ c = '+' ∨ c = '.')
      (hrun : ∀ d ∈ rest, d ≠ ',' ∧ Text.isBlank d = false)
      (h : Decimal.IsNumeral (c :: rest)) : IsLiteral (c :: rest) (withoutPlus (c :: rest))

/-- Literals with a comma between neighbours and blanks around each, and their texts. A number goes on
up to a comma, a blank or the end. -/
inductive IsLiteralList : List Char → List (List Char) → Prop where
  | last {before literal text after : List Char} (hbefore : ∀ c ∈ before, Text.isBlank c = true)
      (h : IsLiteral literal text) (hafter : ∀ c ∈ after, Text.isBlank c = true) :
      IsLiteralList (before ++ (literal ++ after)) [text]
  | cons {before literal text after rest : List Char} {texts : List (List Char)}
      (hbefore : ∀ c ∈ before, Text.isBlank c = true) (h : IsLiteral literal text)
      (hafter : ∀ c ∈ after, Text.isBlank c = true) (hrest : IsLiteralList rest texts) :
      IsLiteralList (before ++ (literal ++ (after ++ ',' :: rest))) (text :: texts)

/-! ## Reading a literal -/

theorem quote_ne_escape {quote : Char} (h : quote = '\'' ∨ quote = '"') : quote ≠ '\\' := by
  rcases h with rfl | rfl <;> decide

/-- A quoted text is read up to its quote, with what it means. -/
theorem scanLiteral_eq_some_iff {quote : Char} (hquote : quote ≠ '\\') {cs text rest : List Char} :
    scanLiteral quote cs = some (text, rest) ↔
      ∃ body, Unescapes quote body text ∧ cs = body ++ quote :: rest := by
  constructor
  · intro h
    fun_induction scanLiteral quote cs generalizing text with
    | case1 => cases h
    | case2 => cases h
    | case3 c tail ih =>
      obtain ⟨⟨inner, behind⟩, hread, hpair⟩ := Option.map_eq_some_iff.mp h
      obtain ⟨rfl, rfl⟩ := Prod.mk.inj hpair
      obtain ⟨body, hbody, rfl⟩ := ih hread
      exact ⟨_, .escaped c hbody, rfl⟩
    | case4 tail =>
      obtain ⟨rfl, rfl⟩ := Prod.mk.inj (Option.some.inj h)
      exact ⟨[], .nil, rfl⟩
    | case5 c tail hescape hne ih =>
      obtain ⟨⟨inner, behind⟩, hread, hpair⟩ := Option.map_eq_some_iff.mp h
      obtain ⟨rfl, rfl⟩ := Prod.mk.inj hpair
      obtain ⟨body, hbody, rfl⟩ := ih hread
      exact ⟨_, .plain hne hescape hbody, rfl⟩
  · rintro ⟨body, hbody, rfl⟩
    induction hbody with
    | nil => simp [scanLiteral]
    | escaped c h ih => simp [scanLiteral, ih]
    | plain hne hescape h ih => simp [scanLiteral, hne, ih]

theorem startsNumber_iff {c : Char} :
    startsNumber c = true ↔ c.isDigit = true ∨ c = '-' ∨ c = '+' ∨ c = '.' := by
  simp [startsNumber, or_assoc]

theorem isRun_iff {c : Char} : isRun c = true ↔ c ≠ ',' ∧ Text.isBlank c = false := by
  simp [isRun]

/-- A numeral loses one plus sign, since it has no other. -/
theorem dropWhile_plus {number : List Char} (h : Decimal.IsNumeral number) :
    number.dropWhile (· == '+') = withoutPlus number := by
  have hkeep {cs : List Char} (hcs : cs.head? ≠ some '+') : cs.dropWhile (· == '+') = cs := by
    cases cs with
    | nil => rfl
    | cons c rest =>
      have hc : c ≠ '+' := fun heq => hcs (congrArg some heq)
      simp [hc]
  by_cases hplus : number.head? = some '+'
  · obtain ⟨rest, rfl⟩ := List.head?_eq_some_iff.mp hplus
    exact hkeep h.head_ne
  · rw [hkeep hplus]
    unfold withoutPlus
    split
    · exact absurd rfl hplus
    · rfl

/-- What is read as a literal is one, and what follows it is left. -/
theorem exists_of_literal? {cs text rest : List Char} (h : literal? cs = some (text, rest)) :
    ∃ literal, IsLiteral literal text ∧ cs = literal ++ rest := by
  cases cs with
  | nil => cases h
  | cons c tail =>
    simp only [literal?] at h
    split at h
    · rename_i hquote
      obtain ⟨body, hbody, rfl⟩ :=
        (scanLiteral_eq_some_iff (quote_ne_escape hquote)).mp h
      exact ⟨_, .quoted hquote hbody, by simp⟩
    · obtain ⟨hfirst, h⟩ := Option.ite_none_right_eq_some.mp h
      obtain ⟨hnumeral, h⟩ := Option.ite_none_right_eq_some.mp h
      obtain ⟨rfl, rfl⟩ := Prod.mk.inj (Option.some.inj h)
      have hnumeral := Decimal.isNumeral_iff.mp hnumeral
      have hrun : ∀ d ∈ tail.takeWhile isRun, d ≠ ',' ∧ Text.isBlank d = false := fun d hd =>
        isRun_iff.mp (List.mem_takeWhile_imp hd)
      rw [dropWhile_plus hnumeral]
      refine ⟨_, .number (startsNumber_iff.mp hfirst) hrun hnumeral, ?_⟩
      rw [List.cons_append, List.takeWhile_append_dropWhile]

/-- A literal is read with its text if it ends where the text does, or at a comma or blank. -/
theorem IsLiteral.literal?_append {literal text rest : List Char} (h : IsLiteral literal text)
    (hrest : ∀ c ∈ rest.head?, isRun c = false) : literal? (literal ++ rest) = some (text, rest) := by
  cases h with
  | quoted hquote hbody =>
    rw [List.cons_append, literal?, if_pos hquote]
    exact (scanLiteral_eq_some_iff (quote_ne_escape hquote)).mpr ⟨_, hbody, by simp⟩
  | @number c run hfirst hrun hnumeral =>
    have hquote : ¬(c = '\'' ∨ c = '"') := by
      rintro (rfl | rfl) <;> revert hfirst <;> decide
    have hmarks : ∀ d ∈ run, isRun d = true := fun d hd =>
      isRun_iff.mpr (hrun d hd)
    obtain ⟨htake, hdrop⟩ := Text.takeWhile_append hmarks hrest
    rw [List.cons_append, literal?, if_neg hquote, if_pos (startsNumber_iff.mpr hfirst), htake, hdrop,
      if_pos (Decimal.isNumeral_iff.mpr hnumeral), dropWhile_plus hnumeral]

theorem isBlank_of_isDigit {c : Char} (h : c.isDigit = true) : Text.isBlank c = false := by
  have hrange : 48 ≤ c.toNat ∧ c.toNat ≤ 57 := by
    simpa [Char.isDigit, UInt32.le_iff_toNat_le] using h
  simp only [Text.isBlank, Bool.or_eq_false_iff, Bool.and_eq_false_iff, decide_eq_false_iff_not,
    beq_eq_false_iff_ne]
  omega

/-- A literal begins with no blank. -/
theorem IsLiteral.trimStart_append {literal text : List Char} (h : IsLiteral literal text)
    (rest : List Char) : Text.trimStart (literal ++ rest) = literal ++ rest := by
  apply Text.trimStart_eq_self
  cases h with
  | quoted hquote =>
    rintro _ ⟨⟩
    rcases hquote with rfl | rfl <;> rfl
  | number hfirst =>
    rintro _ ⟨⟩
    rcases hfirst with hdigit | rfl | rfl | rfl
    · exact isBlank_of_isDigit hdigit
    all_goals rfl

/-! ## Reading a list -/

/-- Blanks end a number, as does what may follow them. -/
theorem isRun_head_append {after rest : List Char} (hafter : ∀ c ∈ after, Text.isBlank c = true)
    (hrest : ∀ c ∈ rest.head?, isRun c = false) : ∀ c ∈ (after ++ rest).head?, isRun c = false := by
  cases after with
  | nil => exact hrest
  | cons c after =>
    rintro _ ⟨⟩
    have hc : Text.isBlank c = true := hafter c List.mem_cons_self
    simp [isRun, hc]

section

variable {before literal text after : List Char} (hbefore : ∀ c ∈ before, Text.isBlank c = true)
  (h : IsLiteral literal text) (hafter : ∀ c ∈ after, Text.isBlank c = true)

include hbefore h

theorem IsLiteral.literal?_trimStart {rest : List Char} (hrest : ∀ c ∈ rest.head?, isRun c = false) :
    literal? (Text.trimStart (before ++ (literal ++ rest))) = some (text, rest) := by
  rw [Text.trimStart_append hbefore, h.trimStart_append, h.literal?_append hrest]

include hafter

theorem IsLiteral.literals?_last :
    literals? (before ++ (literal ++ after)) = some [text] := by
  have hend : ∀ c ∈ (after ++ []).head?, isRun c = false := isRun_head_append hafter nofun
  have hblank : Text.trimStart after = [] := List.dropWhile_eq_nil_iff.mpr hafter
  rw [List.append_nil] at hend
  rw [literals?_eq (h.literal?_trimStart hbefore hend), hblank]

theorem IsLiteral.literals?_cons (rest : List Char) :
    literals? (before ++ (literal ++ (after ++ ',' :: rest)))
      = (literals? rest).map (text :: ·) := by
  have hend : ∀ c ∈ (after ++ ',' :: rest).head?, isRun c = false :=
    isRun_head_append hafter (by rintro _ ⟨⟩; rfl)
  have hcomma : Text.trimStart (after ++ ',' :: rest) = ',' :: rest :=
    Text.trimStart_append hafter _
  rw [literals?_eq (h.literal?_trimStart hbefore hend), hcomma]
  rfl

end

theorem isLiteralList_of_literals? {cs : List Char} {texts : List (List Char)}
    (h : literals? cs = some texts) : IsLiteralList cs texts := by
  fun_induction literals? cs generalizing texts with
  | case1 cs hread => cases h
  | case2 cs text rest hread hend =>
    obtain rfl := Option.some.inj h
    obtain ⟨before, hbefore, hcs⟩ := Text.exists_trimStart cs
    obtain ⟨literal, hliteral, htrim⟩ := exists_of_literal? hread
    obtain ⟨after, hafter, hrest⟩ := Text.exists_trimStart rest
    rw [hend, List.append_nil] at hrest
    rw [hcs, htrim, hrest]
    exact .last hbefore hliteral hafter
  | case3 cs text rest hread more hcomma ih =>
    obtain ⟨texts, hmore, rfl⟩ := Option.map_eq_some_iff.mp h
    obtain ⟨before, hbefore, hcs⟩ := Text.exists_trimStart cs
    obtain ⟨literal, hliteral, htrim⟩ := exists_of_literal? hread
    obtain ⟨after, hafter, hrest⟩ := Text.exists_trimStart rest
    rw [hcs, htrim, hrest, hcomma]
    exact .cons hbefore hliteral hafter (ih hmore)
  | case4 => cases h

/-- **Lists.** A text is read as a list of literals exactly if it is one, with the texts of its
literals. -/
theorem literals?_eq_some_iff {cs : List Char} {texts : List (List Char)} :
    literals? cs = some texts ↔ IsLiteralList cs texts := by
  refine ⟨isLiteralList_of_literals?, fun h => ?_⟩
  induction h with
  | last hbefore h hafter => exact h.literals?_last hbefore hafter
  | cons hbefore h hafter hrest ih => rw [h.literals?_cons hbefore hafter, ih, Option.map_some]

/-! ## Texts that are refused -/

/-- No literal begins here: the text is at its end, its first character begins none, as that of a call
or of a nested list, or it is a quote that is not closed. -/
inductive BeginsNone : List Char → Prop where
  | nil : BeginsNone []
  | other {c : Char} (rest : List Char) (hblank : Text.isBlank c = false)
      (hquote : c ≠ '\'' ∧ c ≠ '"') (hnumber : ¬(c.isDigit = true ∨ c = '-' ∨ c = '+' ∨ c = '.')) :
      BeginsNone (c :: rest)
  | unclosed {quote : Char} {body text ending : List Char} (hquote : quote = '\'' ∨ quote = '"')
      (h : Unescapes quote body text) (hending : ending = [] ∨ ending = ['\\']) :
      BeginsNone (quote :: (body ++ ending))

/-- At the beginning of a list, or behind one of its commas, there is no literal. -/
inductive Breaks : List Char → Prop where
  | here {before rest : List Char} (hbefore : ∀ c ∈ before, Text.isBlank c = true)
      (h : BeginsNone rest) : Breaks (before ++ rest)
  | later {before literal text after rest : List Char}
      (hbefore : ∀ c ∈ before, Text.isBlank c = true) (h : IsLiteral literal text)
      (hafter : ∀ c ∈ after, Text.isBlank c = true) (hrest : Breaks rest) :
      Breaks (before ++ (literal ++ (after ++ ',' :: rest)))

theorem scanLiteral_unclosed {quote : Char} {body text ending : List Char}
    (h : Unescapes quote body text) (hending : ending = [] ∨ ending = ['\\']) :
    scanLiteral quote (body ++ ending) = none := by
  induction h with
  | nil => rcases hending with rfl | rfl <;> rfl
  | escaped c h ih => simp [scanLiteral, ih]
  | plain hquote hescape h ih => simp [scanLiteral, hquote, ih]

theorem BeginsNone.literal?_eq_none {cs : List Char} (h : BeginsNone cs) :
    literal? (Text.trimStart cs) = none := by
  cases h with
  | nil => rfl
  | @other c rest hblank hquote hnumber =>
    have htrim : Text.trimStart (c :: rest) = c :: rest :=
      Text.trimStart_eq_self (by rintro _ ⟨⟩; exact hblank)
    rw [htrim, literal?, if_neg (not_or.mpr hquote), if_neg (mt startsNumber_iff.mp hnumber)]
  | @unclosed quote body text ending hquote h hending =>
    have htrim : Text.trimStart (quote :: (body ++ ending)) = quote :: (body ++ ending) :=
      Text.trimStart_eq_self (by rintro _ ⟨⟩; rcases hquote with rfl | rfl <;> rfl)
    rw [htrim, literal?, if_pos hquote, scanLiteral_unclosed h hending]

theorem Breaks.literals?_eq_none {cs : List Char} (h : Breaks cs) : literals? cs = none := by
  induction h with
  | @here before rest hbefore h =>
    have hread : literal? (Text.trimStart (before ++ rest)) = none := by
      rw [Text.trimStart_append hbefore, h.literal?_eq_none]
    rw [literals?]
    split
    · rfl
    · rename_i hsome
      rw [hread] at hsome
      cases hsome
  | later hbefore h hafter hrest ih => rw [h.literals?_cons hbefore hafter, ih, Option.map_none]

/-! ## The language -/

theorem isLiteralList_ne_nil {cs : List Char} {texts : List (List Char)}
    (h : IsLiteralList cs texts) : cs ≠ [] := by
  rintro rfl
  have hread := literals?_eq_some_iff.mpr h
  have hnone : literals? [] = none :=
    Breaks.literals?_eq_none (@Breaks.here [] [] (List.forall_mem_nil _) .nil)
  rw [hnone] at hread
  cases hread

theorem literalList?_eq_some_iff {cs : List Char} {texts : List (List Char)} :
    literalList? cs = some texts ↔
      Text.trim cs = [] ∧ texts = [] ∨ IsLiteralList (Text.trim cs) texts := by
  unfold literalList?
  split
  · rename_i hblank
    constructor
    · intro h
      exact .inl ⟨hblank, (Option.some.inj h).symm⟩
    · rintro (⟨-, rfl⟩ | h)
      · rfl
      · exact absurd hblank (isLiteralList_ne_nil h)
  · rename_i hfilled
    rw [literals?_eq_some_iff]
    exact ⟨.inr, fun h => h.resolve_left fun hblank => hfilled hblank.1⟩

/-- **Language.** A text is read as a list exactly if it is blank, and then without items, or if it is
a list of literals without the blanks around it, and then its items are their texts. Every other text
is refused, so one with a call, a nested list or an open quote in the place of a literal. -/
theorem literalList?_language (cs : List Char) :
    (∀ texts, literalList? cs = some texts ↔
      Text.trim cs = [] ∧ texts = [] ∨ IsLiteralList (Text.trim cs) texts) ∧
    (literalList? cs = none ↔
      Text.trim cs ≠ [] ∧ ∀ texts, ¬IsLiteralList (Text.trim cs) texts) ∧
    (Text.trim cs ≠ [] → Breaks (Text.trim cs) → literalList? cs = none) := by
  refine ⟨fun texts => literalList?_eq_some_iff, ⟨fun hnone => ?_, ?_⟩, fun hfilled hbreaks => ?_⟩
  · have hnot (texts : List (List Char))
        (h : Text.trim cs = [] ∧ texts = [] ∨ IsLiteralList (Text.trim cs) texts) : False := by
      rw [literalList?_eq_some_iff.mpr h] at hnone
      cases hnone
    exact ⟨fun hblank => hnot [] (.inl ⟨hblank, rfl⟩), fun texts h => hnot texts (.inr h)⟩
  · rintro ⟨hfilled, hnot⟩
    rw [Option.eq_none_iff_forall_ne_some]
    intro texts hread
    rcases literalList?_eq_some_iff.mp hread with ⟨hblank, -⟩ | h
    · exact hfilled hblank
    · exact hnot texts h
  · rw [literalList?, if_neg hfilled, hbreaks.literals?_eq_none]

/-- A quote in a quoted text, and a number with a sign, a point and an exponent; then a call and an
open quote behind a comma. -/
theorem mixedLists_read :
    literalList? "'it\\'s' ,+2.5E3 ".toList = some ["it's".toList, "2.5E3".toList] ∧
    literalList? "1, concat('a')".toList = none ∧ literalList? "1, 'a\\'".toList = none := by
  have hnone : ∀ c ∈ ([] : List Char), Text.isBlank c = true := List.forall_mem_nil _
  have hblank : ∀ c ∈ [' '], Text.isBlank c = true := List.forall_mem_singleton.mpr rfl
  have hdigit (c : Char) (h : c.isDigit = true) : ∀ d ∈ [c], d.isDigit = true :=
    List.forall_mem_singleton.mpr h
  -- the list
  have hquoted : IsLiteral "'it\\'s'".toList "it's".toList :=
    .quoted (.inl rfl) (.plain (by decide) (by decide) (.plain (by decide) (by decide)
      (.escaped '\'' (.plain (by decide) (by decide) .nil))))
  have hnumeral : Decimal.IsNumeral "+2.5E3".toList :=
    .finite (.inr (.inl rfl)) (.pointed (.inl (by decide)) (hdigit '2' rfl) (hdigit '5' rfl))
      (.mk (.inr rfl) (.inl rfl) (by decide) (hdigit '3' rfl))
  have hmarks : "2.5E3".toList.all isRun = true := rfl
  have hsigned : IsLiteral "+2.5E3".toList "2.5E3".toList :=
    .number (.inr (.inr (.inl rfl))) (fun d hd => isRun_iff.mp (List.all_eq_true.mp hmarks d hd))
      hnumeral
  have hlist : IsLiteralList "'it\\'s' ,+2.5E3".toList ["it's".toList, "2.5E3".toList] :=
    @IsLiteralList.cons [] _ _ _ _ _ hnone hquoted hblank
      (@IsLiteralList.last [] _ _ [] hnone hsigned hnone)
  -- the call and the open quote
  have hone : IsLiteral ['1'] ['1'] :=
    .number (.inl rfl) (List.forall_mem_nil _)
      (.finite (.inl rfl) (.whole (by decide) (hdigit '1' rfl)) .nil)
  have hcall : Breaks "1, concat('a')".toList :=
    @Breaks.later [] _ _ [] _ hnone hone hnone
      (.here hblank (.other _ rfl (by decide) (by decide)))
  have hopen : Breaks "1, 'a\\'".toList :=
    @Breaks.later [] _ _ [] _ hnone hone hnone
      (.here hblank (.unclosed (.inl rfl)
        (.plain (by decide) (by decide) (.escaped '\'' .nil)) (.inl rfl)))
  exact ⟨((literalList?_language _).1 _).mpr (.inr hlist),
    (literalList?_language _).2.2 (by decide) hcall, (literalList?_language _).2.2 (by decide) hopen⟩

end Expression

end FactoryMigration
