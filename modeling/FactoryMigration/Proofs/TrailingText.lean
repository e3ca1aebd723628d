import FactoryMigration.Proofs.ConditionLanguage
import FactoryMigration.Proofs.ItemNotations

set_option autoImplicit false

/-! # Text after a call

Conditions and item lists are read from a call at the beginning of a text. What follows its closing
parenthesis is dropped without a word: unless the text as a whole is a call, it is read like the call
alone, or with any other text after it that has no parenthesis (`Expression.trailing_dropped`). -/

namespace FactoryMigration

/-! ## Texts after a parenthesis -/

namespace Text

/-- A text without the character `c` follows everything that ends with it. -/
theorem exists_of_append_eq_append {c : Char} {front call rest other : List Char}
    (hclosed : call.getLast? = some c) (hother : c ∉ other) (h : front ++ other = call ++ rest) :
    ∃ between, front = call ++ between ∧ rest = between ++ other := by
  rcases List.append_eq_append_iff.mp h with ⟨more, hcall, hmore⟩ | ⟨between, hfront, hrest⟩
  · cases more with
    | nil => exact ⟨[], by simpa using hcall.symm, by simpa using hmore.symm⟩
    | cons d more =>
      -- the last character of the call stands in the other text
      have hlast : (d :: more).getLast? = some c := by
        rw [hcall, List.getLast?_append] at hclosed
        simpa using hclosed
      have hmem : c ∈ other := by
        rw [hmore]
        exact List.mem_append_left rest (List.mem_of_getLast? hlast)
      exact absurd hmem hother
  · exact ⟨between, hfront, hrest⟩

theorem exists_of_append_eq_append_of_length_le {front rest front' rest' : List Char}
    (h : front ++ rest = front' ++ rest') (hle : front.length ≤ front'.length) :
    ∃ more, front' = front ++ more ∧ rest = more ++ rest' := by
  obtain ⟨more, rfl⟩ := List.prefix_of_prefix_length_le (List.prefix_append front rest)
    (h ▸ List.prefix_append front' rest') hle
  rw [List.append_assoc] at h
  exact ⟨more, rfl, List.append_cancel_left h⟩

theorem not_mem_trimEnd {c : Char} {cs : List Char} (h : c ∉ cs) : c ∉ trimEnd cs := by
  obtain ⟨blanks, -, hcs⟩ := exists_trimEnd cs
  rw [hcs] at h
  exact fun hmem => h (List.mem_append_left _ hmem)

theorem trimEnd_append_of_getLast {cs : List Char} (h : ∀ c ∈ cs.getLast?, isBlank c = false)
    (more : List Char) : trimEnd (cs ++ more) = cs ++ trimEnd more := by
  obtain ⟨blanks, hblanks, hmore⟩ := exists_trimEnd more
  have hlast : ∀ c ∈ (cs ++ trimEnd more).getLast?, isBlank c = false := by
    intro c hc
    rw [List.getLast?_append] at hc
    cases htrimmed : (trimEnd more).getLast? with
    | none =>
      rw [htrimmed, Option.none_or] at hc
      exact h c hc
    | some d =>
      rw [htrimmed] at hc
      obtain rfl : d = c := Option.some.inj hc
      exact isBlank_getLast_trimEnd d htrimmed
  calc trimEnd (cs ++ more)
      = trimEnd ((cs ++ trimEnd more) ++ blanks) := by rw [List.append_assoc, ← hmore]
    _ = trimEnd (cs ++ trimEnd more) := trimEnd_append hblanks _
    _ = cs ++ trimEnd more := trimEnd_eq_self hlast

/-- A call keeps its place when a text that it begins is trimmed. -/
theorem trim_append {call : List Char} (hhead : call.head? = some '@')
    (hclosed : call.getLast? = some ')') (other : List Char) :
    trim (call ++ other) = call ++ trimEnd other := by
  have hstart : trimStart (call ++ other) = call ++ other := by
    apply trimStart_eq_self
    rw [List.head?_append, hhead]
    rintro _ ⟨⟩
    decide
  have hlast : ∀ c ∈ call.getLast?, isBlank c = false := by
    rw [hclosed]
    rintro _ ⟨⟩
    decide
  rw [trim, hstart, trimEnd_append_of_getLast hlast]

end Text

open Expression

/-! ## Calls of comparisons -/

namespace Comparison

variable {op : Comparison} {cs other : List Char} {cut : Cut}

theorem call_append_rest (op : Comparison) (cut : Cut) :
    op.call cut.left cut.gap cut.right ++ cut.rest = op.head.toList ++ cut.text op.closer.toList := by
  simp [call, Cut.text, Ending.text]

theorem head?_call (op : Comparison) (left gap right : List Char) :
    (op.call left gap right).head? = some '@' := by
  simp [call, List.head?_append, op.head?_head]

theorem getLast?_call (op : Comparison) (left gap right : List Char) :
    (op.call left gap right).getLast? = some ')' := by
  simp [call, List.getLast?_append, List.getLast?_cons, op.getLast?_closer]

/-- Any text may follow a call. -/
theorem Writes.withRest (h : op.Writes cs cut) (rest : List Char) :
    op.Writes (op.call cut.left cut.gap cut.right ++ rest) { cut with rest := rest } :=
  ⟨call_append_rest op { cut with rest := rest }, h.left_ne_nil, h.left_line, h.gap, h.right_ne_nil,
    h.right_line⟩

/-- The longest writing of a text stays the longest if a text without a parenthesis follows the call
instead. -/
theorem longest_withRest (h : IsLongest (op.Writes cs) Cut.size cut) (hother : ')' ∉ other) :
    IsLongest (op.Writes (op.call cut.left cut.gap cut.right ++ other)) Cut.size
      { cut with rest := other } := by
  refine ⟨h.mem.withRest other, fun cut' h' => ?_⟩
  have heq := h'.eq
  rw [← call_append_rest] at heq
  obtain ⟨between, hcall, -⟩ := Text.exists_of_append_eq_append (getLast?_call ..) hother heq
  -- the other writing closes within the call, so it is also one of the text with the former rest
  have hwrites := h'.withRest (between ++ cut.rest)
  rw [← List.append_assoc, ← hcall, call_append_rest, ← h.mem.eq] at hwrites
  exact h.le { cut' with rest := between ++ cut.rest } hwrites

/-- The right operand of a longer writing begins no earlier: the comma of the longer left operand is
none of the blanks. -/
theorem Writes.gap_le {other : Cut} (h : op.Writes cs cut) (h' : op.Writes cs other)
    (hle : other.size ≤ cut.size) :
    other.left.length + other.gap.length ≤ cut.left.length + cut.gap.length := by
  rcases Prod.Lex.toLex_le_toLex.mp hle with hleft | ⟨hleft, hending⟩
  · by_contra hlong
    have htext := List.append_cancel_left (h'.eq.symm.trans h.eq)
    obtain ⟨more, hmore, htail⟩ := Text.exists_of_append_eq_append_of_length_le htext hleft.le
    have hlength := congrArg List.length hmore
    rw [List.length_append] at hlength
    cases more with
    | nil => exact absurd hlength hleft.ne'
    | cons c more =>
      rw [List.length_cons] at hlength
      obtain ⟨-, htail⟩ := List.cons.inj htail
      obtain ⟨blanks, hblanks, hcomma⟩ :=
        Text.exists_of_append_eq_append_of_length_le htail.symm (by omega)
      have hgap : ',' ∈ other.gap := by
        cases blanks with
        | nil =>
          rw [List.append_nil] at hblanks
          rw [hblanks] at hlong
          omega
        | cons d blanks =>
          obtain ⟨rfl, -⟩ := List.cons.inj hcomma
          rw [hblanks]
          exact List.mem_append_right more List.mem_cons_self
      exact Condition.comma_not_mem_of_blank h'.gap hgap
  · rcases Prod.Lex.toLex_le_toLex.mp hending with hgap | ⟨hgap, -⟩
    · exact Nat.add_le_add hleft.le hgap.le
    · exact Nat.add_le_add hleft.le hgap.le

/-- If another writing takes in all of the text, and its right operand begins no later, the right operand
can be widened up to the last closer. -/
theorem Writes.widen {whole : Cut} (h : op.Writes cs cut) (hwhole : op.Writes cs whole)
    (hrest : whole.rest = [])
    (hstart : whole.left.length + whole.gap.length ≤ cut.left.length + cut.gap.length) :
    ∃ right, right ++ op.closer.toList = cut.right ++ (op.closer.toList ++ cut.rest) ∧
      op.Writes cs { cut with right := right, rest := [] } := by
  have htext : whole.left ++ ',' :: (whole.gap ++ (whole.right ++ op.closer.toList))
      = cut.left ++ ',' :: (cut.gap ++ (cut.right ++ (op.closer.toList ++ cut.rest))) := by
    have heq := List.append_cancel_left (hwhole.eq.symm.trans h.eq)
    simpa [Cut.text, Ending.text, hrest] using heq
  have hlength := congrArg List.length htext
  simp only [List.length_append, List.length_cons] at hlength
  have hne := List.length_pos_of_ne_nil h.right_ne_nil
  -- both right operands with what follows them end the text
  obtain ⟨front, hfront⟩ : cut.right ++ (op.closer.toList ++ cut.rest) <:+
      whole.right ++ op.closer.toList := by
    refine List.suffix_of_suffix_length_le ⟨cut.left ++ ',' :: cut.gap, ?_⟩
      ⟨whole.left ++ ',' :: whole.gap, List.append_assoc ..⟩ ?_
    · simp [htext]
    · simp only [List.length_append]
      omega
  obtain ⟨right, hright⟩ : op.closer.toList <:+ cut.right ++ (op.closer.toList ++ cut.rest) := by
    refine List.suffix_of_suffix_length_le (List.suffix_append _ _) ⟨front, hfront⟩ ?_
    simp only [List.length_append]
    omega
  refine ⟨right, hright, ?_, h.left_ne_nil, h.left_line, h.gap, ?_, ?_⟩
  · rw [h.eq]
    simp [Cut.text, Ending.text, hright]
  · rintro rfl
    have hnone := congrArg List.length hright
    simp only [List.length_append, List.length_nil] at hnone
    omega
  · intro hfeed
    rw [← hright, ← List.append_assoc] at hfront
    have hline := hwhole.right_line
    rw [← List.append_cancel_right hfront] at hline
    exact hline (List.mem_append_right front hfeed)

/-- The longest writing takes in all of the text if another one does. -/
theorem rest_eq_nil_of_longest (h : IsLongest (op.Writes cs) Cut.size cut) {whole : Cut}
    (hwhole : op.Writes cs whole) (hrest : whole.rest = []) : cut.rest = [] := by
  obtain ⟨right, hright, hwritten⟩ :=
    h.mem.widen hwhole hrest (h.mem.gap_le hwhole (h.le whole hwhole))
  have hle := h.le _ hwritten
  simp only [Cut.size, Ending.size, Prod.Lex.toLex_le_toLex, lt_irrefl, false_or, true_and] at hle
  have hlength := congrArg List.length hright
  simp only [List.length_append] at hlength
  exact List.eq_nil_of_length_eq_zero (by omega)

end Comparison

/-! ## Calls that list items -/

namespace Expression

/-- The notations of item lists. -/
inductive ItemNotation where
  | array
  | createArray
deriving DecidableEq

namespace ItemNotation

def head : ItemNotation → String
  | array => "@array('"
  | createArray => "@createArray("

def closer : ItemNotation → String
  | array => "')"
  | createArray => ")"

/-- The call around a text. -/
def call (form : ItemNotation) (inside : List Char) : List Char :=
  form.head.toList ++ (inside ++ form.closer.toList)

/-- The items that the text in the call lists. -/
def items? : ItemNotation → List Char → Option (List (List Char))
  | array, joined => some ((Text.segments ',' joined).map fun item => dropQuotes (Text.trim item))
  | createArray, listed => literalList? listed

/-- The text is written as the call around a text on one line that is not empty, and a rest. -/
structure Writes (form : ItemNotation) (cs : List Char) (way : List Char × List Char) : Prop where
  eq : cs = form.head.toList ++ (way.1 ++ (form.closer.toList ++ way.2))
  ne_nil : way.1 ≠ []
  line : '\n' ∉ way.1

variable {form : ItemNotation} {cs other : List Char} {way : List Char × List Char}

theorem call_append_rest (form : ItemNotation) (inside rest : List Char) :
    form.call inside ++ rest = form.head.toList ++ (inside ++ (form.closer.toList ++ rest)) := by
  simp [call]

theorem head?_call (form : ItemNotation) (inside : List Char) :
    (form.call inside).head? = some '@' := by
  cases form <;> rfl

theorem getLast?_call (form : ItemNotation) (inside : List Char) :
    (form.call inside).getLast? = some ')' := by
  have hcloser : form.closer.toList.getLast? = some ')' := by
    cases form <;> decide
  simp [call, List.getLast?_append, hcloser]

theorem finds_enclosed? (form : ItemNotation) (cs : List Char) :
    Finds (form.Writes cs) operandSize Prod.fst (enclosed? form.head form.closer cs) := by
  rw [enclosed?]
  cases hbody : Text.afterStart form.head.toList cs with
  | none =>
    intro way h
    rw [Text.afterStart_eq_some_iff.mpr h.eq] at hbody
    cases hbody
  | some body =>
    obtain rfl := Text.afterStart_eq_some_iff.mp hbody
    have hways : form.Writes (form.head.toList ++ body)
        = fun way => way.1 ≠ [] ∧ Closes form.closer.toList body way := by
      funext way
      apply propext
      constructor
      · intro h
        exact ⟨h.ne_nil, List.append_cancel_left h.eq, h.line⟩
      · rintro ⟨hne, h⟩
        exact ⟨congrArg (form.head.toList ++ ·) h.eq, hne, h.line⟩
    rw [Option.bind_some, hways]
    exact finds_operandBefore form.closer.toList body

/-- No text is written in both notations. -/
theorem Writes.form_unique {form' : ItemNotation} {way' : List Char × List Char}
    (h : form.Writes cs way) (h' : form'.Writes cs way') : form = form' := by
  have hheads : ∀ rest rest' : List Char,
      "@array('".toList ++ rest ≠ "@createArray(".toList ++ rest' := by
    intro rest rest'
    simp
  have heq := h.eq.symm.trans h'.eq
  cases form <;> cases form'
  · rfl
  · exact absurd heq (hheads _ _)
  · exact absurd heq.symm (hheads _ _)
  · rfl

theorem longest_unique {way' : List Char × List Char}
    (h : IsLongest (form.Writes cs) operandSize way)
    (h' : IsLongest (form.Writes cs) operandSize way') : way = way' := by
  obtain ⟨inside, rest⟩ := way
  obtain ⟨inside', rest'⟩ := way'
  have hlength : inside.length = inside'.length := le_antisymm (h'.le _ h.mem) (h.le _ h'.mem)
  have htext := List.append_cancel_left (h.mem.eq.symm.trans h'.mem.eq)
  obtain ⟨rfl, htext⟩ := List.append_inj htext hlength
  obtain rfl := List.append_cancel_left htext
  rfl

theorem Writes.withRest (h : form.Writes cs way) (rest : List Char) :
    form.Writes (form.call way.1 ++ rest) (way.1, rest) :=
  ⟨call_append_rest form way.1 rest, h.ne_nil, h.line⟩

theorem longest_withRest (h : IsLongest (form.Writes cs) operandSize way) (hother : ')' ∉ other) :
    IsLongest (form.Writes (form.call way.1 ++ other)) operandSize (way.1, other) := by
  refine ⟨h.mem.withRest other, fun way' h' => ?_⟩
  have heq := h'.eq
  rw [← call_append_rest] at heq
  obtain ⟨between, hcall, -⟩ := Text.exists_of_append_eq_append (getLast?_call ..) hother heq
  have hwrites := h'.withRest (between ++ way.2)
  rw [← List.append_assoc, ← hcall, call_append_rest, ← h.mem.eq] at hwrites
  exact h.le (way'.1, between ++ way.2) hwrites

/-- The longest writing takes in all of the text if another one does. -/
theorem rest_eq_nil_of_longest (h : IsLongest (form.Writes cs) operandSize way) {whole : List Char}
    (hwhole : form.Writes cs (whole, [])) : way.2 = [] := by
  have hle : whole.length ≤ way.1.length := h.le (whole, []) hwhole
  have hlength := congrArg List.length (hwhole.eq.symm.trans h.mem.eq)
  simp only [List.length_append, List.length_nil] at hlength
  exact List.eq_nil_of_length_eq_zero (by omega)

end ItemNotation

theorem enclosed?_eq_some_iff {form : ItemNotation} {cs inside : List Char} :
    enclosed? form.head form.closer cs = some inside ↔
      ∃ rest, IsLongest (form.Writes cs) operandSize (inside, rest) := by
  rw [(form.finds_enclosed? cs).eq_some_iff fun _ _ h h' => by rw [form.longest_unique h h']]
  constructor
  · rintro ⟨⟨_, rest⟩, hlongest, rfl⟩
    exact ⟨rest, hlongest⟩
  · rintro ⟨rest, hlongest⟩
    exact ⟨(inside, rest), hlongest, rfl⟩

/-- The items of a text come from the longest writing of its call. -/
theorem parseItems_of_longest {text : String} {form : ItemNotation} {inside rest : List Char}
    (h : IsLongest (form.Writes (Text.trim text.toList)) operandSize (inside, rest)) :
    (parseItems text).toOption = (form.items? inside).map itemText := by
  have hinside := enclosed?_eq_some_iff.mpr ⟨rest, h⟩
  cases form with
  | array =>
    have harray : enclosed? "@array('" "')" (Text.trim text.toList) = some inside := hinside
    simp [parseItems, harray, ItemNotation.items?, Except.toOption]
  | createArray =>
    have harray : enclosed? "@array('" "')" (Text.trim text.toList) = none :=
      (ItemNotation.array.finds_enclosed? _).eq_none_iff.mpr fun way hway =>
        ItemNotation.noConfusion (hway.form_unique h.mem)
    have hcreate : enclosed? "@createArray(" ")" (Text.trim text.toList) = some inside := hinside
    cases hitems : literalList? inside <;>
      simp [parseItems, harray, hcreate, hitems, ItemNotation.items?, Except.toOption]

theorem exists_longest_of_parseItems {text list : String} (h : parseItems text = .ok list) :
    ∃ (form : ItemNotation) (inside rest : List Char),
      IsLongest (form.Writes (Text.trim text.toList)) operandSize (inside, rest) := by
  cases harray : enclosed? "@array('" "')" (Text.trim text.toList) with
  | some joined => exact ⟨.array, joined, enclosed?_eq_some_iff.mp harray⟩
  | none =>
    cases hcreate : enclosed? "@createArray(" ")" (Text.trim text.toList) with
    | some listed => exact ⟨.createArray, listed, enclosed?_eq_some_iff.mp hcreate⟩
    | none =>
      rw [parseItems, harray, hcreate] at h
      cases h

end Expression

/-! ## What follows the call -/

/-- The text is the call of a comparison, and a rest that is not read. -/
def Condition.Matched (cs call rest : List Char) : Prop :=
  ∃ (op : Comparison) (cut : Cut), IsLongest (op.Writes cs) Cut.size cut ∧
    op.call cut.left cut.gap cut.right = call ∧ cut.rest = rest

/-- The text is the call of a comparison, with nothing after it. -/
def Condition.IsCall (cs : List Char) : Prop :=
  ∃ (op : Comparison) (cut : Cut), op.Writes cs cut ∧ cut.rest = []

/-- The text is the call of a list of items, and a rest that is not read. -/
def Expression.Matched (cs call rest : List Char) : Prop :=
  ∃ (form : ItemNotation) (inside : List Char),
    IsLongest (form.Writes cs) operandSize (inside, rest) ∧ form.call inside = call

/-- The text is the call of a list of items, with nothing after it. -/
def Expression.IsCall (cs : List Char) : Prop :=
  ∃ (form : ItemNotation) (inside : List Char), form.Writes cs (inside, [])

/-- A reader takes a text, without the blanks around it, as a call and a rest. -/
structure ReadAsCall {α : Type} (read : String → Except Obstacle α)
    (Matched : List Char → List Char → List Char → Prop) (IsCall : List Char → Prop) (text : String)
    (value : α) (call rest : List Char) : Prop where
  matched : Matched (Text.trim text.toList) call rest
  /-- The text is cut in one way, at a closing parenthesis. -/
  cut : Text.trim text.toList = call ++ rest ∧ call.getLast? = some ')' ∧
    ∀ call' rest', Matched (Text.trim text.toList) call' rest' → call' = call ∧ rest' = rest
  /-- Nothing is left exactly if the text as a whole is a call. -/
  rest_eq_nil_iff : rest = [] ↔ IsCall (Text.trim text.toList)
  /-- Only the call is read. -/
  ignored : ∀ other rest', Matched (Text.trim other.toList) call rest' → read other = .ok value
  /-- Any text without a closing parenthesis can follow the call. -/
  extended : ∀ other, ')' ∉ other →
    Matched (Text.trim (call ++ other)) call (Text.trimEnd other)

theorem Condition.readAsCall {text : String} {op : Comparison} {cut : Cut}
    (h : IsLongest (op.Writes (Text.trim text.toList)) Cut.size cut) :
    ReadAsCall parse Condition.Matched Condition.IsCall text (cut.condition op)
      (op.call cut.left cut.gap cut.right) cut.rest where
  matched := ⟨op, cut, h, rfl, rfl⟩
  cut := by
    refine ⟨h.mem.eq.trans (op.call_append_rest cut).symm, op.getLast?_call .., ?_⟩
    rintro _ _ ⟨other, cut', h', rfl, rfl⟩
    obtain rfl := h.mem.op_unique h'.mem
    obtain rfl := h.cut_unique h'
    exact ⟨rfl, rfl⟩
  rest_eq_nil_iff := by
    constructor
    · exact fun hrest => ⟨op, cut, h.mem, hrest⟩
    · rintro ⟨other, whole, hwhole, hrest⟩
      obtain rfl := h.mem.op_unique hwhole
      exact Comparison.rest_eq_nil_of_longest h hwhole hrest
  ignored := by
    rintro other _ ⟨op', cut', h', hcall, rfl⟩
    -- both cuts of the call itself are its longest
    have hlongest := Comparison.longest_withRest h (List.not_mem_nil (a := ')'))
    have hlongest' := Comparison.longest_withRest h' (List.not_mem_nil (a := ')'))
    rw [hcall] at hlongest'
    obtain rfl := hlongest.mem.op_unique hlongest'.mem
    have hsame := congrArg (Cut.condition op') (hlongest.cut_unique hlongest')
    exact parse_ok_iff.mpr ⟨op', cut', h', hsame.symm⟩
  extended := by
    intro other hother
    rw [Text.trim_append (op.head?_call ..) (op.getLast?_call ..)]
    exact ⟨op, _, Comparison.longest_withRest h (Text.not_mem_trimEnd hother), rfl, rfl⟩

theorem Expression.readAsCall {text list : String} {form : ItemNotation} {inside rest : List Char}
    (h : IsLongest (form.Writes (Text.trim text.toList)) operandSize (inside, rest))
    (hread : parseItems text = .ok list) :
    ReadAsCall parseItems Expression.Matched Expression.IsCall text list (form.call inside) rest where
  matched := ⟨form, inside, h, rfl⟩
  cut := by
    refine ⟨h.mem.eq.trans (form.call_append_rest inside rest).symm, form.getLast?_call _, ?_⟩
    rintro _ rest' ⟨form', inside', h', rfl⟩
    obtain rfl := h.mem.form_unique h'.mem
    obtain ⟨rfl, rfl⟩ := Prod.mk.inj (form.longest_unique h h')
    exact ⟨rfl, rfl⟩
  rest_eq_nil_iff := by
    constructor
    · rintro rfl
      exact ⟨form, inside, h.mem⟩
    · rintro ⟨form', whole, hwhole⟩
      obtain rfl := h.mem.form_unique hwhole
      exact ItemNotation.rest_eq_nil_of_longest h hwhole
  ignored := by
    rintro other _ ⟨form', inside', h', hcall⟩
    have hlongest := ItemNotation.longest_withRest h (List.not_mem_nil (a := ')'))
    have hlongest' := ItemNotation.longest_withRest h' (List.not_mem_nil (a := ')'))
    rw [hcall] at hlongest'
    obtain rfl := hlongest.mem.form_unique hlongest'.mem
    obtain ⟨rfl, -⟩ := Prod.mk.inj (form.longest_unique hlongest hlongest')
    have hother : (parseItems other).toOption = some list := by
      rw [parseItems_of_longest h', ← parseItems_of_longest h, hread]
      rfl
    cases hparse : parseItems other with
    | ok list' =>
      rw [hparse] at hother
      exact congrArg Except.ok (Option.some.inj hother)
    | error obstacle =>
      rw [hparse] at hother
      cases hother
  extended := by
    intro other hother
    rw [Text.trim_append (form.head?_call _) (form.getLast?_call _)]
    exact ⟨form, inside, ItemNotation.longest_withRest h (Text.not_mem_trimEnd hother), rfl⟩

/-- **Trailing text.** A text that is read as a condition or as a list of items is a call and a rest. The
text ends with the call only if it is one as a whole; otherwise the rest is dropped, and neither what is
read nor whether anything is depends on it. -/
theorem Expression.trailing_dropped (text : String) :
    (∀ condition, Condition.parse text = .ok condition →
      ∃ call rest, ReadAsCall Condition.parse Condition.Matched Condition.IsCall text condition
        call rest) ∧
    ∀ list, parseItems text = .ok list →
      ∃ call rest, ReadAsCall parseItems Expression.Matched Expression.IsCall text list call rest := by
  constructor
  · intro condition h
    obtain ⟨op, cut, hcut, rfl⟩ := Condition.parse_ok_iff.mp h
    exact ⟨_, _, Condition.readAsCall hcut⟩
  · intro list h
    obtain ⟨form, inside, rest, hway⟩ := exists_longest_of_parseItems h
    exact ⟨_, _, Expression.readAsCall hway h⟩

/-- Texts that end with an index are read as if they ended with the call before it. -/
theorem Expression.trailingIndex_accepted :
    (Condition.parse "@equals(1, 1)[0]" = .ok ⟨.equal, "1", "1"⟩ ∧
      (Text.trim "@equals(1, 1)[0]".toList).getLast? = some ']') ∧
    (parseItems "@createArray('a', 'b')[0]" = .ok "[\"a\",\"b\"]" ∧
      (Text.trim "@createArray('a', 'b')[0]".toList).getLast? = some ']') := by
  refine ⟨⟨?_, ?_⟩, ⟨?_, ?_⟩⟩ <;> cbv

end FactoryMigration
