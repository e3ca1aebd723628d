import Mathlib.Data.Prod.Lex
import FactoryMigration.Expression.Condition

set_option autoImplicit false

/-! # Longest ways to cut a call

A text can be cut into operands in many ways. Each scanner prefers a way that goes on over the one that
ends here, so that what it finds is a longest of all ways (`Finds`): the longest operand before a closer
(`Expression.finds_operandBefore`), and of the cuts of a call the one with the longest left operand,
then the most blanks after its comma, then the longest right operand
(`Expression.finds_operands`). -/

namespace FactoryMigration

/-! ## Longest ways -/

/-- One of the ways, of which none is longer. -/
structure IsLongest {α σ : Type} [LE σ] (ways : α → Prop) (size : α → σ) (way : α) : Prop where
  mem : ways way
  le : ∀ other, ways other → size other ≤ size way

/-- What a search finds: the value of a longest way, or nothing if there is no way. -/
def Finds {α β σ : Type} [LE σ] (ways : α → Prop) (size : α → σ) (value : α → β) : Option β → Prop
  | none => ∀ way, ¬ways way
  | some found => ∃ way, IsLongest ways size way ∧ value way = found

namespace Finds

variable {α β σ : Type} [LE σ] {ways : α → Prop} {size : α → σ} {value : α → β} {found : Option β}

theorem eq_none_iff (h : Finds ways size value found) : found = none ↔ ∀ way, ¬ways way := by
  cases found with
  | none => exact iff_of_true rfl h
  | some found =>
    obtain ⟨way, hlongest, -⟩ := h
    exact iff_of_false nofun fun hnone => hnone way hlongest.mem

/-- If all longest ways have one value, it is the value that is found. -/
theorem eq_some_iff (h : Finds ways size value found)
    (hunique : ∀ way other, IsLongest ways size way → IsLongest ways size other →
      value way = value other) {result : β} :
    found = some result ↔ ∃ way, IsLongest ways size way ∧ value way = result := by
  cases found with
  | none => exact iff_of_false nofun fun ⟨way, hlongest, _⟩ => h way hlongest.mem
  | some found =>
    obtain ⟨way, hlongest, rfl⟩ := h
    rw [Option.some_inj]
    constructor
    · intro hresult
      exact ⟨way, hlongest, hresult⟩
    · rintro ⟨other, hother, hresult⟩
      rw [hunique way other hlongest hother, hresult]

/-- Ways to go on become ways of the whole if longer ones stay longer. -/
theorem map {α' β' σ' : Type} [LE σ'] {ways' : α' → Prop} {size' : α' → σ'} {value' : α' → β'}
    (h : Finds ways size value found) (grow : α → α') (raise : β → β')
    (hways : ∀ way', ways' way' ↔ ∃ way, ways way ∧ grow way = way')
    (hsize : ∀ way other, size way ≤ size other → size' (grow way) ≤ size' (grow other))
    (hvalue : ∀ way, value' (grow way) = raise (value way)) :
    Finds ways' size' value' (found.map raise) := by
  cases found with
  | none =>
    intro way' hway'
    obtain ⟨way, hway, -⟩ := (hways way').mp hway'
    exact h way hway
  | some found =>
    obtain ⟨way, hlongest, rfl⟩ := h
    refine ⟨grow way, ⟨(hways _).mpr ⟨way, hlongest.mem, rfl⟩, fun other' hother' => ?_⟩, hvalue way⟩
    obtain ⟨other, hother, rfl⟩ := (hways other').mp hother'
    exact hsize other way (hlongest.le other hother)

/-- The ways of the second kind count only if there is none of the first kind. -/
theorem orElse {ways₁ ways₂ : α → Prop} {found₁ found₂ : Option β}
    (h₁ : Finds ways₁ size value found₁) (h₂ : Finds ways₂ size value found₂)
    (hways : ∀ way, ways way ↔ ways₁ way ∨ ways₂ way)
    (hsize : ∀ way other, ways₁ way → ways₂ other → size other ≤ size way) :
    Finds ways size value (found₁.or found₂) := by
  cases found₁ with
  | none =>
    have hiff : ∀ way, ways way ↔ ways₂ way := fun way => by
      rw [hways, or_iff_right (h₁ way)]
    obtain rfl : ways = ways₂ := funext fun way => propext (hiff way)
    exact h₂
  | some found =>
    obtain ⟨way, hlongest, hvalue⟩ := h₁
    refine ⟨way, ⟨(hways way).mpr (.inl hlongest.mem), fun other hother => ?_⟩, hvalue⟩
    rcases (hways other).mp hother with hother | hother
    · exact hlongest.le other hother
    · exact hsize way other hlongest.mem hother

end Finds

namespace Expression

/-! ## Operands up to a closer -/

/-- The text is an operand on its line, then the closer, then the rest. -/
structure Closes (closer cs : List Char) (way : List Char × List Char) : Prop where
  eq : cs = way.1 ++ (closer ++ way.2)
  line : '\n' ∉ way.1

/-- The length of the operand. -/
def operandSize (way : List Char × List Char) : ℕ := way.1.length

theorem closes_nil_iff {closer cs rest : List Char} :
    Closes closer cs ([], rest) ↔ cs = closer ++ rest :=
  ⟨fun h => h.eq, fun h => ⟨h, List.not_mem_nil⟩⟩

theorem closes_cons_iff {closer cs operand rest : List Char} {c : Char} :
    Closes closer (c :: cs) (c :: operand, rest) ↔ c ≠ '\n' ∧ Closes closer cs (operand, rest) := by
  constructor
  · intro h
    have hline := h.line
    rw [List.mem_cons, not_or] at hline
    exact ⟨Ne.symm hline.1, (List.cons.inj h.eq).2, hline.2⟩
  · rintro ⟨hc, h⟩
    refine ⟨congrArg (c :: ·) h.eq, ?_⟩
    rw [List.mem_cons, not_or]
    exact ⟨Ne.symm hc, h.line⟩

/-- The way on which the closer stands here. -/
theorem finds_here (closer cs : List Char) :
    Finds (fun way => way.1 = [] ∧ Closes closer cs way) operandSize Prod.fst
      (if (Text.afterStart closer cs).isSome then some [] else none) := by
  split
  · rename_i hclosed
    obtain ⟨rest, hrest⟩ := Option.isSome_iff_exists.mp hclosed
    have heq : cs = closer ++ rest := Text.afterStart_eq_some_iff.mp hrest
    refine ⟨([], rest), ⟨⟨rfl, closes_nil_iff.mpr heq⟩, ?_⟩, rfl⟩
    rintro ⟨operand, rest'⟩ ⟨hnil, -⟩
    rw [operandSize, hnil]
    exact Nat.zero_le _
  · rename_i hopen
    rintro ⟨operand, rest⟩ ⟨hnil, hcloses⟩
    apply hopen
    have heq : cs = closer ++ rest := by
      rw [hcloses.eq, hnil, List.nil_append]
    rw [Text.afterStart_eq_some_iff.mpr heq]
    rfl

/-- A way that goes on, or the one that ends here. -/
theorem closes_cons_cases {closer cs : List Char} {c : Char} (way : List Char × List Char) :
    Closes closer (c :: cs) way ↔
      (c ≠ '\n' ∧ ∃ tail, Closes closer cs tail ∧ (c :: tail.1, tail.2) = way) ∨
        way.1 = [] ∧ Closes closer (c :: cs) way := by
  obtain ⟨operand, rest⟩ := way
  cases operand with
  | nil => simp
  | cons d operand =>
    constructor
    · intro h
      obtain rfl : c = d := (List.cons.inj h.eq).1
      obtain ⟨hc, htail⟩ := closes_cons_iff.mp h
      exact .inl ⟨hc, (operand, rest), htail, rfl⟩
    · rintro (⟨hc, tail, htail, heq⟩ | ⟨hnil, -⟩)
      · cases heq
        exact closes_cons_iff.mpr ⟨hc, htail⟩
      · cases hnil

/-- Ways of the rest of a line go on from its first character. -/
theorem finds_cons {closer cs : List Char} {found : Option (List Char)} (c : Char)
    (h : Finds (Closes closer cs) operandSize Prod.fst found) :
    Finds (fun way => ∃ tail, Closes closer cs tail ∧ (c :: tail.1, tail.2) = way) operandSize
      Prod.fst (found.map (c :: ·)) :=
  h.map (fun tail => (c :: tail.1, tail.2)) (c :: ·) (fun _ => Iff.rfl)
    (fun _ _ hle => Nat.succ_le_succ hle) fun _ => rfl

theorem finds_longestBefore (closer cs : List Char) :
    Finds (Closes closer cs) operandSize Prod.fst (longestBefore closer cs) := by
  induction cs with
  | nil =>
    have hnil : longestBefore closer []
        = if (Text.afterStart closer []).isSome then some [] else none := by
      cases closer <;> rfl
    have hways : Closes closer [] = fun way => way.1 = [] ∧ Closes closer [] way := by
      funext way
      have hempty (h : Closes closer [] way) : way.1 = [] := (List.append_eq_nil_iff.mp h.eq.symm).1
      exact propext ⟨fun h => ⟨hempty h, h⟩, fun h => h.2⟩
    rw [hnil, hways]
    exact finds_here closer []
  | cons c cs ih =>
    have hhere := finds_here closer (c :: cs)
    by_cases hc : c = '\n'
    · have hways : Closes closer (c :: cs) = fun way => way.1 = [] ∧ Closes closer (c :: cs) way := by
        funext way
        rw [closes_cons_cases]
        simp [hc]
      rw [longestBefore, if_pos hc, hways]
      exact hhere
    · have hor : longestBefore closer (c :: cs) = ((longestBefore closer cs).map (c :: ·)).or
          (if (Text.afterStart closer (c :: cs)).isSome then some [] else none) := by
        rw [longestBefore, if_neg hc]
        cases longestBefore closer cs <;> rfl
      rw [hor]
      refine (finds_cons c ih).orElse hhere (fun way => ?_) fun way other _ hother => ?_
      · exact (closes_cons_cases way).trans (or_congr_left (and_iff_right hc))
      · rw [operandSize, hother.1]
        exact Nat.zero_le _

/-- The longest operand that is not empty. -/
theorem finds_operandBefore (closer cs : List Char) :
    Finds (fun way => way.1 ≠ [] ∧ Closes closer cs way) operandSize Prod.fst
      (operandBefore closer cs) := by
  cases cs with
  | nil =>
    rintro way ⟨hne, hcloses⟩
    exact hne (List.append_eq_nil_iff.mp hcloses.eq.symm).1
  | cons c cs =>
    have hways : (fun way => way.1 ≠ [] ∧ Closes closer (c :: cs) way) = fun way =>
        c ≠ '\n' ∧ ∃ tail, Closes closer cs tail ∧ (c :: tail.1, tail.2) = way := by
      funext way
      refine propext ⟨fun ⟨hne, h⟩ => ?_, fun ⟨hc, tail, h, heq⟩ => ?_⟩
      · exact ((closes_cons_cases way).mp h).resolve_right fun hnil => hne hnil.1
      · exact ⟨heq ▸ List.cons_ne_nil _ _, (closes_cons_cases way).mpr (.inl ⟨hc, tail, h, heq⟩)⟩
    rw [operandBefore, hways]
    by_cases hc : c = '\n'
    · rw [if_pos hc]
      exact fun way h => h.1 hc
    · rw [if_neg hc]
      simp only [ne_eq, hc, not_false_eq_true, true_and]
      exact finds_cons c (finds_longestBefore closer cs)

/-! ## Right operands -/

/-- What follows the comma of a call: blanks, the right operand, and the rest after the closer. -/
structure Ending where
  gap : List Char
  right : List Char
  rest : List Char

namespace Ending

/-- The text of an ending. -/
def text (closer : List Char) (ending : Ending) : List Char :=
  ending.gap ++ (ending.right ++ (closer ++ ending.rest))

/-- Only blanks stand before the right operand, which is not empty and on one line. -/
structure WellFormed (ending : Ending) : Prop where
  gap : ∀ c ∈ ending.gap, Text.isBlank c = true
  right_ne_nil : ending.right ≠ []
  right_line : '\n' ∉ ending.right

/-- The text is written so. -/
structure Of (closer cs : List Char) (ending : Ending) : Prop extends WellFormed ending where
  eq : cs = ending.text closer

/-- First the length of the blanks counts, then that of the right operand. -/
def size (ending : Ending) : ℕ ×ₗ ℕ := toLex (ending.gap.length, ending.right.length)

/-- One more blank. -/
def blank (c : Char) (ending : Ending) : Ending := { ending with gap := c :: ending.gap }

end Ending

/-- An ending without blanks. -/
theorem finds_ungapped (closer cs : List Char) :
    Finds (fun ending => Ending.Of closer cs ending ∧ ending.gap = []) Ending.size Ending.right
      (operandBefore closer cs) := by
  have hid : (operandBefore closer cs).map id = operandBefore closer cs := by
    cases operandBefore closer cs <;> rfl
  rw [← hid]
  refine (finds_operandBefore closer cs).map (fun way => ⟨[], way.1, way.2⟩) id ?_ ?_ ?_
  · rintro ⟨gap, right, rest⟩
    constructor
    · rintro ⟨h, rfl⟩
      exact ⟨(right, rest), ⟨h.right_ne_nil, h.eq, h.right_line⟩, rfl⟩
    · rintro ⟨way, ⟨hne, h⟩, heq⟩
      cases heq
      exact ⟨⟨⟨List.forall_mem_nil _, hne, h.line⟩, h.eq⟩, rfl⟩
  · intro way other hle
    exact Prod.Lex.toLex_le_toLex.mpr (.inr ⟨rfl, hle⟩)
  · intro way
    rfl

/-- One more blank in front, or an ending without blanks. -/
theorem ending_cons_cases {closer cs : List Char} {c : Char} (ending : Ending) :
    ending.Of closer (c :: cs) ↔
      (Text.isBlank c = true ∧ ∃ tail : Ending, tail.Of closer cs ∧ tail.blank c = ending) ∨
        ending.Of closer (c :: cs) ∧ ending.gap = [] := by
  obtain ⟨gap, right, rest⟩ := ending
  cases gap with
  | nil => simp [Ending.blank]
  | cons d gap =>
    constructor
    · intro h
      obtain ⟨rfl, htail⟩ := List.cons.inj h.eq
      obtain ⟨hblank, hgap⟩ := List.forall_mem_cons.mp h.gap
      exact .inl ⟨hblank, ⟨gap, right, rest⟩, ⟨⟨hgap, h.right_ne_nil, h.right_line⟩, htail⟩, rfl⟩
    · rintro (⟨hblank, tail, h, heq⟩ | ⟨-, hnil⟩)
      · cases heq
        exact ⟨⟨List.forall_mem_cons.mpr ⟨hblank, h.gap⟩, h.right_ne_nil, h.right_line⟩,
          congrArg (c :: ·) h.eq⟩
      · cases hnil

theorem finds_rightOperand (closer cs : List Char) :
    Finds (Ending.Of closer cs) Ending.size Ending.right (rightOperand closer cs) := by
  induction cs with
  | nil =>
    intro ending h
    have heq := (List.append_eq_nil_iff.mp h.eq.symm).2
    exact h.right_ne_nil (List.append_eq_nil_iff.mp heq).1
  | cons c cs ih =>
    have hhere := finds_ungapped closer (c :: cs)
    by_cases hc : Text.isBlank c = true
    · have hor : rightOperand closer (c :: cs)
          = ((rightOperand closer cs).map id).or (operandBefore closer (c :: cs)) := by
        rw [rightOperand, if_pos hc]
        cases rightOperand closer cs <;> rfl
      have hblank : Finds (fun ending => ∃ tail : Ending, tail.Of closer cs ∧ tail.blank c = ending)
          Ending.size Ending.right ((rightOperand closer cs).map id) := by
        refine ih.map (Ending.blank c) id (fun _ => Iff.rfl) (fun ending other hle => ?_) fun _ => rfl
        simp only [Ending.size, Ending.blank, Prod.Lex.toLex_le_toLex, List.length_cons] at hle ⊢
        omega
      rw [hor]
      refine hblank.orElse hhere (fun ending => ?_) ?_
      · exact (ending_cons_cases ending).trans (or_congr_left (and_iff_right hc))
      · rintro _ other ⟨tail, -, rfl⟩ ⟨-, hnil⟩
        -- one blank more than none
        exact Prod.Lex.toLex_le_toLex.mpr (.inl (by simp [hnil, Ending.blank]))
    · have hways : Ending.Of closer (c :: cs)
          = fun ending => ending.Of closer (c :: cs) ∧ ending.gap = [] := by
        funext ending
        exact propext ((ending_cons_cases ending).trans (or_iff_right fun h => hc h.1))
      rw [rightOperand, if_neg hc, hways]
      exact hhere

/-! ## Both operands -/

/-- What follows the head of a call: the left operand, a comma, and what follows it. -/
structure Cut extends Ending where
  left : List Char

namespace Cut

/-- The text of a cut. -/
def text (closer : List Char) (cut : Cut) : List Char :=
  cut.left ++ ',' :: cut.toEnding.text closer

/-- The text is written so, with a left operand on one line, which may be empty. -/
structure Of (closer cs : List Char) (cut : Cut) : Prop extends cut.toEnding.WellFormed where
  eq : cs = cut.text closer
  left_line : '\n' ∉ cut.left

/-- First the length of the left operand counts, then that of the blanks, then that of the right
operand. -/
def size (cut : Cut) : ℕ ×ₗ ℕ ×ₗ ℕ := toLex (cut.left.length, cut.toEnding.size)

/-- Both operands. -/
def operands (cut : Cut) : List Char × List Char := (cut.left, cut.right)

/-- One more character of the left operand. -/
def push (c : Char) (cut : Cut) : Cut := { cut with left := c :: cut.left }

end Cut

/-- The comma stands here, and nothing before it. -/
theorem finds_comma (closer cs : List Char) :
    Finds (fun cut : Cut => cut.Of closer (',' :: cs) ∧ cut.left = []) Cut.size Cut.operands
      ((rightOperand closer cs).map ([], ·)) := by
  refine (finds_rightOperand closer cs).map (⟨·, []⟩) ([], ·) ?_ ?_ ?_
  · rintro ⟨ending, left⟩
    constructor
    · rintro ⟨h, rfl⟩
      exact ⟨ending, ⟨h.toWellFormed, (List.cons.inj h.eq).2⟩, rfl⟩
    · rintro ⟨ending, h, heq⟩
      cases heq
      exact ⟨⟨h.toWellFormed, congrArg (',' :: ·) h.eq, List.not_mem_nil⟩, rfl⟩
  · intro ending other hle
    exact Prod.Lex.toLex_le_toLex.mpr (.inr ⟨rfl, hle⟩)
  · intro ending
    rfl

/-- One more character of the left operand, or the comma. -/
theorem cut_cons_cases {closer cs : List Char} {c : Char} (cut : Cut) :
    cut.Of closer (c :: cs) ↔
      (c ≠ '\n' ∧ ∃ tail : Cut, tail.Of closer cs ∧ tail.push c = cut) ∨
        c = ',' ∧ cut.Of closer (',' :: cs) ∧ cut.left = [] := by
  obtain ⟨ending, left⟩ := cut
  cases left with
  | nil =>
    constructor
    · intro h
      obtain ⟨rfl, -⟩ := List.cons.inj h.eq
      exact .inr ⟨rfl, h, rfl⟩
    · rintro (⟨-, tail, -, heq⟩ | ⟨rfl, h, -⟩)
      · cases heq
      · exact h
  | cons d left =>
    constructor
    · intro h
      obtain ⟨rfl, htail⟩ := List.cons.inj h.eq
      have hline := h.left_line
      rw [List.mem_cons, not_or] at hline
      exact .inl ⟨Ne.symm hline.1, ⟨ending, left⟩, ⟨h.toWellFormed, htail, hline.2⟩, rfl⟩
    · rintro (⟨hc, tail, h, heq⟩ | ⟨-, -, hnil⟩)
      · cases heq
        refine ⟨h.toWellFormed, congrArg (c :: ·) h.eq, ?_⟩
        rw [List.mem_cons, not_or]
        exact ⟨Ne.symm hc, h.left_line⟩
      · cases hnil

/-- Cuts of the rest of a line go on from its first character. -/
theorem finds_push {closer cs : List Char} {found : Option (List Char × List Char)} (c : Char)
    (h : Finds (Cut.Of closer cs) Cut.size Cut.operands found) :
    Finds (fun cut => ∃ tail : Cut, tail.Of closer cs ∧ tail.push c = cut) Cut.size Cut.operands
      (found.map fun (left, right) => (c :: left, right)) := by
  refine h.map (Cut.push c) _ (fun _ => Iff.rfl) (fun cut other hle => ?_) fun _ => rfl
  rcases Prod.Lex.toLex_le_toLex.mp hle with hlt | ⟨heq, hle⟩
  · exact Prod.Lex.toLex_le_toLex.mpr (.inl (Nat.succ_lt_succ hlt))
  · exact Prod.Lex.toLex_le_toLex.mpr (.inr ⟨congrArg Nat.succ heq, hle⟩)

theorem finds_operandsFrom (closer cs : List Char) :
    Finds (Cut.Of closer cs) Cut.size Cut.operands (operandsFrom closer cs) := by
  induction cs with
  | nil =>
    intro cut h
    simpa [Cut.text] using h.eq
  | cons c cs ih =>
    by_cases hfeed : c = '\n'
    · rw [operandsFrom, if_pos hfeed]
      intro cut h
      rcases (cut_cons_cases cut).mp h with ⟨hc, -⟩ | ⟨hc, -⟩
      · exact hc hfeed
      · rw [hfeed] at hc
        cases hc
    · have hcases (cut : Cut) : cut.Of closer (c :: cs) ↔
          (∃ tail : Cut, tail.Of closer cs ∧ tail.push c = cut) ∨
            c = ',' ∧ cut.Of closer (',' :: cs) ∧ cut.left = [] := by
        rw [cut_cons_cases, and_iff_right hfeed]
      have hhere : Finds (fun cut : Cut => c = ',' ∧ cut.Of closer (',' :: cs) ∧ cut.left = [])
          Cut.size Cut.operands (if c = ',' then (rightOperand closer cs).map ([], ·) else none) := by
        by_cases hcomma : c = ','
        · simpa only [hcomma, if_true, true_and] using finds_comma closer cs
        · rw [if_neg hcomma]
          exact fun cut h => hcomma h.1
      have hor : operandsFrom closer (c :: cs)
          = ((operandsFrom closer cs).map fun (left, right) => (c :: left, right)).or
              (if c = ',' then (rightOperand closer cs).map ([], ·) else none) := by
        rw [operandsFrom, if_neg hfeed]
        cases operandsFrom closer cs <;> rfl
      rw [hor]
      refine (finds_push c ih).orElse hhere hcases ?_
      rintro _ other ⟨tail, -, rfl⟩ ⟨-, -, hnil⟩
      exact Prod.Lex.toLex_le_toLex.mpr (.inl (by simp [hnil, Cut.push]))

/-- The left operand is not empty. -/
theorem finds_operands (closer cs : List Char) :
    Finds (fun cut : Cut => cut.left ≠ [] ∧ cut.Of closer cs) Cut.size Cut.operands
      (operands closer cs) := by
  cases cs with
  | nil =>
    rintro cut ⟨-, h⟩
    simpa [Cut.text] using h.eq
  | cons c cs =>
    have hways : (fun cut : Cut => cut.left ≠ [] ∧ cut.Of closer (c :: cs)) = fun cut =>
        c ≠ '\n' ∧ ∃ tail : Cut, tail.Of closer cs ∧ tail.push c = cut := by
      funext cut
      refine propext ⟨fun ⟨hne, h⟩ => ?_, fun ⟨hc, tail, h, heq⟩ => ?_⟩
      · exact ((cut_cons_cases cut).mp h).resolve_right fun hnil => hne hnil.2.2
      · exact ⟨heq ▸ List.cons_ne_nil _ _, (cut_cons_cases cut).mpr (.inl ⟨hc, tail, h, heq⟩)⟩
    rw [operands, hways]
    by_cases hc : c = '\n'
    · rw [if_pos hc]
      exact fun cut h => h.1 hc
    · rw [if_neg hc]
      simp only [ne_eq, hc, not_false_eq_true, true_and]
      exact finds_push c (finds_operandsFrom closer cs)

end Expression

end FactoryMigration
