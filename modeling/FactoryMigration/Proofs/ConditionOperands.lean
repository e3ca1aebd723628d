import FactoryMigration.Proofs.EnclosedText
import FactoryMigration.Proofs.KeySegments

set_option autoImplicit false

/-! # Operands of conditions

The call of a comparison is cut at its last comma on the line, not at the comma between its operands.
Operands are names, quoted texts and nested calls, in which commas stand inside of parentheses or
quotes. They are read as they were written exactly if the right one has no comma, or a line ends
between the operands (`Condition.parse_call_iff`); the left operand may hold any commas. -/

namespace FactoryMigration

namespace Expression

/-! ## Operands -/

/-- Whether parentheses and quotes are closed in their order and every comma stands inside of them,
from a place inside `depth` parentheses and, if there is one, an open quote. -/
def isNested : Nat → Option Char → List Char → Bool
  | depth, quote, [] => depth == 0 && quote.isNone
  | depth, some quote, c :: rest => isNested depth (if c = quote then none else some quote) rest
  | depth, none, c :: rest =>
    if c = '"' ∨ c = '\'' then isNested depth (some c) rest
    else if c = '(' then isNested (depth + 1) none rest
    else if c = ')' then depth != 0 && isNested (depth - 1) none rest
    else if c = ',' then depth != 0 && isNested depth none rest
    else isNested depth none rest

/-- A text that can stand in the place of an operand: on one line, without blanks at its ends, its
commas inside of parentheses or quotes. -/
structure IsOperand (text : List Char) : Prop where
  ne_nil : text ≠ []
  line : '\n' ∉ text
  trimmed : Text.trim text = text
  nested : isNested 0 none text = true

instance (text : List Char) : Decidable (IsOperand text) :=
  decidable_of_iff (text ≠ [] ∧ '\n' ∉ text ∧ Text.trim text = text ∧ isNested 0 none text = true)
    ⟨fun h => ⟨h.1, h.2.1, h.2.2.1, h.2.2.2⟩, fun h => ⟨h.ne_nil, h.line, h.trimmed, h.nested⟩⟩

/-- After a comma something is still open. -/
theorem not_isNested_append_comma (text : List Char) (depth : Nat) {quote : Option Char}
    (hquote : quote ≠ some ',') : isNested depth quote (text ++ [',']) = false := by
  induction text generalizing depth quote with
  | nil =>
    cases quote with
    | none => simp [isNested]
    | some quote =>
      have hne : ',' ≠ quote := fun h => hquote (congrArg some h.symm)
      simp [isNested, hne]
  | cons c text ih =>
    cases quote with
    | none =>
      have hquoted (h : c = '"' ∨ c = '\'') : some c ≠ some ',' := by
        rcases h with rfl | rfl <;> decide
      rw [List.cons_append, isNested]
      split_ifs with hopen
      · exact ih depth (hquoted hopen)
      all_goals simp [ih]
    | some quote =>
      rw [List.cons_append, isNested]
      apply ih
      split
      · exact nofun
      · exact hquote

theorem IsOperand.not_getLast_comma {text : List Char} (h : IsOperand text) (front : List Char) :
    text ≠ front ++ [','] := by
  rintro rfl
  have hnested := h.nested
  rw [not_isNested_append_comma front 0 (by simp)] at hnested
  cases hnested

theorem IsOperand.isBlank_head {text : List Char} (h : IsOperand text) :
    ∀ c ∈ text.head?, Text.isBlank c = false :=
  (Text.trim_eq_self_iff.mp h.trimmed).1

theorem IsOperand.isBlank_getLast {text : List Char} (h : IsOperand text) :
    ∀ c ∈ text.getLast?, Text.isBlank c = false :=
  (Text.trim_eq_self_iff.mp h.trimmed).2

theorem IsOperand.operandText {text : List Char} (h : IsOperand text) :
    operandText text = String.ofList (dropQuotes text) := by
  rw [Expression.operandText, h.trimmed]

theorem operandText_trimStart (text : List Char) :
    operandText (Text.trimStart text) = operandText text := by
  rw [operandText, operandText, Text.trim_trimStart]

/-! ## Cutting a call -/

/-- Blanks before an operand that ends at the closer are dropped. -/
theorem rightOperand_append {gap right : List Char} (hgap : ∀ c ∈ gap, Text.isBlank c = true)
    (hne : right ≠ []) (hhead : ∀ c ∈ right.head?, Text.isBlank c = false) (hline : '\n' ∉ right)
    (closer : List Char) : rightOperand closer (gap ++ (right ++ closer)) = some right := by
  induction gap with
  | nil =>
    have hread := operandBefore_append hne hline closer
    cases right with
    | nil => exact absurd rfl hne
    | cons c right =>
      have hc : Text.isBlank c = false := hhead c rfl
      rw [List.nil_append, List.cons_append, rightOperand, hc, if_neg nofun]
      exact hread
  | cons c gap ih =>
    have hc : Text.isBlank c = true := hgap c List.mem_cons_self
    have hrest := ih fun c' hc' => hgap c' (List.mem_cons_of_mem c hc')
    rw [List.cons_append, rightOperand, if_pos hc, hrest]

section

variable {closer : List Char}

/-- A call is not cut where its first line has no comma. -/
theorem operandsFrom_eq_none {cs : List Char} (h : ',' ∉ cs.takeWhile (· ≠ '\n')) :
    operandsFrom closer cs = none := by
  induction cs with
  | nil => rfl
  | cons c cs ih =>
    rw [operandsFrom]
    by_cases hfeed : c = '\n'
    · rw [if_pos hfeed]
    · rw [List.takeWhile_cons_of_pos (by simpa using hfeed), List.mem_cons, not_or] at h
      rw [if_neg hfeed, ih h.2, if_neg (Ne.symm h.1)]

/-- A call is cut at the last comma after which a right operand can be read. -/
theorem operands_append {left right tail : List Char} (hne : left ≠ []) (hline : '\n' ∉ left)
    (hlast : operandsFrom closer tail = none) (hright : rightOperand closer tail = some right) :
    operands closer (left ++ ',' :: tail) = some (left, right) := by
  have hfrom (left : List Char) (hline : '\n' ∉ left) :
      operandsFrom closer (left ++ ',' :: tail) = some (left, right) := by
    induction left with
    | nil =>
      rw [List.nil_append, operandsFrom]
      simp [hlast, hright]
    | cons c left ih =>
      rw [List.mem_cons, not_or] at hline
      rw [List.cons_append, operandsFrom]
      simp [Ne.symm hline.1, ih hline.2]
  cases left with
  | nil => exact absurd rfl hne
  | cons c left =>
    rw [List.mem_cons, not_or] at hline
    rw [List.cons_append, operands, if_neg (Ne.symm hline.1), hfrom left hline.2, Option.map_some]

end

end Expression

/-! ## Calls of comparisons -/

/-- The call of a comparison, with blanks between the comma and the right operand. -/
def Comparison.call (op : Comparison) (left gap right : List Char) : List Char :=
  op.head.toList ++ (left ++ ',' :: (gap ++ (right ++ op.closer.toList)))

theorem Comparison.mem_all (op : Comparison) : op ∈ all := by
  cases op <;> decide

theorem Comparison.head?_head (op : Comparison) : op.head.toList.head? = some '@' := by
  cases op <;> decide

theorem Comparison.getLast?_closer (op : Comparison) : op.closer.toList.getLast? = some ')' := by
  cases op <;> decide

/-- No call begins like that of another comparison. -/
theorem Comparison.afterStart_head {op other : Comparison} (h : other ≠ op) (cs : List Char) :
    Text.afterStart other.head.toList (op.head.toList ++ cs) = none := by
  have hheads : ∀ a ∈ all, ∀ b ∈ all, a ≠ b → Text.afterStart a.head.toList b.head.toList = none := by
    decide
  exact Text.afterStart_append_eq_none (hheads other other.mem_all op op.mem_all h)
    (hheads op op.mem_all other other.mem_all (Ne.symm h))

namespace Condition

open Expression

/-- The call of a comparison is read once its operands are cut. -/
theorem parse_of_operands {op : Comparison} {body left right : List Char}
    (hbody : body.getLast? = some ')') (h : operands op.closer.toList body = some (left, right)) :
    parse (String.ofList (op.head.toList ++ body))
      = .ok ⟨op, operandText left, operandText right⟩ := by
  have htrim : Text.trim (op.head.toList ++ body) = op.head.toList ++ body := by
    rw [Text.trim_eq_self_iff, List.head?_append, op.head?_head, List.getLast?_append, hbody]
    constructor
    · rintro _ ⟨⟩
      decide
    · rintro _ ⟨⟩
      decide
  have hcall : ofCall? op (op.head.toList ++ body)
      = some ⟨op, operandText left, operandText right⟩ := by
    have hstart : Text.afterStart op.head.toList (op.head.toList ++ body) = some body :=
      Text.afterStart_eq_some_iff.mpr rfl
    simp [ofCall?, hstart, h]
  have hother : ∀ other ∈ Comparison.all, other ≠ op →
      ofCall? other (op.head.toList ++ body) = none := by
    intro other _ hne
    simp [ofCall?, Comparison.afterStart_head hne]
  have hfound := findSome?_eq_of_unique op.mem_all hcall hother
  simp only [parse, String.toList_ofList, htrim, hfound]

/-- The call is cut after a left operand that no comma of the line follows. -/
theorem parse_call {op : Comparison} {left gap right operand : List Char} (hne : left ≠ [])
    (hline : '\n' ∉ left)
    (hcomma : ',' ∉ (gap ++ (right ++ op.closer.toList)).takeWhile (· ≠ '\n'))
    (hoperand : rightOperand op.closer.toList (gap ++ (right ++ op.closer.toList)) = some operand) :
    parse (String.ofList (op.call left gap right))
      = .ok ⟨op, operandText left, operandText operand⟩ := by
  refine parse_of_operands ?_ (operands_append hne hline (operandsFrom_eq_none hcomma) hoperand)
  simp [List.getLast?_append, List.getLast?_cons, op.getLast?_closer]

variable {left gap right : List Char}

theorem comma_not_mem_of_blank (hgap : ∀ c ∈ gap, Text.isBlank c = true) : ',' ∉ gap := by
  intro hmem
  exact absurd (hgap ',' hmem) (by decide)

theorem comma_not_mem_closer (op : Comparison) : ',' ∉ op.closer.toList := by
  cases op <;> decide

/-- If the right operand has no comma, or cannot be reached on the line, the call is cut between the
operands. -/
theorem parse_call_of_kept (op : Comparison) (hleft : IsOperand left) (hright : IsOperand right)
    (hgap : ∀ c ∈ gap, Text.isBlank c = true) (hkept : ',' ∉ right ∨ '\n' ∈ gap) :
    parse (String.ofList (op.call left gap right))
      = .ok ⟨op, String.ofList (dropQuotes left), String.ofList (dropQuotes right)⟩ := by
  have hnone := comma_not_mem_of_blank hgap
  have hcomma : ',' ∉ (gap ++ (right ++ op.closer.toList)).takeWhile (· ≠ '\n') := by
    rcases hkept with hkept | hkept
    · intro hmem
      have hall := (List.takeWhile_sublist _).subset hmem
      simp [hnone, hkept, comma_not_mem_closer] at hall
    · obtain ⟨front, back, rfl, hfront⟩ := List.eq_append_cons_of_mem hkept
      rw [List.append_assoc, List.takeWhile_append_of_pos]
      · simp only [List.mem_append, not_or] at hnone
        simpa using hnone.1
      · intro c hc
        have hne : c ≠ '\n' := fun h => hfront (h ▸ hc)
        simpa using hne
  have hoperand := rightOperand_append hgap hright.ne_nil hright.isBlank_head hright.line
    op.closer.toList
  rw [parse_call hleft.ne_nil hleft.line hcomma hoperand, hleft.operandText, hright.operandText]

/-- Otherwise the call is cut at the last comma of the right operand. -/
theorem parse_call_of_cut (op : Comparison) (hleft : IsOperand left) (hright : IsOperand right)
    (hline : '\n' ∉ gap) {front back : List Char}
    (hcut : right = front ++ ',' :: back) (hlast : ',' ∉ back) :
    parse (String.ofList (op.call left gap right))
      = .ok ⟨op, operandText (left ++ ',' :: (gap ++ front)), operandText back⟩ := by
  have hback : back ≠ [] := by
    rintro rfl
    exact hright.not_getLast_comma front hcut
  have hshift : op.call left gap right = op.call (left ++ ',' :: (gap ++ front)) [] back := by
    simp [Comparison.call, hcut]
  have hlines : '\n' ∉ front ∧ '\n' ∉ back := by
    have hright := hright.line
    rw [hcut] at hright
    simpa using hright
  obtain ⟨blanks, hblanks, hstart⟩ := Text.exists_trimStart back
  have hne : Text.trimStart back ≠ [] := by
    intro hnil
    obtain ⟨c, hc⟩ := Option.ne_none_iff_exists'.mp (mt List.getLast?_eq_none_iff.mp hback)
    have hblank : Text.isBlank c = true := by
      rw [hnil, List.append_nil] at hstart
      exact hblanks c (hstart ▸ List.mem_of_getLast? hc)
    have hend : right.getLast? = some c := by
      rw [hcut]
      simp [List.getLast?_append, List.getLast?_cons, hc]
    rw [hright.isBlank_getLast c hend] at hblank
    cases hblank
  have hoperand : rightOperand op.closer.toList ([] ++ (back ++ op.closer.toList))
      = some (Text.trimStart back) := by
    have hfeed : '\n' ∉ Text.trimStart back := fun hmem =>
      hlines.2 ((List.dropWhile_sublist Text.isBlank).subset hmem)
    have hread := rightOperand_append hblanks hne Text.isBlank_head_trimStart hfeed op.closer.toList
    rwa [← List.append_assoc, ← hstart] at hread
  have hcomma : ',' ∉ ([] ++ (back ++ op.closer.toList)).takeWhile (· ≠ '\n') := by
    intro hmem
    have hall := (List.takeWhile_sublist _).subset hmem
    simp [hlast, comma_not_mem_closer] at hall
  rw [hshift, parse_call (by simp) (by simp [hleft.line, hline, hlines.1]) hcomma hoperand,
    operandText_trimStart]

/-- **Operands.** A condition has the operands of its call, without their quotes, exactly if the right
one has no comma or a line ends before it. Otherwise the call is cut at the last comma of the right
operand: all before it counts as the left operand. -/
theorem parse_call_iff (op : Comparison) (hleft : IsOperand left) (hright : IsOperand right)
    (hgap : ∀ c ∈ gap, Text.isBlank c = true) :
    (parse (String.ofList (op.call left gap right))
        = .ok ⟨op, String.ofList (dropQuotes left), String.ofList (dropQuotes right)⟩ ↔
      ',' ∉ right ∨ '\n' ∈ gap) ∧
    ∀ front back, right = front ++ ',' :: back → ',' ∉ back → '\n' ∉ gap →
      parse (String.ofList (op.call left gap right))
        = .ok ⟨op, operandText (left ++ ',' :: (gap ++ front)), operandText back⟩ := by
  refine ⟨⟨fun hparse => ?_, parse_call_of_kept op hleft hright hgap⟩,
    fun front back hcut hlast hline => parse_call_of_cut op hleft hright hline hcut hlast⟩
  by_contra hkept
  rw [not_or, not_not] at hkept
  obtain ⟨hmem, hline⟩ := hkept
  -- the text after the last comma has none, but the operand has one
  obtain ⟨after, before, hreverse, hlast⟩ := List.eq_append_cons_of_mem (List.mem_reverse.mpr hmem)
  have hcut : right = before.reverse ++ ',' :: after.reverse := by
    have h := congrArg List.reverse hreverse
    simpa using h
  rw [parse_call_of_cut op hleft hright hline hcut (by simpa using hlast)] at hparse
  have hoperand := congrArg Condition.right (Except.ok.inj hparse)
  have hback : ',' ∉ dropQuotes (Text.trim after.reverse) := by
    intro h
    have hafter := Text.trim_subset _ (List.mem_filter.mp h).1
    exact hlast (List.mem_reverse.mp hafter)
  have hright : ',' ∈ dropQuotes right := List.mem_filter.mpr ⟨hmem, by decide⟩
  rw [← String.ofList_injective hoperand] at hright
  exact hback hright

/-- A call within the left operand stays whole, one within the right operand is cut. -/
theorem nestedCalls_cut :
    IsOperand "pipeline().parameters.env".toList ∧ IsOperand "concat('prod', '-', 1)".toList ∧
      parse "@not(equals(concat('prod', '-', 1), pipeline().parameters.env))"
        = .ok ⟨.notEqual, "concat(prod, -, 1)", "pipeline().parameters.env"⟩ ∧
      parse "@not(equals(pipeline().parameters.env, concat('prod', '-', 1)))"
        = .ok ⟨.notEqual, "pipeline().parameters.env, concat(prod, -", "1)"⟩ := by
  have hname : IsOperand "pipeline().parameters.env".toList := by decide
  have hnested : IsOperand "concat('prod', '-', 1)".toList := by decide
  have hgap : ∀ c ∈ [' '], Text.isBlank c = true := by
    rw [List.forall_mem_singleton]
    decide
  refine ⟨hname, hnested, ?_, ?_⟩
  · exact (parse_call_iff .notEqual hnested hname hgap).1.mpr (.inl (by decide))
  · exact (parse_call_iff .notEqual hname hnested hgap).2 "concat('prod', '-'".toList " 1)".toList
      (by decide) (by decide) (by decide)

/-- The right operand of a call is read from its last comma on. -/
theorem nestedRight_misread :
    let left := "pipeline().parameters.env".toList
    let right := "concat('a', 'b')".toList
    let text := String.ofList (Comparison.equal.call left [' '] right)
    IsOperand left ∧ IsOperand right ∧
      text = "@equals(pipeline().parameters.env, concat('a', 'b'))" ∧
      parse text = .ok ⟨.equal, "pipeline().parameters.env, concat(a", "b)"⟩ ∧
      parse text ≠ .ok ⟨.equal, String.ofList (dropQuotes left), String.ofList (dropQuotes right)⟩ := by
  intro left right text
  have htext : text = "@equals(pipeline().parameters.env, concat('a', 'b'))" := by decide
  have hparse : parse text = .ok ⟨.equal, "pipeline().parameters.env, concat(a", "b)"⟩ := by
    rw [htext]
    cbv
  refine ⟨by decide, by decide, htext, hparse, ?_⟩
  rw [hparse]
  intro h
  exact absurd (congrArg Condition.right (Except.ok.inj h)) (by decide)

end Condition

end FactoryMigration
