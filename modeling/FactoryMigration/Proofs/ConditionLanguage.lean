import FactoryMigration.Proofs.ConditionOperands
import FactoryMigration.Proofs.LongestCut

set_option autoImplicit false

/-! # The language of conditions

A condition is any text that can be written as the head of a comparison, a left operand, a comma,
blanks, a right operand, the closer, and more text. No text can be written so for two comparisons. Of
its writings the one with the longest left operand counts, then that with the most blanks, then that
with the longest right operand (`Condition.parse_iff_longest`). -/

namespace FactoryMigration

open Expression

/-! ## Writings as a call -/

/-- The text is written as the call of the comparison, with more text after it: both operands are on
one line and not empty, and only blanks stand after the comma between them. -/
structure Comparison.Writes (op : Comparison) (cs : List Char) (cut : Cut) : Prop where
  eq : cs = op.head.toList ++ cut.text op.closer.toList
  left_ne_nil : cut.left ≠ []
  left_line : '\n' ∉ cut.left
  gap : ∀ c ∈ cut.gap, Text.isBlank c = true
  right_ne_nil : cut.right ≠ []
  right_line : '\n' ∉ cut.right

theorem Comparison.writes_append_iff {op : Comparison} {body : List Char} {cut : Cut} :
    op.Writes (op.head.toList ++ body) cut ↔ cut.left ≠ [] ∧ cut.Of op.closer.toList body := by
  constructor
  · intro h
    exact ⟨h.left_ne_nil, ⟨h.gap, h.right_ne_nil, h.right_line⟩, List.append_cancel_left h.eq,
      h.left_line⟩
  · rintro ⟨hne, h⟩
    exact ⟨congrArg (op.head.toList ++ ·) h.eq, hne, h.left_line, h.gap, h.right_ne_nil, h.right_line⟩

/-- A text is written as the call of one comparison at most. -/
theorem Comparison.Writes.op_unique {op other : Comparison} {cs : List Char} {cut cut' : Cut}
    (h : op.Writes cs cut) (h' : other.Writes cs cut') : other = op := by
  by_contra hne
  have hother := Text.afterStart_eq_some_iff.mpr h'.eq
  rw [h.eq, Comparison.afterStart_head hne] at hother
  cases hother

/-- A text has one longest writing, since the lengths of its parts tell where they end. -/
theorem IsLongest.cut_unique {op : Comparison} {cs : List Char} {cut cut' : Cut}
    (h : IsLongest (op.Writes cs) Cut.size cut) (h' : IsLongest (op.Writes cs) Cut.size cut') :
    cut = cut' := by
  have hsize : cut.size = cut'.size := le_antisymm (h'.le cut h.mem) (h.le cut' h'.mem)
  obtain ⟨⟨gap, right, rest⟩, left⟩ := cut
  obtain ⟨⟨gap', right', rest'⟩, left'⟩ := cut'
  obtain ⟨hleft, hending⟩ := Prod.mk.inj (toLex.injective hsize)
  obtain ⟨hgap, hright⟩ := Prod.mk.inj (toLex.injective hending)
  have htext := List.append_cancel_left (h.mem.eq.symm.trans h'.mem.eq)
  obtain ⟨rfl, htext⟩ := List.append_inj htext hleft
  obtain ⟨rfl, htext⟩ := List.append_inj (List.cons.inj htext).2 hgap
  obtain ⟨rfl, htext⟩ := List.append_inj htext hright
  obtain rfl := List.append_cancel_left htext
  rfl

/-- The condition of a cut: its operands without outer blanks and without quotes. -/
def Expression.Cut.condition (op : Comparison) (cut : Cut) : Condition :=
  ⟨op, operandText cut.left, operandText cut.right⟩

namespace Condition

/-- The call of a comparison is read from its longest writing. -/
theorem finds_ofCall? (op : Comparison) (cs : List Char) :
    Finds (op.Writes cs) Cut.size (Cut.condition op) (ofCall? op cs) := by
  cases hbody : Text.afterStart op.head.toList cs with
  | none =>
    have hnone : ofCall? op cs = none := by
      simp [ofCall?, hbody]
    rw [hnone]
    intro cut h
    rw [Text.afterStart_eq_some_iff.mpr h.eq] at hbody
    cases hbody
  | some body =>
    have hcall : ofCall? op cs = (operands op.closer.toList body).map fun found =>
        ⟨op, operandText found.1, operandText found.2⟩ := by
      cases hoperands : operands op.closer.toList body <;> simp [ofCall?, hbody, hoperands]
    obtain rfl := Text.afterStart_eq_some_iff.mp hbody
    rw [hcall]
    refine (finds_operands op.closer.toList body).map id _ (fun cut => ?_) (fun _ _ h => h)
      fun _ => rfl
    simp [Comparison.writes_append_iff]

theorem ofCall?_eq_some_iff {op : Comparison} {cs : List Char} {condition : Condition} :
    ofCall? op cs = some condition ↔
      ∃ cut, IsLongest (op.Writes cs) Cut.size cut ∧ cut.condition op = condition :=
  (finds_ofCall? op cs).eq_some_iff fun _ _ h h' => by rw [h.cut_unique h']

theorem ofCall?_eq_none_iff {op : Comparison} {cs : List Char} :
    ofCall? op cs = none ↔ ∀ cut, ¬op.Writes cs cut :=
  (finds_ofCall? op cs).eq_none_iff

/-- A text that is read as a call is read so by one comparison, whenever its call is tried. -/
theorem findSome?_ofCall?_perm {ops : List Comparison} (hops : ops.Perm Comparison.all)
    (cs : List Char) :
    ops.findSome? (ofCall? · cs) = Comparison.all.findSome? (ofCall? · cs) := by
  by_cases h : ∀ op ∈ Comparison.all, ofCall? op cs = none
  · have hops' : ∀ op ∈ ops, ofCall? op cs = none := fun op hop => h op (hops.subset hop)
    rw [List.findSome?_eq_none_iff.mpr h, List.findSome?_eq_none_iff.mpr hops']
  · push Not at h
    obtain ⟨op, hop, hne⟩ := h
    obtain ⟨condition, hcondition⟩ := Option.ne_none_iff_exists'.mp hne
    obtain ⟨cut, hcut, -⟩ := ofCall?_eq_some_iff.mp hcondition
    have hother : ∀ other, other ≠ op → ofCall? other cs = none := fun other hother =>
      ofCall?_eq_none_iff.mpr fun cut' hcut' => hother (hcut.mem.op_unique hcut')
    rw [findSome?_eq_of_unique hop hcondition fun other _ => hother other,
      findSome?_eq_of_unique (hops.symm.subset hop) hcondition fun other _ => hother other]

/-- The obstacle of a text that is no condition. -/
def unsupported (cs : List Char) : Obstacle :=
  ⟨.str (String.ofList cs), "Unsupported conditional expression '" ++ String.ofList cs ++ "'"⟩

theorem parse_eq (text : String) :
    parse text = match Comparison.all.findSome? (ofCall? · (Text.trim text.toList)) with
      | some condition => .ok condition
      | none => .error (unsupported (Text.trim text.toList)) :=
  rfl

theorem parse_ok_iff {text : String} {condition : Condition} :
    parse text = .ok condition ↔
      ∃ op cut, IsLongest (op.Writes (Text.trim text.toList)) Cut.size cut ∧
        cut.condition op = condition := by
  have hfound : Comparison.all.findSome? (ofCall? · (Text.trim text.toList)) = some condition ↔
      parse text = .ok condition := by
    rw [parse_eq]
    cases Comparison.all.findSome? (ofCall? · (Text.trim text.toList)) <;> simp
  rw [← hfound]
  constructor
  · intro h
    obtain ⟨op, -, hcall⟩ := List.exists_of_findSome?_eq_some h
    exact ⟨op, ofCall?_eq_some_iff.mp hcall⟩
  · rintro ⟨op, hcut⟩
    have hlongest := hcut.choose_spec.1
    refine findSome?_eq_of_unique op.mem_all (ofCall?_eq_some_iff.mpr hcut) fun other _ hother => ?_
    exact ofCall?_eq_none_iff.mpr fun cut' hcut' => hother (hlongest.mem.op_unique hcut')

theorem parse_error_iff {text : String} {obstacle : Obstacle} :
    parse text = .error obstacle ↔
      (∀ (op : Comparison) cut, ¬op.Writes (Text.trim text.toList) cut) ∧
        obstacle = unsupported (Text.trim text.toList) := by
  have hnone : Comparison.all.findSome? (ofCall? · (Text.trim text.toList)) = none ↔
      ∀ (op : Comparison) cut, ¬op.Writes (Text.trim text.toList) cut := by
    simp only [List.findSome?_eq_none_iff, ofCall?_eq_none_iff]
    exact ⟨fun h op => h op op.mem_all, fun h op _ => h op⟩
  rw [← hnone]
  rw [parse_eq]
  cases Comparison.all.findSome? (ofCall? · (Text.trim text.toList)) <;> simp [eq_comm]

/-- **Language.** Of a trimmed text, at most one comparison has writings as its call, so that the order
in which calls are tried does not matter. A text has a condition exactly if it has a writing: that of
the one with the longest left operand, then the most blanks, then the longest right operand. Any other
text is an obstacle with its trimmed form. -/
theorem parse_iff_longest (text : String) :
    let cs := Text.trim text.toList
    (∀ (op other : Comparison) cut cut', op.Writes cs cut → other.Writes cs cut' → op = other) ∧
    (∀ ops : List Comparison, ops.Perm Comparison.all →
      ops.findSome? (ofCall? · cs) = Comparison.all.findSome? (ofCall? · cs)) ∧
    (∀ (op : Comparison) cut cut', IsLongest (op.Writes cs) Cut.size cut →
      IsLongest (op.Writes cs) Cut.size cut' → cut = cut') ∧
    (∀ condition, parse text = .ok condition ↔
      ∃ op cut, IsLongest (op.Writes cs) Cut.size cut ∧ cut.condition op = condition) ∧
    ((∃ condition, parse text = .ok condition) ↔ ∃ (op : Comparison) (cut : Cut), op.Writes cs cut) ∧
    ∀ obstacle, parse text = .error obstacle ↔
      (∀ (op : Comparison) cut, ¬op.Writes cs cut) ∧ obstacle = unsupported cs := by
  intro cs
  refine ⟨fun op other cut cut' h h' => h'.op_unique h, fun ops hops => findSome?_ofCall?_perm hops cs,
    fun op cut cut' h h' => h.cut_unique h', fun condition => parse_ok_iff, ?_,
    fun obstacle => parse_error_iff⟩
  constructor
  · rintro ⟨condition, h⟩
    obtain ⟨op, cut, hlongest, -⟩ := parse_ok_iff.mp h
    exact ⟨op, cut, hlongest.mem⟩
  · rintro ⟨op, cut, hcut⟩
    cases h : parse text with
    | ok condition => exact ⟨condition, rfl⟩
    | error obstacle => exact absurd hcut ((parse_error_iff.mp h).1 op cut)

/-- Of the two commas the one at the end of the line counts, with all blanks after it, and of the two
parentheses the one farther on; what follows it is not read. -/
theorem brokenLine_longest :
    let text := " @greater(max(1, 2),\n\t3) > x) and 4 "
    parse text = .ok ⟨.greater, "max(1, 2)", "3) > x"⟩ ∧
      ∃ cut, IsLongest (Comparison.greater.Writes (Text.trim text.toList)) Cut.size cut ∧
        cut.condition .greater = ⟨.greater, "max(1, 2)", "3) > x"⟩ := by
  intro text
  have hparse : parse " @greater(max(1, 2),\n\t3) > x) and 4 "
      = .ok ⟨.greater, "max(1, 2)", "3) > x"⟩ := by
    cbv
  refine ⟨hparse, ?_⟩
  obtain ⟨op, cut, hlongest, hcondition⟩ := ((parse_iff_longest text).2.2.2.1 _).mp hparse
  obtain rfl : op = .greater := congrArg Condition.op hcondition
  exact ⟨cut, hlongest, hcondition⟩

end Condition

end FactoryMigration
