import FactoryMigration.Expression.ItemList
import Mathlib.Data.List.TakeWhile

set_option autoImplicit false

/-! # Enclosed texts

A call encloses the text between its head and the last closer on its line, so a text without line
feeds is found again between them, whatever it holds (`Expression.enclosed?_append`). Trimming leaves
a text as it is exactly if no blank stands at either end (`Text.trim_eq_self_iff`). -/

namespace FactoryMigration

/-! ## Trimmed texts -/

namespace Text

theorem trimStart_eq_self {cs : List Char} (h : ∀ c ∈ cs.head?, isBlank c = false) :
    trimStart cs = cs := by
  cases cs with
  | nil => rfl
  | cons c rest =>
    have hc : isBlank c = false := h c rfl
    simp [trimStart, hc]

theorem trimEnd_eq_self {cs : List Char} (h : ∀ c ∈ cs.getLast?, isBlank c = false) :
    trimEnd cs = cs := by
  have hreverse : trimStart cs.reverse = cs.reverse := by
    apply trimStart_eq_self
    rwa [List.head?_reverse]
  rw [trimEnd, show cs.reverse.dropWhile isBlank = cs.reverse from hreverse, List.reverse_reverse]

theorem trimStart_append {blanks : List Char} (hblanks : ∀ c ∈ blanks, isBlank c = true)
    (cs : List Char) : trimStart (blanks ++ cs) = trimStart cs :=
  List.dropWhile_append_of_pos hblanks

theorem trimEnd_append {blanks : List Char} (hblanks : ∀ c ∈ blanks, isBlank c = true)
    (cs : List Char) : trimEnd (cs ++ blanks) = trimEnd cs := by
  have hreverse : ∀ c ∈ blanks.reverse, isBlank c = true := fun c hc =>
    hblanks c (List.mem_reverse.mp hc)
  rw [trimEnd, trimEnd, List.reverse_append, List.dropWhile_append_of_pos hreverse]

theorem exists_trimStart (cs : List Char) :
    ∃ blanks, (∀ c ∈ blanks, isBlank c = true) ∧ cs = blanks ++ trimStart cs :=
  ⟨cs.takeWhile isBlank, fun _ hc => List.mem_takeWhile_imp hc,
    (List.takeWhile_append_dropWhile).symm⟩

theorem exists_trimEnd (cs : List Char) :
    ∃ blanks, (∀ c ∈ blanks, isBlank c = true) ∧ cs = trimEnd cs ++ blanks := by
  obtain ⟨blanks, hblanks, hreverse⟩ := exists_trimStart cs.reverse
  refine ⟨blanks.reverse, fun c hc => hblanks c (List.mem_reverse.mp hc), ?_⟩
  have h := congrArg List.reverse hreverse
  rwa [List.reverse_reverse, List.reverse_append] at h

theorem isBlank_head_trimStart {cs : List Char} : ∀ c ∈ (trimStart cs).head?, isBlank c = false := by
  intro c hc
  have hfirst := List.head?_dropWhile_not isBlank cs
  rw [show (cs.dropWhile isBlank).head? = some c from hc] at hfirst
  exact hfirst

theorem isBlank_getLast_trimEnd {cs : List Char} :
    ∀ c ∈ (trimEnd cs).getLast?, isBlank c = false := by
  intro c hc
  rw [trimEnd, List.getLast?_reverse] at hc
  exact isBlank_head_trimStart c hc

/-- **Trimming.** A text is left as it is exactly if it neither begins nor ends with a blank. -/
theorem trim_eq_self_iff {cs : List Char} :
    trim cs = cs ↔
      (∀ c ∈ cs.head?, isBlank c = false) ∧ ∀ c ∈ cs.getLast?, isBlank c = false := by
  constructor
  · intro h
    obtain ⟨blanks, -, hstart⟩ := exists_trimStart cs
    obtain ⟨blanks', -, hend⟩ := exists_trimEnd (trimStart cs)
    -- nothing is dropped in front
    have hlength : blanks.length + ((trimEnd (trimStart cs)).length + blanks'.length)
        = cs.length := by
      rw [← List.length_append, ← hend, ← List.length_append, ← hstart]
    have hnone : blanks = [] := by
      rw [show trimEnd (trimStart cs) = cs from h] at hlength
      exact List.eq_nil_of_length_eq_zero (by omega)
    have hfront : trimStart cs = cs := by
      rw [hnone, List.nil_append] at hstart
      exact hstart.symm
    have hback : trimEnd cs = cs := by
      rwa [trim, hfront] at h
    refine ⟨hfront ▸ isBlank_head_trimStart, ?_⟩
    rw [← hback]
    exact isBlank_getLast_trimEnd
  · rintro ⟨hfirst, hlast⟩
    rw [trim, trimStart_eq_self hfirst, trimEnd_eq_self hlast]

theorem trim_trimStart (cs : List Char) : trim (trimStart cs) = trim cs := by
  rw [trim, trim, trimStart_eq_self isBlank_head_trimStart]

theorem trim_trim (cs : List Char) : trim (trim cs) = trim cs := by
  refine trim_eq_self_iff.mpr ⟨fun c hc => ?_, isBlank_getLast_trimEnd⟩
  obtain ⟨blanks, -, hend⟩ := exists_trimEnd (trimStart cs)
  -- what is left begins like the text that is trimmed at its end
  obtain ⟨rest, hrest⟩ := List.head?_eq_some_iff.mp hc
  have hfirst : c ∈ (trimStart cs).head? := by
    have hhead := congrArg List.head? hend
    rwa [show trimEnd (trimStart cs) = c :: rest from hrest] at hhead
  exact isBlank_head_trimStart c hfirst

theorem trim_subset (cs : List Char) : trim cs ⊆ cs := by
  intro c hc
  have hback : c ∈ trimStart cs := by
    obtain ⟨blanks, -, hend⟩ := exists_trimEnd (trimStart cs)
    rw [hend]
    exact List.mem_append_left blanks hc
  exact (List.dropWhile_sublist isBlank).subset hback

theorem mem_trim_of_mem {c : Char} (hc : isBlank c = false) {cs : List Char} (h : c ∈ cs) :
    c ∈ trim cs := by
  have hnot {blanks : List Char} (hblanks : ∀ d ∈ blanks, isBlank d = true) : c ∉ blanks := by
    intro hmem
    rw [hblanks c hmem] at hc
    cases hc
  obtain ⟨before, hbefore, hstart⟩ := exists_trimStart cs
  obtain ⟨behind, hbehind, hend⟩ := exists_trimEnd (trimStart cs)
  rw [hstart, List.mem_append] at h
  have hmiddle := h.resolve_left (hnot hbefore)
  rw [hend, List.mem_append] at hmiddle
  exact hmiddle.resolve_right (hnot hbehind)

end Text

/-! ## Up to the last closer -/

namespace Expression

theorem length_le_of_longestBefore {closer cs operand : List Char}
    (h : longestBefore closer cs = some operand) :
    operand.length + closer.length ≤ cs.length := by
  induction cs generalizing operand with
  | nil =>
    rw [longestBefore] at h
    split at h
    · rename_i hcloser
      obtain rfl := Option.some.inj h
      simp [hcloser]
    · cases h
  | cons c rest ih =>
    -- the closer may stand here, with nothing before it
    have hempty {found : List Char}
        (hhere : (if (Text.afterStart closer (c :: rest)).isSome then some [] else none) = some found) :
        found.length + closer.length ≤ (c :: rest).length := by
      split at hhere
      · rename_i hclosed
        obtain rfl := Option.some.inj hhere
        obtain ⟨after, hafter⟩ := Option.isSome_iff_exists.mp hclosed
        rw [Text.afterStart_eq_some_iff.mp hafter]
        simp
      · cases hhere
    rw [longestBefore] at h
    split at h
    · exact hempty h
    · split at h
      · rename_i longer hlonger
        obtain rfl := Option.some.inj h
        have := ih hlonger
        simp only [List.length_cons]
        omega
      · exact hempty h

/-- A text without line feeds is as long as it can be before a closer that ends the whole. -/
theorem longestBefore_append {operand : List Char} (hline : '\n' ∉ operand) (closer : List Char) :
    longestBefore closer (operand ++ closer) = some operand := by
  induction operand with
  | nil =>
    cases closer with
    | nil => rfl
    | cons c closer =>
      have hclosed : Text.afterStart (c :: closer) (c :: closer) = some [] :=
        Text.afterStart_eq_some_iff.mpr (List.append_nil _).symm
      rw [List.nil_append, longestBefore]
      simp only [hclosed, Option.isSome_some, if_true]
      split
      · rfl
      · split
        · rename_i longer hlonger
          have := length_le_of_longestBefore hlonger
          simp only [List.length_cons] at this
          omega
        · rfl
  | cons c operand ih =>
    rw [List.mem_cons, not_or] at hline
    rw [List.cons_append, longestBefore]
    simp only [if_neg (Ne.symm hline.1), ih hline.2]

theorem operandBefore_append {operand : List Char} (hne : operand ≠ []) (hline : '\n' ∉ operand)
    (closer : List Char) : operandBefore closer (operand ++ closer) = some operand := by
  cases operand with
  | nil => exact absurd rfl hne
  | cons c operand =>
    rw [List.mem_cons, not_or] at hline
    rw [List.cons_append, operandBefore, if_neg (Ne.symm hline.1), longestBefore_append hline.2,
      Option.map_some]

/-- **Enclosed texts.** What stands between the head and the closer of a call is found again, if it
is not empty and has no line feed. -/
theorem enclosed?_append {text : List Char} (hne : text ≠ []) (hline : '\n' ∉ text)
    (head closer : String) :
    enclosed? head closer (head.toList ++ (text ++ closer.toList)) = some text := by
  have hhead : Text.afterStart head.toList (head.toList ++ (text ++ closer.toList))
      = some (text ++ closer.toList) := Text.afterStart_eq_some_iff.mpr rfl
  rw [enclosed?, hhead, Option.bind_some, operandBefore_append hne hline]

end Expression

end FactoryMigration
