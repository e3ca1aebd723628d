import FactoryMigration.Proofs.KeySegments
import FactoryMigration.Script.Notebook

set_option autoImplicit false

/-! # Indented blocks

A block of a script is moved to the right line by line. The same is done by a walk over its characters
that knows whether the line has begun (`Script.toList_indent`), and so what becomes of a text in the
middle of a line is known, whatever stands in it (`Script.exists_isShifted`): it stays as it is unless
it has a line feed, and otherwise blanks and carriage returns are all that changes. -/

namespace FactoryMigration

/-! ## Lines -/

namespace Text

theorem dropReturn_cons {c : Char} {line : List Char} (h : c = '\r' → line ≠ []) :
    dropReturn (c :: line) = c :: dropReturn line := by
  rcases List.eq_nil_or_concat line with rfl | ⟨kept, last, rfl⟩
  · unfold dropReturn
    split
    · rename_i heq
      exact absurd rfl (h (List.cons.inj heq).1)
    · rfl
  · by_cases hlast : last = '\r'
    · subst hlast
      simp [dropReturn]
    · have hkept (front : List Char) : dropReturn (front ++ [last]) = front ++ [last] := by
        unfold dropReturn
        rw [List.reverse_append]
        split
        · rename_i heq
          exact absurd (List.cons.inj heq).1 hlast
        · rfl
      rw [List.concat_eq_append, hkept, ← List.cons_append, hkept]

theorem lines_append {line : List Char} (h : '\n' ∉ line) (rest : List Char) :
    lines (line ++ '\n' :: rest) = dropReturn line :: lines rest := by
  unfold lines
  rw [segments_append h]
  rcases List.eq_nil_or_concat (segments '\n' rest) with hnil | ⟨ended, last, hsegments⟩
  · exact absurd hnil (segments_ne_nil _ _)
  · rw [hsegments, List.concat_eq_append]
    cases last <;> simp

theorem lines_of_not_mem {line : List Char} (hne : line ≠ []) (h : '\n' ∉ line) :
    lines line = [line] := by
  obtain ⟨c, line, rfl⟩ := List.exists_cons_of_ne_nil hne
  rw [lines, segments_of_not_mem h]
  rfl

theorem lines_ne_nil {cs : List Char} (h : cs ≠ []) : lines cs ≠ [] := by
  by_cases hmem : '\n' ∈ cs
  · obtain ⟨line, rest, rfl, hline⟩ := List.eq_append_cons_of_mem hmem
    rw [lines_append hline]
    exact List.cons_ne_nil _ _
  · rw [lines_of_not_mem h hmem]
    exact List.cons_ne_nil _ _

end Text

namespace Script

/-! ## The walk -/

/-- What a line that has not begun gets in front. -/
def margin : Bool → List Char
  | true => []
  | false => "    ".toList

/-- The text with each line that is not empty moved to the right. The line in which it starts may have
begun before it. -/
def shiftLines : Bool → List Char → List Char
  | _, [] => []
  | begun, c :: rest =>
    if c = '\n' then '\n' :: shiftLines false rest
    else if c = '\r' ∧ rest.head? = some '\n' then shiftLines begun rest
    else margin begun ++ c :: shiftLines true rest

/-- One line, moved to the right unless it is empty. -/
def shiftLine (begun : Bool) (line : List Char) : List Char :=
  if line = [] then [] else margin begun ++ line

@[simp]
theorem shiftLine_true (line : List Char) : shiftLine true line = line := by
  cases line <;> rfl

theorem shiftLine_cons (begun : Bool) (c : Char) (line : List Char) :
    shiftLine begun (c :: line) = margin begun ++ c :: line := rfl

theorem shiftLines_line {line : List Char} (h : '\n' ∉ line) (begun : Bool) :
    shiftLines begun line = shiftLine begun line := by
  induction line generalizing begun with
  | nil => rfl
  | cons c line ih =>
    rw [List.mem_cons, not_or] at h
    have hhead : line.head? ≠ some '\n' := fun heq => h.2 (List.mem_of_head? heq)
    rw [shiftLines, if_neg (Ne.symm h.1), if_neg (fun hreturn => hhead hreturn.2), ih h.2,
      shiftLine_true, shiftLine_cons]

theorem shiftLines_append {line : List Char} (h : '\n' ∉ line) (begun : Bool) (rest : List Char) :
    shiftLines begun (line ++ '\n' :: rest)
      = shiftLine begun (Text.dropReturn line) ++ '\n' :: shiftLines false rest := by
  induction line generalizing begun with
  | nil => rfl
  | cons c line ih =>
    rw [List.mem_cons, not_or] at h
    rw [List.cons_append, shiftLines, if_neg (Ne.symm h.1)]
    by_cases hreturn : c = '\r' ∧ line = []
    · obtain ⟨rfl, rfl⟩ := hreturn
      rfl
    · have hhead : ¬ (c = '\r' ∧ (line ++ '\n' :: rest).head? = some '\n') := by
        rintro ⟨hc, hfeed⟩
        cases line with
        | nil => exact hreturn ⟨hc, rfl⟩
        | cons d line => exact h.2 (by simp [Option.some.inj hfeed])
      have hkept : c = '\r' → line ≠ [] := fun hc hnil => hreturn ⟨hc, hnil⟩
      rw [if_neg hhead, ih h.2, shiftLine_true, Text.dropReturn_cons hkept, shiftLine_cons,
        List.append_assoc, List.cons_append]

/-- A block is moved to the right by the walk over its characters. -/
theorem toList_indent {block : String} (h : block.toList.getLast? ≠ some '\n') :
    (indent block).toList = shiftLines false block.toList := by
  have hjoin : (indent block).toList
      = Text.join ['\n'] ((Text.lines block.toList).map (shiftLine false)) := by
    rw [indent, Text.toList_joinWith, List.map_map]
    congr 1
    refine List.map_congr_left fun line _ => ?_
    simp only [Function.comp_apply, shiftLine]
    split <;> simp [margin]
  rw [hjoin]
  generalize block.toList = cs at h
  clear hjoin block
  -- The text is cut at its first line feed.
  induction hlength : cs.length using Nat.strongRecOn generalizing cs with
  | ind n ih =>
    by_cases hmem : '\n' ∈ cs
    · obtain ⟨line, rest, rfl, hline⟩ := List.eq_append_cons_of_mem hmem
      have hrest : rest ≠ [] := by
        rintro rfl
        simp at h
      have hlast : rest.getLast? ≠ some '\n' := by
        obtain ⟨c, rest, rfl⟩ := List.exists_cons_of_ne_nil hrest
        simpa using h
      have hshort : rest.length < n := by
        rw [← hlength, List.length_append, List.length_cons]
        omega
      rw [Text.lines_append hline, shiftLines_append hline, ← ih _ hshort rest hlast rfl]
      obtain ⟨next, others, hlines⟩ := List.exists_cons_of_ne_nil (Text.lines_ne_nil hrest)
      rw [hlines]
      simp [Text.join]
    · rw [shiftLines_line hmem]
      by_cases hnil : cs = []
      · subst hnil
        rfl
      · rw [Text.lines_of_not_mem hnil hmem]
        rfl

/-! ## Code in a block -/

/-- Text that is one line and not empty. -/
def IsOneLine (line : String) : Prop :=
  line.toList ≠ [] ∧ ∀ c ∈ line.toList, c ≠ '\n' ∧ c ≠ '\r'

instance (line : String) : Decidable (IsOneLine line) :=
  have := List.decidableBAll (fun c => c ≠ '\n' ∧ c ≠ '\r') line.toList
  inferInstanceAs (Decidable (_ ∧ _))

theorem shiftLines_code {code : List Char} (hne : code ≠ []) (h : ∀ c ∈ code, c ≠ '\n' ∧ c ≠ '\r')
    (begun : Bool) (rest : List Char) :
    shiftLines begun (code ++ rest) = margin begun ++ code ++ shiftLines true rest := by
  induction code generalizing begun with
  | nil => exact absurd rfl hne
  | cons c code ih =>
    obtain ⟨⟨hfeed, hreturn⟩, hcode⟩ := List.forall_mem_cons.mp h
    rw [List.cons_append, shiftLines, if_neg hfeed, if_neg (fun heq => hreturn heq.1)]
    cases code with
    | nil => simp
    | cons d code =>
      rw [ih (List.cons_ne_nil _ _) hcode]
      simp [margin]

theorem toList_joinWith_margin (line : String) (lines : List String) :
    (Text.joinWith "\n" (("    " ++ line) :: lines)).toList
      = margin false ++ (Text.joinWith "\n" (line :: lines)).toList := by
  cases lines <;> simp [Text.joinWith, margin]

/-- Lines of code, the first of which may have begun before them, and the last of which goes on. -/
theorem shiftLines_joinWith {line : String} {lines : List String} (h : ∀ l ∈ line :: lines, IsOneLine l)
    (begun : Bool) (rest : List Char) :
    shiftLines begun ((Text.joinWith "\n" (line :: lines)).toList ++ rest)
      = margin begun ++ (Text.joinWith "\n" (line :: lines.map ("    " ++ ·))).toList
        ++ shiftLines true rest := by
  induction lines generalizing line begun with
  | nil =>
    obtain ⟨hline, -⟩ := List.forall_mem_cons.mp h
    rw [List.map_nil, Text.joinWith, shiftLines_code hline.1 hline.2]
  | cons next lines ih =>
    obtain ⟨hline, hlines⟩ := List.forall_mem_cons.mp h
    have hjoin (first second : String) (others : List String) :
        (Text.joinWith "\n" (first :: second :: others)).toList
          = first.toList ++ '\n' :: (Text.joinWith "\n" (second :: others)).toList := by
      simp [Text.joinWith]
    have hfeed (more : List Char) :
        shiftLines true ('\n' :: more) = '\n' :: shiftLines false more := rfl
    rw [hjoin, List.append_assoc, shiftLines_code hline.1 hline.2, List.cons_append, hfeed,
      ih hlines, List.map_cons, hjoin, toList_joinWith_margin]
    simp only [List.append_assoc, List.cons_append]

/-- Lines of code at the beginning of a block, the last of which goes on. -/
theorem shiftLines_begin {lines : List String} (hne : lines ≠ []) (h : ∀ line ∈ lines, IsOneLine line)
    (rest : List Char) :
    shiftLines false ((Text.joinWith "\n" lines).toList ++ rest)
      = (Text.joinWith "\n" (lines.map ("    " ++ ·))).toList ++ shiftLines true rest := by
  obtain ⟨line, lines, rfl⟩ := List.exists_cons_of_ne_nil hne
  rw [shiftLines_joinWith h, List.map_cons, toList_joinWith_margin]

/-! ## Texts in a block -/

/-- A text that is moved to the right is not the same only in its blanks and carriage returns, and
only if it has a line feed. -/
structure IsShifted (written text : List Char) : Prop where
  filter : written.filter (· ∉ [' ', '\r']) = text.filter (· ∉ [' ', '\r'])
  same : '\n' ∉ text → written = text

theorem IsShifted.mem_lineFeed {written text : List Char} (h : IsShifted written text)
    (hmem : '\n' ∈ text) : '\n' ∈ written := by
  have hfilter : '\n' ∈ written.filter (· ∉ [' ', '\r']) := by
    rw [h.filter]
    exact List.mem_filter.mpr ⟨hmem, rfl⟩
  exact (List.mem_filter.mp hfilter).1

theorem IsShifted.count_backslash {written text : List Char} (h : IsShifted written text) :
    written.count '\\' = text.count '\\' := by
  have hcount (cs : List Char) : (cs.filter (· ∉ [' ', '\r'])).count '\\' = cs.count '\\' :=
    List.count_filter rfl
  rw [← hcount, h.filter, hcount]

/-- What becomes of a text before a quote. -/
theorem exists_shifted (text : List Char) (begun : Bool) (behind : List Char) :
    ∃ written, shiftLines begun (text ++ '"' :: behind) = written ++ '"' :: shiftLines true behind ∧
      written.filter (· ∉ [' ', '\r']) = text.filter (· ∉ [' ', '\r']) ∧
      (begun = true → '\n' ∉ text → written = text) := by
  have hmargin : ∀ begun, (margin begun).filter (· ∉ [' ', '\r']) = [] := by decide
  induction text generalizing begun with
  | nil =>
    refine ⟨margin begun, rfl, hmargin begun, ?_⟩
    rintro rfl -
    rfl
  | cons c text ih =>
    rw [List.cons_append, shiftLines]
    by_cases hfeed : c = '\n'
    · subst hfeed
      obtain ⟨written, heq, hfilter, -⟩ := ih false
      refine ⟨'\n' :: written, by rw [if_pos rfl, heq]; rfl, ?_, fun _ hnot => ?_⟩
      · simpa using hfilter
      · exact absurd List.mem_cons_self hnot
    · rw [if_neg hfeed]
      split
      · rename_i hreturn
        obtain ⟨rfl, hhead⟩ := hreturn
        obtain ⟨written, heq, hfilter, -⟩ := ih begun
        refine ⟨written, heq, by simpa using hfilter, fun _ hnot => ?_⟩
        cases text with
        | nil => exact absurd hhead (by simp)
        | cons d text =>
          obtain rfl := Option.some.inj hhead
          simp at hnot
      · obtain ⟨written, heq, hfilter, hsame⟩ := ih true
        refine ⟨margin begun ++ c :: written, by simp [heq], ?_, ?_⟩
        · rw [List.filter_append, hmargin, List.nil_append, List.filter_cons, List.filter_cons,
            hfilter]
        · rintro rfl hnot
          rw [List.mem_cons, not_or] at hnot
          rw [hsame rfl hnot.2]
          rfl

/-- **Texts in a block.** A text behind code on its line and before a quote. -/
theorem exists_isShifted (text behind : List Char) :
    ∃ written, IsShifted written text ∧
      shiftLines true (text ++ '"' :: behind) = written ++ '"' :: shiftLines true behind := by
  obtain ⟨written, heq, hfilter, hsame⟩ := exists_shifted text true behind
  exact ⟨written, ⟨hfilter, hsame rfl⟩, heq⟩

end Script

end FactoryMigration
