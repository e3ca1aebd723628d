import Mathlib.Data.List.TakeWhile
import FactoryMigration.Proofs.LiteralValues

set_option autoImplicit false

/-! # Literals in scripts

How a double-quoted literal is read where it stands in a script, with all escapes of the language of
scripts. A text between two quotes is a literal of the text itself exactly if it is verbatim
(`Script.literal?_eq_some_iff`): it has no quote and no end of a line, and no backslash that begins an
escape. -/

namespace FactoryMigration.Script

/-! ## Reading a literal -/

/-- The character of an escape that is a backslash and one character. -/
def escapedCharacter? : Char → Option Char
  | '\\' => some '\\'
  | '\'' => some '\''
  | '"' => some '"'
  | 'a' => some '\x07'
  | 'b' => some '\x08'
  | 'f' => some '\x0c'
  | 'n' => some '\n'
  | 'r' => some '\r'
  | 't' => some '\t'
  | 'v' => some '\x0b'
  | _ => none

def isOctalDigit (c : Char) : Bool :=
  '0' ≤ c && c ≤ '7'

def isHexDigit (c : Char) : Bool :=
  (Text.hexValue? c).isSome

/-- The character whose number the digits write. -/
def characterOf? (base : Nat) (digits : List Char) : Option Char :=
  let code := digits.foldl (fun n digit => base * n + (Text.hexValue? digit).getD 0) 0
  if code.isValidChar then some (Char.ofNat code) else none

/-- The character with the number that so many hexadecimal digits write, and what follows them. -/
def hexEscape? (count : Nat) (cs : List Char) : Option (List Char × List Char) :=
  let digits := cs.take count
  if digits.length = count ∧ digits.all isHexDigit then
    (characterOf? 16 digits).map fun c => ([c], cs.drop count)
  else none

/-- The character with the number that up to three octal digits write, and what follows them. -/
def octalEscape? (cs : List Char) : Option (List Char × List Char) :=
  let digits := (cs.take 3).takeWhile isOctalDigit
  (characterOf? 8 digits).map fun c => ([c], cs.drop digits.length)

/-- What an escape stands for, after its backslash, and what follows it. The end of a line is skipped,
and a character with which no escape begins stands for itself and the backslash. Escapes by the name
of a character are refused: they stand for a single character, which is not their own text. -/
def escape? : List Char → Option (List Char × List Char)
  | [] => none
  | '\n' :: rest => some ([], rest)
  | '\r' :: '\n' :: rest => some ([], rest)
  | '\r' :: rest => some ([], rest)
  | '\x00' :: _ => none
  | 'N' :: _ => none
  | 'x' :: rest => hexEscape? 2 rest
  | 'u' :: rest => hexEscape? 4 rest
  | 'U' :: rest => hexEscape? 8 rest
  | c :: rest =>
    match escapedCharacter? c with
    | some character => some ([character], rest)
    | none => if isOctalDigit c then octalEscape? (c :: rest) else some (['\\', c], rest)

/-- Whether a backslash does not stand for itself before the character. -/
def startsEscape (c : Char) : Bool :=
  ['\n', '\r', '\x00', 'N', 'x', 'u', 'U'].contains c || (escapedCharacter? c).isSome
    || isOctalDigit c

/-- What an escape takes of a text, and what it stands for. -/
inductive Escape : List Char → List Char → Prop where
  | skipped {taken : List Char} (h : taken ≠ []) : Escape taken []
  | character {taken : List Char} {c : Char} (h : taken ≠ []) (hfeed : '\n' ∉ taken) :
      Escape taken [c]
  | self {c : Char} (h : startsEscape c = false) : Escape [c] ['\\', c]

theorem hexEscape?_ok {count : Nat} {first : Char} {cs value after : List Char}
    (hfirst : first ≠ '\n') (h : hexEscape? count cs = some (value, after)) :
    ∃ taken, first :: cs = taken ++ after ∧ Escape taken value := by
  unfold hexEscape? at h
  dsimp only at h
  split at h
  · rename_i hdigits
    obtain ⟨c, -, hvalue⟩ := Option.map_eq_some_iff.mp h
    obtain ⟨rfl, rfl⟩ := Prod.mk.inj hvalue
    refine ⟨first :: cs.take count, by rw [List.cons_append, List.take_append_drop],
      .character (List.cons_ne_nil _ _) ?_⟩
    rw [List.mem_cons, not_or]
    refine ⟨hfirst.symm, fun hmem => ?_⟩
    exact absurd (List.all_eq_true.mp hdigits.2 _ hmem) (by decide)
  · cases h

theorem octalEscape?_ok {cs value after : List Char} {c : Char} (hc : isOctalDigit c = true)
    (h : octalEscape? (c :: cs) = some (value, after)) :
    ∃ taken, c :: cs = taken ++ after ∧ Escape taken value := by
  unfold octalEscape? at h
  dsimp only at h
  generalize hdigits : ((c :: cs).take 3).takeWhile isOctalDigit = digits at h
  obtain ⟨character, -, hvalue⟩ := Option.map_eq_some_iff.mp h
  obtain ⟨rfl, rfl⟩ := Prod.mk.inj hvalue
  have hprefix : digits <+: c :: cs := by
    rw [← hdigits]
    exact (List.takeWhile_prefix _).trans (List.take_prefix _ _)
  refine ⟨digits, ?_, .character ?_ fun hmem => ?_⟩
  · conv_lhs => rw [← List.take_append_drop digits.length (c :: cs)]
    rw [← List.prefix_iff_eq_take.mp hprefix]
  · rw [← hdigits, List.take_succ_cons, List.takeWhile_cons_of_pos hc]
    exact List.cons_ne_nil _ _
  · rw [← hdigits] at hmem
    exact absurd (List.mem_takeWhile_imp hmem) (by decide)

theorem escape?_ok {cs value after : List Char} (h : escape? cs = some (value, after)) :
    ∃ taken, cs = taken ++ after ∧ Escape taken value := by
  unfold escape? at h
  split at h
  · cases h
  · cases h
    exact ⟨['\n'], rfl, .skipped (by simp)⟩
  · cases h
    exact ⟨['\r', '\n'], rfl, .skipped (by simp)⟩
  · cases h
    exact ⟨['\r'], rfl, .skipped (by simp)⟩
  · cases h
  · cases h
  · exact hexEscape?_ok (by decide) h
  · exact hexEscape?_ok (by decide) h
  · exact hexEscape?_ok (by decide) h
  · rename_i c rest hfeed _ hreturn hzero hname hx hu hU
    split at h
    · cases h
      exact ⟨[c], rfl, .character (List.cons_ne_nil _ _) (by simp [Ne.symm hfeed])⟩
    · rename_i hnone
      split at h
      · exact octalEscape?_ok ‹_› h
      · rename_i hoctal
        cases h
        exact ⟨[c], rfl, .self (by simp_all [startsEscape])⟩

theorem escape?_self {c : Char} (h : startsEscape c = false) (rest : List Char) :
    escape? (c :: rest) = some (['\\', c], rest) := by
  simp [startsEscape] at h
  simp [escape?, h]

theorem Escape.ne_nil {taken value : List Char} (h : Escape taken value) : taken ≠ [] := by
  cases h with
  | skipped hne => exact hne
  | character hne => exact hne
  | self => exact List.cons_ne_nil _ _

theorem length_lt_of_escape? {cs value after : List Char} (h : escape? cs = some (value, after)) :
    after.length < cs.length := by
  obtain ⟨taken, rfl, htaken⟩ := escape?_ok h
  rw [List.length_append]
  exact Nat.lt_add_of_pos_left (List.length_pos_iff.mpr htaken.ne_nil)

/-- What a literal stands for, after its opening quote, and what follows its closing quote. It has to
end on its line, and the character with the number zero is refused. -/
def scanLiteral? : List Char → Option (List Char × List Char)
  | [] => none
  | '"' :: rest => some ([], rest)
  | '\\' :: rest =>
    match _hescape : escape? rest with
    | none => none
    | some (value, after) =>
      (scanLiteral? after).map fun (text, behind) => (value ++ text, behind)
  | c :: rest =>
    if c = '\n' ∨ c = '\r' ∨ c = '\x00' then none
    else (scanLiteral? rest).map fun (text, behind) => (c :: text, behind)
termination_by cs => cs.length
decreasing_by
  · have := length_lt_of_escape? _hescape
    simp only [List.length_cons]
    omega
  · simp

/-- What an ordinary double-quoted literal at the beginning of a text stands for, and what follows it.
Three quotes begin a literal of another kind. -/
def literal? : List Char → Option (List Char × List Char)
  | '"' :: '"' :: '"' :: _ => none
  | '"' :: rest => scanLiteral? rest
  | _ => none

/-! ## Verbatim texts -/

/-- A text that stands for itself between quotes: it has no quote and no end of a line, and a
backslash only before a character with which no escape begins. -/
inductive IsVerbatim : List Char → Prop where
  | nil : IsVerbatim []
  | cons {c : Char} {text : List Char} (hc : c ∉ ['"', '\\', '\n', '\r', '\x00'])
      (h : IsVerbatim text) : IsVerbatim (c :: text)
  | backslash {c : Char} {text : List Char} (hc : startsEscape c = false) (h : IsVerbatim text) :
      IsVerbatim ('\\' :: c :: text)

/-- How a text between quotes compares with what it is read as. -/
structure Reads (written value : List Char) : Prop where
  length : value.length ≤ written.length
  verbatim : value.length = written.length → IsVerbatim written
  backslashes : value.count '\\' ≤ written.count '\\'
  lineFeed : '\n' ∈ written → value.count '\\' < written.count '\\'

/-- An escape and its backslash together are longer than what they stand for, unless they stand for
themselves. -/
theorem Escape.reads {taken value written text : List Char} (h : Escape taken value)
    (hrest : Reads written text) : Reads ('\\' :: (taken ++ written)) (value ++ text) := by
  obtain ⟨hlength, hverbatim, hbackslashes, hlineFeed⟩ := hrest
  have htaken := List.length_pos_iff.mpr h.ne_nil
  have hwrittenLength : ('\\' :: (taken ++ written)).length = 1 + taken.length + written.length := by
    rw [List.length_cons, List.length_append]
    omega
  have hwrittenCount : ('\\' :: (taken ++ written)).count '\\'
      = 1 + taken.count '\\' + written.count '\\' := by
    rw [List.count_cons_self, List.count_append]
    omega
  cases h with
  | skipped =>
    rw [List.nil_append]
    exact ⟨by omega, fun hsame => by omega, by omega, fun _ => by omega⟩
  | @character _ c _ hfeed =>
    have hcount : [c].count '\\' ≤ 1 := List.count_le_length
    have hvalueLength : ([c] ++ text).length = 1 + text.length := by
      rw [List.length_append, List.length_singleton]
    have hvalueCount : ([c] ++ text).count '\\' = [c].count '\\' + text.count '\\' :=
      List.count_append
    refine ⟨by omega, fun hsame => by omega, by omega, fun hmem => ?_⟩
    · have hrest : '\n' ∈ written := by simpa [hfeed] using hmem
      have := hlineFeed hrest
      omega
  | @self c hc =>
    have hfeed : '\n' ≠ c := by
      rintro rfl
      cases hc
    refine ⟨by simpa using hlength, fun hsame => .backslash hc (hverbatim (by simpa using hsame)),
      ?_, fun hmem => ?_⟩
    · simpa [List.count_cons] using hbackslashes
    · have hrest : '\n' ∈ written := by simpa [hfeed] using hmem
      simpa [List.count_cons] using hlineFeed hrest

theorem Reads.cons {c : Char} {written text : List Char}
    (hc : c ∉ ['"', '\\', '\n', '\r', '\x00']) (h : Reads written text) :
    Reads (c :: written) (c :: text) := by
  obtain ⟨hlength, hverbatim, hbackslashes, hlineFeed⟩ := h
  have hne : '\\' ≠ c ∧ '\n' ≠ c := by
    simp only [List.mem_cons, not_or] at hc
    exact ⟨Ne.symm hc.2.1, Ne.symm hc.2.2.1⟩
  refine ⟨Nat.succ_le_succ hlength, fun hsame => .cons hc (hverbatim (Nat.succ.inj hsame)), ?_,
    fun hmem => ?_⟩
  · simpa [List.count_cons, hne.1.symm] using hbackslashes
  · simpa [List.count_cons, hne.1.symm] using hlineFeed ((List.mem_cons.mp hmem).resolve_left hne.2)

theorem scanLiteral?_ok {cs value behind : List Char} (h : scanLiteral? cs = some (value, behind)) :
    ∃ written, cs = written ++ '"' :: behind ∧ Reads written value := by
  fun_induction scanLiteral? cs generalizing value behind with
  | case1 => cases h
  | case2 rest =>
    cases h
    exact ⟨[], rfl, Nat.le_refl _, fun _ => .nil, Nat.le_refl _, nofun⟩
  | case3 rest hescape => cases h
  | case4 rest taken after hescape ih =>
    obtain ⟨⟨text, behind'⟩, hrest, hvalue⟩ := Option.map_eq_some_iff.mp h
    obtain ⟨rfl, rfl⟩ := Prod.mk.inj hvalue
    obtain ⟨written, rfl, hreads⟩ := ih hrest
    obtain ⟨used, rfl, hused⟩ := escape?_ok hescape
    exact ⟨'\\' :: (used ++ written), by simp, hused.reads hreads⟩
  | case5 c rest hend => cases h
  | case6 c rest hquote hbackslash hend ih =>
    obtain ⟨⟨text, behind'⟩, hrest, hvalue⟩ := Option.map_eq_some_iff.mp h
    obtain ⟨rfl, rfl⟩ := Prod.mk.inj hvalue
    obtain ⟨written, rfl, hreads⟩ := ih hrest
    refine ⟨c :: written, rfl, hreads.cons ?_⟩
    simp only [List.mem_cons, List.not_mem_nil, or_false, not_or] at hend ⊢
    exact ⟨hquote, hbackslash, hend⟩

theorem scanLiteral?_escape {rest value after : List Char} (h : escape? rest = some (value, after)) :
    scanLiteral? ('\\' :: rest)
      = (scanLiteral? after).map fun (text, behind) => (value ++ text, behind) := by
  rw [scanLiteral?]
  split
  · rename_i hnone
    rw [h] at hnone
    cases hnone
  · rename_i hsome
    rw [h] at hsome
    cases hsome
    rfl

theorem IsVerbatim.scan {text : List Char} (h : IsVerbatim text) (behind : List Char) :
    scanLiteral? (text ++ '"' :: behind) = some (text, behind) := by
  induction h with
  | nil => rw [List.nil_append, scanLiteral?]
  | @cons c text hc _ ih =>
    simp only [List.mem_cons, List.not_mem_nil, or_false, not_or] at hc
    rw [List.cons_append, scanLiteral?, if_neg (by simp [hc]), ih, Option.map_some]
    · exact hc.1
    · exact hc.2.1
  | @backslash c text hc _ ih =>
    rw [List.cons_append, List.cons_append, scanLiteral?_escape (escape?_self hc _), ih]
    rfl

theorem isVerbatim_of_all {text : List Char}
    (h : text.all (· ∉ ['"', '\\', '\n', '\r', '\x00']) = true) : IsVerbatim text := by
  induction text with
  | nil => exact .nil
  | cons c text ih =>
    rw [List.all_cons, Bool.and_eq_true, decide_eq_true_eq] at h
    exact .cons h.1 (ih h.2)

theorem IsVerbatim.not_mem {text : List Char} (h : IsVerbatim text) {c : Char}
    (hc : c ∈ ['"', '\n', '\r', '\x00']) : c ∉ text := by
  have hstarts : c ≠ '\\' ∧ startsEscape c = true := by
    simp only [List.mem_cons, List.not_mem_nil, or_false] at hc
    rcases hc with rfl | rfl | rfl | rfl <;> decide
  induction h with
  | nil => exact List.not_mem_nil
  | @cons first text hfirst _ ih =>
    rw [List.mem_cons, not_or]
    refine ⟨?_, ih⟩
    rintro rfl
    exact hfirst (by simp only [List.mem_cons, List.not_mem_nil, or_false] at hc ⊢; tauto)
  | @backslash first text hfirst _ ih =>
    have hne : c ≠ first := by
      rintro rfl
      rw [hstarts.2] at hfirst
      cases hfirst
    simp [hstarts.1, hne, ih]

/-- A literal is scanned from its opening quote on. -/
theorem scanLiteral?_of_literal? {rest : List Char} {read : List Char × List Char}
    (h : literal? ('"' :: rest) = some read) : scanLiteral? rest = some read := by
  unfold literal? at h
  split at h
  · cases h
  · rename_i heq
    rw [(List.cons.inj heq).2]
    exact h
  · cases h

theorem literal?_cons {rest : List Char} (h : ∀ behind, rest ≠ '"' :: '"' :: behind) :
    literal? ('"' :: rest) = scanLiteral? rest := by
  unfold literal?
  split
  · rename_i heq
    exact absurd (List.cons.inj heq).2 (h _)
  · rename_i heq
    rw [(List.cons.inj heq).2]
  · rename_i hne
    exact absurd rfl (hne rest)

/-- What stands between the quotes of a literal, if it is known what follows. -/
theorem reads_of_literal? {written value behind : List Char}
    (h : literal? ('"' :: (written ++ '"' :: behind)) = some (value, behind)) :
    Reads written value := by
  obtain ⟨written', hwritten, hreads⟩ := scanLiteral?_ok (scanLiteral?_of_literal? h)
  rwa [List.append_cancel_right hwritten]

theorem IsVerbatim.literal? {text : List Char} (h : IsVerbatim text) {behind : List Char}
    (hbehind : behind.head? ≠ some '"') :
    literal? ('"' :: (text ++ '"' :: behind)) = some (text, behind) := by
  rw [literal?_cons, h.scan]
  intro behind' heq
  cases text with
  | nil =>
    rw [(List.cons.inj heq).2] at hbehind
    exact hbehind rfl
  | cons c text =>
    obtain rfl := (List.cons.inj heq).1
    exact h.not_mem List.mem_cons_self List.mem_cons_self

/-- A text between quotes is read as itself exactly if it is verbatim. -/
theorem literal?_eq_some_iff {text behind : List Char} (hbehind : behind.head? ≠ some '"') :
    literal? ('"' :: (text ++ '"' :: behind)) = some (text, behind) ↔ IsVerbatim text :=
  ⟨fun h => (reads_of_literal? h).verbatim rfl, fun h => h.literal? hbehind⟩

end FactoryMigration.Script
