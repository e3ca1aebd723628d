import FactoryMigration.Json.Parser
import FactoryMigration.Proofs.CompactText

set_option autoImplicit false

/-! # Reading compact text

The reader undoes the writer entry by entry: if each entry of a list is read from its own text,
whatever follows, the whole list is read from the joined texts (`Json.bracketed?_joinWith`). Each kind
of value is read back from its compact text if what is in it is; how numbers are read is a parameter
here (`Json.valueWith`). So a list of texts is read back (`Json.parse?_compact_texts`). -/

namespace FactoryMigration.Json

open Decimal (isMark)

/-- The characters of number literals, which may have a capital letter before the exponent. -/
def isLiteralChar (c : Char) : Bool :=
  isMark c || c == 'E'

/-- A text that cannot go on with a number literal. -/
def EndsLiteral (text : List Char) : Prop :=
  ∀ c ∈ text.head?, isLiteralChar c = false

/-- A reader that finds the entry at the start of a text that goes on after it. -/
def ReadBy {α : Type} (entry : List Char → Option (α × List Char)) (text : α → String) (a : α) :
    Prop :=
  ∀ rest, EndsLiteral rest → entry ((text a).toList ++ rest) = some (a, rest)

theorem skipSpace_cons {c : Char} (h : isSpace c = false) (rest : List Char) :
    skipSpace (c :: rest) = c :: rest :=
  List.dropWhile_cons_of_neg (by simp [h])

/-! ## Lists of entries -/

section

variable {α : Type} {entry : List Char → Option (α × List Char)} {text : α → String} {close : Char}

/-- What ends a list: no part of a number, no blank and no comma. -/
structure Closes (close : Char) : Prop where
  literal : isLiteralChar close = false
  space : isSpace close = false
  comma : close ≠ ','

/-- Entries begin neither with a blank nor like the end of the list. -/
def Opens (text : α → String) (close : Char) : Prop :=
  ∀ a, ∃ c rest, (text a).toList = c :: rest ∧ isSpace c = false ∧ c ≠ close

theorem Opens.skipSpace (h : Opens text close) (a : α) (rest : List Char) :
    skipSpace ((text a).toList ++ rest) = (text a).toList ++ rest := by
  obtain ⟨c, tail, hlist, hspace, -⟩ := h a
  rw [hlist, List.cons_append, skipSpace_cons hspace]

theorem endsLiteral_moreEntries (hclose : Closes close) (entries : List String) (rest : List Char) :
    EndsLiteral (moreEntries close entries rest) := by
  cases entries with
  | nil =>
    rintro _ ⟨⟩
    exact hclose.literal
  | cons entry entries =>
    rintro _ ⟨⟩
    rfl

theorem entries?_moreEntries (hclose : Closes close) (hopens : Opens text close) {a : α} {as : List α}
    (hread : ∀ b ∈ a :: as, ReadBy entry text b) {steps : Nat} (hsteps : as.length < steps)
    (rest : List Char) :
    entries? entry close steps ((text a).toList ++ moreEntries close (as.map text) rest)
      = some (a :: as, rest) := by
  induction as generalizing a steps with
  | nil =>
    have hfirst := hread a List.mem_cons_self _ (endsLiteral_moreEntries hclose [] rest)
    cases steps with
    | zero => exact absurd hsteps (Nat.not_lt_zero _)
    | succ steps =>
      rw [moreEntries] at hfirst
      simp [entries?, moreEntries, hopens.skipSpace, hfirst, skipSpace_cons hclose.space,
        hclose.comma]
  | cons b as ih =>
    have hfirst := hread a List.mem_cons_self _
      (endsLiteral_moreEntries hclose ((b :: as).map text) rest)
    cases steps with
    | zero => exact absurd hsteps (Nat.not_lt_zero _)
    | succ steps =>
      have hmore := ih (fun b' hb' => hread b' (List.mem_cons_of_mem a hb'))
        (Nat.lt_of_succ_lt_succ hsteps)
      rw [List.map_cons, moreEntries] at hfirst
      have hcomma : isSpace ',' = false := rfl
      simp [entries?, moreEntries, hopens.skipSpace, hfirst, skipSpace_cons hcomma, hmore]

theorem length_lt_moreEntries (close : Char) (entries : List String) (rest : List Char) :
    entries.length < (moreEntries close entries rest).length := by
  induction entries with
  | nil => simp [moreEntries]
  | cons entry entries ih =>
    rw [moreEntries]
    simp only [List.length_cons, List.length_append]
    omega

/-- A list of entries is read from the joined texts, up to the character that closes it. -/
theorem bracketed?_joinWith (hclose : Closes close) (hopens : Opens text close) {as : List α}
    (hread : ∀ a ∈ as, ReadBy entry text a) (rest : List Char) :
    bracketed? entry close ((Text.joinWith "," (as.map text)).toList ++ close :: rest)
      = some (as, rest) := by
  cases as with
  | nil =>
    show bracketed? entry close (close :: rest) = some ([], rest)
    simp [bracketed?, skipSpace_cons hclose.space]
  | cons a as =>
    have hsteps : as.length < ((text a).toList ++ moreEntries close (as.map text) rest).length := by
      have := length_lt_moreEntries close (as.map text) rest
      rw [List.length_map] at this
      rw [List.length_append]
      omega
    have hentries := entries?_moreEntries hclose hopens hread hsteps rest
    obtain ⟨c, tail, hlist, -, hne⟩ := hopens a
    rw [List.map_cons, toList_joinWith_cons, bracketed?, hopens.skipSpace]
    rw [hlist, List.cons_append] at hentries ⊢
    simp only [if_neg hne]
    exact hentries

end

/-! ## Values -/

/-- Reads a value as `value?` does, and the numbers in it as `number` does. -/
def valueWith (number : List Char → Option (Number × List Char)) :
    Nat → List Char → Option (Json × List Char)
  | _, 'n' :: 'u' :: 'l' :: 'l' :: rest => some (.null, rest)
  | _, 't' :: 'r' :: 'u' :: 'e' :: rest => some (.bool true, rest)
  | _, 'f' :: 'a' :: 'l' :: 's' :: 'e' :: rest => some (.bool false, rest)
  | _, '"' :: rest => (Text.scanQuoted rest).map fun (s, rest) => (.str (String.ofList s), rest)
  | depth + 1, '[' :: rest =>
    (bracketed? (valueWith number depth) ']' rest).map fun (items, rest) => (.arr items, rest)
  | depth + 1, '\x7b' :: rest =>
    (bracketed? (field? (valueWith number depth)) '\x7d' rest).map fun (fields, rest) =>
      (ofFields fields, rest)
  | _, cs => (number cs).map fun (n, rest) => (.num n, rest)

theorem value?_eq_valueWith (depth : Nat) : value? depth = valueWith number? depth := by
  induction depth with
  | zero =>
    funext cs
    unfold value?
    split <;> simp_all [valueWith]
  | succ depth ih =>
    funext cs
    unfold value?
    split <;> simp_all [valueWith]

theorem closes_bracket : Closes ']' :=
  ⟨rfl, rfl, by decide⟩

theorem closes_brace : Closes '\x7d' :=
  ⟨rfl, rfl, by decide⟩

theorem opens_compact {close : Char} (hclose : Opening.ofChar close = .other) :
    Opens compact close := by
  intro value
  obtain ⟨c, rest, hlist, hopening⟩ := exists_head_compact value
  have hother : Opening.ofChar c ≠ .other := by
    rw [hopening]
    cases value <;> exact nofun
  refine ⟨c, rest, hlist, ?_, fun h => hother (h ▸ hclose)⟩
  rw [← Bool.not_eq_true]
  intro hspace
  simp only [isSpace, Bool.or_eq_true, beq_iff_eq] at hspace
  rcases hspace with ((rfl | rfl) | rfl) | rfl
  all_goals exact hother rfl

theorem opens_fieldText {close : Char} (hclose : '"' ≠ close) : Opens fieldText close := by
  intro field
  exact ⟨'"', _, by rw [toList_fieldText, Text.quote]; rfl, rfl, hclose⟩

section

variable (number : List Char → Option (Number × List Char))

theorem readBy_null (depth : Nat) : ReadBy (valueWith number depth) compact .null := by
  intro rest _
  cases depth <;> rfl

theorem readBy_bool (depth : Nat) (b : Bool) : ReadBy (valueWith number depth) compact (.bool b) := by
  intro rest _
  cases b <;> cases depth <;> rfl

/-- What begins with a mark is a number. -/
theorem valueWith_mark {c : Char} (h : isMark c = true) (depth : Nat) (rest : List Char) :
    valueWith number depth (c :: rest)
      = (number (c :: rest)).map fun read => (.num read.1, read.2) := by
  have hne (d : Char) (hd : isMark d = false) : c ≠ d := by
    rintro rfl
    rw [h] at hd
    cases hd
  have hn := hne 'n' rfl
  have ht := hne 't' rfl
  have hf := hne 'f' rfl
  have hquote := hne '"' rfl
  have hbracket := hne '[' rfl
  have hbrace := hne '\x7b' rfl
  unfold valueWith
  split <;> simp_all

theorem readBy_num {n : Number} (h : ReadBy number Number.text n) (depth : Nat) :
    ReadBy (valueWith number depth) compact (.num n) := by
  intro rest hrest
  obtain ⟨c, tail, hlist⟩ := List.exists_cons_of_ne_nil n.text_ne_nil
  have hc : isMark c = true := n.isMark_of_mem_text c (hlist ▸ List.mem_cons_self)
  have hread := h rest hrest
  rw [compact]
  rw [hlist, List.cons_append] at hread ⊢
  rw [valueWith_mark number hc, hread, Option.map_some]

theorem readBy_str (depth : Nat) (s : String) :
    ReadBy (valueWith number depth) compact (.str s) := by
  intro rest _
  have hvalue (cs : List Char) : valueWith number depth ('"' :: cs)
      = (Text.scanQuoted cs).map fun read => (.str (String.ofList read.1), read.2) := by
    cases depth <;> rfl
  rw [compact, Text.quoted, String.toList_ofList, Text.quote, List.append_assoc, List.cons_append,
    hvalue]
  simp only [List.cons_append, List.nil_append, Text.scanQuoted_escape, Option.map_some,
    String.ofList_toList]

variable {number}

theorem readBy_arr {depth : Nat} {items : List Json}
    (hread : ∀ item ∈ items, ReadBy (valueWith number depth) compact item) :
    ReadBy (valueWith number (depth + 1)) compact (.arr items) := by
  intro rest _
  have hvalue (cs : List Char) : valueWith number (depth + 1) ('[' :: cs)
      = (bracketed? (valueWith number depth) ']' cs).map fun read => (.arr read.1, read.2) :=
    rfl
  rw [toList_compact_arr, List.cons_append, List.append_assoc, hvalue]
  simp only [List.cons_append, List.nil_append,
    bracketed?_joinWith closes_bracket (opens_compact rfl) hread, Option.map_some]

theorem readBy_field {depth : Nat} {field : String × Json}
    (hread : ReadBy (valueWith number depth) compact field.2) :
    ReadBy (field? (valueWith number depth)) fieldText field := by
  intro rest hrest
  have hopens : Opens compact ']' := opens_compact rfl
  have hcolon : isSpace ':' = false := rfl
  rw [toList_fieldText, Text.quote]
  simp [field?, Text.scanQuoted_escape, skipSpace_cons hcolon, hopens.skipSpace, hread rest hrest]

/-- Fields are read one by one; the object that is read is the table of them. -/
theorem valueWith_compact_obj {depth : Nat} {fields : List (String × Json)}
    (hread : ∀ field ∈ fields, ReadBy (valueWith number depth) compact field.2) (rest : List Char) :
    valueWith number (depth + 1) ((compact (.obj fields)).toList ++ rest)
      = some (ofFields fields, rest) := by
  have hvalue (cs : List Char) : valueWith number (depth + 1) ('\x7b' :: cs)
      = (bracketed? (field? (valueWith number depth)) '\x7d' cs).map fun read =>
        (ofFields read.1, read.2) :=
    rfl
  have hfields : ∀ field ∈ fields, ReadBy (field? (valueWith number depth)) fieldText field :=
    fun field hfield => readBy_field (hread field hfield)
  rw [toList_compact_obj, List.cons_append, List.append_assoc, hvalue]
  simp only [List.cons_append, List.nil_append,
    bracketed?_joinWith closes_brace (opens_fieldText (by decide)) hfields, Option.map_some]

end

/-! ## Whole texts -/

/-- Reads a whole text as `parse?` does, and the numbers in it as `number` does. -/
def parseWith (number : List Char → Option (Number × List Char)) (depth : Nat) (text : String) :
    Option Json := do
  let (value, rest) ← valueWith number depth (skipSpace text.toList)
  guard (skipSpace rest = [])
  return value

theorem parse?_eq_parseWith : parse? = parseWith number? maxDepth := by
  funext text
  rw [parse?, parseWith, value?_eq_valueWith]

/-- A value that is read from its compact text is read from it as a whole text. -/
theorem parseWith_compact {number : List Char → Option (Number × List Char)} {depth : Nat}
    {value : Json} (h : ReadBy (valueWith number depth) compact value) :
    parseWith number depth (compact value) = some value := by
  have hopens : Opens compact ']' := opens_compact rfl
  have hskip := hopens.skipSpace value []
  have hread := h [] nofun
  rw [List.append_nil] at hskip hread
  rw [parseWith, hskip, hread]
  rfl

/-- **Lists of texts.** The compact text of a list of texts is read as that list. -/
theorem parse?_compact_texts (texts : List String) :
    parse? (compact (.arr (texts.map .str))) = some (.arr (texts.map .str)) := by
  have hread : ∀ item ∈ texts.map Json.str, ReadBy (valueWith number? 126) compact item := by
    intro item hitem
    obtain ⟨s, -, rfl⟩ := List.mem_map.mp hitem
    exact readBy_str number? _ s
  rw [parse?_eq_parseWith]
  exact parseWith_compact (readBy_arr hread)

end FactoryMigration.Json
