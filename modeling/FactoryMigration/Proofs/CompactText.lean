import FactoryMigration.Json.Printer
import FactoryMigration.Proofs.NumeralText

set_option autoImplicit false

/-! # Compact JSON text

Values with the same compact text are the same (`Json.compact_injective`): a text that goes on after
a value shows where the value ends, by the quote, bracket or brace that closes it, or by a character
that no number has. What holds of the pieces of a compact text holds of all of it
(`Json.Composes.compact`); so no compact text has a zero character. -/

namespace FactoryMigration

/-! ## Quoted texts -/

namespace Text

theorem hexValue4?_hex4 : ∀ n < 0x20,
    hexValue4? (hexDigit (n / 4096 % 16)) (hexDigit (n / 256 % 16)) (hexDigit (n / 16 % 16))
      (hexDigit (n % 16)) = some n := by
  decide

/-- A character that stands for itself. -/
theorem scanQuoted_cons {c : Char} (hquote : c ≠ '"') (hbackslash : c ≠ '\\') (cs : List Char) :
    scanQuoted (c :: cs) = if c.toNat < 0x20 then none
      else (scanQuoted cs).map fun read => (c :: read.1, read.2) := by
  simp [scanQuoted, hbackslash]

/-- An escape of one letter. -/
theorem scanQuoted_letter {letter c : Char} (hletter : shortEscape? letter = some c)
    (cs : List Char) :
    scanQuoted ('\\' :: letter :: cs)
      = (scanQuoted cs).map fun read => (c :: read.1, read.2) := by
  have hne : letter ≠ 'u' := by
    rintro rfl
    cases hletter
  simp [scanQuoted, hne, hletter]

/-- The escape of a control character. -/
theorem scanQuoted_control {n : Nat} (hn : n < 0x20) (cs : List Char) :
    scanQuoted ('\\' :: 'u' :: (hex4 n ++ cs))
      = (scanQuoted cs).map fun read => (Char.ofNat n :: read.1, read.2) := by
  have hlead : isLeadSurrogate n = false := by
    simp [isLeadSurrogate]
    omega
  have htrail : isTrailSurrogate n = false := by
    simp [isTrailSurrogate]
    omega
  simp [scanQuoted, hex4, hexValue4?_hex4 n hn, hlead, htrail]

/-- How a character is written: as a letter after a backslash, by its number, or as it is. -/
theorem escapeChar_eq (c : Char) :
    (∃ letter, shortEscape? letter = some c ∧ escapeChar c = ['\\', letter]) ∨
      (c.toNat < 0x20 ∧ escapeChar c = '\\' :: 'u' :: hex4 c.toNat) ∨
      (c ≠ '"' ∧ c ≠ '\\' ∧ ¬c.toNat < 0x20 ∧ escapeChar c = [c]) := by
  unfold escapeChar
  split_ifs with hquote hbackslash hback hform hfeed hreturn htab hcontrol
  · exact .inl ⟨'"', by rw [hquote]; rfl, rfl⟩
  · exact .inl ⟨'\\', by rw [hbackslash]; rfl, rfl⟩
  · exact .inl ⟨'b', by rw [hback]; rfl, rfl⟩
  · exact .inl ⟨'f', by rw [hform]; rfl, rfl⟩
  · exact .inl ⟨'n', by rw [hfeed]; rfl, rfl⟩
  · exact .inl ⟨'r', by rw [hreturn]; rfl, rfl⟩
  · exact .inl ⟨'t', by rw [htab]; rfl, rfl⟩
  · exact .inr (.inl ⟨hcontrol, rfl⟩)
  · exact .inr (.inr ⟨hquote, hbackslash, hcontrol, rfl⟩)

/-- One escaped character is read back, in front of any text. -/
theorem scanQuoted_escapeChar (c : Char) (cs : List Char) :
    scanQuoted (escapeChar c ++ cs) = (scanQuoted cs).map fun read => (c :: read.1, read.2) := by
  rcases escapeChar_eq c with ⟨letter, hletter, h⟩ | ⟨hcontrol, h⟩ | ⟨hquote, hbackslash, hcontrol, h⟩
  · rw [h, List.cons_append, List.singleton_append, scanQuoted_letter hletter]
  · rw [h, List.cons_append, List.cons_append, scanQuoted_control hcontrol, Char.ofNat_toNat]
  · rw [h, List.singleton_append, scanQuoted_cons hquote hbackslash, if_neg hcontrol]

theorem scanQuoted_escape (cs rest : List Char) :
    scanQuoted (escape cs ++ '"' :: rest) = some (cs, rest) := by
  induction cs with
  | nil => rfl
  | cons c cs ih =>
    rw [escape, List.flatMap_cons, List.append_assoc, scanQuoted_escapeChar]
    exact congrArg (Option.map _) ih

theorem quote_append_injective {cs cs' rest rest' : List Char}
    (h : quote cs ++ rest = quote cs' ++ rest') : cs = cs' ∧ rest = rest' := by
  have hread := scanQuoted_escape cs rest
  have hread' := scanQuoted_escape cs' rest'
  have htail : escape cs ++ '"' :: rest = escape cs' ++ '"' :: rest' := by
    simpa [quote] using h
  rw [htail, hread'] at hread
  obtain ⟨rfl, rfl⟩ := Prod.mk.inj (Option.some.inj hread)
  exact ⟨rfl, rfl⟩

end Text

/-! ## Numbers -/

namespace Number

open Decimal (isMark isFractionMark)

theorem toList_text_real (x : Binary64) : (Number.real x).text.toList = Json.floatLayout.text x :=
  String.toList_ofList

/-- An integer is its digits, after a sign if it is below zero. -/
theorem toList_text_int (n : Int) :
    (Number.int n).text.toList
      = (if 0 ≤ n then [] else ['-']) ++ Nat.toDigits 10 n.natAbs := by
  show (toString n).toList = _
  rw [Int.toString_eq_repr, Int.repr_eq_if]
  split
  · rename_i h
    rw [Nat.toList_repr, List.nil_append, show n.toNat = n.natAbs by omega]
  · rename_i h
    rw [String.toList_append, Nat.toList_repr, show (-n).toNat = n.natAbs by omega]
    rfl

theorem isMark_of_mem_text (n : Number) : ∀ c ∈ n.text.toList, isMark c = true := by
  cases n with
  | int n =>
    rw [toList_text_int]
    simp only [List.forall_mem_append]
    refine ⟨?_, Decimal.isMark_of_mem_toDigits⟩
    split
    · exact nofun
    · simp [isMark]
  | real x =>
    rw [toList_text_real]
    exact (Decimal.marks_text Json.floatLayout x).1

/-- Integers have neither a point nor an exponent. -/
theorem isFractionMark_of_mem_text_int (n : Int) :
    ∀ c ∈ (Number.int n).text.toList, isFractionMark c = false := by
  rw [toList_text_int]
  simp only [List.forall_mem_append]
  constructor
  · split
    · exact nofun
    · simp [isFractionMark]
  · intro c hc
    have hdigit : c.isDigit = true := Text.isDigit_of_mem_toDigits hc
    have hpoint : c ≠ '.' := by
      rintro rfl
      exact absurd hdigit (by decide)
    have hletter : c ≠ 'e' := by
      rintro rfl
      exact absurd hdigit (by decide)
    simp [isFractionMark, hpoint, hletter]

theorem text_int_ne_real (n : Int) (x : Binary64) : (Number.int n).text ≠ (Number.real x).text := by
  intro h
  obtain ⟨c, hc, hmark⟩ := (Decimal.marks_text Json.floatLayout x).2
  rw [← toList_text_real, ← h] at hc
  rw [isFractionMark_of_mem_text_int n c hc] at hmark
  cases hmark

theorem text_int_injective {m n : Int} (h : (Number.int m).text = (Number.int n).text) : m = n := by
  have hlist := congrArg String.toList h
  rw [toList_text_int, toList_text_int] at hlist
  have hdigits {k l : Nat} (h : Nat.toDigits 10 k = Nat.toDigits 10 l) : k = l := by
    rw [← Text.ofDigits_toDigits k, h, Text.ofDigits_toDigits]
  have hsign {k l : Nat} (h : Nat.toDigits 10 k = '-' :: Nat.toDigits 10 l) : False := by
    have hmem : '-' ∈ Nat.toDigits 10 k := h ▸ List.mem_cons_self
    exact absurd (Text.isDigit_of_mem_toDigits hmem) (by decide)
  by_cases hm : 0 ≤ m
  · by_cases hn : 0 ≤ n
    · rw [if_pos hm, if_pos hn] at hlist
      have := hdigits hlist
      omega
    · rw [if_pos hm, if_neg hn] at hlist
      exact (hsign hlist).elim
  · by_cases hn : 0 ≤ n
    · rw [if_neg hm, if_pos hn] at hlist
      exact (hsign hlist.symm).elim
    · rw [if_neg hm, if_neg hn] at hlist
      have := hdigits (List.tail_eq_of_cons_eq hlist)
      omega

theorem text_injective : Function.Injective Number.text := by
  intro a b h
  cases a with
  | int m =>
    cases b with
    | int n => rw [text_int_injective h]
    | real y => exact absurd h (text_int_ne_real m y)
  | real x =>
    cases b with
    | int n => exact absurd h.symm (text_int_ne_real n x)
    | real y =>
      have hlist := congrArg String.toList h
      rw [toList_text_real, toList_text_real] at hlist
      rw [Decimal.text_injective Json.floatLayout hlist]

theorem text_ne_nil (n : Number) : n.text.toList ≠ [] := by
  cases n with
  | int n =>
    rw [toList_text_int]
    exact List.append_ne_nil_of_right_ne_nil _ Nat.toDigits_ne_nil
  | real x =>
    obtain ⟨c, hc, -⟩ := (Decimal.marks_text Json.floatLayout x).2
    rw [toList_text_real]
    exact List.ne_nil_of_mem hc

end Number

/-! ## Values -/

namespace Json

open Decimal (isMark)

/-- Induction over a value, with the values of the items of a list and of the fields of an object. -/
theorem induction_entries {motive : Json → Prop} (null : motive null)
    (bool : ∀ value, motive (bool value)) (num : ∀ n, motive (num n)) (str : ∀ s, motive (str s))
    (arr : ∀ items : List Json, (∀ item ∈ items, motive item) → motive (arr items))
    (obj : ∀ fields : List (String × Json), (∀ field ∈ fields, motive field.2) → motive (obj fields))
    (value : Json) : motive value := by
  cases value with
  | null => exact null
  | bool value => exact bool value
  | num n => exact num n
  | str s => exact str s
  | arr items =>
    exact arr items fun item hitem => induction_entries null bool num str arr obj item
  | obj fields =>
    exact obj fields fun field hfield => induction_entries null bool num str arr obj field.2
termination_by sizeOf value
decreasing_by
  · have := List.sizeOf_lt_of_mem hitem
    simp only [Json.arr.sizeOf_spec]
    omega
  · have := List.sizeOf_lt_of_mem hfield
    obtain ⟨key, value⟩ := field
    simp only [Prod.mk.sizeOf_spec] at this
    simp only [Json.obj.sizeOf_spec]
    omega

theorem compactItems_eq_map (items : List Json) : compactItems items = items.map compact := by
  induction items with
  | nil => rfl
  | cons item items ih => rw [compactItems, ih, List.map_cons]

/-- The text of a field. -/
def fieldText (field : String × Json) : String :=
  Text.quoted field.1 ++ ":" ++ compact field.2

theorem compactFields_eq_map (fields : List (String × Json)) :
    compactFields fields = fields.map fieldText := by
  induction fields with
  | nil => rfl
  | cons field fields ih => rw [compactFields, ih, List.map_cons, fieldText]

/-- What a value begins with. -/
inductive Opening where
  | null
  | bool
  | num
  | str
  | arr
  | obj
  | other
deriving DecidableEq

/-- What begins with a character. -/
def Opening.ofChar (c : Char) : Opening :=
  if c = 'n' then null
  else if c = 't' ∨ c = 'f' then bool
  else if c = '"' then str
  else if c = '[' then arr
  else if c = '\x7b' then obj
  else if isMark c then num
  else other

/-- What a value is. -/
def opening : Json → Opening
  | null => .null
  | bool _ => .bool
  | num _ => .num
  | str _ => .str
  | arr _ => .arr
  | obj _ => .obj

theorem Opening.ofChar_of_isMark {c : Char} (h : isMark c = true) : ofChar c = num := by
  have hne (d : Char) (hd : isMark d = false) : c ≠ d := by
    rintro rfl
    rw [h] at hd
    cases hd
  simp [ofChar, hne 'n' rfl, hne 't' rfl, hne 'f' rfl, hne '"' rfl, hne '[' rfl, hne '\x7b' rfl, h]

/-- The first character of a text shows what the value is. -/
theorem exists_head_compact (value : Json) :
    ∃ c rest, (compact value).toList = c :: rest ∧ Opening.ofChar c = value.opening := by
  cases value with
  | null => exact ⟨'n', _, rfl, rfl⟩
  | bool b =>
    cases b with
    | false => exact ⟨'f', _, rfl, rfl⟩
    | true => exact ⟨'t', _, rfl, rfl⟩
  | num n =>
    obtain ⟨c, rest, hlist⟩ := List.exists_cons_of_ne_nil n.text_ne_nil
    have hc : isMark c = true := n.isMark_of_mem_text c (hlist ▸ List.mem_cons_self)
    exact ⟨c, rest, by rw [compact, hlist], Opening.ofChar_of_isMark hc⟩
  | str s => exact ⟨'"', _, by rw [compact, Text.quoted, String.toList_ofList]; rfl, rfl⟩
  | arr items =>
    exact ⟨'[', _, by rw [compact, String.append_assoc, String.toList_append]; rfl, rfl⟩
  | obj fields =>
    exact ⟨'\x7b', _, by rw [compact, String.append_assoc, String.toList_append]; rfl, rfl⟩

theorem opening_eq_of_append {a b : Json} {s t : List Char}
    (h : (compact a).toList ++ s = (compact b).toList ++ t) : a.opening = b.opening := by
  obtain ⟨c, rest, hlist, hopening⟩ := exists_head_compact a
  obtain ⟨c', rest', hlist', hopening'⟩ := exists_head_compact b
  rw [hlist, hlist', List.cons_append, List.cons_append] at h
  rw [← hopening, ← hopening', (List.cons.inj h).1]

/-- A text that cannot go on with a number. -/
def EndsNumber (text : List Char) : Prop :=
  ∀ c ∈ text.head?, isMark c = false

/-- Further entries of a list, each after a comma, then the character that closes the list and what
follows. -/
def moreEntries (close : Char) : List String → List Char → List Char
  | [], rest => close :: rest
  | entry :: entries, rest => ',' :: (entry.toList ++ moreEntries close entries rest)

theorem endsNumber_moreEntries {close : Char} (hclose : isMark close = false)
    (entries : List String) (rest : List Char) : EndsNumber (moreEntries close entries rest) := by
  cases entries with
  | nil =>
    rintro _ ⟨⟩
    exact hclose
  | cons entry entries =>
    rintro _ ⟨⟩
    rfl

theorem toList_joinWith_cons (close : Char) (entry : String) (entries : List String)
    (rest : List Char) :
    (Text.joinWith "," (entry :: entries)).toList ++ close :: rest
      = entry.toList ++ moreEntries close entries rest := by
  induction entries generalizing entry with
  | nil => rfl
  | cons next entries ih =>
    show (entry ++ "," ++ Text.joinWith "," (next :: entries)).toList ++ close :: rest = _
    rw [String.toList_append, String.toList_append, List.append_assoc, List.append_assoc, ih]
    rfl

/-- A text that shows what it was written for and where it ends, whatever follows it. -/
def Shows {α : Type} (text : α → String) (a : α) : Prop :=
  ∀ b s t, EndsNumber s → EndsNumber t → (text a).toList ++ s = (text b).toList ++ t →
    a = b ∧ s = t

section

variable {α : Type} {text : α → String} {close : Char}

theorem moreEntries_injective (hclose : isMark close = false) (hcomma : close ≠ ',') {as : List α}
    (hshows : ∀ a ∈ as, Shows text a) {bs : List α} {s t : List Char}
    (h : moreEntries close (as.map text) s = moreEntries close (bs.map text) t) :
    as = bs ∧ s = t := by
  induction as generalizing bs with
  | nil =>
    cases bs with
    | nil => exact ⟨rfl, (List.cons.inj h).2⟩
    | cons b bs => exact absurd (List.cons.inj h).1 hcomma
  | cons a as ih =>
    cases bs with
    | nil => exact absurd (List.cons.inj h).1.symm hcomma
    | cons b bs =>
      obtain ⟨rfl, hrest⟩ := hshows a List.mem_cons_self b _ _ (endsNumber_moreEntries hclose _ _)
        (endsNumber_moreEntries hclose _ _) (List.cons.inj h).2
      obtain ⟨rfl, hend⟩ := ih (fun a' ha' => hshows a' (List.mem_cons_of_mem a ha')) hrest
      exact ⟨rfl, hend⟩

/-- The entries of a list and its end are shown by its text, if no entry begins like the end. -/
theorem joinWith_injective (hclose : isMark close = false) (hcomma : close ≠ ',')
    (hhead : ∀ a, ∃ c rest, (text a).toList = c :: rest ∧ c ≠ close) {as : List α}
    (hshows : ∀ a ∈ as, Shows text a) {bs : List α} {s t : List Char}
    (h : (Text.joinWith "," (as.map text)).toList ++ close :: s
      = (Text.joinWith "," (bs.map text)).toList ++ close :: t) :
    as = bs ∧ s = t := by
  cases as with
  | nil =>
    cases bs with
    | nil => exact ⟨rfl, (List.cons.inj h).2⟩
    | cons b bs =>
      obtain ⟨c, rest, hlist, hne⟩ := hhead b
      rw [List.map_cons, toList_joinWith_cons, hlist] at h
      exact absurd (List.cons.inj h).1.symm hne
  | cons a as =>
    cases bs with
    | nil =>
      obtain ⟨c, rest, hlist, hne⟩ := hhead a
      rw [List.map_cons, toList_joinWith_cons, hlist] at h
      exact absurd (List.cons.inj h).1 hne
    | cons b bs =>
      rw [List.map_cons, List.map_cons, toList_joinWith_cons, toList_joinWith_cons] at h
      obtain ⟨rfl, hrest⟩ := hshows a List.mem_cons_self b _ _ (endsNumber_moreEntries hclose _ _)
        (endsNumber_moreEntries hclose _ _) h
      obtain ⟨rfl, hend⟩ := moreEntries_injective hclose hcomma
        (fun a' ha' => hshows a' (List.mem_cons_of_mem a ha')) hrest
      exact ⟨rfl, hend⟩

end

theorem exists_head_compact_ne {close : Char} (hclose : Opening.ofChar close = .other)
    (value : Json) : ∃ c rest, (compact value).toList = c :: rest ∧ c ≠ close := by
  obtain ⟨c, rest, hlist, hopening⟩ := exists_head_compact value
  refine ⟨c, rest, hlist, ?_⟩
  rintro rfl
  rw [hclose] at hopening
  cases value <;> cases hopening

theorem toList_fieldText (field : String × Json) :
    (fieldText field).toList = Text.quote field.1.toList ++ ':' :: (compact field.2).toList := by
  rw [fieldText, String.toList_append, String.toList_append, Text.quoted, String.toList_ofList,
    List.append_assoc]
  rfl

theorem shows_fieldText {field : String × Json} (h : Shows compact field.2) :
    Shows fieldText field := by
  intro other s t hs ht htext
  rw [toList_fieldText, toList_fieldText, List.append_assoc, List.append_assoc] at htext
  obtain ⟨hkey, hrest⟩ := Text.quote_append_injective htext
  obtain ⟨hvalue, hend⟩ := h other.2 s t hs ht (List.cons.inj hrest).2
  exact ⟨Prod.ext (String.toList_injective hkey) hvalue, hend⟩

theorem shows_num (n : Number) : Shows compact (num n) := by
  intro b s t hs ht h
  have hopening := opening_eq_of_append h
  cases b with
  | num n' =>
    rw [compact, compact] at h
    -- both numbers end at the first character that is no mark
    obtain ⟨htake, hdrop⟩ := Text.takeWhile_append n.isMark_of_mem_text hs
    obtain ⟨htake', hdrop'⟩ := Text.takeWhile_append n'.isMark_of_mem_text ht
    rw [h, htake'] at htake
    rw [h, hdrop'] at hdrop
    rw [Number.text_injective (String.toList_injective htake), hdrop]
    exact ⟨rfl, rfl⟩
  | _ => cases hopening

theorem shows_str (text : String) : Shows compact (str text) := by
  intro b s t hs ht h
  have hopening := opening_eq_of_append h
  cases b with
  | str text' =>
    rw [compact, compact, Text.quoted, Text.quoted, String.toList_ofList, String.toList_ofList] at h
    obtain ⟨htext, hend⟩ := Text.quote_append_injective h
    exact ⟨congrArg str (String.toList_injective htext), hend⟩
  | _ => cases hopening

theorem toList_compact_arr (items : List Json) :
    (compact (arr items)).toList
      = '[' :: ((Text.joinWith "," (items.map compact)).toList ++ [']']) := by
  rw [compact, compactItems_eq_map, String.toList_append, String.toList_append, List.append_assoc]
  rfl

theorem toList_compact_obj (fields : List (String × Json)) :
    (compact (obj fields)).toList
      = '\x7b' :: ((Text.joinWith "," (fields.map fieldText)).toList ++ ['\x7d']) := by
  rw [compact, compactFields_eq_map, String.toList_append, String.toList_append, List.append_assoc]
  rfl

theorem shows_arr {items : List Json} (hitems : ∀ item ∈ items, Shows compact item) :
    Shows compact (arr items) := by
  intro b s t hs ht h
  have hopening := opening_eq_of_append h
  cases b with
  | arr items' =>
    rw [toList_compact_arr, toList_compact_arr, List.cons_append, List.cons_append,
      List.append_assoc, List.append_assoc] at h
    obtain ⟨rfl, hend⟩ := joinWith_injective rfl (by decide) (exists_head_compact_ne rfl) hitems
      (List.cons.inj h).2
    exact ⟨rfl, hend⟩
  | _ => cases hopening

theorem shows_obj {fields : List (String × Json)}
    (hfields : ∀ field ∈ fields, Shows compact field.2) : Shows compact (obj fields) := by
  have hhead (field : String × Json) :
      ∃ c rest, (fieldText field).toList = c :: rest ∧ c ≠ '\x7d' :=
    ⟨'"', _, by rw [toList_fieldText, Text.quote]; rfl, by decide⟩
  intro b s t hs ht h
  have hopening := opening_eq_of_append h
  cases b with
  | obj fields' =>
    rw [toList_compact_obj, toList_compact_obj, List.cons_append, List.cons_append,
      List.append_assoc, List.append_assoc] at h
    obtain ⟨rfl, hend⟩ := joinWith_injective rfl (by decide) hhead
      (fun field hfield => shows_fieldText (hfields field hfield)) (List.cons.inj h).2
    exact ⟨rfl, hend⟩
  | _ => cases hopening

theorem shows_null : Shows compact null := by
  intro b s t hs ht h
  have hopening := opening_eq_of_append h
  cases b with
  | null => exact ⟨rfl, List.append_cancel_left h⟩
  | _ => cases hopening

theorem shows_bool (value : Bool) : Shows compact (bool value) := by
  intro b s t hs ht h
  have hopening := opening_eq_of_append h
  cases b with
  | bool value' =>
    cases value <;> cases value'
    · exact ⟨rfl, List.append_cancel_left h⟩
    · exact absurd (List.cons.inj h).1 (by decide)
    · exact absurd (List.cons.inj h).1 (by decide)
    · exact ⟨rfl, List.append_cancel_left h⟩
  | _ => cases hopening

/-- Every value is shown by its compact text. -/
theorem shows_compact (value : Json) : Shows compact value := by
  induction value using induction_entries with
  | null => exact shows_null
  | bool value => exact shows_bool value
  | num n => exact shows_num n
  | str text => exact shows_str text
  | arr items ih => exact shows_arr ih
  | obj fields ih => exact shows_obj ih

/-- **Compact text.** Values with the same compact text are the same. -/
theorem compact_injective : Function.Injective compact := by
  intro a b h
  have hnothing : EndsNumber [] := nofun
  exact (shows_compact a b [] [] hnothing hnothing (by rw [h])).1

/-! ## Pieces of a text -/

/-- The text stands in the value at some depth, as a text or as a key. -/
inductive Holds (text : String) : Json → Prop where
  | str : Holds text (.str text)
  | item {items : List Json} {item : Json} (hitem : item ∈ items) (h : Holds text item) :
      Holds text (.arr items)
  | key {fields : List (String × Json)} {value : Json} (hfield : (text, value) ∈ fields) :
      Holds text (.obj fields)
  | field {fields : List (String × Json)} {field : String × Json} (hfield : field ∈ fields)
      (h : Holds text field.2) : Holds text (.obj fields)

/-- The characters of compact text outside of quotes, and the quotes. -/
def isFrameChar (c : Char) : Bool :=
  isMark c || "nultrefas\"[]\x7b\x7d:,".toList.contains c

/-- What holds of texts one after another if it holds of each, and of the characters outside of
quotes. -/
structure Composes (motive : List Char → Prop) : Prop where
  nil : motive []
  append {first second : List Char} (hfirst : motive first) (hsecond : motive second) :
    motive (first ++ second)
  frame {c : Char} (hc : isFrameChar c = true) : motive [c]

namespace Composes

variable {motive : List Char → Prop} (h : Composes motive)

include h

theorem frames {cs : List Char} (hcs : cs.all isFrameChar = true) : motive cs := by
  induction cs with
  | nil => exact h.nil
  | cons c cs ih =>
    rw [List.all_cons, Bool.and_eq_true] at hcs
    exact h.append (h.frame hcs.1) (ih hcs.2)

theorem escape {cs : List Char} (hcs : ∀ c ∈ cs, motive (Text.escapeChar c)) :
    motive (Text.escape cs) := by
  induction cs with
  | nil => exact h.nil
  | cons c cs ih =>
    rw [Text.escape, List.flatMap_cons]
    exact h.append (hcs c List.mem_cons_self) (ih fun c' hc' => hcs c' (List.mem_cons_of_mem c hc'))

theorem quote {cs : List Char} (hcs : ∀ c ∈ cs, motive (Text.escapeChar c)) :
    motive (Text.quote cs) :=
  h.append (h.append (h.frame rfl) (h.escape hcs)) (h.frame rfl)

theorem joinWith {texts : List String} (htexts : ∀ text ∈ texts, motive text.toList) :
    motive (Text.joinWith "," texts).toList := by
  induction texts with
  | nil => exact h.nil
  | cons text rest ih =>
    have hfirst := htexts text List.mem_cons_self
    cases rest with
    | nil => exact hfirst
    | cons next rest =>
      have hrest := ih fun text' htext' => htexts text' (List.mem_cons_of_mem text htext')
      show motive (text ++ "," ++ Text.joinWith "," (next :: rest)).toList
      rw [String.toList_append, String.toList_append]
      exact h.append (h.append hfirst (h.frame rfl)) hrest

/-- What composes holds of a compact text, if it holds of the characters of all texts in the value as
they are escaped. -/
theorem compact {value : Json}
    (htexts : ∀ text, value.Holds text → ∀ c ∈ text.toList, motive (Text.escapeChar c)) :
    motive (compact value).toList := by
  induction value using induction_entries with
  | null => exact h.frames rfl
  | bool value => cases value <;> exact h.frames rfl
  | num n =>
    refine h.frames (List.all_eq_true.mpr fun c hc => ?_)
    rw [isFrameChar, n.isMark_of_mem_text c hc, Bool.true_or]
  | str text =>
    rw [Json.compact, Text.quoted, String.toList_ofList]
    exact h.quote (htexts text .str)
  | arr items ih =>
    have hitems : motive (Text.joinWith "," (items.map Json.compact)).toList := by
      refine h.joinWith fun text htext => ?_
      obtain ⟨item, hitem, rfl⟩ := List.mem_map.mp htext
      exact ih item hitem fun text htext => htexts text (.item hitem htext)
    rw [toList_compact_arr]
    exact h.append (h.frame rfl) (h.append hitems (h.frame rfl))
  | obj fields ih =>
    have hfields : motive (Text.joinWith "," (fields.map fieldText)).toList := by
      refine h.joinWith fun text htext => ?_
      obtain ⟨field, hfield, rfl⟩ := List.mem_map.mp htext
      have hvalue := ih field hfield fun text htext => htexts text (.field hfield htext)
      have hkey := h.quote (htexts field.1 (.key hfield))
      rw [toList_fieldText]
      exact h.append hkey (h.append (h.frame rfl) hvalue)
    rw [toList_compact_obj]
    exact h.append (h.frame rfl) (h.append hfields (h.frame rfl))

end Composes

/-! ## Missing characters -/

/-- No text in the value has the character. -/
def Lacks (c : Char) (value : Json) : Prop :=
  ∀ text, value.Holds text → c ∉ text.toList

/-- The character stands neither outside of quotes nor in an escape. -/
structure IsFree (d : Char) : Prop where
  frame : isFrameChar d = false
  letter : Text.shortEscape? d = none
  digit : ∀ n < 16, d ≠ Text.hexDigit n

theorem IsFree.not_mem_escapeChar {c d : Char} (hfree : IsFree d) (h : d = c → d.toNat < 0x20) :
    d ∉ Text.escapeChar c := by
  have hbackslash : d ≠ '\\' := by
    rintro rfl
    cases hfree.letter
  have hu : d ≠ 'u' := by
    rintro rfl
    cases hfree.frame
  rcases Text.escapeChar_eq c with ⟨letter, hletter, hc⟩ | ⟨-, hc⟩ | ⟨-, -, hcontrol, hc⟩
  · have hne : d ≠ letter := by
      rintro rfl
      rw [hfree.letter] at hletter
      cases hletter
    simp [hc, hbackslash, hne]
  · have hdigit (k : Nat) : d ≠ Text.hexDigit (k % 16) :=
      hfree.digit (k % 16) (Nat.mod_lt k (by decide))
    simp [hc, Text.hex4, hbackslash, hu, hdigit]
  · have hne : d ≠ c := fun heq => hcontrol (heq ▸ h heq)
    simp [hc, hne]

/-- A compact text has such a character only where a text in the value has it. -/
theorem IsFree.not_mem_compact {d : Char} (hfree : IsFree d) {value : Json}
    (h : value.Lacks d ∨ d.toNat < 0x20) : d ∉ (compact value).toList := by
  have hcomposes : Composes (d ∉ ·) :=
    { nil := List.not_mem_nil
      append := fun hfirst hsecond => by simp [hfirst, hsecond]
      frame := fun hc hmem => by
        rw [← List.mem_singleton.mp hmem, hfree.frame] at hc
        cases hc }
  refine hcomposes.compact fun text htext c hc => hfree.not_mem_escapeChar ?_
  rintro rfl
  exact h.resolve_left fun hlacks => hlacks text htext hc

/-- **Zero characters.** No compact text has one. -/
theorem zero_not_mem_compact (value : Json) : '\x00' ∉ (compact value).toList :=
  IsFree.not_mem_compact ⟨rfl, rfl, by decide⟩ (.inr (by decide))

end Json

end FactoryMigration
