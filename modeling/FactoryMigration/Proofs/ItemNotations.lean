import FactoryMigration.Proofs.CompactReading
import FactoryMigration.Proofs.EnclosedText
import FactoryMigration.Proofs.KeySegments

set_option autoImplicit false

/-! # Notations of loop items

Both notations for the items of a loop are read back (`Expression.parseItems_notations`). A quoted
literal may hold any text on its line, since its quote and the backslash are escaped: commas, the
other quote and parentheses are text in it. In `@array` the items are what stands between the
commas. -/

namespace FactoryMigration

namespace Expression

/-! ## Quoted literals -/

/-- An item written as a literal on one line: the blanks before it, the quote it stands in, its text,
and the blanks after it. -/
structure QuotedItem where
  before : List Char
  quote : Char
  text : List Char
  after : List Char
  blank_before : ∀ c ∈ before, Text.isBlank c = true ∧ c ≠ '\n'
  quote_cases : quote = '\'' ∨ quote = '"'
  line : '\n' ∉ text
  blank_after : ∀ c ∈ after, Text.isBlank c = true ∧ c ≠ '\n'

/-- A character between two quotes: the quote and the backslash stand after a backslash. -/
def literalChar (quote c : Char) : List Char :=
  if c = quote ∨ c = '\\' then ['\\', c] else [c]

namespace QuotedItem

/-- The literal of an item. -/
def literal (item : QuotedItem) : List Char :=
  item.quote :: (item.text.flatMap (literalChar item.quote) ++ [item.quote])

/-- The literal with the blanks around it. -/
def written (item : QuotedItem) : List Char :=
  item.before ++ (item.literal ++ item.after)

/-- The literals of items, separated by commas. -/
def listed (items : List QuotedItem) : List Char :=
  Text.join [','] (items.map written)

end QuotedItem

theorem scanLiteral_flatMap {quote : Char} (hquote : quote ≠ '\\') (text rest : List Char) :
    scanLiteral quote (text.flatMap (literalChar quote) ++ quote :: rest) = some (text, rest) := by
  induction text with
  | nil => simp [scanLiteral]
  | cons c text ih =>
    rw [List.flatMap_cons, List.append_assoc, literalChar]
    split
    · simp [scanLiteral, ih]
    · rename_i hplain
      rw [not_or] at hplain
      simp [scanLiteral, hplain.1, hplain.2, ih]

namespace QuotedItem

variable (item : QuotedItem)

theorem quote_ne_backslash : item.quote ≠ '\\' := by
  rcases item.quote_cases with h | h <;> rw [h] <;> decide

theorem not_isBlank_quote : Text.isBlank item.quote = false := by
  rcases item.quote_cases with h | h <;> rw [h] <;> decide

theorem literal?_literal (rest : List Char) :
    literal? (item.literal ++ rest) = some (item.text, rest) := by
  rw [literal, List.cons_append, literal?, if_pos item.quote_cases, List.append_assoc]
  exact scanLiteral_flatMap item.quote_ne_backslash item.text rest

theorem trimStart_written (rest : List Char) :
    Text.trimStart (item.written ++ rest) = item.literal ++ (item.after ++ rest) := by
  have hliteral : Text.trimStart (item.literal ++ (item.after ++ rest))
      = item.literal ++ (item.after ++ rest) :=
    Text.trimStart_eq_self (by
      rintro _ ⟨⟩
      exact item.not_isBlank_quote)
  rw [written, List.append_assoc, List.append_assoc,
    Text.trimStart_append fun c hc => (item.blank_before c hc).1, hliteral]

theorem lineFeed_not_mem_written : '\n' ∉ item.written := by
  have hquote : item.quote ≠ '\n' := by
    rcases item.quote_cases with h | h <;> rw [h] <;> decide
  have htext : '\n' ∉ item.text.flatMap (literalChar item.quote) := by
    intro hmem
    obtain ⟨c, hc, hfeed⟩ := List.mem_flatMap.mp hmem
    have hne : '\n' ≠ c := fun h => item.line (h ▸ hc)
    unfold literalChar at hfeed
    split at hfeed
    all_goals simp [hne] at hfeed
  have hbefore : '\n' ∉ item.before := fun h => (item.blank_before _ h).2 rfl
  have hafter : '\n' ∉ item.after := fun h => (item.blank_after _ h).2 rfl
  simp [written, literal, hbefore, hafter, htext, Ne.symm hquote]

end QuotedItem

/-! ## Lists of literals -/

/-- One step of reading a list, after its first literal. -/
theorem literals?_eq {cs text rest : List Char}
    (h : literal? (Text.trimStart cs) = some (text, rest)) :
    literals? cs = match Text.trimStart rest with
      | [] => some [text]
      | ',' :: more => (literals? more).map (text :: ·)
      | _ => none := by
  rw [literals?]
  split
  · rename_i hnone
    rw [h] at hnone
    cases hnone
  · rename_i hsome
    rw [h] at hsome
    cases hsome
    split <;> simp_all

namespace QuotedItem

theorem listed_cons (item : QuotedItem) {items : List QuotedItem} (hne : items ≠ []) :
    listed (item :: items) = item.written ++ ',' :: listed items := by
  cases items with
  | nil => exact absurd rfl hne
  | cons next items => simp [listed, Text.join]

theorem literals?_listed {items : List QuotedItem} (hne : items ≠ []) :
    literals? (listed items) = some (items.map text) := by
  induction items with
  | nil => exact absurd rfl hne
  | cons item items ih =>
    have hafter (rest : List Char) :
        Text.trimStart (item.after ++ rest) = Text.trimStart rest :=
      Text.trimStart_append (fun c hc => (item.blank_after c hc).1) rest
    have hread (rest : List Char) :
        literal? (Text.trimStart (item.written ++ rest)) = some (item.text, item.after ++ rest) := by
      rw [trimStart_written, literal?_literal]
    by_cases hitems : items = []
    · subst hitems
      have hlisted : listed [item] = item.written ++ [] := (List.append_nil _).symm
      rw [hlisted, literals?_eq (hread []), hafter]
      rfl
    · have hcomma : Text.trimStart (',' :: listed items) = ',' :: listed items := rfl
      rw [listed_cons item hitems, literals?_eq (hread _), hafter, hcomma]
      simp only [ih hitems, Option.map_some, List.map_cons]

/-! ## Blanks at the ends of a list -/

/-- The item without the blanks before it. -/
def withoutBefore (item : QuotedItem) : QuotedItem :=
  { item with before := [], blank_before := nofun }

/-- The item without the blanks after it. -/
def withoutAfter (item : QuotedItem) : QuotedItem :=
  { item with after := [], blank_after := nofun }

theorem exists_listed_cons (items : List QuotedItem) :
    ∃ rest, ∀ item : QuotedItem, listed (item :: items) = item.written ++ rest := by
  by_cases hitems : items = []
  · exact ⟨[], fun item => by rw [hitems, List.append_nil]; rfl⟩
  · exact ⟨_, fun item => listed_cons item hitems⟩

theorem exists_listed_append (items : List QuotedItem) :
    ∃ front, ∀ item : QuotedItem, listed (items ++ [item]) = front ++ item.written := by
  induction items with
  | nil => exact ⟨[], fun item => rfl⟩
  | cons first items ih =>
    obtain ⟨front, hfront⟩ := ih
    refine ⟨first.written ++ ',' :: front, fun item => ?_⟩
    rw [List.cons_append, listed_cons first (by simp), hfront, List.append_assoc, List.cons_append]

theorem trimStart_listed (item : QuotedItem) (items : List QuotedItem) :
    Text.trimStart (listed (item :: items)) = listed (item.withoutBefore :: items) := by
  obtain ⟨rest, hlisted⟩ := exists_listed_cons items
  rw [hlisted, hlisted, trimStart_written, written, withoutBefore, List.nil_append,
    List.append_assoc]
  rfl

theorem trimEnd_listed (items : List QuotedItem) (item : QuotedItem) :
    Text.trimEnd (listed (items ++ [item])) = listed (items ++ [item.withoutAfter]) := by
  obtain ⟨front, hlisted⟩ := exists_listed_append items
  have hafter : ∀ c ∈ item.after, Text.isBlank c = true := fun c hc => (item.blank_after c hc).1
  have hlast : (front ++ (item.before ++ item.literal)).getLast? = some item.quote := by
    simp [literal, List.getLast?_append, List.getLast?_cons]
  have htrim : Text.trimEnd (front ++ (item.before ++ item.literal))
      = front ++ (item.before ++ item.literal) := by
    apply Text.trimEnd_eq_self
    rw [hlast]
    rintro _ ⟨⟩
    exact item.not_isBlank_quote
  rw [hlisted, hlisted, written, ← List.append_assoc item.before, ← List.append_assoc front,
    Text.trimEnd_append hafter, htrim, written, withoutAfter, List.append_nil]
  rfl

/-- Blanks at the ends of a list are dropped, and its items stay. -/
theorem exists_trim_listed {items : List QuotedItem} (hne : items ≠ []) :
    ∃ trimmed : List QuotedItem, trimmed ≠ [] ∧ trimmed.map text = items.map text ∧
      Text.trim (listed items) = listed trimmed := by
  cases items with
  | nil => exact absurd rfl hne
  | cons item items =>
    obtain ⟨init, last, hinit⟩ :=
      (List.eq_nil_or_concat' (item.withoutBefore :: items)).resolve_left (List.cons_ne_nil _ _)
    refine ⟨init ++ [last.withoutAfter], by simp, ?_, ?_⟩
    · calc (init ++ [last.withoutAfter]).map text
          = (init ++ [last]).map text := by simp [withoutAfter]
        _ = (item.withoutBefore :: items).map text := by rw [← hinit]
        _ = (item :: items).map text := rfl
    · rw [Text.trim, trimStart_listed, hinit, trimEnd_listed]

theorem literalList?_listed {items : List QuotedItem} (hne : items ≠ []) :
    literalList? (listed items) = some (items.map text) := by
  obtain ⟨trimmed, htrimmed, htexts, htrim⟩ := exists_trim_listed hne
  have hread : literals? (Text.trim (listed items)) = some (items.map text) := by
    rw [htrim, literals?_listed htrimmed, htexts]
  have hfilled : Text.trim (listed items) ≠ [] := by
    intro hempty
    have hnone : literals? [] = none := by
      rw [literals?]
      rfl
    rw [hempty, hnone] at hread
    cases hread
  rw [literalList?, if_neg hfilled, hread]

theorem listed_ne_nil {items : List QuotedItem} (hne : items ≠ []) : listed items ≠ [] := by
  cases items with
  | nil => exact absurd rfl hne
  | cons item items =>
    obtain ⟨rest, hlisted⟩ := exists_listed_cons items
    rw [hlisted]
    simp [written, literal]

theorem lineFeed_not_mem_listed (items : List QuotedItem) : '\n' ∉ listed items := by
  apply Text.not_mem_join (by decide)
  intro piece hpiece
  obtain ⟨item, -, rfl⟩ := List.mem_map.mp hpiece
  exact item.lineFeed_not_mem_written

end QuotedItem

/-! ## Both notations -/

/-- The call that lists literals. -/
def createArray (listed : List Char) : List Char :=
  "@createArray(".toList ++ (listed ++ ")".toList)

/-- The call that lists the items of one text. -/
def array (joined : List Char) : List Char :=
  "@array('".toList ++ (joined ++ "')".toList)

/-- A call that begins with an at sign and ends with a parenthesis has no blanks around it. -/
theorem trim_call {head text closer : List Char} (hhead : head.head? = some '@')
    (hcloser : closer.getLast? = some ')') :
    Text.trim (head ++ (text ++ closer)) = head ++ (text ++ closer) := by
  rw [Text.trim_eq_self_iff, List.head?_append, hhead, List.getLast?_append,
    List.getLast?_append, hcloser]
  constructor
  · rintro _ ⟨⟩
    decide
  · rintro _ ⟨⟩
    decide

theorem parseItems_createArray {listed : List Char} {texts : List (List Char)} (hne : listed ≠ [])
    (hline : '\n' ∉ listed) (htexts : literalList? listed = some texts) :
    parseItems (String.ofList (createArray listed)) = .ok (itemText texts) := by
  have hother : enclosed? "@array('" "')" (createArray listed) = none := by
    have hhead : Text.afterStart "@array('".toList (createArray listed) = none :=
      Text.afterStart_append_eq_none (by decide) (by decide)
    rw [enclosed?, hhead, Option.bind_none]
  have hlisted : enclosed? "@createArray(" ")" (createArray listed) = some listed :=
    enclosed?_append hne hline _ _
  have htrim : Text.trim (createArray listed) = createArray listed := trim_call rfl rfl
  simp only [parseItems, String.toList_ofList, htrim, hother, hlisted, htexts]

/-- An item that needs no quotes of its own: on one line, without commas and quotes, and without
blanks at its ends. -/
structure IsPlainItem (item : List Char) : Prop where
  comma : ',' ∉ item
  double : '"' ∉ item
  single : '\'' ∉ item
  line : '\n' ∉ item
  trimmed : Text.trim item = item

instance (item : List Char) : Decidable (IsPlainItem item) :=
  decidable_of_iff (',' ∉ item ∧ '"' ∉ item ∧ '\'' ∉ item ∧ '\n' ∉ item ∧ Text.trim item = item)
    ⟨fun h => ⟨h.1, h.2.1, h.2.2.1, h.2.2.2.1, h.2.2.2.2⟩,
      fun h => ⟨h.comma, h.double, h.single, h.line, h.trimmed⟩⟩

theorem IsPlainItem.dropQuotes_trim {item : List Char} (h : IsPlainItem item) :
    dropQuotes (Text.trim item) = item := by
  rw [h.trimmed, dropQuotes, List.filter_eq_self]
  intro c hc
  have hdouble : c ≠ '"' := fun heq => h.double (heq ▸ hc)
  have hsingle : c ≠ '\'' := fun heq => h.single (heq ▸ hc)
  simp [hdouble, hsingle]

theorem parseItems_array {items : List (List Char)} (hplain : ∀ item ∈ items, IsPlainItem item)
    (hne : Text.join [','] items ≠ []) :
    parseItems (String.ofList (array (Text.join [','] items))) = .ok (itemText items) := by
  have hline : '\n' ∉ Text.join [','] items :=
    Text.not_mem_join (by decide) fun item hitem => (hplain item hitem).line
  have hjoined : enclosed? "@array('" "')" (array (Text.join [','] items))
      = some (Text.join [','] items) := enclosed?_append hne hline _ _
  have htrim : Text.trim (array (Text.join [','] items)) = array (Text.join [','] items) :=
    trim_call rfl rfl
  have hfilled : items ≠ [] := by
    rintro rfl
    exact hne rfl
  have hpieces : (Text.segments ',' (Text.join [','] items)).map
      (fun item => dropQuotes (Text.trim item)) = items := by
    rw [Text.segments_join hfilled fun item hitem => (hplain item hitem).comma]
    calc items.map (fun item => dropQuotes (Text.trim item))
        = items.map id := List.map_congr_left fun item hitem => (hplain item hitem).dropQuotes_trim
      _ = items := List.map_id items
  simp only [parseItems, String.toList_ofList, htrim, hjoined, hpieces]

/-- The item text is the JSON list of the items. -/
theorem parse?_itemText (items : List (List Char)) :
    Json.parse? (itemText items) = some (.arr (items.map fun item => .str (String.ofList item))) := by
  have htexts := Json.parse?_compact_texts (items.map String.ofList)
  rwa [List.map_map] at htexts

/-- **Notations.** Quoted literals on a line are read as the JSON list of their texts, whatever the
texts hold; so are the items of a text that is cut at its commas, unless the text is empty. -/
theorem parseItems_notations :
    (∀ items : List QuotedItem, items ≠ [] →
      ∃ text, parseItems (String.ofList (createArray (QuotedItem.listed items))) = .ok text ∧
        Json.parse? text = some (.arr (items.map fun item => .str (String.ofList item.text)))) ∧
    ∀ items : List (List Char), (∀ item ∈ items, IsPlainItem item) → Text.join [','] items ≠ [] →
      ∃ text, parseItems (String.ofList (array (Text.join [','] items))) = .ok text ∧
        Json.parse? text = some (.arr (items.map fun item => .str (String.ofList item))) := by
  constructor
  · intro items hne
    refine ⟨_, parseItems_createArray (QuotedItem.listed_ne_nil hne)
      (QuotedItem.lineFeed_not_mem_listed items) (QuotedItem.literalList?_listed hne), ?_⟩
    rw [parse?_itemText, List.map_map]
    rfl
  · intro items hplain hne
    exact ⟨_, parseItems_array hplain hne, parse?_itemText items⟩

/-- Two literals with a comma, a parenthesis, both quotes, a backslash and a zero character. -/
def trickyItems : List QuotedItem := [
  { before := [' ']
    quote := '\''
    text := "a,b')\\".toList
    after := [' ', '\t']
    blank_before := by
      rw [List.forall_mem_singleton]
      decide
    quote_cases := by decide
    line := by decide
    blank_after := by
      rw [List.forall_mem_cons, List.forall_mem_singleton]
      decide },
  { before := []
    quote := '"'
    text := "it's \"\x00".toList
    after := []
    blank_before := nofun
    quote_cases := by decide
    line := by decide
    blank_after := nofun }]

theorem trickyItems_read :
    (∃ text, parseItems "@createArray( 'a,b\\')\\\\' \t,\"it's \\\"\x00\")" = .ok text ∧
      Json.parse? text = some (.arr [.str "a,b')\\", .str "it's \"\x00"])) ∧
    ∃ text, parseItems "@array('east,,north west')" = .ok text ∧
      Json.parse? text = some (.arr [.str "east", .str "", .str "north west"]) := by
  have hplain : ∀ item ∈ ["east".toList, [], "north west".toList], IsPlainItem item := by decide
  exact ⟨parseItems_notations.1 trickyItems (by decide),
    parseItems_notations.2 ["east".toList, [], "north west".toList] hplain (by decide)⟩

end Expression

end FactoryMigration
