import FactoryMigration.Parameter
import FactoryMigration.Proofs.EscapedReading

set_option autoImplicit false

/-! # Defaults of parameters

The default of a parameter is the compact text of its value, with double quotes for apostrophes. For a
list or an object that text is read back exactly if no text in the value has an apostrophe, no key
included (`Parameter.ofValue_reads_iff`): the quotes that apostrophes become are not escaped. -/

namespace FactoryMigration

/-! ## Texts with double quotes -/

namespace Parameter

/-- The character that stands for a character in a default. -/
def doubleQuote (c : Char) : Char :=
  if c = '\'' then '"' else c

theorem toList_doubleQuotes (s : String) : (doubleQuotes s).toList = s.toList.map doubleQuote :=
  String.toList_ofList

theorem doubleQuote_of_ne {c : Char} (h : c ≠ '\'') : doubleQuote c = c :=
  if_neg h

theorem doubleQuote_ne (c : Char) : doubleQuote c ≠ '\'' := by
  unfold doubleQuote
  split
  · decide
  · assumption

theorem doubleQuotes_eq_self {s : String} (h : '\'' ∉ s.toList) : doubleQuotes s = s := by
  have hmap : s.toList.map doubleQuote = s.toList.map id := by
    refine List.map_congr_left fun c hc => doubleQuote_of_ne ?_
    rintro rfl
    exact h hc
  rw [← String.toList_inj, toList_doubleQuotes, hmap, List.map_id]

end Parameter

open Parameter (doubleQuote doubleQuotes)

namespace Text

/-- Escapes have no apostrophe, so they stay as they are. -/
theorem noApostrophe_escapeChar (c : Char) :
    NoApostrophe ((escapeChar c).map doubleQuote) := by
  rcases escapeChar_eq c with ⟨letter, hletter, h⟩ | ⟨hcontrol, h⟩ | ⟨-, hbackslash, -, h⟩
  · have hne : letter ≠ '\'' := by
      rintro rfl
      cases hletter
    rw [h, List.map_cons, List.map_singleton, Parameter.doubleQuote_of_ne hne]
    exact .letter hletter .nil
  · have hdigits : ∀ n < 0x20, (hex4 n).map doubleQuote = hex4 n := by decide
    have hescape := NoApostrophe.control hcontrol .nil
    rw [List.append_nil] at hescape
    rw [h, List.map_cons, List.map_cons, hdigits _ hcontrol]
    exact hescape
  · rw [h, List.map_singleton]
    refine .plain ?_ (Parameter.doubleQuote_ne c) .nil
    unfold doubleQuote
    split
    · decide
    · exact hbackslash

end Text

namespace Json

open Text (NoApostrophe)

theorem noApostrophe_doubleQuotes (value : Json) :
    NoApostrophe (doubleQuotes (compact value)).toList := by
  have hcomposes : Composes fun cs => NoApostrophe (cs.map doubleQuote) :=
    { nil := .nil
      append := fun hfirst hsecond => by
        rw [List.map_append]
        exact hfirst.append hsecond
      frame := fun {c} hc => by
        have hne : c ≠ '\'' := by
          rintro rfl
          cases hc
        have hbackslash : c ≠ '\\' := by
          rintro rfl
          cases hc
        rw [List.map_singleton, Parameter.doubleQuote_of_ne hne]
        exact .plain hbackslash hne .nil }
  rw [Parameter.toList_doubleQuotes]
  exact hcomposes.compact fun _ _ c _ => Text.noApostrophe_escapeChar c

theorem keeps_exactNumber? : Keeps (fun _ => True) exactNumber? := by
  intro cs n rest hcs hread
  obtain ⟨m, -, hread⟩ := Option.map_eq_some_iff.mp hread
  cases hread
  exact ⟨trivial, hcs.dropWhile rfl⟩

/-- The text of a value, with double quotes for apostrophes, is read as the value exactly if there are
none. -/
theorem read?_doubleQuotes_iff {value : Json} (h : value.Proper) :
    read? (doubleQuotes (compact value)) = some value ↔ value.Lacks '\'' := by
  constructor
  · exact parseWith_lacks keeps_exactNumber? (noApostrophe_doubleQuotes value)
  · intro hlacks
    have hfree : IsFree '\'' := ⟨rfl, rfl, by decide⟩
    rw [Parameter.doubleQuotes_eq_self (hfree.not_mem_compact (.inl hlacks))]
    exact read?_compact h

/-- A list or an object. -/
def IsContainer : Json → Prop
  | .arr _ => True
  | .obj _ => True
  | _ => False

theorem scalarText_of_isContainer {value : Json} (h : value.IsContainer) :
    value.scalarText = value.compact := by
  cases value with
  | arr => rfl
  | obj => rfl
  | _ => cases h

end Json

/-! ## Parameters -/

namespace Parameter

/-- **Defaults.** The default of a parameter whose value is a list or an object is read back as that
value exactly if no text in it, and no key, has an apostrophe. -/
theorem ofValue_reads_iff {fields : List (String × Json)} {i : Nat} {name : String}
    {definition value : Json} (hfield : fields[i]? = some (name, definition))
    (hdefault : definition.get? "default_value" = some value) (hkind : value.IsContainer)
    (hproper : value.Proper) :
    ∃ text, (ofValue (some (.obj fields)))[i]? = some ⟨name, text⟩ ∧
      (Json.read? text = some value ↔ value.Lacks '\'') := by
  refine ⟨doubleQuotes value.compact, ?_, Json.read?_doubleQuotes_iff hproper⟩
  have hparameter : ofField name definition = ⟨name, doubleQuotes value.compact⟩ := by
    rw [ofField, hdefault, Option.map_some, Option.getD_some, Json.scalarText_of_isContainer hkind]
  show (fields.map fun field => ofField field.1 field.2)[i]? = _
  rw [List.getElem?_map, hfield]
  exact congrArg some hparameter

/-- A list with texts at two levels. -/
def filters : Json :=
  .arr [.str "a, \"b\"", .obj [("limit", .num (.int 10)), ("region", .str "north")]]

theorem filters_read :
    filters.IsContainer ∧ filters.Proper ∧ ∃ text,
      (ofValue (some (.obj [("filters", .obj [("default_value", filters)])])))[0]?
        = some ⟨"filters", text⟩ ∧ Json.read? text = some filters := by
  have hproper : filters.Proper := by
    refine .arr (List.forall_mem_cons.mpr ⟨.str _, List.forall_mem_singleton.mpr ?_⟩)
    refine .obj (by decide) (List.forall_mem_cons.mpr ⟨.num (by decide), ?_⟩)
    exact List.forall_mem_singleton.mpr (.str _)
  have hdefault : ∃ text,
      (ofValue (some (.obj [("filters", .obj [("default_value", filters)])])))[0]?
        = some ⟨"filters", text⟩ ∧ (Json.read? text = some filters ↔ filters.Lacks '\'') :=
    ofValue_reads_iff rfl rfl trivial hproper
  obtain ⟨text, htext, hreads⟩ := hdefault
  refine ⟨trivial, hproper, text, htext, hreads.mpr (Json.lacks_arr (List.forall_mem_cons.mpr
    ⟨Json.lacks_str (by decide), List.forall_mem_singleton.mpr (Json.lacks_obj ?_)⟩))⟩
  exact List.forall_mem_cons.mpr ⟨⟨by decide, nofun⟩,
    List.forall_mem_singleton.mpr ⟨by decide, Json.lacks_str (by decide)⟩⟩

/-- An apostrophe in a list ends its text. -/
theorem note_misread :
    ofValue (some (.obj [("note", .obj [("default_value", .arr [.str "it's"])])]))
        = [⟨"note", "[\"it\"s\"]"⟩] ∧
      Json.read? "[\"it\"s\"]" ≠ some (.arr [.str "it's"]) := by
  decide

end Parameter

end FactoryMigration
