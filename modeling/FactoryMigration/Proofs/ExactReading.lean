import FactoryMigration.Proofs.NumberLiterals

set_option autoImplicit false

/-! # Reading compact text exactly

A reader that takes every number exactly and has no limit on depth reads every value back from its
compact text (`Json.read?_compact`), if its objects are tables and its integers have 64 bits. -/

namespace FactoryMigration

/-! ## Tables from entries -/

namespace Table

variable {α : Type}

/-- The keys ascend, as they do in every table. -/
def Ascending (entries : List (String × α)) : Prop :=
  entries.Pairwise fun entry later => entry.1 < later.1

instance (entries : List (String × α)) : Decidable (Ascending entries) :=
  inferInstanceAs (Decidable (List.Pairwise _ _))

/-- An entry goes to the end, if its key comes after all others. -/
theorem insert_of_last {key : String} {table : Table α} (h : ∀ entry ∈ table, entry.1 < key)
    (value : α) : table.insert key value = table ++ [(key, value)] := by
  induction table with
  | nil => rfl
  | cons entry rest ih =>
    obtain ⟨k, v⟩ := entry
    have hlt : k < key := h (k, v) List.mem_cons_self
    have hne : key ≠ k := by
      rintro rfl
      exact String.lt_irrefl key hlt
    rw [insert, if_neg (String.lt_asymm hlt), if_neg hne,
      ih fun entry hentry => h entry (List.mem_cons_of_mem _ hentry), List.cons_append]

theorem foldl_insert_of_ascending (table : Table α) {entries : List (String × α)}
    (h : Ascending (table ++ entries)) :
    entries.foldl (fun table entry => insert entry.1 entry.2 table) table = table ++ entries := by
  induction entries generalizing table with
  | nil => rw [List.foldl_nil, List.append_nil]
  | cons entry entries ih =>
    have hlast : ∀ earlier ∈ table, earlier.1 < entry.1 := fun earlier hearlier =>
      (List.pairwise_append.mp h).2.2 earlier hearlier entry List.mem_cons_self
    rw [List.foldl_cons, insert_of_last hlast]
    have hmore := ih (table ++ [(entry.1, entry.2)])
    rw [List.append_assoc, List.singleton_append] at hmore
    exact hmore h

/-- The table of entries in order is the list of them. -/
theorem ofEntries_of_ascending {entries : List (String × α)} (h : Ascending entries) :
    ofEntries entries = entries :=
  foldl_insert_of_ascending [] h

theorem mem_insert {key : String} {value : α} {table : Table α} {entry : String × α}
    (h : entry ∈ table.insert key value) : entry = (key, value) ∨ entry ∈ table := by
  induction table with
  | nil => exact .inl (List.mem_singleton.mp h)
  | cons first rest ih =>
    obtain ⟨k, v⟩ := first
    unfold insert at h
    split_ifs at h
    · exact List.mem_cons.mp h
    · exact (List.mem_cons.mp h).imp_right (List.mem_cons_of_mem _)
    · rcases List.mem_cons.mp h with rfl | hrest
      · exact .inr List.mem_cons_self
      · exact (ih hrest).imp_right (List.mem_cons_of_mem _)

theorem mem_foldl_insert {table entries : List (String × α)} {entry : String × α}
    (h : entry ∈ entries.foldl (fun table entry => insert entry.1 entry.2 table) table) :
    entry ∈ table ∨ entry ∈ entries := by
  induction entries generalizing table with
  | nil => exact .inl h
  | cons first rest ih =>
    rcases ih h with hinsert | hrest
    · rcases mem_insert hinsert with rfl | htable
      · exact .inr List.mem_cons_self
      · exact .inl htable
    · exact .inr (List.mem_cons_of_mem _ hrest)

/-- A table has no entries of its own. -/
theorem mem_ofEntries {entries : List (String × α)} {entry : String × α}
    (h : entry ∈ ofEntries entries) : entry ∈ entries :=
  (mem_foldl_insert h).resolve_left List.not_mem_nil

end Table

namespace Json

/-- The value is one that a text can stand for: objects are tables, and integers have 64 bits. -/
inductive Proper : Json → Prop where
  | null : Proper .null
  | bool (value : Bool) : Proper (.bool value)
  | num {n : Number} (hn : n.InRange) : Proper (.num n)
  | str (text : String) : Proper (.str text)
  | arr {items : List Json} (hitems : ∀ item ∈ items, Proper item) : Proper (.arr items)
  | obj {fields : List (String × Json)} (hkeys : Table.Ascending fields)
      (hfields : ∀ field ∈ fields, Proper field.2) : Proper (.obj fields)

/-- Reads a whole text by the grammar of `parse?` (`parse?_eq_parseWith`), but every number exactly, and
at any depth: no value nests deeper than its text is long. -/
def read? (text : String) : Option Json :=
  parseWith exactNumber? text.length text

theorem length_le_joinWith {text : String} {texts : List String} (h : text ∈ texts) :
    text.length ≤ (Text.joinWith "," texts).length := by
  induction texts with
  | nil => cases h
  | cons first rest ih =>
    cases rest with
    | nil => exact (List.mem_singleton.mp h) ▸ Nat.le_refl _
    | cons next rest =>
      show text.length ≤ (first ++ "," ++ Text.joinWith "," (next :: rest)).length
      rw [String.length_append, String.length_append]
      rcases List.mem_cons.mp h with rfl | hrest
      · omega
      · have := ih hrest
        omega

theorem length_item_lt {items : List Json} {item : Json} (h : item ∈ items) :
    (compact item).length < (compact (.arr items)).length := by
  have hle := length_le_joinWith (List.mem_map_of_mem h (f := compact))
  rw [compact, compactItems_eq_map, String.length_append, String.length_append]
  have hopen : "[".length = 1 := rfl
  omega

theorem length_field_lt {fields : List (String × Json)} {field : String × Json}
    (h : field ∈ fields) : (compact field.2).length < (compact (.obj fields)).length := by
  have hle := length_le_joinWith (List.mem_map_of_mem h (f := fieldText))
  have hfield : (compact field.2).length ≤ (fieldText field).length := by
    rw [fieldText, String.length_append]
    omega
  rw [compact, compactFields_eq_map, String.length_append, String.length_append]
  have hopen : "\x7b".length = 1 := rfl
  omega

/-- Every value is read back in front of whatever follows, if as many levels may be opened as its
text is long. -/
theorem Proper.readBy {value : Json} (h : value.Proper) {depth : Nat}
    (hdepth : (compact value).length ≤ depth) :
    ReadBy (valueWith exactNumber? depth) compact value := by
  induction h generalizing depth with
  | null => exact readBy_null _ _
  | bool value => exact readBy_bool _ _ value
  | num hn => exact readBy_num _ (Number.readBy_exact? hn) _
  | str text => exact readBy_str _ _ text
  | @arr items _ ih =>
    cases depth with
    | zero => simp [compact] at hdepth
    | succ depth =>
      refine readBy_arr fun item hitem => ih item hitem ?_
      have := length_item_lt hitem
      omega
  | @obj fields hkeys _ ih =>
    cases depth with
    | zero => simp [compact] at hdepth
    | succ depth =>
      intro rest _
      rw [valueWith_compact_obj, ofFields, Table.ofEntries_of_ascending hkeys]
      intro field hfield
      have := length_field_lt hfield
      exact ih field hfield (by omega)

/-- **Reading back.** Every value is read back from its compact text. -/
theorem read?_compact {value : Json} (h : value.Proper) : read? (compact value) = some value :=
  parseWith_compact (h.readBy (Nat.le_refl _))

end Json

end FactoryMigration
