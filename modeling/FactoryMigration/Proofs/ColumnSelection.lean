import FactoryMigration.Copy
import FactoryMigration.Proofs.FieldCounts

set_option autoImplicit false

/-! # The columns of a translator

A mapping becomes a column if its source has a name or a position. The columns stand in the order of
their mappings, and every mapping that is left out is noted (`ColumnMapping.ofTranslator_sortsMappings`). -/

namespace FactoryMigration

namespace ColumnMapping

/-! ## Names and positions -/

/-- The name that a source or a sink has. -/
def HasName (value : Json) (name : String) : Prop :=
  value.get? "name" = some (.str name) ∧ name ≠ ""

/-- The position that a source has, counted from one. -/
def HasPosition (value : Json) (position : Nat) : Prop :=
  ∃ ordinal, value.get? "ordinal" = some ordinal ∧ ordinal.Counts position ∧ 0 < position

/-- What a source column is called: by its name or, if it has none, by its position. -/
inductive CallsSource (source : Json) : String → Prop where
  | name {name : String} (h : HasName source name) : CallsSource source name
  | position {n : Nat} (hname : ∀ name, ¬HasName source name) (h : HasPosition source (n + 1)) :
      CallsSource source ("_c" ++ toString n)

/-- What a sink column is called: by its name or, if it has none, as its source column. -/
inductive CallsSink (sink : Json) (source : String) : String → Prop where
  | name {name : String} (h : HasName sink name) : CallsSink sink source name
  | source (hname : ∀ name, ¬HasName sink name) : CallsSink sink source source

theorem filledText?_name_eq_some_iff {value : Json} {name : String} :
    value.filledText? "name" = some name ↔ HasName value name :=
  Json.filledText?_eq_some_iff

theorem filledText?_name_eq_none_iff {value : Json} :
    value.filledText? "name" = none ↔ ∀ name, ¬HasName value name := by
  rw [Option.eq_none_iff_forall_ne_some]
  exact forall_congr' fun name => not_congr filledText?_name_eq_some_iff

theorem count?_ordinal_eq_some_iff {value : Json} {position : Nat} :
    (value.count? "ordinal").filter (0 < ·) = some position ↔ HasPosition value position := by
  rw [Option.filter_eq_some_iff, Json.count?_eq_some_iff, decide_eq_true_eq]
  constructor
  · rintro ⟨⟨ordinal, hordinal, hcounts⟩, hpositive⟩
    exact ⟨ordinal, hordinal, hcounts, hpositive⟩
  · rintro ⟨ordinal, hordinal, hcounts, hpositive⟩
    exact ⟨⟨ordinal, hordinal, hcounts⟩, hpositive⟩

theorem sourceName?_eq_some_iff {source : Json} {called : String} :
    sourceName? source = some called ↔ CallsSource source called := by
  unfold sourceName?
  constructor
  · intro h
    cases hname : source.filledText? "name" with
    | some name =>
      rw [hname] at h
      obtain rfl : name = called := Option.some.inj h
      exact .name (filledText?_name_eq_some_iff.mp hname)
    | none =>
      rw [hname] at h
      obtain ⟨position, hposition, rfl⟩ := Option.map_eq_some_iff.mp h
      rw [count?_ordinal_eq_some_iff] at hposition
      obtain ⟨n, rfl⟩ : ∃ n, position = n + 1 :=
        Nat.exists_eq_add_one.mpr (by obtain ⟨_, _, _, hpositive⟩ := hposition; exact hpositive)
      exact .position (filledText?_name_eq_none_iff.mp hname) hposition
  · intro h
    cases h with
    | name h =>
      rw [filledText?_name_eq_some_iff.mpr h]
      rfl
    | position hname h =>
      rw [filledText?_name_eq_none_iff.mpr hname, count?_ordinal_eq_some_iff.mpr h]
      rfl

theorem sourceName?_eq_none_iff {source : Json} :
    sourceName? source = none ↔
      (∀ name, ¬HasName source name) ∧ ∀ position, ¬HasPosition source position := by
  have hposition : (source.count? "ordinal").filter (0 < ·) = none ↔
      ∀ position, ¬HasPosition source position := by
    rw [Option.eq_none_iff_forall_ne_some]
    exact forall_congr' fun position => not_congr count?_ordinal_eq_some_iff
  rw [sourceName?, Option.orElse_eq_orElse, Option.orElse_eq_or, Option.or_eq_none_iff,
    Option.map_eq_none_iff, hposition, filledText?_name_eq_none_iff]

theorem callsSink_getD (sink : Json) (source : String) :
    CallsSink sink source ((sink.filledText? "name").getD source) := by
  cases hname : sink.filledText? "name" with
  | some name => exact .name (filledText?_name_eq_some_iff.mp hname)
  | none => exact .source (filledText?_name_eq_none_iff.mp hname)

/-! ## Mappings -/

/-- The column of a mapping. -/
structure IsOf (mapping : Json) (column : ColumnMapping) : Prop where
  source : CallsSource (mapping.getD "source") column.source
  sink : CallsSink (mapping.getD "sink") column.source column.sink
  sinkType : column.sinkType = (mapping.getD "sink").text? "type"

/-- The list sorted: the columns of the mappings that have one, and the mappings without a name or a
position of their source, both in order. -/
inductive SortsMappings : List Json → List ColumnMapping → List Json → Prop where
  | nil : SortsMappings [] [] []
  | kept {mapping : Json} {column : ColumnMapping} {mappings : List Json}
      {columns : List ColumnMapping} {dropped : List Json} (h : IsOf mapping column)
      (hrest : SortsMappings mappings columns dropped) :
      SortsMappings (mapping :: mappings) (column :: columns) dropped
  | dropped {mapping : Json} {mappings : List Json} {columns : List ColumnMapping}
      {dropped : List Json} (hname : ∀ name, ¬HasName (mapping.getD "source") name)
      (hposition : ∀ position, ¬HasPosition (mapping.getD "source") position)
      (hrest : SortsMappings mappings columns dropped) :
      SortsMappings (mapping :: mappings) columns (mapping :: dropped)

/-- Each mapping is counted once. -/
theorem SortsMappings.length {mappings dropped : List Json} {columns : List ColumnMapping}
    (h : SortsMappings mappings columns dropped) : columns.length + dropped.length = mappings.length := by
  induction h with
  | nil => rfl
  | kept h hrest ih =>
    rw [List.length_cons, List.length_cons, ← ih]
    omega
  | dropped hname hposition hrest ih => rw [List.length_cons, List.length_cons, ← ih, Nat.add_assoc]

/-- What is noted about a mapping that is left out. -/
def unnamed (mapping : Json) : Note :=
  ⟨"translator.mappings",
    "Dropped column mapping without a source name or ordinal: " ++ mapping.compact⟩

theorem ofMapping_of_sourceName? {mapping : Json} {source : String}
    (h : sourceName? (mapping.getD "source") = some source) :
    ∃ column, IsOf mapping column ∧ ofMapping mapping = .quiet (some column) := by
  refine ⟨⟨source, ((mapping.getD "sink").filledText? "name").getD source,
    (mapping.getD "sink").text? "type"⟩, ?_, ?_⟩
  · exact ⟨sourceName?_eq_some_iff.mp h, callsSink_getD _ _, rfl⟩
  · rw [ofMapping, h]

theorem ofMapping_of_sourceName?_none {mapping : Json}
    (h : sourceName? (mapping.getD "source") = none) :
    ofMapping mapping = ⟨none, [unnamed mapping]⟩ := by
  rw [ofMapping, h]
  rfl

/-- The mappings of a list are kept as columns, or left out and noted. -/
theorem exists_sortsMappings (mappings : List Json) :
    ∃ dropped, SortsMappings mappings (Noted.select ofMapping mappings).value dropped ∧
      (Noted.select ofMapping mappings).notes = dropped.map unnamed := by
  simp only [Noted.value_select, Noted.notes_select]
  induction mappings with
  | nil => exact ⟨[], .nil, rfl⟩
  | cons mapping mappings ih =>
    obtain ⟨dropped, hsorts, hnotes⟩ := ih
    rw [List.filterMap_cons, List.flatMap_cons, hnotes]
    cases hsource : sourceName? (mapping.getD "source") with
    | some source =>
      obtain ⟨column, hcolumn, hmapping⟩ := ofMapping_of_sourceName? hsource
      rw [hmapping]
      exact ⟨dropped, .kept hcolumn hsorts, rfl⟩
    | none =>
      obtain ⟨hname, hposition⟩ := sourceName?_eq_none_iff.mp hsource
      rw [ofMapping_of_sourceName?_none hsource]
      exact ⟨mapping :: dropped, .dropped hname hposition hsorts, rfl⟩

/-- **Columns.** A translator selects the columns of its mappings in order. It leaves out the mappings
whose source has neither a name nor a position, and leaves a note about each. -/
theorem ofTranslator_sortsMappings {translator : Json} {mappings : List Json}
    (h : translator.get? "mappings" = some (.arr mappings)) :
    (∃ dropped, SortsMappings mappings (ofTranslator (some translator)).value dropped ∧
        (ofTranslator (some translator)).notes = dropped.map unnamed) ∧
      (ofTranslator (some translator)).value.length + (ofTranslator (some translator)).notes.length =
        mappings.length := by
  have hread : ofTranslator (some translator) = Noted.select ofMapping mappings := by
    simp [ofTranslator, Json.items?, h, Json.asItems?]
  rw [hread]
  obtain ⟨dropped, hsorts, hnotes⟩ := exists_sortsMappings mappings
  refine ⟨⟨dropped, hsorts, hnotes⟩, ?_⟩
  rw [hnotes, List.length_map]
  exact hsorts.length

/-- Five mappings: one of a name to a name, two of a position, one of which is written as text, and
two without a source. -/
def mixedMappings : List Json := [
  .obj [
    ("sink", .obj [("name", .str "key"), ("type", .str "Int32")]),
    ("source", .obj [("name", .str "id"), ("ordinal", .num (.int 9))])],
  .obj [("sink", .obj [("name", .str "")]), ("source", .obj [("ordinal", .num (.int 3))])],
  .obj [("source", .obj [("name", .str ""), ("ordinal", .num (.int 0))])],
  .num (.int 4),
  .obj [("source", .obj [("name", .null), ("ordinal", .str " +1 ")])]]

theorem mixedMappings_sorted :
    (ofTranslator (some (.obj [("mappings", .arr mixedMappings)]))).value =
        [⟨"id", "key", some "Int32"⟩, ⟨"_c2", "_c2", none⟩, ⟨"_c0", "_c0", none⟩] ∧
      (ofTranslator (some (.obj [("mappings", .arr mixedMappings)]))).notes.length = 2 := by
  have hvalue : (ofTranslator (some (.obj [("mappings", .arr mixedMappings)]))).value =
      [⟨"id", "key", some "Int32"⟩, ⟨"_c2", "_c2", none⟩, ⟨"_c0", "_c0", none⟩] := by
    decide +kernel
  have hmappings : (Json.obj [("mappings", .arr mixedMappings)]).get? "mappings"
      = some (.arr mixedMappings) := rfl
  obtain ⟨-, hlength⟩ := ofTranslator_sortsMappings hmappings
  rw [hvalue] at hlength
  exact ⟨hvalue, Nat.add_left_cancel hlength⟩

end ColumnMapping

end FactoryMigration
