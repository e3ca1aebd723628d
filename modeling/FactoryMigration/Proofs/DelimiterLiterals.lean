import FactoryMigration.Proofs.LiteralValues
import FactoryMigration.Proofs.OptionStatements

set_option autoImplicit false

/-! # Delimiters in scripts

The delimiters of a text file are escaped when its definition is read, and quoted, which escapes them
once more, when a script sets them. So the literal that a script assigns to such an option stands for
the escaped text; it is the configured text exactly if none of its characters needs an escape
(`Script.delimiter_literals`). -/

namespace FactoryMigration

/-! ## Delimiters of a definition -/

/-- An option for a delimiter of text files: the property that configures it, and its default. -/
structure Delimiter where
  option : String
  property : String
  default : String
deriving DecidableEq

namespace Delimiter

/-- The delimiters of text files. A text that stands for missing values counts as one. -/
def all : List Delimiter := [
  ⟨"sep", "column_delimiter", ","⟩,
  ⟨"lineSep", "row_delimiter", "\n"⟩,
  ⟨"quote", "quote_char", "\""⟩,
  ⟨"escape", "escape_char", "\\"⟩,
  ⟨"nullValue", "null_value", ""⟩]

/-- The delimiter that a definition configures, or the default. -/
def configured (delimiter : Delimiter) (definition : Json) : String :=
  (Dataset.propertyText? definition delimiter.property).getD delimiter.default

variable {delimiter : Delimiter}

theorem lookup_fileOptions (h : delimiter ∈ all) (definition : Json) :
    (Dataset.fileOptions .csv definition).lookup delimiter.option
      = some (Text.escaped (delimiter.configured definition)) := by
  simp only [all, List.mem_cons, List.not_mem_nil, or_false] at h
  rcases h with rfl | rfl | rfl | rfl | rfl <;>
    simp [Dataset.fileOptions, Dataset.delimiter, configured, Table.lookup_insert,
      Table.lookup_insert?]

/-- The reader of text files knows the option, and no block gives it. -/
theorem option_known (h : delimiter ∈ all) :
    '"' ∉ delimiter.option.toList ∧ delimiter.option ∈ FileFormat.csv.optionNames ∧
      ∀ format ∈ Format.all, delimiter.option ∉ Side.optionKeys format := by
  simp only [all, List.mem_cons, List.not_mem_nil, or_false] at h
  rcases h with rfl | rfl | rfl | rfl | rfl <;> decide

end Delimiter

/-! ## Literals of a script -/

namespace Script

variable {definition block : Json} {strict : Bool} {dataset : FileDataset} {side : Side}

theorem fileOption?_delimiter
    (hdataset : Dataset.ofDefinition definition = .ok (.ok (.file dataset)))
    (hformat : dataset.format = .csv) (hside : (Side.ofBlock strict block).value = .ok side)
    {delimiter : Delimiter} (hdelimiter : delimiter ∈ Delimiter.all) :
    fileOption? dataset side delimiter.option
      = some (Text.escaped (delimiter.configured definition)) := by
  obtain ⟨-, -, hkeys⟩ := Delimiter.option_known hdelimiter
  have hgiven : side.options.lookup delimiter.option = none := by
    cases h : side.options.lookup delimiter.option with
    | none => rfl
    | some value => exact absurd (Side.mem_optionKeys hside h) (hkeys _ (Format.mem_all _))
  have hread := Dataset.options_of_ofDefinition hdataset
  rw [hformat] at hread
  simp only [fileOption?, hgiven, hread, Delimiter.lookup_fileOptions hdelimiter]

/-- **Delimiters of a text file.** A script sets a delimiter exactly if it is not empty, and always to
a literal of the escaped delimiter. This is the configured delimiter, or the default, exactly if none
of its characters needs an escape. Names in scripts have no quotes. -/
theorem delimiter_literals
    (hdataset : Dataset.ofDefinition definition = .ok (.ok (.file dataset)))
    (hformat : dataset.format = .csv) (hside : (Side.ofBlock strict block).value = .ok side)
    {name : String} (hname : '"' ∉ name.toList) (scope : String) {delimiter : Delimiter}
    (hdelimiter : delimiter ∈ Delimiter.all) :
    ((∃ literal, setOption name delimiter.option literal
        ∈ optionBlock scope name (.file dataset) side) ↔ delimiter.configured definition ≠ "") ∧
    ∀ literal, setOption name delimiter.option literal
        ∈ optionBlock scope name (.file dataset) side →
      literalValue? literal = some (Text.escaped (delimiter.configured definition)) ∧
      (literalValue? literal = some (delimiter.configured definition) ↔
        ∀ c ∈ (delimiter.configured definition).toList, Text.IsPlainChar c) := by
  obtain ⟨hquote, hknown, -⟩ := Delimiter.option_known hdelimiter
  rw [← hformat] at hknown
  have hvalue := fileOption?_delimiter hdataset hformat hside hdelimiter
  have hset (literal : String) :
      setOption name delimiter.option literal ∈ optionBlock scope name (.file dataset) side ↔
        delimiter.configured definition ≠ "" ∧
          literal = Text.quoted (Text.escaped (delimiter.configured definition)) := by
    rw [optionBlock, setOption_mem_fileBlock_iff hname hquote, hvalue]
    simp [hknown, Text.escaped_eq_empty_iff]
  constructor
  · simp only [hset, exists_and_left, exists_eq, and_true]
  · intro literal hmem
    obtain ⟨-, rfl⟩ := (hset literal).mp hmem
    rw [literalValue?_quoted]
    refine ⟨rfl, ?_⟩
    rw [Option.some_inj, Text.escaped_eq_self_iff]

end Script

/-! ## The default row delimiter -/

/-- A text file with a delimiter for columns and none for rows. -/
def barFile : Json := .obj [
  ("linked_service_definition", .obj [
    ("name", .str "lake"),
    ("properties", .obj [("url", .str keyless)])]),
  ("name", .str "orders"),
  ("properties", .obj [
    ("column_delimiter", .str "|"),
    ("location", .obj [("container", .str "raw"), ("file_name", .str "orders.csv")]),
    ("type", .str "DelimitedText")])]

/-- A block that sets no options. -/
def textSource : Json := .obj [("type", .str "DelimitedTextSource")]

/-- The file is read, and the check holds of it and of the block. -/
def fileWith (definition block : Json) (check : FileDataset → Side → Bool) : Bool :=
  match Dataset.ofDefinition definition, (Side.ofBlock false block).value with
  | .ok (.ok (.file dataset)), .ok side => check dataset side
  | _, _ => false

theorem exists_of_fileWith {definition block : Json} {check : FileDataset → Side → Bool}
    (h : fileWith definition block check = true) :
    ∃ dataset side, Dataset.ofDefinition definition = .ok (.ok (.file dataset)) ∧
      (Side.ofBlock false block).value = .ok side ∧ check dataset side = true := by
  unfold fileWith at h
  split at h
  · exact ⟨_, _, ‹_›, ‹_›, h⟩
  · cases h

/-- The delimiter of columns needs no escape, so the script sets it as it is. -/
theorem barFile_columnDelimiter :
    ∃ dataset side, Dataset.ofDefinition barFile = .ok (.ok (.file dataset)) ∧
      (Side.ofBlock false textSource).value = .ok side ∧
      ∃ literal, Script.setOption "orders" "sep" literal
          ∈ Script.optionBlock "scope" "orders" (.file dataset) side ∧
        Script.literalValue? literal = some "|" := by
  have hread : fileWith barFile textSource (fun dataset _ => dataset.format = .csv) = true := by
    decide +kernel
  obtain ⟨dataset, side, hdataset, hside, hformat⟩ := exists_of_fileWith hread
  have hconfigured : Delimiter.configured ⟨"sep", "column_delimiter", ","⟩ barFile = "|" := by
    decide
  obtain ⟨hset, hvalue⟩ := Script.delimiter_literals hdataset (of_decide_eq_true hformat) hside
    (show '"' ∉ "orders".toList by decide) "scope"
    (show ⟨"sep", "column_delimiter", ","⟩ ∈ Delimiter.all by decide)
  rw [hconfigured] at hset hvalue
  have hplain : ∀ c ∈ "|".toList, Text.IsPlainChar c := by
    simp [Text.IsPlainChar]
  obtain ⟨literal, hmem⟩ := hset.mpr (by decide)
  exact ⟨dataset, side, hdataset, hside, literal, hmem, (hvalue literal hmem).2.mpr hplain⟩

/-- The default delimiter of rows is a line feed, but the script sets a backslash and a letter. -/
theorem barFile_rowDelimiter :
    ∃ dataset side literal, Dataset.ofDefinition barFile = .ok (.ok (.file dataset)) ∧
      (Side.ofBlock false textSource).value = .ok side ∧
      Script.setOption "orders" "lineSep" literal
        ∈ Script.optionBlock "scope" "orders" (.file dataset) side ∧
      Script.literalValue? literal = some "\\n" ∧
      Script.literalValue? literal
        ≠ some (Delimiter.configured ⟨"lineSep", "row_delimiter", "\n"⟩ barFile) := by
  have hread : fileWith barFile textSource (fun dataset side =>
      Script.setOption "orders" "lineSep" (Text.quoted "\\n")
        ∈ Script.optionBlock "scope" "orders" (.file dataset) side) = true := by
    decide +kernel
  have hvalue := Script.literalValue?_quoted "\\n"
  obtain ⟨dataset, side, hdataset, hside, hmem⟩ := exists_of_fileWith hread
  refine ⟨dataset, side, _, hdataset, hside, of_decide_eq_true hmem, hvalue, ?_⟩
  rw [hvalue]
  decide

end FactoryMigration
