import FactoryMigration.Proofs.EnclosedText
import FactoryMigration.Proofs.IndentedText
import FactoryMigration.Proofs.ScriptModes

set_option autoImplicit false

/-! # Arguments in scripts

The built-in templates put texts of datasets between quotes as they are: addresses of files, names of
tables, and a comment. In a script of code and such arguments each of them has its place, where a
literal of its text is read exactly if the text is verbatim (`Script.Chunk.argumentsIn`). This holds in
a block as well, where the script is moved to the right (`Script.Argument.IsSound.exists_shifted`). -/

namespace FactoryMigration.Script

/-! ## Arguments -/

/-- An argument between quotes, and the code of its expression: lines before it, what begins its own
line, the rest of that line, and lines behind it. -/
structure Argument where
  before : List String
  call : String
  text : String
  rest : String
  behind : List String

namespace Argument

def opening (argument : Argument) : String :=
  Text.joinWith "\n" (argument.before ++ [argument.call])

def closing (argument : Argument) : String :=
  Text.joinWith "\n" (argument.rest :: argument.behind)

/-- The expression with the text as it is. -/
def code (argument : Argument) : String :=
  argument.opening ++ "\"" ++ argument.text ++ "\"" ++ argument.closing

/-- The argument of the same expression in a block. -/
def indented (argument : Argument) : Argument where
  before := argument.before.map ("    " ++ ·)
  call := "    " ++ argument.call
  text := argument.text
  rest := argument.rest
  behind := argument.behind.map ("    " ++ ·)

end Argument

/-- The address of a file in a storage container. -/
def address (file : FileDataset) : String :=
  "abfss://" ++ file.container ++ "@" ++ file.service.account ++ ".dfs.core.windows.net/" ++ file.path

/-- The argument that locates a dataset where it is read. -/
def readArgument (name : String) : Dataset → Argument
  | .file file =>
    { before := [
        name ++ "_df = (",
        "    spark.read.format(\"" ++ file.format.name ++ "\")",
        "    .options(**" ++ (name ++ "_options)")]
      call := "    .load("
      text := address file
      rest := ")"
      behind := [")"] }
  | .delta table =>
    { before := []
      call := name ++ "_df = spark.read.table("
      text := table.qualifiedName
      rest := ")"
      behind := [] }
  | .sql table =>
    { before := [
        name ++ "_df = (",
        "    spark.read.format(\"sqlserver\")",
        "    .options(**" ++ (name ++ "_options)")]
      call := "    .option(\"dbtable\", "
      text := table.qualifiedName
      rest := ")"
      behind := ["    .load()", ")"] }

/-- The argument that locates a dataset where it is written; a SQL table is located by its options. -/
def writeArgument? (name : String) : Dataset → Option Argument
  | .file file => some
    { before := [
        name ++ ("_df.write.format(\"" ++ file.format.name ++ "\") \\"),
        "    .options(**" ++ (name ++ "_options) \\"),
        "    .mode(\"overwrite\") \\"]
      call := "    .save("
      text := address file
      rest := ")"
      behind := [] }
  | .delta table => some
    { before := [
        name ++ "_df.write.format(\"delta\") \\",
        "    .mode(\"overwrite\") \\"]
      call := "    .saveAsTable("
      text := table.qualifiedName
      rest := ")"
      behind := [] }
  | .sql _ => none

/-- The name of a declared table. -/
def nameArgument (sink : Dataset) : Argument where
  before := []
  call := "    name="
  text := Generator.tableName sink
  rest := ","
  behind := []

/-- The comment on a declared table. -/
def commentArgument (source sink : Dataset) : Argument where
  before := []
  call := "    comment="
  text := "Data copied from " ++ source.name ++ "; Previously targeted " ++ sink.name ++ "."
  rest := ","
  behind := []

/-- The arguments of the notebook that reads, projects and writes, in their order. -/
def copyArguments (copy : Copy) : List Argument :=
  let names := Names.ofCopy copy
  readArgument names.source copy.source :: (writeArgument? names.sink copy.sink).toList

/-- The arguments of the notebook that declares the sink, in their order. -/
def declarativeArguments (copy : Copy) : List Argument :=
  [nameArgument copy.sink, commentArgument copy.source copy.sink,
    (readArgument (Names.ofCopy copy).source copy.source).indented]

/-! ## The code of arguments -/

/-- A line of code in which all literals are complete. -/
def IsCodeLine (line : String) : Prop :=
  InCode line.toList ∧ IsOneLine line

instance (line : String) : Decidable (IsCodeLine line) :=
  inferInstanceAs (Decidable (_ ∧ _))

theorem IsCodeLine.append {first second : String} (hfirst : IsCodeLine first)
    (hsecond : IsCodeLine second) : IsCodeLine (first ++ second) := by
  rw [IsCodeLine, IsOneLine, String.toList_append]
  exact ⟨hfirst.1.append hsecond.1, List.append_ne_nil_of_left_ne_nil hfirst.2.1 _,
    List.forall_mem_append.mpr ⟨hfirst.2.2, hsecond.2.2⟩⟩

theorem IsName.isCodeLine {name : String} (h : IsName name) : IsCodeLine name := by
  refine ⟨h.isPlainCode.after, h.1, fun c hc => ⟨?_, ?_⟩⟩
  · rintro rfl
    exact h.not_mem (by decide) hc
  · rintro rfl
    exact h.not_mem (by decide) hc

theorem inCode_joinWith {lines : List String} (h : ∀ line ∈ lines, IsCodeLine line) :
    InCode (Text.joinWith "\n" lines).toList := by
  induction lines with
  | nil => exact (by decide : InCode [])
  | cons line lines ih =>
    obtain ⟨hline, hlines⟩ := List.forall_mem_cons.mp h
    cases lines with
    | nil => exact hline.1
    | cons next lines =>
      simp only [Text.joinWith, String.toList_append, List.append_assoc]
      exact hline.1.append (InCode.append (by decide) (ih hlines))

namespace Argument

/-- The lines of an expression without the argument, whose own line is in two parts. -/
def lines (argument : Argument) : List String :=
  (argument.before ++ [argument.call]) ++ argument.rest :: argument.behind

/-- What an expression is for its argument to have a place in a script. -/
structure IsSound (argument : Argument) : Prop where
  lines : ∀ line ∈ argument.lines, IsCodeLine line
  rest : argument.rest ∈ [")", ","]

namespace IsSound

variable {argument : Argument}

theorem inCode_opening (h : argument.IsSound) : InCode argument.opening.toList :=
  inCode_joinWith (List.forall_mem_append.mp h.lines).1

theorem inCode_closing (h : argument.IsSound) : InCode argument.closing.toList :=
  inCode_joinWith (List.forall_mem_append.mp h.lines).2

/-- What follows an argument keeps it apart from other literals. -/
theorem exists_closing_eq_cons (h : argument.IsSound) :
    ∃ c rest, argument.closing.toList = c :: rest ∧ c ≠ '"' := by
  have hrest : ∃ c, argument.rest.toList = [c] ∧ c ≠ '"' := by
    have hmem := h.rest
    simp only [List.mem_cons, List.not_mem_nil, or_false] at hmem
    rcases hmem with heq | heq
    · exact ⟨')', by rw [heq]; decide, by decide⟩
    · exact ⟨',', by rw [heq]; decide, by decide⟩
  obtain ⟨c, hrest, hc⟩ := hrest
  unfold closing
  cases argument.behind with
  | nil => exact ⟨c, [], hrest, hc⟩
  | cons line lines =>
    simp only [Text.joinWith, String.toList_append, hrest, List.append_assoc]
    exact ⟨c, _, rfl, hc⟩

theorem indented (h : argument.IsSound) : argument.indented.IsSound := by
  have hmargin {line : String} (hline : IsCodeLine line) : IsCodeLine ("    " ++ line) :=
    IsCodeLine.append (by decide) hline
  have hlines := h.lines
  simp only [Argument.lines, List.forall_mem_append, List.forall_mem_cons, List.not_mem_nil,
    IsEmpty.forall_iff, implies_true, and_true] at hlines
  obtain ⟨⟨hbefore, hcall⟩, hrest, hbehind⟩ := hlines
  refine ⟨?_, h.rest⟩
  simp only [Argument.lines, Argument.indented, List.forall_mem_append, List.forall_mem_cons,
    List.forall_mem_map, List.not_mem_nil, IsEmpty.forall_iff, implies_true, and_true]
  exact ⟨⟨fun line hline => hmargin (hbefore line hline), hmargin hcall⟩, hrest,
    fun line hline => hmargin (hbehind line hline)⟩

/-- What an expression becomes in a block, before more of the block. -/
theorem exists_shifted (h : argument.IsSound) (more : List Char) :
    ∃ written, IsShifted written argument.text.toList ∧
      shiftLines false (argument.code.toList ++ more)
        = argument.indented.opening.toList ++ '"' :: (written ++ '"' ::
          (argument.indented.closing.toList ++ shiftLines true more)) := by
  have hcode : argument.code.toList ++ more = argument.opening.toList ++ '"' :: (argument.text.toList
      ++ '"' :: (argument.closing.toList ++ more)) := by
    simp [code]
  obtain ⟨hfirst, hsecond⟩ := List.forall_mem_append.mp h.lines
  have hopening (rest : List Char) : shiftLines false (argument.opening.toList ++ rest)
      = argument.indented.opening.toList ++ shiftLines true rest := by
    have hindented : argument.indented.opening
        = Text.joinWith "\n" ((argument.before ++ [argument.call]).map ("    " ++ ·)) := by
      rw [List.map_append]
      rfl
    rw [hindented, opening, shiftLines_begin (List.concat_ne_nil _ _) fun line hline =>
      (hfirst line hline).2]
  have hclosing : shiftLines true (argument.closing.toList ++ more)
      = argument.indented.closing.toList ++ shiftLines true more :=
    shiftLines_joinWith (fun line hline => (hsecond line hline).2) true more
  have hquote (rest : List Char) : shiftLines true ('"' :: rest) = '"' :: shiftLines true rest := rfl
  obtain ⟨written, hshifted, hwritten⟩ := exists_isShifted argument.text.toList
    (argument.closing.toList ++ more)
  refine ⟨written, hshifted, ?_⟩
  rw [hcode, hopening, hquote, hwritten, hclosing]

end IsSound

end Argument

section

variable {name : String}

theorem isSound_readArgument (hname : IsName name) (dataset : Dataset) :
    (readArgument name dataset).IsSound := by
  have hline := hname.isCodeLine
  have hoptions : IsCodeLine ("    .options(**" ++ (name ++ "_options)")) :=
    IsCodeLine.append (by decide) (hline.append (by decide))
  refine ⟨?_, by cases dataset <;> simp [readArgument]⟩
  cases dataset with
  | file file =>
    simp only [Argument.lines, readArgument, List.cons_append, List.nil_append, List.forall_mem_cons,
      List.not_mem_nil, IsEmpty.forall_iff, implies_true, and_true]
    refine ⟨hline.append (by decide), ?_, hoptions, by decide, by decide, by decide⟩
    cases file.format <;> decide
  | delta table =>
    simp only [Argument.lines, readArgument, List.cons_append, List.nil_append, List.forall_mem_cons,
      List.not_mem_nil, IsEmpty.forall_iff, implies_true, and_true]
    exact ⟨hline.append (by decide), by decide⟩
  | sql table =>
    simp only [Argument.lines, readArgument, List.cons_append, List.nil_append, List.forall_mem_cons,
      List.not_mem_nil, IsEmpty.forall_iff, implies_true, and_true]
    exact ⟨hline.append (by decide), by decide, hoptions, by decide, by decide, by decide, by decide⟩

theorem isSound_writeArgument? (hname : IsName name) (dataset : Dataset) :
    ∀ argument ∈ writeArgument? name dataset, argument.IsSound := by
  have hline := hname.isCodeLine
  cases dataset with
  | file file =>
    rintro argument ⟨⟩
    refine ⟨?_, by simp⟩
    simp only [Argument.lines, List.cons_append, List.nil_append, List.forall_mem_cons,
      List.not_mem_nil, IsEmpty.forall_iff, implies_true, and_true]
    refine ⟨hline.append ?_, IsCodeLine.append (by decide) (hline.append (by decide)), by decide,
      by decide, by decide⟩
    cases file.format <;> decide
  | delta table =>
    rintro argument ⟨⟩
    refine ⟨?_, by simp⟩
    simp only [Argument.lines, List.cons_append, List.nil_append, List.forall_mem_cons,
      List.not_mem_nil, IsEmpty.forall_iff, implies_true, and_true]
    exact ⟨hline.append (by decide), by decide, by decide, by decide⟩
  | sql table => nofun

theorem isSound_nameArgument (sink : Dataset) : (nameArgument sink).IsSound :=
  ⟨(by decide : ∀ line ∈ ["    name=", ","], IsCodeLine line), by simp [nameArgument]⟩

theorem isSound_commentArgument (source sink : Dataset) : (commentArgument source sink).IsSound :=
  ⟨(by decide : ∀ line ∈ ["    comment=", ","], IsCodeLine line), by simp [commentArgument]⟩

end

/-! ## Places -/

/-- A text between quotes in a script, what stands before it and what follows it. -/
structure Place where
  front : List Char
  written : List Char
  behind : List Char

namespace Place

/-- The script from the opening quote on. -/
def quoted (place : Place) : List Char :=
  '"' :: (place.written ++ '"' :: place.behind)

def script (place : Place) : List Char :=
  place.front ++ place.quoted

/-- The place in a script that has more in front. -/
def after (front : List Char) (place : Place) : Place :=
  { place with front := front ++ place.front }

end Place

/-- An argument stands at a place: between the code of its expression, and the literal there is one of
its text exactly if the text is verbatim. -/
structure Argument.IsAt (argument : Argument) (place : Place) : Prop where
  opening : argument.opening.toList <:+ place.front
  closing : argument.closing.toList <+: place.behind
  shifted : IsShifted place.written argument.text.toList
  literal : literal? place.quoted = some (argument.text.toList, place.behind) ↔
    IsVerbatim argument.text.toList

/-- Each of the arguments stands at a place of the script, and this is in code if the texts of all
arguments before it are verbatim. -/
def ArgumentsIn (arguments : List Argument) (script : String) : Prop :=
  ∀ before argument after, arguments = before ++ argument :: after →
    ∃ place : Place, place.script = script.toList ∧ argument.IsAt place ∧
      ((∀ earlier ∈ before, IsVerbatim earlier.text.toList) → InCode place.front)

/-- A text that was moved to the right is read as the text before that only if nothing changed. -/
theorem IsShifted.literal?_eq_some_iff {written text behind : List Char} (h : IsShifted written text)
    (hbehind : behind.head? ≠ some '"') :
    literal? ('"' :: (written ++ '"' :: behind)) = some (text, behind) ↔ IsVerbatim text := by
  by_cases hfeed : '\n' ∈ text
  · constructor
    · intro hread
      -- Each line feed that is skipped costs a backslash, and no backslash is lost otherwise.
      have hcount := (reads_of_literal? hread).lineFeed (h.mem_lineFeed hfeed)
      rw [h.count_backslash] at hcount
      exact absurd hcount (Nat.lt_irrefl _)
    · intro hverbatim
      exact absurd hfeed (hverbatim.not_mem (by simp))
  · rw [h.same hfeed]
    exact Script.literal?_eq_some_iff hbehind

/-! ## Scripts in chunks -/

/-- Code, and an argument behind it with the text that is written for it. -/
structure Chunk where
  code : List Char
  argument : Argument
  written : List Char

namespace Chunk

/-- The code up to the opening quote. -/
def front (chunk : Chunk) : List Char :=
  chunk.code ++ chunk.argument.opening.toList

/-- The code with the argument, before more of the script. -/
def before (chunk : Chunk) (more : List Char) : List Char :=
  chunk.front ++ '"' :: (chunk.written ++ '"' :: (chunk.argument.closing.toList ++ more))

/-- The script of chunks, and what follows the last one. -/
def script : List Chunk → List Char → List Char
  | [], last => last
  | chunk :: chunks, last => chunk.before (script chunks last)

structure IsSound (chunk : Chunk) : Prop where
  code : InCode chunk.code
  argument : chunk.argument.IsSound
  shifted : IsShifted chunk.written chunk.argument.text.toList

/-- The place of the argument of a chunk. -/
def place (chunk : Chunk) (more : List Char) : Place :=
  ⟨chunk.front, chunk.written, chunk.argument.closing.toList ++ more⟩

variable {chunk : Chunk}

theorem IsSound.inCode_front (h : chunk.IsSound) : InCode chunk.front :=
  h.code.append h.argument.inCode_opening

theorem IsSound.isAt (h : chunk.IsSound) (more : List Char) :
    chunk.argument.IsAt (chunk.place more) := by
  obtain ⟨c, rest, hclosing, hc⟩ := h.argument.exists_closing_eq_cons
  refine ⟨List.suffix_append _ _, List.prefix_append _ _, h.shifted, ?_⟩
  refine h.shifted.literal?_eq_some_iff ?_
  simpa [place, hclosing] using hc

/-- Behind an argument with a verbatim text there is code again. -/
theorem IsSound.inCode_before (h : chunk.IsSound)
    (hverbatim : IsVerbatim chunk.argument.text.toList) {more : List Char} (hmore : InCode more) :
    InCode (chunk.before more) := by
  obtain ⟨c, rest, hclosing, hc⟩ := h.argument.exists_closing_eq_cons
  have hstays := Mode.staysInside_of_isVerbatim hverbatim
  have hquoted : InCode ('"' :: (chunk.written ++ '"' :: (chunk.argument.closing.toList ++ more))) := by
    rw [h.shifted.same (hverbatim.not_mem (by simp)), InCode, hclosing, List.cons_append,
      hstays.after_quotes hc, ← List.cons_append, ← hclosing]
    exact h.argument.inCode_closing.append hmore
  exact h.inCode_front.append hquoted

/-- **Places of arguments.** In a script of sound chunks each argument stands at its place. -/
theorem argumentsIn {chunks : List Chunk} (h : ∀ chunk ∈ chunks, chunk.IsSound) {last : List Char}
    {text : String} (htext : text.toList = script chunks last) :
    ArgumentsIn (chunks.map argument) text := by
  rw [ArgumentsIn, htext]
  clear htext
  intro before argument after hsplit
  induction chunks generalizing before with
  | nil => cases before <;> cases hsplit
  | cons chunk chunks ih =>
    obtain ⟨hchunk, hchunks⟩ := List.forall_mem_cons.mp h
    cases before with
    | nil =>
      obtain ⟨rfl, -⟩ := List.cons.inj hsplit
      exact ⟨chunk.place (script chunks last), rfl, hchunk.isAt _, fun _ => hchunk.inCode_front⟩
    | cons earlier before =>
      obtain ⟨rfl, hrest⟩ := List.cons.inj hsplit
      obtain ⟨place, hscript, hat, hcode⟩ := ih hchunks before hrest
      refine ⟨place.after (chunk.before []), ?_, ?_, fun hverbatim => ?_⟩
      · simp [Place.script, Place.after, Place.quoted, script, Chunk.before, ← hscript]
      · exact ⟨hat.opening.trans (List.suffix_append _ _), hat.closing, hat.shifted, hat.literal⟩
      · obtain ⟨hfirst, hbefore⟩ := List.forall_mem_cons.mp hverbatim
        have hin := hchunk.inCode_before hfirst (hcode hbefore)
        simpa [Place.after, Chunk.before] using hin

end Chunk

end FactoryMigration.Script
