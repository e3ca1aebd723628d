import FactoryMigration.Proofs.OptionStatements
import FactoryMigration.Proofs.ScriptArguments

set_option autoImplicit false

/-! # Arguments in notebooks

The notebooks of the built-in templates are chunks with the arguments of their expressions
(`Script.Generator.exists_copyChunks`, `Script.Generator.exists_declarativeChunks`). So each argument
stands in its notebook, where it is a literal of its text exactly if the text is verbatim
(`Script.Generator.notebook_arguments`): the templates quote nothing, and a quote in a path ends the literal
early (`quotedPath_misread`). -/

namespace FactoryMigration

namespace Script

/-! ## Expressions -/

section

variable {template : Template} {name text : String} {entries : List (String × String)}

theorem render_builtIn (hlookup : Template.builtIn.lookup name = some template)
    (hfill : template.fill (.ofEntries entries) = .ok text) :
    TemplateLibrary.builtIn.render name (.ofEntries entries) = .ok text := by
  have hload : TemplateLibrary.builtIn.load name = .ok template := by
    simp [TemplateLibrary.load, TemplateLibrary.find?, TemplateLibrary.builtIn, hlookup]
  simp only [TemplateLibrary.render, hload, bind, Except.bind, hfill]

theorem renderExpression_builtIn (unsupported : Failure)
    (hlookup : Template.builtIn.lookup name = some template)
    (hfill : template.fill (.ofEntries entries) = .ok (text ++ "\n"))
    (hlast : ∀ c ∈ text.toList.getLast?, Text.isBlank c = false) :
    renderExpression .builtIn name unsupported entries = .ok text := by
  have hfind : (TemplateLibrary.builtIn.find? name).isNone = false := by
    simp [TemplateLibrary.find?, TemplateLibrary.builtIn, hlookup]
  have htrim : Text.trimEnd (text ++ "\n").toList = text.toList := by
    rw [String.toList_append, Text.trimEnd_append (by simp [Text.isBlank]), Text.trimEnd_eq_self hlast]
  simp only [renderExpression, hfind, Bool.false_eq_true, if_false, render_builtIn hlookup hfill, bind,
    Except.bind, htrim, String.ofList_toList]
  rfl

end

-- Templates are filled by rewriting.
attribute [local simp] Template.ofLines Template.fill Template.Scope.value? Template.needsOperands
  Template.operation? Template.Scope.ofEntries Table.lookup_cons

section

attribute [local simp] Template.fileAddress fileVariables Argument.code Argument.closing Text.joinWith

theorem readExpression_builtIn (name : String) (dataset : Dataset) :
    readExpression .builtIn name dataset = .ok (readArgument name dataset).code := by
  have hlast : ∀ c ∈ (readArgument name dataset).code.toList.getLast?, Text.isBlank c = false := by
    cases dataset <;>
      simp [readArgument, List.getLast?_append, List.getLast?_cons, Text.isBlank]
  cases dataset with
  | file file =>
    refine renderExpression_builtIn _ (by rfl : _ = some Template.readFile) ?_ hlast
    simp [Template.readFile]
    apply String.toList_inj.mp
    simp [readArgument, Argument.opening, address]
  | delta table =>
    refine renderExpression_builtIn _ (by rfl : _ = some Template.readDelta) ?_ hlast
    simp [Template.readDelta]
    apply String.toList_inj.mp
    simp [readArgument, Argument.opening]
  | sql table =>
    refine renderExpression_builtIn _ (by rfl : _ = some Template.readSqlServer) ?_ hlast
    simp [Template.readSqlServer]
    apply String.toList_inj.mp
    simp [readArgument, Argument.opening]

theorem writeExpression_builtIn_of_argument {name : String} {dataset : Dataset} {argument : Argument}
    (h : writeArgument? name dataset = some argument) :
    writeExpression .builtIn name dataset = .ok argument.code := by
  have hlast : ∀ c ∈ argument.code.toList.getLast?, Text.isBlank c = false := by
    revert argument
    cases dataset <;>
      simp [writeArgument?, List.getLast?_append, List.getLast?_cons, Text.isBlank]
  cases dataset with
  | file file =>
    obtain rfl := Option.some.inj h
    have hlookup : Template.builtIn.lookup ("write-" ++ file.format.name)
        = some (Template.writeFile file.format.name) := by
      cases file.format <;> rfl
    refine renderExpression_builtIn _ hlookup ?_ hlast
    simp [Template.writeFile]
    apply String.toList_inj.mp
    simp [Argument.opening, address]
  | delta table =>
    obtain rfl := Option.some.inj h
    refine renderExpression_builtIn _ (by rfl : _ = some Template.writeDelta) ?_ hlast
    simp [Template.writeDelta]
    apply String.toList_inj.mp
    simp [Argument.opening]
  | sql table => cases h

/-- Every dataset can be written. -/
theorem exists_writeExpression_builtIn (name : String) (dataset : Dataset) :
    ∃ write, writeExpression .builtIn name dataset = .ok write := by
  cases hargument : writeArgument? name dataset with
  | some argument => exact ⟨_, writeExpression_builtIn_of_argument hargument⟩
  | none =>
    cases dataset with
    | file file => cases hargument
    | delta table => cases hargument
    | sql table =>
      have hfill : Template.writeSqlServer.fill (.ofEntries [("name", name)])
          = .ok (name ++ "_df.write.format(\"jdbc\") \\\n    .options(**" ++ name
            ++ "_options) \\\n    .save()" ++ "\n") := by
        simp [Template.writeSqlServer]
        apply String.toList_inj.mp
        simp
      refine ⟨_, renderExpression_builtIn _ (by rfl) hfill ?_⟩
      simp [List.getLast?_append, List.getLast?_cons, Text.isBlank]

end

/-! ## The code of notebooks -/

/-- Lines that have ended. -/
def block (lines : List String) : String :=
  Text.joinWith "\n" lines ++ "\n"

theorem inCode_block {lines : List String} (h : ∀ line ∈ lines, IsLines line) :
    InCode (block lines).toList := by
  rw [block, String.toList_append]
  exact isLines_joinWith h

theorem isLines_of_isCodeLine {line : String} (h : IsCodeLine line) : IsLines line :=
  h.1.append (by decide)

/-- What stands before the reading expression. -/
def copyFront (sourceOptions sinkOptions : String) : List String :=
  ["# Databricks notebook source",
    "import pyspark.sql.types as T",
    "import pyspark.sql.functions as F",
    "",
    "# Set the source options:",
    sourceOptions,
    "",
    "# Set the target options:",
    sinkOptions,
    "",
    "# Read from the source:"]

/-- What stands between the reading and the writing expression. -/
def copyMiddle (mapping : String) : List String :=
  ["", "", "# Map the source columns to the target columns:", mapping, "", "# Write to the target:"]

/-- What stands before the arguments of a declared table. -/
def declarativeFront (sourceOptions : String) : List String :=
  ["# Databricks notebook source",
    "import dlt",
    "import pyspark.sql.types as T",
    "import pyspark.sql.functions as F",
    "",
    "# Set the source options:",
    sourceOptions,
    "",
    "",
    "# Load the data with DLT as a materialized view:",
    "@dlt.table("]

/-- What stands between the arguments of a declared table and the body of its function. -/
def declarativeMiddle (functionName : String) : List String :=
  ["",
    "    tbl_properties=\x7b\"delta.createdBy.pipemigrate\": \"true\"\x7d,",
    ")",
    "def " ++ (functionName ++ "():")]

/-- The notebook that reads, projects and writes. -/
def copyScript (sourceOptions sinkOptions read mapping write : String) : String :=
  block (copyFront sourceOptions sinkOptions) ++ read ++ (block (copyMiddle mapping) ++ write) ++ "\n"

/-- The notebook that declares a table, with the body of its function and the frame returned. -/
def declarativeScript (source sink : Dataset)
    (sourceOptions functionName body result : String) : String :=
  block (declarativeFront sourceOptions) ++ (nameArgument sink).code
    ++ ("\n" ++ (commentArgument source sink).code)
    ++ (block (declarativeMiddle functionName) ++ body) ++ ("\n    return " ++ result ++ "\n")

theorem inCode_copyFront {sourceOptions sinkOptions : String} (hsource : IsLines sourceOptions)
    (hsink : IsLines sinkOptions) : InCode (block (copyFront sourceOptions sinkOptions)).toList := by
  refine inCode_block ?_
  simp only [copyFront, List.forall_mem_cons, List.not_mem_nil, IsEmpty.forall_iff, implies_true,
    and_true, hsource, hsink]
  decide

theorem inCode_copyMiddle {mapping : String} (hmapping : IsLines mapping) :
    InCode (block (copyMiddle mapping)).toList := by
  refine inCode_block ?_
  simp only [copyMiddle, List.forall_mem_cons, List.not_mem_nil, IsEmpty.forall_iff, implies_true,
    and_true, hmapping]
  decide

theorem inCode_declarativeFront {sourceOptions : String} (hsource : IsLines sourceOptions) :
    InCode (block (declarativeFront sourceOptions)).toList := by
  refine inCode_block ?_
  simp only [declarativeFront, List.forall_mem_cons, List.not_mem_nil, IsEmpty.forall_iff,
    implies_true, and_true, hsource]
  decide

theorem inCode_declarativeMiddle {functionName : String} (h : IsName functionName) :
    InCode (block (declarativeMiddle functionName)).toList := by
  have hfunction : IsCodeLine ("def " ++ (functionName ++ "():")) :=
    IsCodeLine.append (by decide) (h.isCodeLine.append (by decide))
  refine inCode_block ?_
  simp only [declarativeMiddle, List.forall_mem_cons, List.not_mem_nil, IsEmpty.forall_iff,
    implies_true, and_true, isLines_of_isCodeLine hfunction]
  decide

theorem fill_copyNotebook (sourceOptions sinkOptions read mapping write : String) :
    Template.copyNotebook.fill (.ofEntries [("source_options", sourceOptions),
        ("sink_options", sinkOptions), ("read", read), ("mapping", mapping), ("write", write)])
      = .ok (copyScript sourceOptions sinkOptions read mapping write) := by
  simp [Template.copyNotebook]
  simp only [copyScript, block, copyFront, copyMiddle, Text.joinWith, String.append_assoc,
    String.empty_append]

theorem fill_declarativeNotebook (source sink : Dataset)
    (sourceOptions functionName body result : String) :
    Template.declarativeNotebook.fill (.ofEntries [("source_options", sourceOptions),
        ("table_name", Generator.tableName sink), ("source_name", source.name),
        ("sink_name", sink.name), ("function_name", functionName), ("body", body),
        ("result", result)])
      = .ok (declarativeScript source sink sourceOptions functionName body result) := by
  -- The quotes of arguments are part of the text around their holes.
  have hquotes : ("    name=\"" : String) = "    name=" ++ "\"" ∧ ("\"," : String) = "\"" ++ "," ∧
      ("    comment=\"Data copied from " : String) = "    comment=" ++ ("\"" ++ "Data copied from ") ∧
      (".\"," : String) = "." ++ ("\"" ++ ",") ∧ ("\n    return " : String) = "\n" ++ "    return " := by
    decide
  obtain ⟨hname, hclose, hcomment, hend, hreturn⟩ := hquotes
  simp [Template.declarativeNotebook]
  simp only [declarativeScript, block, declarativeFront, declarativeMiddle, nameArgument,
    commentArgument, Argument.code, Argument.opening, Argument.closing, List.nil_append, Text.joinWith, String.append_assoc,
    String.empty_append, hname, hclose, hcomment, hend, hreturn]

namespace Generator

variable {generator : Generator}

theorem value_copyNotebook (hlibrary : generator.library = .builtIn) {copy : Copy} {write : String}
    (hwrite : writeExpression .builtIn (Names.ofCopy copy).sink copy.sink = .ok write) :
    (generator.copyNotebook copy).value = .ok (copyScript
      (generator.options (Names.ofCopy copy).source copy.source copy.sourceSide)
      (generator.options (Names.ofCopy copy).sink copy.sink copy.sinkSide)
      (readArgument (Names.ofCopy copy).source copy.source).code
      (projection (Names.ofCopy copy) copy.sink.format copy.columns).value write) := by
  have hlookup : Template.builtIn.lookup "copy-notebook" = some Template.copyNotebook := rfl
  unfold copyNotebook
  simp only [hlibrary, readExpression_builtIn, Noted.value_bind, Noted.value_pure, hwrite]
  exact render_builtIn hlookup (fill_copyNotebook _ _ _ _ _)

theorem value_declarativeNotebook (hlibrary : generator.library = .builtIn) (copy : Copy) :
    (generator.declarativeNotebook copy).value = .ok (declarativeScript copy.source copy.sink
      (generator.options (Names.ofCopy copy).source copy.source copy.sourceSide)
      ("load_" ++ (Names.ofCopy copy).sink)
      (indent ((readArgument (Names.ofCopy copy).source copy.source).code ++ "\n"
        ++ (projection (Names.ofCopy copy) copy.sink.format copy.columns).value))
      ((Names.ofCopy copy).sink ++ "_df")) := by
  have hlookup : Template.builtIn.lookup "dlt-notebook" = some Template.declarativeNotebook := rfl
  unfold declarativeNotebook
  simp only [hlibrary, readExpression_builtIn, Noted.value_bind, Noted.value_pure]
  exact render_builtIn hlookup (fill_declarativeNotebook _ _ _ _ _ _)

end Generator

/-! ## Notebooks in chunks -/

/-- An argument written as it is, behind code. -/
def Chunk.ofArgument (code : String) (argument : Argument) : Chunk :=
  ⟨code.toList, argument, argument.text.toList⟩

theorem Chunk.isSound_ofArgument {code : String} {argument : Argument} (hcode : InCode code.toList)
    (h : argument.IsSound) : (ofArgument code argument).IsSound :=
  ⟨hcode, h, rfl, fun _ => rfl⟩

theorem Chunk.before_ofArgument (code : String) (argument : Argument) (more : List Char) :
    (ofArgument code argument).before more = (code ++ argument.code).toList ++ more := by
  simp [Chunk.before, Chunk.front, ofArgument, Argument.code]

/-- A projection does not end in a line feed. -/
theorem getLast?_projection (names : Names) (sink : Format) (columns : List ColumnMapping) :
    ∃ c, (projection names sink columns).value.toList.getLast? = some c ∧ c ≠ '\n' := by
  unfold projection
  dsimp only
  split
  · exact ⟨'f', by simp [Noted.quiet, List.getLast?_append, List.getLast?_cons], by decide⟩
  · exact ⟨')', by simp [List.getLast?_append, List.getLast?_cons], by decide⟩

namespace Generator

theorem exists_copyChunks {generator : Generator} (hlibrary : generator.library = .builtIn) (copy : Copy) :
    ∃ script chunks last, (generator.copyNotebook copy).value = .ok script ∧
      script.toList = Chunk.script chunks last ∧
      chunks.map Chunk.argument = copyArguments copy ∧ ∀ chunk ∈ chunks, chunk.IsSound := by
  obtain ⟨hsource, hsink⟩ := Names.isName_ofCopy copy
  obtain ⟨write, hwrite⟩ := exists_writeExpression_builtIn (Names.ofCopy copy).sink copy.sink
  generalize hfront : block (copyFront
    (generator.options (Names.ofCopy copy).source copy.source copy.sourceSide)
    (generator.options (Names.ofCopy copy).sink copy.sink copy.sinkSide)) = front
  generalize hmiddle : block (copyMiddle
    (projection (Names.ofCopy copy) copy.sink.format copy.columns).value) = middle
  have hvalue : (generator.copyNotebook copy).value
      = .ok (front ++ (readArgument (Names.ofCopy copy).source copy.source).code
        ++ (middle ++ write) ++ "\n") := by
    rw [← hfront, ← hmiddle]
    exact value_copyNotebook hlibrary hwrite
  have hread : (Chunk.ofArgument front (readArgument (Names.ofCopy copy).source copy.source)).IsSound := by
    refine Chunk.isSound_ofArgument ?_ (isSound_readArgument hsource _)
    rw [← hfront]
    exact inCode_copyFront (isLines_options _ hsource.isPlainCode _ _)
      (isLines_options _ hsink.isPlainCode _ _)
  cases hargument : writeArgument? (Names.ofCopy copy).sink copy.sink with
  | none =>
    refine ⟨_, [Chunk.ofArgument front (readArgument (Names.ofCopy copy).source copy.source)],
      (middle ++ write ++ "\n").toList, hvalue, ?_, ?_, List.forall_mem_singleton.mpr hread⟩
    · rw [Chunk.script, Chunk.script, Chunk.before_ofArgument]
      simp only [String.toList_append, List.append_assoc]
    · rw [copyArguments, hargument]
      rfl
  | some argument =>
    have hwritten : (Chunk.ofArgument middle argument).IsSound := by
      refine Chunk.isSound_ofArgument ?_ (isSound_writeArgument? hsink _ _ hargument)
      rw [← hmiddle]
      exact inCode_copyMiddle (isLines_projection hsource.isPlainCode hsink.isPlainCode _ _)
    have hcode : write = argument.code :=
      Except.ok.inj (hwrite.symm.trans (writeExpression_builtIn_of_argument hargument))
    refine ⟨_, [Chunk.ofArgument front (readArgument (Names.ofCopy copy).source copy.source),
      Chunk.ofArgument middle argument], ['\n'], hvalue, ?_, ?_,
      List.forall_mem_cons.mpr ⟨hread, List.forall_mem_singleton.mpr hwritten⟩⟩
    · rw [Chunk.script, Chunk.script, Chunk.script, Chunk.before_ofArgument, Chunk.before_ofArgument,
        hcode]
      simp only [String.toList_append, List.append_assoc]
      rfl
    · rw [copyArguments, hargument]
      rfl

theorem exists_declarativeChunks {generator : Generator} (hlibrary : generator.library = .builtIn) (copy : Copy) :
    ∃ script chunks last, (generator.declarativeNotebook copy).value = .ok script ∧
      script.toList = Chunk.script chunks last ∧
      chunks.map Chunk.argument = declarativeArguments copy ∧ ∀ chunk ∈ chunks, chunk.IsSound := by
  obtain ⟨hsource, hsink⟩ := Names.isName_ofCopy copy
  have hread := isSound_readArgument hsource copy.source
  generalize hfront : block (declarativeFront
    (generator.options (Names.ofCopy copy).source copy.source copy.sourceSide)) = front
  generalize hmiddle : block (declarativeMiddle ("load_" ++ (Names.ofCopy copy).sink)) = middle
  generalize hmapping : (projection (Names.ofCopy copy) copy.sink.format copy.columns).value = mapping
  generalize hend : "\n    return " ++ ((Names.ofCopy copy).sink ++ "_df") ++ "\n" = ending
  generalize hreading : readArgument (Names.ofCopy copy).source copy.source = reading at hread
  have hvalue : (generator.declarativeNotebook copy).value
      = .ok (front ++ (nameArgument copy.sink).code
        ++ ("\n" ++ (commentArgument copy.source copy.sink).code)
        ++ (middle ++ indent (reading.code ++ "\n" ++ mapping)) ++ ending) := by
    rw [← hfront, ← hmiddle, ← hmapping, ← hend, ← hreading]
    exact value_declarativeNotebook hlibrary copy
  obtain ⟨written, hshifted, hbody⟩ := hread.exists_shifted ('\n' :: mapping.toList)
  have hindent : (indent (reading.code ++ "\n" ++ mapping)).toList
      = reading.indented.opening.toList ++ '"' :: (written ++ '"' ::
        (reading.indented.closing.toList ++ shiftLines true ('\n' :: mapping.toList))) := by
    have htext : (reading.code ++ "\n" ++ mapping).toList
        = reading.code.toList ++ '\n' :: mapping.toList := by
      simp
    have hlast : (reading.code ++ "\n" ++ mapping).toList.getLast? ≠ some '\n' := by
      obtain ⟨c, hc, hne⟩ := getLast?_projection (Names.ofCopy copy) copy.sink.format copy.columns
      rw [hmapping] at hc
      simpa [htext, List.getLast?_append, List.getLast?_cons, hc] using hne
    rw [toList_indent hlast, htext, hbody]
  have hname : (Chunk.ofArgument front (nameArgument copy.sink)).IsSound := by
    refine Chunk.isSound_ofArgument ?_ (isSound_nameArgument _)
    rw [← hfront]
    exact inCode_declarativeFront (isLines_options _ hsource.isPlainCode _ _)
  have hcomment : (Chunk.ofArgument "\n" (commentArgument copy.source copy.sink)).IsSound :=
    Chunk.isSound_ofArgument (by decide) (isSound_commentArgument _ _)
  have hmiddleCode : InCode middle.toList := by
    rw [← hmiddle]
    exact inCode_declarativeMiddle (IsName.append (by decide) hsink)
  refine ⟨_, [Chunk.ofArgument front (nameArgument copy.sink),
    Chunk.ofArgument "\n" (commentArgument copy.source copy.sink),
    ⟨middle.toList, reading.indented, written⟩],
    shiftLines true ('\n' :: mapping.toList) ++ ending.toList, hvalue, ?_, ?_, ?_⟩
  · rw [Chunk.script, Chunk.script, Chunk.script, Chunk.script, Chunk.before_ofArgument,
      Chunk.before_ofArgument]
    simp only [Chunk.before, Chunk.front, String.toList_append, hindent, List.append_assoc,
      List.cons_append]
  · rw [declarativeArguments, hreading]
    rfl
  · refine List.forall_mem_cons.mpr ⟨hname, List.forall_mem_cons.mpr ⟨hcomment, ?_⟩⟩
    exact List.forall_mem_singleton.mpr ⟨hmiddleCode, hread.indented, hshifted⟩

/-- **Arguments of notebooks.** Each argument that the built-in templates take from the datasets of a
copy stands at a place of its notebook. There is a literal of its text exactly if the text is verbatim:
if it has no quote, no line break and no zero character, and a backslash only before a character with
which no escape begins. The place is in code if the texts of the arguments before it are verbatim. -/
theorem notebook_arguments (secretScope : String) (copy : Copy) :
    (∃ script, (copyNotebook ⟨.builtIn, secretScope⟩ copy).value = .ok script ∧
      ArgumentsIn (copyArguments copy) script) ∧
    ∃ script, (declarativeNotebook ⟨.builtIn, secretScope⟩ copy).value = .ok script ∧
      ArgumentsIn (declarativeArguments copy) script := by
  have hlibrary : (⟨.builtIn, secretScope⟩ : Generator).library = .builtIn := rfl
  constructor
  · obtain ⟨script, chunks, last, hvalue, hscript, harguments, hsound⟩ :=
      exists_copyChunks hlibrary copy
    exact ⟨script, hvalue, harguments ▸ Chunk.argumentsIn hsound hscript⟩
  · obtain ⟨script, chunks, last, hvalue, hscript, harguments, hsound⟩ :=
      exists_declarativeChunks hlibrary copy
    exact ⟨script, hvalue, harguments ▸ Chunk.argumentsIn hsound hscript⟩

end Generator

end Script

/-! ## A quote in a path -/

/-- A copy of files from a folder with a quote in its name. -/
def quotedPath : Json := .obj [
  ("input_dataset_definitions", .arr [.obj [
    ("linked_service_definition", .obj [
      ("name", .str "lake"),
      ("properties", .obj [("url", .str keyless)])]),
    ("name", .str "orders"),
    ("properties", .obj [
      ("location", .obj [
        ("container", .str "raw"),
        ("file_name", .str "orders.parquet"),
        ("folder_path", .str "5\"")]),
      ("type", .str "Parquet")])]]),
  ("output_dataset_definitions", .arr [lakeFiles "archive" keyless]),
  ("sink", .obj [("type", .str "ParquetSink")]),
  ("source", .obj [("type", .str "ParquetSource")]),
  ("type", .str "Copy")]

/-- The literal of the address ends at the quote, and the rest of the path stands in code. -/
theorem quotedPath_misread :
    ∃ copy script, ∃ place : Script.Place, Copy.ofActivity false quotedPath = .ok ⟨.ok copy, []⟩ ∧
      (builtInGenerator.copyNotebook copy).value = .ok script ∧
      place.script = script.toList ∧ Script.InCode place.front ∧
      (Script.readArgument "orders" copy.source).opening.toList <:+ place.front ∧
      (Script.readArgument "orders" copy.source).text
        = "abfss://raw@lake01.dfs.core.windows.net/5\"/orders.parquet" ∧
      ∃ behind, Script.literal? place.quoted
        = some ("abfss://raw@lake01.dfs.core.windows.net/5".toList,
          "/orders.parquet".toList ++ behind) := by
  have hread : readWith quotedPath (fun copy => decide (
      (Script.Names.ofCopy copy).source = "orders" ∧
      (Script.readArgument "orders" copy.source).text
        = "abfss://raw@lake01.dfs.core.windows.net/5\"/orders.parquet")) = true := by
    decide +kernel
  obtain ⟨copy, hcopy, hcheck⟩ := exists_of_readWith hread
  obtain ⟨hname, htext⟩ := of_decide_eq_true hcheck
  have hlibrary : builtInGenerator.library = .builtIn := rfl
  obtain ⟨script, chunks, last, hvalue, hscript, harguments, hsound⟩ :=
    Script.Generator.exists_copyChunks hlibrary copy
  cases chunks with
  | nil => cases harguments
  | cons chunk chunks =>
    obtain ⟨hargument, -⟩ := List.cons.inj harguments
    rw [hname] at hargument
    have hchunk := hsound chunk List.mem_cons_self
    have hat := hchunk.isAt (Script.Chunk.script chunks last)
    rw [hargument] at hat
    refine ⟨copy, script, chunk.place (Script.Chunk.script chunks last), hcopy, hvalue, hscript.symm,
      hchunk.inCode_front, hat.opening, htext, '"' :: (chunk.argument.closing.toList
        ++ Script.Chunk.script chunks last), ?_⟩
    have hwritten : chunk.written = "abfss://raw@lake01.dfs.core.windows.net/5".toList
        ++ '"' :: "/orders.parquet".toList := by
      rw [hchunk.shifted.same (by rw [hargument, htext]; decide), hargument, htext]
      decide
    have hverbatim : Script.IsVerbatim "abfss://raw@lake01.dfs.core.windows.net/5".toList :=
      Script.isVerbatim_of_all (by decide)
    rw [Script.Place.quoted, Script.Chunk.place, hwritten, List.append_assoc, List.cons_append]
    exact hverbatim.literal? (by simp)

end FactoryMigration
