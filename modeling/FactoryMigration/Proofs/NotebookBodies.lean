import FactoryMigration.Proofs.ColumnReports
import FactoryMigration.Proofs.NotebookArguments

set_option autoImplicit false

/-! # Bodies of declarative notebooks

Both notebooks of a copy read and project in the same way. The one does so in lines of its own, the other
in the body of a function, which is these lines moved to the right. They come back as they were
(`Script.outdent_indent`) unless one is empty or ends in a carriage return, and this cannot happen if no
text that locates the source has a line feed (`Script.Generator.notebooks_agree`). -/

namespace FactoryMigration

/-- The texts that locate a dataset. -/
def Dataset.locationTexts : Dataset → List String
  | file dataset => [dataset.container, dataset.service.account, dataset.path]
  | delta dataset => dataset.catalog.toList ++ [dataset.database, dataset.table]
  | sql dataset => [dataset.schema, dataset.table]

namespace Text

theorem joinWith_cons {sep : String} {texts : List String} (h : texts ≠ []) (text : String) :
    joinWith sep (text :: texts) = text ++ sep ++ joinWith sep texts := by
  cases texts with
  | nil => exact absurd rfl h
  | cons next texts => rfl

theorem joinWith_append {sep : String} {first second : List String} (hfirst : first ≠ [])
    (hsecond : second ≠ []) :
    joinWith sep (first ++ second) = joinWith sep first ++ sep ++ joinWith sep second := by
  induction first with
  | nil => exact absurd rfl hfirst
  | cons text rest ih =>
    rw [List.cons_append]
    cases rest with
    | nil => exact joinWith_cons hsecond text
    | cons next rest =>
      rw [joinWith_cons (by simp), ih (List.cons_ne_nil _ _), joinWith_cons (List.cons_ne_nil _ _)]
      simp only [String.append_assoc]

/-- The last text of a list and the first one of another become one text. -/
theorem joinWith_concat_append (sep text : String) (first : List String) (last next : String)
    (second : List String) :
    joinWith sep (first ++ [last]) ++ text ++ joinWith sep (next :: second)
      = joinWith sep (first ++ (last ++ text ++ next) :: second) := by
  have hsecond : last ++ text ++ joinWith sep (next :: second)
      = joinWith sep ((last ++ text ++ next) :: second) := by
    cases second with
    | nil => rfl
    | cons line second => simp only [joinWith, String.append_assoc]
  by_cases hfirst : first = []
  · subst hfirst
    exact hsecond
  · rw [joinWith_append hfirst (List.cons_ne_nil _ _), joinWith_append hfirst (List.cons_ne_nil _ _),
      ← hsecond]
    simp only [joinWith, String.append_assoc]

theorem dropReturn_eq_self {line : List Char} (h : line.getLast? ≠ some '\r') :
    dropReturn line = line := by
  unfold dropReturn
  split
  · rename_i kept hreverse
    have hline : line = kept.reverse ++ ['\r'] := by
      rw [← List.reverse_reverse line, hreverse, List.reverse_cons]
    exact absurd (by rw [hline, List.getLast?_concat]) h
  · rfl

end Text

namespace Script

/-! ## Blocks and back -/

/-- The block without the first four characters of each line. -/
def outdent (block : String) : String :=
  Text.joinWith "\n" ((Text.segments '\n' block.toList).map fun line => String.ofList (line.drop 4))

/-- Each line of the block begins with four blanks. -/
def IsIndented (block : String) : Prop :=
  ∀ line ∈ Text.segments '\n' block.toList, "    ".toList <+: line

/-- A line that is moved to the right as it is. -/
structure IsKept (line : String) : Prop where
  nonempty : line.toList ≠ []
  feed : '\n' ∉ line.toList
  last : line.toList.getLast? ≠ some '\r'

theorem IsOneLine.isKept {line : String} (h : IsOneLine line) : IsKept line where
  nonempty := h.1
  feed hmem := (h.2 _ hmem).1 rfl
  last hlast := (h.2 _ (List.mem_of_getLast? hlast)).2 rfl

/-- What stands at the end of a line decides whether it is kept. -/
theorem IsKept.append {front line : String} (hfront : '\n' ∉ front.toList) (h : IsKept line) :
    IsKept (front ++ line) := by
  have hlast := List.getLast?_eq_some_getLast h.nonempty
  constructor
  · rw [String.toList_append]
    exact List.append_ne_nil_of_right_ne_nil _ h.nonempty
  · rw [String.toList_append, List.mem_append, not_or]
    exact ⟨hfront, h.feed⟩
  · rw [String.toList_append, List.getLast?_append, hlast, Option.some_or, ← hlast]
    exact h.last

section

variable {lines : List String}

theorem lines_joinWith (hne : lines ≠ []) (h : ∀ line ∈ lines, IsKept line) :
    Text.lines (Text.joinWith "\n" lines).toList = lines.map String.toList := by
  induction lines with
  | nil => exact absurd rfl hne
  | cons line rest ih =>
    obtain ⟨hline, hrest⟩ := List.forall_mem_cons.mp h
    cases rest with
    | nil => exact Text.lines_of_not_mem hline.nonempty hline.feed
    | cons next rest =>
      have htext : (Text.joinWith "\n" (line :: next :: rest)).toList
          = line.toList ++ '\n' :: (Text.joinWith "\n" (next :: rest)).toList := by
        simp [Text.joinWith]
      rw [htext, Text.lines_append hline.feed, Text.dropReturn_eq_self hline.last,
        ih (List.cons_ne_nil _ _) hrest]
      rfl

theorem indent_joinWith (hne : lines ≠ []) (h : ∀ line ∈ lines, IsKept line) :
    indent (Text.joinWith "\n" lines) = Text.joinWith "\n" (lines.map ("    " ++ ·)) := by
  rw [indent, lines_joinWith hne h, List.map_map]
  refine congrArg (Text.joinWith "\n") (List.map_congr_left fun line hline => ?_)
  rw [Function.comp_apply, if_neg (h line hline).nonempty, String.ofList_toList]

theorem segments_joinWith (hne : lines ≠ []) (h : ∀ line ∈ lines, '\n' ∉ line.toList) :
    Text.segments '\n' (Text.joinWith "\n" lines).toList = lines.map String.toList := by
  have hjoin : (Text.joinWith "\n" lines).toList = Text.join ['\n'] (lines.map String.toList) :=
    Text.toList_joinWith "\n" lines
  rw [hjoin, Text.segments_join (mt List.map_eq_nil_iff.mp hne)]
  rintro _ hmem
  obtain ⟨line, hline, rfl⟩ := List.mem_map.mp hmem
  exact h line hline

/-- **Blocks.** Lines that are kept are indented in a block, and come back when it is undone. -/
theorem outdent_indent (hne : lines ≠ []) (h : ∀ line ∈ lines, IsKept line) :
    outdent (indent (Text.joinWith "\n" lines)) = Text.joinWith "\n" lines ∧
      IsIndented (indent (Text.joinWith "\n" lines)) := by
  have hsegments : Text.segments '\n' (indent (Text.joinWith "\n" lines)).toList
      = lines.map fun line => "    ".toList ++ line.toList := by
    rw [indent_joinWith hne h, segments_joinWith (mt List.map_eq_nil_iff.mp hne), List.map_map]
    · exact List.map_congr_left fun line _ => String.toList_append
    · rintro _ hmem
      obtain ⟨line, hline, rfl⟩ := List.mem_map.mp hmem
      exact ((h line hline).append (by decide)).feed
  constructor
  · have hback (line : String) : String.ofList (("    ".toList ++ line.toList).drop 4) = line :=
      String.ofList_toList
    rw [outdent, hsegments, List.map_map]
    refine congrArg (Text.joinWith "\n") ?_
    exact (List.map_congr_left fun line _ => hback line).trans (List.map_id _)
  · rw [IsIndented, hsegments]
    rintro _ hmem
    obtain ⟨line, -, rfl⟩ := List.mem_map.mp hmem
    exact List.prefix_append _ _

end

/-! ## The lines of both parts -/

/-- The lines of an expression with its argument. -/
def Argument.codeLines (argument : Argument) : List String :=
  argument.before
    ++ (argument.call ++ ("\"" ++ argument.text ++ "\"") ++ argument.rest) :: argument.behind

theorem Argument.joinWith_codeLines (argument : Argument) :
    Text.joinWith "\n" argument.codeLines = argument.code := by
  rw [codeLines, ← Text.joinWith_concat_append, code, opening, closing]
  simp only [String.append_assoc]

theorem Argument.IsSound.isKept {argument : Argument} (h : argument.IsSound)
    (htext : '\n' ∉ argument.text.toList) : ∀ line ∈ argument.codeLines, IsKept line := by
  have hlines := h.lines
  simp only [Argument.lines, List.forall_mem_append, List.forall_mem_cons] at hlines
  obtain ⟨⟨hbefore, hcall, -⟩, hrest, hbehind⟩ := hlines
  have hfront : '\n' ∉ (argument.call ++ ("\"" ++ argument.text ++ "\"")).toList := by
    simp [hcall.2.isKept.feed, htext]
  refine List.forall_mem_append.mpr ⟨fun line hline => (hbefore line hline).2.isKept, ?_⟩
  refine List.forall_mem_cons.mpr ⟨hrest.2.isKept.append hfront, ?_⟩
  exact fun line hline => (hbehind line hline).2.isKept

theorem lineFeed_not_mem_readArgument {dataset : Dataset}
    (h : ∀ text ∈ dataset.locationTexts, '\n' ∉ text.toList) (name : String) :
    '\n' ∉ (readArgument name dataset).text.toList := by
  cases dataset with
  | file dataset =>
    simp only [Dataset.locationTexts, List.forall_mem_cons] at h
    simp [readArgument, address, h]
  | delta dataset =>
    simp only [Dataset.locationTexts, List.forall_mem_append, List.forall_mem_cons] at h
    cases hcatalog : dataset.catalog with
    | none => simp [readArgument, DeltaTable.qualifiedName, hcatalog, h]
    | some catalog => simp_all [readArgument, DeltaTable.qualifiedName]
  | sql dataset =>
    simp only [Dataset.locationTexts, List.forall_mem_cons] at h
    simp [readArgument, SqlTable.qualifiedName, h]

/-- The lines of a selection: each expression has one of its own. -/
def Names.selectionLines (names : Names) (expressions : List String) : List String :=
  let assign := names.sink ++ "_df = " ++ names.source ++ "_df"
  match expressions with
  | [] => [assign]
  | expressions =>
    (assign ++ ".selectExpr(")
      :: (expressions.map (fun text => "    " ++ Text.quoted text ++ ",") ++ [")"])

theorem Names.selectionLines_ne_nil (names : Names) (expressions : List String) :
    names.selectionLines expressions ≠ [] := by
  cases expressions <;> exact List.cons_ne_nil _ _

/-- Texts in lines of their own, with a comma behind each. -/
theorem joinWith_items (first : String) (rest : List String) :
    "    " ++ Text.joinWith ",\n    " ((first :: rest).map Text.quoted) ++ ",\n)"
      = Text.joinWith "\n"
          ((first :: rest).map (fun text => "    " ++ Text.quoted text ++ ",") ++ [")"]) := by
  induction rest generalizing first with
  | nil =>
    have hend : (",\n)" : String) = "," ++ "\n" ++ ")" := by decide
    rw [hend]
    simp only [List.map_cons, List.map_nil, List.cons_append, List.nil_append, Text.joinWith,
      String.append_assoc]
  | cons next rest ih =>
    have hsep : (",\n    " : String) = "," ++ "\n" ++ "    " := by decide
    simp only [List.map_cons, List.cons_append] at ih ⊢
    rw [Text.joinWith_cons (List.cons_ne_nil _ _), Text.joinWith_cons (List.cons_ne_nil _ _), ← ih]
    simp only [hsep, String.append_assoc]

theorem Names.joinWith_selectionLines (names : Names) (expressions : List String) :
    Text.joinWith "\n" (names.selectionLines expressions) = names.selection expressions := by
  cases expressions with
  | nil => rfl
  | cons first rest =>
    have hopen : (".selectExpr(\n    " : String) = ".selectExpr(" ++ "\n" ++ "    " := by decide
    unfold selectionLines selection
    rw [Text.joinWith_cons (by simp), ← joinWith_items]
    simp only [hopen, String.append_assoc]

theorem Names.isKept_selectionLines {names : Names} (hsource : IsName names.source)
    (hsink : IsName names.sink) (expressions : List String) :
    ∀ line ∈ names.selectionLines expressions, IsKept line := by
  have hframes : '\n' ∉ (names.sink ++ "_df = " ++ names.source).toList := by
    have hsource : '\n' ∉ names.source.toList := hsource.not_mem (by decide)
    have hsink : '\n' ∉ names.sink.toList := hsink.not_mem (by decide)
    simp [hsource, hsink]
  have hassign : IsKept (names.sink ++ "_df = " ++ names.source ++ "_df") :=
    IsKept.append hframes (IsOneLine.isKept (by decide))
  cases expressions with
  | nil => exact List.forall_mem_singleton.mpr hassign
  | cons first rest =>
    have hopen : IsKept (names.sink ++ "_df = " ++ names.source ++ "_df" ++ ".selectExpr(") :=
      IsKept.append hassign.feed (IsOneLine.isKept (by decide))
    have hitem (text : String) : IsKept ("    " ++ Text.quoted text ++ ",") := by
      have hquoted : '\n' ∉ ("    " ++ Text.quoted text).toList := by
        simp [Text.toList_quoted, Text.quote, Text.lineFeed_not_mem_escape]
      exact IsKept.append hquoted (IsOneLine.isKept (by decide))
    refine List.forall_mem_cons.mpr ⟨hopen, List.forall_mem_append.mpr ⟨?_, ?_⟩⟩
    · exact List.forall_mem_map.mpr fun text _ => hitem text
    · exact List.forall_mem_singleton.mpr (IsOneLine.isKept (by decide))

/-! ## Notebooks -/

namespace Generator

/-- The notebooks of a copy agree: both are made, with the same notes, and set the same options of the
source. Without the blanks in front of each line, the body of the function in the declarative notebook
is what the other one reads and projects. -/
structure Agree (generator : Generator) (copy : Copy) (read body : String) : Prop where
  reads : readExpression generator.library (Names.ofCopy copy).source copy.source = .ok read
  copies : ∃ sinkOptions write, (generator.copyNotebook copy).value = .ok (copyScript
    (generator.options (Names.ofCopy copy).source copy.source copy.sourceSide) sinkOptions read
    (projection (Names.ofCopy copy) copy.sink.format copy.columns).value write)
  declares : (generator.declarativeNotebook copy).value = .ok (declarativeScript copy.source copy.sink
    (generator.options (Names.ofCopy copy).source copy.source copy.sourceSide)
    ("load_" ++ (Names.ofCopy copy).sink) body ((Names.ofCopy copy).sink ++ "_df"))
  notes : (generator.copyNotebook copy).notes = (generator.declarativeNotebook copy).notes
  outdents : outdent body
    = read ++ "\n" ++ (projection (Names.ofCopy copy) copy.sink.format copy.columns).value
  indented : IsIndented body

/-- **Strategies.** With the built-in templates the notebooks of every copy agree, unless a text that
locates its source has a line feed. -/
theorem notebooks_agree (secretScope : String) {copy : Copy}
    (h : ∀ text ∈ copy.source.locationTexts, '\n' ∉ text.toList) :
    ∃ read body, Agree ⟨.builtIn, secretScope⟩ copy read body := by
  have hlibrary : (⟨.builtIn, secretScope⟩ : Generator).library = .builtIn := rfl
  obtain ⟨hsource, hsink⟩ := Names.isName_ofCopy copy
  obtain ⟨write, hwrite⟩ := exists_writeExpression_builtIn (Names.ofCopy copy).sink copy.sink
  have hread := readExpression_builtIn (Names.ofCopy copy).source copy.source
  have hcopies := value_copyNotebook hlibrary hwrite
  have hdeclares := value_declarativeNotebook hlibrary copy
  have hargument := (isSound_readArgument hsource copy.source).isKept
    (lineFeed_not_mem_readArgument h _)
  generalize readArgument (Names.ofCopy copy).source copy.source = argument at *
  have hselection := Names.isKept_selectionLines hsource hsink
    (copy.columns.map fun column => (projectColumn copy.sink.format column).value)
  -- The lines of both parts are those of the body.
  have hbody : argument.code ++ "\n"
      ++ (projection (Names.ofCopy copy) copy.sink.format copy.columns).value
      = Text.joinWith "\n" (argument.codeLines ++ (Names.ofCopy copy).selectionLines
          (copy.columns.map fun column => (projectColumn copy.sink.format column).value)) := by
    rw [Text.joinWith_append (by simp [Argument.codeLines]) (Names.selectionLines_ne_nil _ _),
      argument.joinWith_codeLines, Names.joinWith_selectionLines, value_projection]
  obtain ⟨hback, hindented⟩ := outdent_indent
    (List.append_ne_nil_of_right_ne_nil _ (Names.selectionLines_ne_nil _ _))
    (List.forall_mem_append.mpr ⟨hargument, hselection⟩)
  rw [← hbody] at hback hindented
  have hnotes := (rendered_copyNotebook hcopies).1.trans (rendered_declarativeNotebook hdeclares).1.symm
  exact ⟨argument.code, _, hread, ⟨_, write, hcopies⟩, hdeclares, hnotes, hback, hindented⟩

end Generator

/-! ## A file and two columns -/

/-- A copy of two columns of a file into a table of a server. -/
def filesToServer : Copy where
  source := .file ⟨"orders", .parquet, "raw", "2024/orders.parquet", [],
    ⟨"lake", "lake01", "https://lake01.blob.core.windows.net/", none⟩⟩
  sink := .sql ⟨"sales", "dbo", "orders", ⟨"server", none, none, none, none⟩⟩
  sourceSide := ⟨.file .parquet, []⟩
  sinkSide := ⟨.sqlServer, []⟩
  columns := [⟨"id", "id", some "Int64"⟩, ⟨"shape", "area", some "Geometry"⟩]

/-- The body of the function without the blanks in front of its lines: the second column is not cast. -/
theorem filesToServer_agree :
    ∃ read body, Generator.Agree ⟨.builtIn, "credentials"⟩ filesToServer read body ∧
      outdent body = "orders_df = (\n    spark.read.format(\"parquet\")\n"
        ++ "    .options(**orders_options)\n"
        ++ "    .load(\"abfss://raw@lake01.dfs.core.windows.net/2024/orders.parquet\")\n)\n"
        ++ "sales_df = orders_df.selectExpr(\n    \"cast(`id` as long) as `id`\",\n"
        ++ "    \"`shape` as `area`\",\n)" := by
  have hlocation : ∀ text ∈ filesToServer.source.locationTexts, '\n' ∉ text.toList := by decide
  obtain ⟨read, body, hagree⟩ := Generator.notebooks_agree "credentials" hlocation
  have hread : read = (readArgument "orders" filesToServer.source).code :=
    Except.ok.inj (hagree.reads.symm.trans (readExpression_builtIn _ _))
  refine ⟨read, body, hagree, ?_⟩
  rw [hagree.outdents, hread]
  decide +kernel

end Script

end FactoryMigration
