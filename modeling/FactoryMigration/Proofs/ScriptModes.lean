import FactoryMigration.Proofs.ScriptLiterals
import FactoryMigration.Proofs.SecretLookups

set_option autoImplicit false

/-! # Code and literals of scripts

`Script.Mode` follows a script from its start and tells code from comments and literals. The option
block of a side and the projection of a copy are complete lines of code
(`Script.isLines_options`, `Script.isLines_projection`): every text that they take over is quoted. -/

namespace FactoryMigration.Script

/-! ## Code, comments and literals -/

/-- Where a script stands: in code, in a comment or in a literal. It is lost where this distinction
does not follow it: in a literal of another kind, or in one that does not end on its line. -/
inductive Mode where
  | code
  | comment
  /-- Behind the opening quote. -/
  | opened
  /-- Behind a second quote that follows the opening one. -/
  | emptied
  | literal
  /-- Behind a backslash in a literal. -/
  | escaped
  | lost
deriving DecidableEq

namespace Mode

def ofCode (c : Char) : Mode :=
  if c = '"' then opened
  else if c = '#' then comment
  else if c = '\'' ∨ c = '\x00' then lost
  else code

def ofLiteral (c : Char) : Mode :=
  if c = '\\' then escaped
  else if c = '\n' ∨ c = '\r' ∨ c = '\x00' then lost
  else literal

/-- The mode behind one more character. -/
def next (mode : Mode) (c : Char) : Mode :=
  match mode with
  | code => ofCode c
  | comment => if c = '\n' ∨ c = '\r' then code else if c = '\x00' then lost else comment
  | opened => if c = '"' then emptied else ofLiteral c
  | emptied => if c = '"' then lost else ofCode c
  | literal => if c = '"' then code else ofLiteral c
  | escaped => if c = '\x00' then lost else literal
  | lost => lost

/-- The mode behind a text. -/
def after (mode : Mode) (text : List Char) : Mode :=
  text.foldl next mode

variable {mode : Mode}

@[simp]
theorem after_cons (c : Char) (text : List Char) : mode.after (c :: text) = (mode.next c).after text :=
  rfl

theorem after_append (first second : List Char) :
    mode.after (first ++ second) = (mode.after first).after second :=
  List.foldl_append

/-- Text without quotes, comments and zero characters. -/
def IsPlainCode (text : List Char) : Prop :=
  ∀ c ∈ text, c ∉ ['"', '\'', '#', '\x00']

instance (text : List Char) : Decidable (IsPlainCode text) :=
  List.decidableBAll (· ∉ ['"', '\'', '#', '\x00']) text

theorem IsPlainCode.append {first second : List Char} (hfirst : IsPlainCode first)
    (hsecond : IsPlainCode second) : IsPlainCode (first ++ second) :=
  List.forall_mem_append.mpr ⟨hfirst, hsecond⟩

theorem IsPlainCode.after {text : List Char} (h : IsPlainCode text) : code.after text = code := by
  induction text with
  | nil => rfl
  | cons c text ih =>
    obtain ⟨hc, htext⟩ := List.forall_mem_cons.mp h
    simp only [List.mem_cons, List.not_mem_nil, or_false, not_or] at hc
    have hnext : code.next c = code := by simp [next, ofCode, hc]
    rw [after_cons, hnext, ih htext]

/-- Behind the opening quote of a literal, and not behind a backslash. -/
def IsInside (mode : Mode) : Prop :=
  mode = opened ∨ mode = literal

/-- The text does not lead out of a literal. -/
def StaysInside (text : List Char) : Prop :=
  ∀ mode : Mode, mode.IsInside → (mode.after text).IsInside

namespace StaysInside

theorem nil : StaysInside [] := fun _ hmode => hmode

theorem append {first second : List Char} (hfirst : StaysInside first)
    (hsecond : StaysInside second) : StaysInside (first ++ second) := by
  intro mode hmode
  rw [after_append]
  exact hsecond _ (hfirst _ hmode)

theorem cons {c : Char} {text : List Char} (hc : c ∉ ['"', '\\', '\n', '\r', '\x00'])
    (h : StaysInside text) : StaysInside (c :: text) := by
  simp only [List.mem_cons, List.not_mem_nil, or_false, not_or] at hc
  rintro mode (rfl | rfl)
  · exact h _ (.inr (by simp [next, ofLiteral, hc]))
  · exact h _ (.inr (by simp [next, ofLiteral, hc]))

theorem backslash {c : Char} {text : List Char} (hc : c ≠ '\x00') (h : StaysInside text) :
    StaysInside ('\\' :: c :: text) := by
  rintro mode (rfl | rfl)
  · exact h _ (.inr (by simp [next, ofLiteral, hc]))
  · exact h _ (.inr (by simp [next, ofLiteral, hc]))

theorem hexDigit {n : Nat} (hn : n < 16) {text : List Char} (h : StaysInside text) :
    StaysInside (Text.hexDigit n :: text) := by
  have hdigits : ∀ n < 16, Text.hexDigit n ∉ ['"', '\\', '\n', '\r', '\x00'] := by decide
  exact h.cons (hdigits n hn)

end StaysInside

theorem staysInside_escapeChar (c : Char) : StaysInside (Text.escapeChar c) := by
  rcases Text.escapeChar_forms c with ⟨⟨hquote, hbackslash, hcontrol⟩, hself⟩ |
    ⟨-, ⟨letter, hletter, hescaped⟩ | ⟨hcontrol, hescaped⟩⟩
  · rw [hself]
    refine StaysInside.nil.cons fun hmem => ?_
    simp only [List.mem_cons, List.not_mem_nil, or_false] at hmem
    rcases hmem with rfl | rfl | rfl | rfl | rfl
    · exact hquote rfl
    · exact hbackslash rfl
    all_goals exact absurd hcontrol (by decide)
  · rw [hescaped]
    refine StaysInside.nil.backslash ?_
    rintro rfl
    cases hletter
  · rw [hescaped]
    have hdigits : StaysInside (Text.hex4 c.toNat) :=
      ((((StaysInside.nil.hexDigit (Nat.mod_lt _ (by decide))).hexDigit
        (Nat.mod_lt _ (by decide))).hexDigit (Nat.mod_lt _ (by decide))).hexDigit
        (Nat.mod_lt _ (by decide)))
    exact hdigits.backslash (by decide)

theorem staysInside_escape (cs : List Char) : StaysInside (Text.escape cs) := by
  induction cs with
  | nil => exact .nil
  | cons c cs ih => exact (staysInside_escapeChar c).append ih

theorem staysInside_of_isVerbatim {text : List Char} (h : IsVerbatim text) : StaysInside text := by
  induction h with
  | nil => exact .nil
  | cons hc _ ih => exact ih.cons hc
  | backslash hc _ ih =>
    refine ih.backslash ?_
    rintro rfl
    cases hc

/-- Behind a literal that is closed, and that no further quote follows, there is code again. -/
theorem StaysInside.after_quotes {text : List Char} (h : StaysInside text) {c : Char} (hc : c ≠ '"')
    (rest : List Char) :
    code.after ('"' :: (text ++ '"' :: c :: rest)) = code.after (c :: rest) := by
  have hopened : code.next '"' = opened := rfl
  rw [after_cons, hopened, after_append]
  rcases h opened (.inl rfl) with hend | hend
  · have hnext : (opened.next '"').next c = code.next c := by simp [next, hc]
    rw [hend, after_cons, after_cons, hnext, ← after_cons]
  · rw [hend, after_cons]
    rfl

end Mode

/-- The text is a row of complete code, comments and literals. -/
def InCode (text : List Char) : Prop :=
  Mode.code.after text = .code

instance (text : List Char) : Decidable (InCode text) :=
  inferInstanceAs (Decidable (_ = _))

theorem InCode.append {first second : List Char} (hfirst : InCode first) (hsecond : InCode second) :
    InCode (first ++ second) := by
  unfold InCode at hfirst hsecond ⊢
  rw [Mode.after_append, hfirst, hsecond]

/-! ## Statements -/

open Mode (IsPlainCode)

/-- Plain code, and some of it, so that it keeps two literals apart. -/
def IsJoint (code : List Char) : Prop :=
  IsPlainCode code ∧ code ≠ []

instance (code : List Char) : Decidable (IsJoint code) :=
  inferInstanceAs (Decidable (_ ∧ _))

theorem IsJoint.exists_cons {code : List Char} (h : IsJoint code) :
    ∃ c rest, code = c :: rest ∧ c ≠ '"' := by
  obtain ⟨c, rest, rfl⟩ := List.exists_cons_of_ne_nil h.2
  have hc := h.1 c List.mem_cons_self
  exact ⟨c, rest, rfl, fun hquote => hc (by simp [hquote])⟩

theorem exists_cons_statement {parts : List Part} {last : List Char}
    (hparts : ∀ code ∈ parts.map Part.code, IsJoint code) (hlast : IsJoint last) :
    ∃ c rest, statement parts last = c :: rest ∧ c ≠ '"' := by
  cases parts with
  | nil => exact hlast.exists_cons
  | cons part rest =>
    obtain ⟨c, code, hcode, hc⟩ := (hparts part.code List.mem_cons_self).exists_cons
    exact ⟨c, _, by rw [statement, hcode]; rfl, hc⟩

/-- Statements with nothing but quoted literals are complete. -/
theorem inCode_statement {parts : List Part} {last : List Char}
    (hparts : ∀ code ∈ parts.map Part.code, IsJoint code) (hlast : IsJoint last) :
    InCode (statement parts last) := by
  induction parts with
  | nil => exact hlast.1.after
  | cons part rest ih =>
    obtain ⟨hpart, hrest⟩ := List.forall_mem_cons.mp hparts
    obtain ⟨c, behind, hbehind, hc⟩ := exists_cons_statement hrest hlast
    have hquoted : Text.quote part.literal ++ statement rest last
        = '"' :: (Text.escape part.literal ++ '"' :: c :: behind) := by
      simp [hbehind, Text.quote]
    unfold InCode at ih ⊢
    rw [statement, List.append_assoc, Mode.after_append, hpart.1.after, hquoted,
      (Mode.staysInside_escape part.literal).after_quotes hc, ← hbehind]
    exact ih hrest

theorem statement_append (parts : List Part) (last behind : List Char) :
    statement parts (last ++ behind) = statement parts last ++ behind := by
  induction parts with
  | nil => rfl
  | cons part rest ih => simp only [statement, ih, List.append_assoc]

/-- Lines that are complete once the last of them has ended. -/
def IsLines (text : String) : Prop :=
  InCode (text.toList ++ ['\n'])

instance (text : String) : Decidable (IsLines text) :=
  inferInstanceAs (Decidable (InCode _))

/-- The text is plain code with these literals quoted in it, each two of them apart. -/
def Quotes (text : String) (literals : List String) : Prop :=
  ∃ parts last, text.toList = statement parts last ∧ (∀ code ∈ parts.map Part.code, IsJoint code) ∧
    IsPlainCode last ∧ parts.map Part.literal = literals.map String.toList

theorem Quotes.isLines {text : String} {literals : List String} (h : Quotes text literals) :
    IsLines text := by
  obtain ⟨parts, last, htext, hparts, hlast, -⟩ := h
  rw [IsLines, htext, ← statement_append]
  exact inCode_statement hparts ⟨hlast.append (by decide), by simp⟩

theorem isLines_joinWith {lines : List String} (h : ∀ line ∈ lines, IsLines line) :
    IsLines (Text.joinWith "\n" lines) := by
  induction lines with
  | nil => exact (by decide : InCode ['\n'])
  | cons line rest ih =>
    obtain ⟨hline, hrest⟩ := List.forall_mem_cons.mp h
    cases rest with
    | nil => exact hline
    | cons next rest =>
      have hjoin : (Text.joinWith "\n" (line :: next :: rest)).toList ++ ['\n']
          = (line.toList ++ ['\n']) ++ ((Text.joinWith "\n" (next :: rest)).toList ++ ['\n']) := by
        simp [Text.joinWith]
      rw [IsLines, hjoin]
      exact hline.append (ih hrest)

/-! ## Names -/

theorem IsName.isPlainCode {name : String} (h : IsName name) : IsPlainCode name.toList := by
  intro c hc hmem
  simp only [List.mem_cons, List.not_mem_nil, or_false] at hmem
  rcases hmem with rfl | rfl | rfl | rfl
  all_goals exact h.not_mem (by decide) hc

/-! ## Option blocks -/

section

variable {name option : String}

theorem isJoint_optionCode (hname : IsPlainCode name.toList) : IsJoint (optionCode name) :=
  ⟨hname.append (by decide), by simp [optionCode]⟩

theorem quotes_noOptions (hname : IsPlainCode name.toList) : Quotes (noOptions name) [] := by
  refine ⟨[], name.toList ++ "_options = \x7b\x7d".toList, ?_, by simp,
    hname.append (by decide), rfl⟩
  rw [noOptions, String.toList_append, statement]

theorem quotes_setOption (hname : IsPlainCode name.toList) (hoption : Plain option)
    (value : String) : Quotes (setOption name option (Text.quoted value)) [option, value] := by
  refine ⟨[⟨optionCode name, option.toList⟩, ⟨"] = ".toList, value.toList⟩], [], ?_, ?_,
    by decide, rfl⟩
  · rw [toList_setOption hoption, Text.toList_quoted]
    simp only [statement, List.append_assoc, List.append_nil]
  · simp only [List.map_cons, List.map_nil, List.forall_mem_cons, List.not_mem_nil,
      IsEmpty.forall_iff, implies_true, and_true]
    exact ⟨isJoint_optionCode hname, by decide⟩

theorem quotes_connection (hname : IsPlainCode name.toList) (hoption : Plain option)
    (scope key : String) :
    Quotes (setOption name option (secretLookup scope key)) [option, scope, key] := by
  refine ⟨[⟨optionCode name, option.toList⟩, ⟨"] = ".toList ++ lookupOpening, scope.toList⟩,
    ⟨keyArgument, key.toList⟩], [')'], ?_, ?_, by decide, rfl⟩
  · rw [toList_setOption hoption, toList_secretLookup]
    simp only [statement, Text.quote, List.append_assoc, List.cons_append, List.nil_append]
  · simp only [List.map_cons, List.map_nil, List.forall_mem_cons, List.not_mem_nil,
      IsEmpty.forall_iff, implies_true, and_true]
    exact ⟨isJoint_optionCode hname, by decide, by decide⟩

theorem quotes_recordLimit (records : Json) :
    Quotes (recordLimit records) ["spark.sql.files.maxRecordsPerFile", records.scalarText] := by
  refine ⟨_, _, toList_recordLimit records, ?_, by decide, rfl⟩
  simp only [List.map_cons, List.map_nil]
  decide

theorem quotes_serverAddress (hname : IsPlainCode name.toList) :
    Quotes (serverAddress name)
      ["url", "jdbc:sqlserver://", "host", ";databaseName=", "database"] := by
  have hfirst := isJoint_optionCode hname
  have hlater : IsJoint (" + ".toList ++ optionCode name) :=
    ⟨IsPlainCode.append (by decide) hfirst.1, List.append_ne_nil_of_right_ne_nil _ hfirst.2⟩
  refine ⟨_, _, toList_serverAddress name, ?_, by decide, rfl⟩
  simp only [List.map_cons, List.map_nil, List.forall_mem_cons, List.not_mem_nil, IsEmpty.forall_iff,
    implies_true, and_true]
  exact ⟨hfirst, by decide, hlater, by decide, hlater⟩

theorem quotes_accountAccess (scope : String) (service : StorageService) :
    Quotes (accountAccess scope service)
      ["fs.azure.account.key." ++ service.account ++ ".dfs.core.windows.net", scope,
        Secret.keyOf service.name "storage_account_key"] := by
  refine ⟨[⟨"spark.conf.set(".toList,
        ("fs.azure.account.key." ++ service.account ++ ".dfs.core.windows.net").toList⟩,
      ⟨", ".toList ++ lookupOpening, scope.toList⟩,
      ⟨keyArgument, (Secret.keyOf service.name "storage_account_key").toList⟩], "))".toList,
    ?_, ?_, by decide, rfl⟩
  · have hend : (")" : String).toList = [')'] := by decide
    have hclose : ("))" : String).toList = [')', ')'] := by decide
    simp only [toList_accountAccess, toList_secretLookup, statement, Text.quote, hend, hclose,
      List.append_assoc, List.cons_append, List.nil_append]
  · simp only [List.map_cons, List.map_nil]
    decide

/-- The statements of option blocks, and the texts of their literals in order. -/
inductive SetsUp (scope name : String) : String → List String → Prop where
  | nothing : SetsUp scope name (noOptions name) []
  | value {option : String} (hoption : Plain option) (value : String) :
      SetsUp scope name (setOption name option (Text.quoted value)) [option, value]
  | secret {option : String} (hoption : Plain option) (key : String) :
      SetsUp scope name (setOption name option (secretLookup scope key)) [option, scope, key]
  | address : SetsUp scope name (serverAddress name)
      ["url", "jdbc:sqlserver://", "host", ";databaseName=", "database"]
  | limit (records : Json) : SetsUp scope name (recordLimit records)
      ["spark.sql.files.maxRecordsPerFile", records.scalarText]
  | access (service : StorageService) : SetsUp scope name (accountAccess scope service)
      ["fs.azure.account.key." ++ service.account ++ ".dfs.core.windows.net", scope,
        Secret.keyOf service.name "storage_account_key"]

theorem exists_setsUp_of_mem {scope line : String} {dataset : Dataset} {side : Side}
    (h : line ∈ optionBlock scope name dataset side) : ∃ texts, SetsUp scope name line texts := by
  cases dataset with
  | delta table => cases h
  | file file =>
    simp only [optionBlock, fileBlock, List.cons_append, List.mem_cons, List.mem_append,
      List.mem_filterMap, Option.mem_toList, Option.map_eq_some_iff, List.not_mem_nil,
      or_false] at h
    rcases h with rfl | (⟨option, hoption, hset⟩ | ⟨records, -, rfl⟩) | rfl
    · exact ⟨_, .nothing⟩
    · obtain ⟨value, -, rfl⟩ := Option.map_eq_some_iff.mp hset
      exact ⟨_, .value (plain_optionNames (.file file.format) option hoption) value⟩
    · exact ⟨_, .limit records⟩
    · exact ⟨_, .access file.service⟩
  | sql table =>
    simp only [optionBlock, sqlBlock, List.cons_append, List.mem_cons, List.mem_append, List.mem_map,
      List.mem_filterMap, Option.map_eq_some_iff, List.not_mem_nil, or_false] at h
    rcases h with rfl | ((⟨secret, hsecret, rfl⟩ | rfl) | ⟨option, hoption, value, -, rfl⟩) |
      ⟨renamed, hrenamed, value, -, rfl⟩
    · exact ⟨_, .nothing⟩
    · exact ⟨_, .secret (plain_connectionSecrets secret hsecret) _⟩
    · exact ⟨_, .address⟩
    · exact ⟨_, .value (plain_optionNames .sqlServer option hoption) value⟩
    · exact ⟨_, .value (plain_renamedOptions renamed hrenamed) value.scalarText⟩

theorem SetsUp.quotes {scope line : String} {texts : List String}
    (h : SetsUp scope name line texts) (hname : IsPlainCode name.toList) : Quotes line texts := by
  cases h with
  | nothing => exact quotes_noOptions hname
  | value hoption value => exact quotes_setOption hname hoption value
  | secret hoption key => exact quotes_connection hname hoption scope key
  | address => exact quotes_serverAddress hname
  | limit records => exact quotes_recordLimit records
  | access service => exact quotes_accountAccess scope service

/-- **Option blocks.** The option block of a side is complete lines of code. -/
theorem isLines_options (generator : Generator) (hname : IsPlainCode name.toList)
    (dataset : Dataset) (side : Side) : IsLines (generator.options name dataset side) := by
  refine isLines_joinWith fun line hline => ?_
  obtain ⟨texts, hline⟩ := exists_setsUp_of_mem hline
  exact (hline.quotes hname).isLines

end

/-! ## Projections -/

/-- Quoted texts in a row are a literal and then parts. -/
theorem toList_joinWith_quoted (sep first : String) (rest : List String) (last : List Char) :
    (Text.joinWith sep ((first :: rest).map Text.quoted)).toList ++ last
      = Text.quote first.toList
        ++ statement (rest.map fun text => ⟨sep.toList, text.toList⟩) last := by
  induction rest generalizing first with
  | nil => rw [List.map_singleton, Text.joinWith, Text.toList_quoted, List.map_nil, statement]
  | cons next rest ih =>
    simp only [List.map_cons] at ih
    simp only [List.map_cons, Text.joinWith, String.toList_append, Text.toList_quoted, statement,
      List.append_assoc, ih]

/-- The expressions of the columns are the literals of a projection. -/
theorem quotes_projection {names : Names} (hsource : IsPlainCode names.source.toList)
    (hsink : IsPlainCode names.sink.toList) (sink : Format) (columns : List ColumnMapping) :
    Quotes (projection names sink columns).value
      (columns.map fun column => (projectColumn sink column).value) := by
  have hassign : IsPlainCode (names.sink ++ "_df = " ++ names.source ++ "_df").toList := by
    simp only [String.toList_append]
    exact ((hsink.append (by decide)).append hsource).append (by decide)
  cases columns with
  | nil =>
    exact ⟨[], (names.sink ++ "_df = " ++ names.source ++ "_df").toList, rfl, by simp, hassign, rfl⟩
  | cons column columns =>
    refine ⟨⟨(names.sink ++ "_df = " ++ names.source ++ "_df").toList ++ ".selectExpr(\n    ".toList,
        (projectColumn sink column).value.toList⟩ ::
      (columns.map fun other => (projectColumn sink other).value).map fun text =>
        ⟨",\n    ".toList, text.toList⟩, ",\n)".toList, ?_, ?_, by decide, ?_⟩
    · rw [statement, List.append_assoc, ← toList_joinWith_quoted]
      unfold projection
      simp only [List.isEmpty_cons, Bool.false_eq_true, if_false, Noted.value_bind, Noted.value_pure,
        Noted.value_traverse, String.toList_append, List.map_cons, List.append_assoc]
    · rw [List.map_cons, List.forall_mem_cons]
      refine ⟨⟨hassign.append (by decide), by simp⟩, fun code hcode => ?_⟩
      obtain ⟨part, hpart, rfl⟩ := List.mem_map.mp hcode
      obtain ⟨text, -, rfl⟩ := List.mem_map.mp hpart
      exact (by decide : IsJoint ",\n    ".toList)
    · simp only [List.map_cons, List.map_map]
      rfl

/-- **Projections.** The projection of a copy is complete lines of code. -/
theorem isLines_projection {names : Names} (hsource : IsPlainCode names.source.toList)
    (hsink : IsPlainCode names.sink.toList) (sink : Format) (columns : List ColumnMapping) :
    IsLines (projection names sink columns).value :=
  (quotes_projection hsource hsink sink columns).isLines

end FactoryMigration.Script
