import FactoryMigration.Proofs.SecretInstructions
import FactoryMigration.Proofs.StatementText

set_option autoImplicit false

/-! # Secrets that scripts look up

The options of a side name their secrets in the code, the instructions take them from a table of the
format. Both agree: an option block looks up the secrets of its dataset, and no literal in it, such as
the value of an option, is taken for a look-up (`Script.looksUp_options_iff`). So each secret that a
script looks up has its instruction, also after the instructions of one scope and key have been
joined (`Workflow.ofPipeline_lookups`). -/

namespace FactoryMigration

namespace Script

/-- A look-up of the key in the scope occurs in the text. -/
def LooksUp (text scope key : String) : Prop :=
  (secretLookup scope key).toList <:+: text.toList

instance (text scope key : String) : Decidable (LooksUp text scope key) :=
  inferInstanceAs (Decidable (_ <:+: _))

/-! ## Names -/

/-- Text that is a name. -/
def IsName (name : String) : Prop :=
  name.toList ≠ [] ∧ ∀ c ∈ name.toList, isNameCharacter c = true

instance (name : String) : Decidable (IsName name) :=
  have := List.decidableBAll (isNameCharacter · = true) name.toList
  inferInstanceAs (Decidable (_ ∧ _))

theorem IsName.append {first second : String} (hfirst : IsName first) (hsecond : IsName second) :
    IsName (first ++ second) := by
  rw [IsName, String.toList_append]
  exact ⟨List.append_ne_nil_of_left_ne_nil hfirst.1 _,
    List.forall_mem_append.mpr ⟨hfirst.2, hsecond.2⟩⟩

theorem IsName.not_mem {name : String} (h : IsName name) {c : Char} (hc : isNameCharacter c = false) :
    c ∉ name.toList := by
  intro hmem
  rw [h.2 c hmem] at hc
  cases hc

theorem isName_identifier (s : String) : IsName (identifier s) := by
  have hmap : ∀ c ∈ s.toList.map (fun c => if isNameCharacter c then c else '_'),
      isNameCharacter c = true := by
    intro c hc
    obtain ⟨d, -, rfl⟩ := List.mem_map.mp hc
    split
    · assumption
    · decide
  unfold IsName identifier
  dsimp only
  split
  · exact ⟨by decide, List.forall_mem_singleton.mpr rfl⟩
  · rename_i c cs heq
    rw [String.toList_ofList]
    split
    · exact ⟨List.cons_ne_nil _ _, List.forall_mem_cons.mpr ⟨by decide, hmap⟩⟩
    · exact ⟨by rw [heq]; exact List.cons_ne_nil _ _, hmap⟩

theorem Names.isName_ofCopy (copy : Copy) :
    IsName (Names.ofCopy copy).source ∧ IsName (Names.ofCopy copy).sink := by
  have hsink := isName_identifier copy.sink.name
  refine ⟨isName_identifier _, ?_⟩
  unfold Names.ofCopy
  dsimp only
  split
  · exact hsink.append (by decide)
  · exact hsink

theorem Names.quote_not_mem_ofCopy (copy : Copy) :
    '"' ∉ (Names.ofCopy copy).source.toList ∧ '"' ∉ (Names.ofCopy copy).sink.toList :=
  ⟨(isName_ofCopy copy).1.not_mem (by decide), (isName_ofCopy copy).2.not_mem (by decide)⟩

/-! ## Statements of option blocks -/

theorem toList_append_quoted (front text behind : String) :
    (front ++ Text.quoted text ++ behind).toList
      = front.toList ++ Text.quote text.toList ++ behind.toList := by
  rw [String.toList_append, String.toList_append, Text.toList_quoted]

theorem toList_append_quoted_append (front text between call behind : String) :
    (front ++ Text.quoted text ++ between ++ call ++ behind).toList
      = front.toList ++ Text.quote text.toList
        ++ (between.toList ++ (call.toList ++ behind.toList)) := by
  rw [String.toList_append, String.toList_append, toList_append_quoted]
  simp only [List.append_assoc]

/-- The name of an option: in quotes it stands as it is, and it does not end like the beginning of a
look-up. -/
structure Plain (option : String) : Prop where
  escape : Text.escape option.toList = option.toList
  last : ¬lookupOpening <:+ option.toList

instance (option : String) : Decidable (Plain option) :=
  decidable_of_iff (Text.escape option.toList = option.toList ∧ ¬lookupOpening <:+ option.toList)
    ⟨fun h => ⟨h.1, h.2⟩, fun h => ⟨h.escape, h.last⟩⟩

theorem plain_optionNames (format : Format) : ∀ option ∈ format.optionNames, Plain option := by
  rcases format with format | _ | _
  · cases format <;> decide
  · decide
  · decide

theorem plain_connectionSecrets : ∀ secret ∈ connectionSecrets, Plain secret.1 := by
  decide

theorem plain_renamedOptions : ∀ renamed ∈ renamedOptions, Plain renamed.2 := by
  decide

/-- The code before the name of an option. -/
def optionCode (name : String) : List Char :=
  name.toList ++ "_options[".toList

theorem getLast?_optionCode (name : String) : (optionCode name).getLast? = some '[' := by
  rw [optionCode, List.getLast?_append, show "_options[".toList.getLast? = some '[' by decide,
    Option.some_or]

theorem quote_not_mem_optionCode {name : String} (hname : '"' ∉ name.toList) :
    '"' ∉ optionCode name := by
  rw [optionCode, List.mem_append, not_or]
  exact ⟨hname, by decide⟩

variable {name option scope : String} {service : StorageService}

/-- Code that ends in the name of the options is no code between two arguments. -/
theorem isCode_append_optionCode (hname : '"' ∉ name.toList) {front : List Char}
    (hfront : '"' ∉ front) :
    IsCode (front ++ optionCode name) ∧ front ++ optionCode name ≠ keyArgument := by
  have hlast : (front ++ optionCode name).getLast? = some '[' := by
    rw [List.getLast?_append, getLast?_optionCode, Option.some_or]
  refine ⟨⟨?_, ?_⟩, fun heq => ?_⟩
  · rw [List.mem_append, not_or]
    exact ⟨hfront, quote_not_mem_optionCode hname⟩
  · rw [hlast]
    decide
  · rw [heq, getLast?_keyArgument] at hlast
    exact absurd hlast (by decide)

/-- The name of an option stands between two quotes. -/
theorem toList_setOption_eq (name option expression : String) :
    (setOption name option expression).toList
      = optionCode name ++ '"' :: (option.toList ++ '"' :: ("] = ".toList ++ expression.toList)) := by
  have hopen : ("_options[\"" : String).toList = "_options[".toList ++ ['"'] := by decide
  have hclose : ("\"] = " : String).toList = '"' :: "] = ".toList := by decide
  simp only [setOption, optionCode, String.toList_append, hopen, hclose, List.append_assoc,
    List.cons_append, List.nil_append]

/-- A statement that sets an option begins with one part. -/
theorem toList_setOption (hplain : Plain option) (expression : String) :
    (setOption name option expression).toList = optionCode name ++ Text.quote option.toList
      ++ ("] = ".toList ++ expression.toList) := by
  rw [toList_setOption_eq, Text.quote, hplain.escape]
  simp only [List.append_assoc, List.cons_append, List.nil_append]

theorem not_looksUp_noOptions (hname : '"' ∉ name.toList) (scope key : String) :
    ¬LooksUp (noOptions name) scope key := by
  have hlast : '"' ∉ (noOptions name).toList := by
    rw [noOptions, String.toList_append, List.mem_append, not_or]
    exact ⟨hname, by decide⟩
  have hparts : WellQuoted [] (noOptions name).toList := ⟨by simp, hlast⟩
  exact not_infix_statement hparts (by simp) (.inl (by simp)) scope key

/-- The value of an option is not taken for a look-up. -/
theorem not_looksUp_setOption (hname : '"' ∉ name.toList) (hplain : Plain option)
    (value scope key : String) : ¬LooksUp (setOption name option (Text.quoted value)) scope key := by
  have htext : (setOption name option (Text.quoted value)).toList = optionCode name
      ++ Text.quote option.toList ++ ("] = ".toList ++ Text.quote value.toList ++ []) := by
    rw [toList_setOption hplain, Text.toList_quoted, List.append_nil]
  rw [LooksUp, htext]
  exact not_infix_two_literals (isCode_append_optionCode hname List.not_mem_nil) (by decide)
    List.not_mem_nil scope key

theorem toList_recordLimit (records : Json) :
    (recordLimit records).toList = statement
      [⟨"spark.conf.set(".toList, "spark.sql.files.maxRecordsPerFile".toList⟩,
        ⟨", ".toList, records.scalarText.toList⟩] ")".toList := by
  have hfirst : ("spark.conf.set(\"spark.sql.files.maxRecordsPerFile\", " : String).toList
      = "spark.conf.set(".toList ++ Text.quote "spark.sql.files.maxRecordsPerFile".toList
        ++ ", ".toList := by
    decide
  calc (recordLimit records).toList
      = "spark.conf.set(\"spark.sql.files.maxRecordsPerFile\", ".toList
        ++ Text.quote records.scalarText.toList ++ ")".toList := toList_append_quoted _ _ _
    _ = _ := by simp only [hfirst, statement, List.append_assoc]

theorem not_looksUp_recordLimit (records : Json) (scope key : String) :
    ¬LooksUp (recordLimit records) scope key := by
  have hbetween : IsCode ", ".toList ∧ ", ".toList ≠ keyArgument := by decide
  rw [LooksUp, toList_recordLimit]
  exact not_infix_two_literals (by decide) hbetween (by decide) scope key

theorem toList_serverAddress (name : String) :
    (serverAddress name).toList = statement
      [⟨optionCode name, "url".toList⟩, ⟨"] = ".toList, "jdbc:sqlserver://".toList⟩,
        ⟨" + ".toList ++ optionCode name, "host".toList⟩,
        ⟨"]".toList ++ " + ".toList, ";databaseName=".toList⟩,
        ⟨" + ".toList ++ optionCode name, "database".toList⟩] "]".toList := by
  have hurl : Plain "url" := by decide
  have hserver : ("\"jdbc:sqlserver://\" + " : String).toList
      = Text.quote "jdbc:sqlserver://".toList ++ " + ".toList := by
    decide
  have hhost : ("_options[\"host\"]" : String).toList
      = "_options[".toList ++ (Text.quote "host".toList ++ "]".toList) := by
    decide
  have hbetween : (" + \";databaseName=\" + " : String).toList
      = " + ".toList ++ (Text.quote ";databaseName=".toList ++ " + ".toList) := by
    decide
  have hdatabase : ("_options[\"database\"]" : String).toList
      = "_options[".toList ++ (Text.quote "database".toList ++ "]".toList) := by
    decide
  calc (serverAddress name).toList
      = optionCode name ++ Text.quote "url".toList ++ ("] = ".toList ++
        ("\"jdbc:sqlserver://\" + " ++ name ++ "_options[\"host\"]" ++ " + \";databaseName=\" + "
          ++ name ++ "_options[\"database\"]").toList) := toList_setOption hurl _
    _ = _ := by
      simp only [String.toList_append, hserver, hhost, hbetween, hdatabase, statement, optionCode,
        List.append_assoc]

/-- The address of a server is made of its options, which are no look-ups themselves. -/
theorem not_looksUp_serverAddress (hname : '"' ∉ name.toList) (scope key : String) :
    ¬LooksUp (serverAddress name) scope key := by
  have hfirst := isCode_append_optionCode hname List.not_mem_nil
  have hlater := isCode_append_optionCode hname (show '"' ∉ " + ".toList by decide)
  have hfixed : (IsCode "] = ".toList ∧ "] = ".toList ≠ keyArgument) ∧
      IsCode ("]".toList ++ " + ".toList) ∧ "]".toList ++ " + ".toList ≠ keyArgument := by
    decide
  have hliterals : ∀ literal ∈ ["url", "jdbc:sqlserver://", "host", ";databaseName=", "database"],
      ¬lookupOpening <:+ Text.escape literal.toList := by
    decide
  rw [LooksUp, toList_serverAddress]
  refine not_infix_statement ⟨?_, by decide⟩ ?_ (.inr ?_) scope key
  · simp only [List.forall_mem_cons, List.not_mem_nil, IsEmpty.forall_iff, implies_true, and_true]
    exact ⟨hfirst.1, hfixed.1.1, hlater.1, hfixed.2.1, hlater.1⟩
  · simp only [List.forall_mem_cons, List.not_mem_nil, IsEmpty.forall_iff, implies_true, and_true]
    exact ⟨hfirst.2, hfixed.1.2, hlater.2, hfixed.2.2, hlater.2⟩
  · simp only [List.forall_mem_cons, List.not_mem_nil, IsEmpty.forall_iff, implies_true,
      and_true] at hliterals ⊢
    exact hliterals

/-- A connection option looks up its secret. -/
theorem looksUp_connection_iff (hname : '"' ∉ name.toList) (hplain : Plain option)
    (scope key scope' key' : String) :
    LooksUp (setOption name option (secretLookup scope key)) scope' key' ↔
      scope' = scope ∧ key' = key := by
  have htext : (setOption name option (secretLookup scope key)).toList = optionCode name
      ++ Text.quote option.toList ++ ("] = ".toList ++ ((secretLookup scope key).toList ++ [])) := by
    rw [toList_setOption hplain, List.append_nil]
  have hcode : IsCode (optionCode name) := (isCode_append_optionCode hname List.not_mem_nil).1
  rw [LooksUp, htext]
  refine infix_lookup_iff hcode ?_ (by decide) List.not_mem_nil scope' key'
  rw [hplain.escape]
  exact hplain.last

theorem toList_accountAccess (scope : String) (service : StorageService) :
    (accountAccess scope service).toList = "spark.conf.set(".toList
      ++ Text.quote ("fs.azure.account.key." ++ service.account ++ ".dfs.core.windows.net").toList
      ++ (", ".toList ++ ((secretLookup scope
        (Secret.keyOf service.name "storage_account_key")).toList ++ ")".toList)) :=
  toList_append_quoted_append _ _ _ _ _

/-- The access to a storage account looks up its key. -/
theorem looksUp_accountAccess_iff (scope : String) (service : StorageService)
    (scope' key' : String) : LooksUp (accountAccess scope service) scope' key' ↔
      scope' = scope ∧ key' = Secret.keyOf service.name "storage_account_key" := by
  rw [LooksUp, toList_accountAccess]
  refine infix_lookup_iff (by decide) ?_ (by decide) (by decide) scope' key'
  -- the name of the account ends in that of its domain
  intro hsuffix
  have hdomain : (Text.escape ".dfs.core.windows.net".toList).getLast? = some 't' := by
    decide
  have hlast := getLast?_of_lookupOpening_suffix hsuffix
  rw [String.toList_append, Text.escape, List.flatMap_append, List.getLast?_append, ← Text.escape,
    ← Text.escape, hdomain, Option.some_or] at hlast
  exact absurd hlast (by decide)

/-! ## Option blocks -/

theorem looksUp_joinWith_iff (lines : List String) (scope key : String) :
    LooksUp (Text.joinWith "\n" lines) scope key ↔ ∃ line ∈ lines, LooksUp line scope key := by
  have hne : (secretLookup scope key).toList ≠ [] := by
    rw [toList_secretLookup]
    exact List.append_ne_nil_of_right_ne_nil _ (List.cons_ne_nil _ _)
  have hfeed : '\n' ∉ (secretLookup scope key).toList := by
    have hcode : '\n' ∉ lookupOpening ∧ '\n' ∉ keyArgument := by decide
    simp [toList_secretLookup, hcode, Text.lineFeed_not_mem_escape]
  exact Text.infix_joinWith_lineFeed hne hfeed lines

theorem looksUp_fileBlock_iff (hname : '"' ∉ name.toList) (scope : String) (dataset : FileDataset)
    (side : Side) (scope' key' : String) :
    (∃ line ∈ fileBlock scope name dataset side, LooksUp line scope' key') ↔
      scope' = scope ∧ key' = Secret.keyOf dataset.service.name "storage_account_key" := by
  rw [← looksUp_accountAccess_iff]
  constructor
  · rintro ⟨line, hline, hlooks⟩
    simp only [fileBlock, List.cons_append, List.mem_cons, List.mem_append, List.mem_filterMap,
      Option.mem_toList, Option.map_eq_some_iff, List.not_mem_nil, or_false] at hline
    rcases hline with rfl | (⟨option, hoption, hset⟩ | ⟨records, -, rfl⟩) | rfl
    · exact absurd hlooks (not_looksUp_noOptions hname scope' key')
    · obtain ⟨value, -, rfl⟩ := Option.map_eq_some_iff.mp hset
      have hplain : Plain option := plain_optionNames (.file dataset.format) option hoption
      exact absurd hlooks (not_looksUp_setOption hname hplain value scope' key')
    · exact absurd hlooks (not_looksUp_recordLimit records scope' key')
    · exact hlooks
  · intro hlooks
    exact ⟨_, by simp [fileBlock], hlooks⟩

theorem looksUp_sqlBlock_iff (hname : '"' ∉ name.toList) (scope : String) (table : SqlTable)
    (side : Side) (scope' key' : String) :
    (∃ line ∈ sqlBlock scope name table side, LooksUp line scope' key') ↔
      ∃ secret ∈ connectionSecrets,
        scope' = scope ∧ key' = Secret.keyOf table.service.name secret.2 := by
  constructor
  · rintro ⟨line, hline, hlooks⟩
    simp only [sqlBlock, List.cons_append, List.mem_cons, List.mem_append, List.mem_map,
      List.mem_filterMap, Option.map_eq_some_iff, List.not_mem_nil, or_false] at hline
    rcases hline with rfl | ((⟨secret, hsecret, rfl⟩ | rfl) | ⟨option, hoption, value, -, rfl⟩) |
      ⟨renamed, hrenamed, value, -, rfl⟩
    · exact absurd hlooks (not_looksUp_noOptions hname scope' key')
    · have hplain := plain_connectionSecrets secret hsecret
      exact ⟨secret, hsecret, (looksUp_connection_iff hname hplain scope _ scope' key').mp hlooks⟩
    · exact absurd hlooks (not_looksUp_serverAddress hname scope' key')
    · have hplain := plain_optionNames .sqlServer option hoption
      exact absurd hlooks (not_looksUp_setOption hname hplain value scope' key')
    · have hplain := plain_renamedOptions renamed hrenamed
      exact absurd hlooks (not_looksUp_setOption hname hplain value.scalarText scope' key')
  · rintro ⟨secret, hsecret, hkey⟩
    have hplain := plain_connectionSecrets secret hsecret
    have hmem : setOption name secret.1 (secretLookup scope (Secret.keyOf table.service.name secret.2))
        ∈ sqlBlock scope name table side := by
      refine List.mem_append_left _ (List.mem_append_left _ (List.mem_append_left _ ?_))
      exact List.mem_cons_of_mem _ (List.mem_map.mpr ⟨secret, hsecret, rfl⟩)
    exact ⟨_, hmem, (looksUp_connection_iff hname hplain scope _ scope' key').mpr hkey⟩

/-- **Option blocks.** An option block looks up the secrets of its dataset, and no others. -/
theorem looksUp_options_iff (generator : Generator) (hname : '"' ∉ name.toList) (dataset : Dataset)
    (side : Side) (scope key : String) :
    LooksUp (generator.options name dataset side) scope key ↔
      (scope, key) ∈ (Secret.ofDataset generator.secretScope dataset).map Secret.identity := by
  rw [Generator.options, looksUp_joinWith_iff]
  cases dataset with
  | file dataset =>
    rw [optionBlock, looksUp_fileBlock_iff hname]
    simp [Secret.ofDataset, Secret.identity, Dataset.format, Dataset.serviceName,
      Format.secretNames]
  | delta table => simp [optionBlock, Secret.ofDataset, Dataset.format, Format.secretNames]
  | sql table =>
    have hnames : Format.secretNames .sqlServer = connectionSecrets.map Prod.snd := rfl
    rw [optionBlock, looksUp_sqlBlock_iff hname]
    simp only [Secret.ofDataset, Dataset.format, hnames, Dataset.serviceName, List.map_map,
      List.mem_map, Function.comp_apply, Secret.identity, Prod.mk.injEq, eq_comm]

end Script

/-! ## Scripts of copies -/

/-- What fills a hole stands in the text. -/
theorem Template.infix_fill {scope : Template.Scope} {name value : String}
    (hvalue : scope.value? name = some value) {template : Template}
    (hhole : Piece.hole name ∈ template) {text : String} (h : fill scope template = .ok text) :
    value.toList <:+: text.toList := by
  induction template generalizing text with
  | nil => exact absurd hhole List.not_mem_nil
  | cons piece rest ih =>
    cases piece with
    | text front =>
      have hmem : Piece.hole name ∈ rest := by simpa using hhole
      rw [fill] at h
      cases hrest : fill scope rest with
      | error missing =>
        rw [hrest] at h
        cases h
      | ok behind =>
        rw [hrest] at h
        cases h
        rw [String.toList_append]
        exact (ih hmem hrest).trans (List.suffix_append _ _).isInfix
    | hole other =>
      rw [fill] at h
      cases hother : scope.value? other with
      | none =>
        rw [hother] at h
        cases h
      | some front =>
        cases hrest : fill scope rest with
        | error missing =>
          rw [hother, hrest] at h
          cases h
        | ok behind =>
          rw [hother, hrest] at h
          cases h
          rw [String.toList_append]
          rcases List.mem_cons.mp hhole with hsame | hmem
          · cases hsame
            rw [hvalue] at hother
            cases hother
            exact (List.prefix_append _ _).isInfix
          · exact (ih hmem hrest).trans (List.suffix_append _ _).isInfix

/-- The same for a template of a library. -/
theorem TemplateLibrary.infix_render {library : TemplateLibrary} {template : Template}
    {scope : Template.Scope} {title name value text : String}
    (hload : library.load title = .ok template) (hhole : Piece.hole name ∈ template)
    (hvalue : scope.value? name = some value) (h : library.render title scope = .ok text) :
    value.toList <:+: text.toList := by
  unfold render at h
  rw [hload] at h
  cases hfill : template.fill scope with
  | error missing =>
    simp only [bind, Except.bind, hfill] at h
    cases h
  | ok filled =>
    simp only [bind, Except.bind, hfill] at h
    cases h
    exact Template.infix_fill hvalue hhole hfill

namespace Script.Generator

variable {generator : Generator} {copy : Copy} {content : String}

/-- The notebook of a copy shows both option blocks. -/
theorem infix_copyNotebook (hlibrary : generator.library = .builtIn)
    (h : (generator.copyNotebook copy).value = .ok content) :
    (generator.options (Names.ofCopy copy).source copy.source copy.sourceSide).toList
        <:+: content.toList ∧
      (generator.options (Names.ofCopy copy).sink copy.sink copy.sinkSide).toList
        <:+: content.toList := by
  unfold copyNotebook at h
  dsimp only at h
  split at h
  · cases h
  · simp only [Noted.value_bind, Noted.value_pure] at h
    cases hwrite : writeExpression generator.library (Names.ofCopy copy).sink copy.sink with
    | error failure =>
      rw [hwrite] at h
      cases h
    | ok write =>
      rw [hwrite] at h
      have hload : generator.library.load "copy-notebook" = .ok Template.copyNotebook := by
        rw [hlibrary]
        rfl
      have hholes : Piece.hole "source_options" ∈ Template.copyNotebook ∧
          Piece.hole "sink_options" ∈ Template.copyNotebook := by
        decide
      exact ⟨TemplateLibrary.infix_render hload hholes.1 rfl h,
        TemplateLibrary.infix_render hload hholes.2 rfl h⟩

/-- A declarative notebook shows the option block of its source. -/
theorem infix_declarativeNotebook (hlibrary : generator.library = .builtIn)
    (h : (generator.declarativeNotebook copy).value = .ok content) :
    (generator.options (Names.ofCopy copy).source copy.source copy.sourceSide).toList
      <:+: content.toList := by
  unfold declarativeNotebook at h
  dsimp only at h
  split at h
  · cases h
  · simp only [Noted.value_bind, Noted.value_pure] at h
    have hload : generator.library.load "dlt-notebook" = .ok Template.declarativeNotebook := by
      rw [hlibrary]
      rfl
    have hhole : Piece.hole "source_options" ∈ Template.declarativeNotebook := by decide
    exact TemplateLibrary.infix_render hload hhole rfl h

end Script.Generator

namespace PreparationOptions

/-- The option blocks of the script of a copy: that of its source, and that of its sink if the script
writes it. -/
def optionBlocks (options : PreparationOptions) (copy : Copy) : List String :=
  let names := Script.Names.ofCopy copy
  let source := options.generator.options names.source copy.source copy.sourceSide
  let sink := options.generator.options names.sink copy.sink copy.sinkSide
  if options.isDeclarative copy then [source] else [source, sink]

/-- A notebook of the built-in templates shows each option block as it is. -/
theorem infix_of_mem_optionBlocks {options : PreparationOptions} {copy : Copy}
    {block content : String} (hlibrary : options.library = .builtIn)
    (hblock : block ∈ options.optionBlocks copy) (hscript : (options.script copy).value = .ok content) :
    block.toList <:+: content.toList := by
  unfold optionBlocks at hblock
  unfold script at hscript
  dsimp only at hblock
  by_cases hdeclarative : options.isDeclarative copy = true
  · rw [if_pos hdeclarative, List.mem_singleton] at hblock
    rw [if_pos hdeclarative] at hscript
    rw [hblock]
    exact Script.Generator.infix_declarativeNotebook hlibrary hscript
  · rw [if_neg hdeclarative, List.mem_pair] at hblock
    rw [if_neg hdeclarative] at hscript
    obtain ⟨hsource, hsink⟩ := Script.Generator.infix_copyNotebook hlibrary hscript
    rcases hblock with rfl | rfl
    · exact hsource
    · exact hsink

/-- A script looks up none but the secrets of its copy. -/
theorem mem_secrets_of_looksUp {options : PreparationOptions} {copy : Copy} {block scope key : String}
    (hblock : block ∈ options.optionBlocks copy) (hlooks : Script.LooksUp block scope key) :
    (scope, key) ∈ (options.secrets copy).map Secret.identity := by
  obtain ⟨hsource, hsink⟩ := Script.Names.quote_not_mem_ofCopy copy
  have hcases : block = options.generator.options (Script.Names.ofCopy copy).source copy.source
        copy.sourceSide ∨
      block = options.generator.options (Script.Names.ofCopy copy).sink copy.sink copy.sinkSide := by
    unfold optionBlocks at hblock
    dsimp only at hblock
    split at hblock
    · exact .inl (List.mem_singleton.mp hblock)
    · simpa using hblock
  rw [secrets, List.map_append, List.mem_append]
  rcases hcases with rfl | rfl
  · exact .inl ((Script.looksUp_options_iff options.generator hsource _ _ scope key).mp hlooks)
  · exact .inr ((Script.looksUp_options_iff options.generator hsink _ _ scope key).mp hlooks)

end PreparationOptions

namespace Workflow

variable {options : PreparationOptions} {pipeline : Pipeline} {workflow : Workflow}

/-- The notebooks of a workflow are the scripts of its copies. -/
theorem mem_contents_iff (h : ofPipeline options pipeline = .ok workflow) (content : String) :
    content ∈ workflow.notebooks.map Notebook.content ↔
      ∃ copyTask ∈ pipeline.copyTasks, copyTask.HasScript options content := by
  obtain ⟨artifacts, hactivities, hnotebooks, -⟩ := exists_artifacts h
  have hstored : artifacts.notebooks = pipeline.copyTasks.foldl (CopyTask.store options) [] :=
    (Preparation.activities_adds _ hactivities).1.notebooks
  rw [hnotebooks, hstored, CopyTask.mem_contents_foldl_store]
  simp

theorem exists_notebook (h : ofPipeline options pipeline = .ok workflow) {copyTask : CopyTask}
    (hcopy : copyTask ∈ pipeline.copyTasks) :
    ∃ notebook ∈ workflow.notebooks, copyTask.HasScript options notebook.content := by
  obtain ⟨artifacts, hactivities, -, -⟩ := exists_artifacts h
  obtain ⟨content, hcontent⟩ :=
    (Preparation.activities_collects _ hactivities).scripts copyTask hcopy
  obtain ⟨notebook, hnotebook, rfl⟩ :=
    List.mem_map.mp ((mem_contents_iff h content).mpr ⟨copyTask, hcopy, hcontent⟩)
  exact ⟨notebook, hnotebook, hcontent⟩

/-- There is an instruction for a scope and key exactly if a copy asks for it. -/
theorem mem_identities_iff (h : ofPipeline options pipeline = .ok workflow) (id : String × String) :
    id ∈ workflow.secrets.map Secret.identity ↔
      ∃ copyTask ∈ pipeline.copyTasks, id ∈ (options.secrets copyTask.copy).map Secret.identity := by
  rw [secrets_eq h, Secret.mem_identities_foldl_keep, CopyTask.secretsAll, List.map_flatMap,
    List.mem_flatMap]
  simp

/-- **Looked-up secrets.** No two instructions are for one scope and key, all are for the configured
scope, and whatever an option block of a notebook looks up has its instruction. The blocks of a
notebook are those of the copies that it is the script of; the built-in templates show them as they
are. -/
theorem ofPipeline_lookups (h : ofPipeline options pipeline = .ok workflow) :
    (workflow.secrets.map Secret.identity).Nodup ∧
    (∀ secret ∈ workflow.secrets, secret.scope = options.secretScope) ∧
    ∀ notebook ∈ workflow.notebooks,
      (∃ copyTask ∈ pipeline.copyTasks, copyTask.HasScript options notebook.content) ∧
      ∀ copyTask ∈ pipeline.copyTasks, copyTask.HasScript options notebook.content →
        ∀ block ∈ options.optionBlocks copyTask.copy,
          (options.library = .builtIn → block.toList <:+: notebook.content.toList) ∧
          ∀ scope key, Script.LooksUp block scope key →
            ∃ secret ∈ workflow.secrets, secret.scope = scope ∧ secret.key = key := by
  refine ⟨nodup_secrets h, fun secret hsecret => ?_, fun notebook hnotebook => ⟨?_, ?_⟩⟩
  · obtain ⟨copyTask, -, hasked⟩ :=
      (mem_identities_iff h secret.identity).mp (List.mem_map_of_mem hsecret)
    rw [PreparationOptions.secrets_eq_flatMap] at hasked
    obtain ⟨asked, hmem, hidentity⟩ := List.mem_map.mp hasked
    obtain ⟨dataset, -, hmem⟩ := List.mem_flatMap.mp hmem
    obtain ⟨name, -, rfl⟩ := List.mem_map.mp hmem
    exact (Prod.mk.inj hidentity).1.symm
  · exact (mem_contents_iff h _).mp (List.mem_map_of_mem hnotebook)
  · intro copyTask hcopy hscript block hblock
    refine ⟨fun hlibrary => ?_, fun scope key hlooks => ?_⟩
    · exact PreparationOptions.infix_of_mem_optionBlocks hlibrary hblock hscript
    · have hasked := PreparationOptions.mem_secrets_of_looksUp hblock hlooks
      obtain ⟨secret, hsecret, hidentity⟩ :=
        List.mem_map.mp ((mem_identities_iff h (scope, key)).mpr ⟨copyTask, hcopy, hasked⟩)
      exact ⟨secret, hsecret, Prod.mk.inj hidentity⟩

end Workflow

/-! ## A body of two copies -/

/-- The second notebook of a loop, which no task runs, looks up a password, and the password has its
instruction. -/
theorem secondOfLoop_looked_up :
    ∃ pipeline workflow, Pipeline.ofDocument false
        (loopOver [archiveCopy "orders", archiveCopy "customers"]) none = .ok pipeline ∧
      Workflow.ofPipeline CopyTask.notebookOptions pipeline = .ok workflow ∧
      ∃ notebook ∈ workflow.notebooks,
        Script.LooksUp notebook.content "pipemigrate_credentials_scope"
          "customers_server_password" ∧
        ∃ secret ∈ workflow.secrets, secret.scope = "pipemigrate_credentials_scope" ∧
          secret.key = "customers_server_password" := by
  have hprepared : preparedWith CopyTask.notebookOptions
      (loopOver [archiveCopy "orders", archiveCopy "customers"])
      (fun pipeline => decide (∃ copyTask ∈ pipeline.copyTasks,
        ("pipemigrate_credentials_scope", "customers_server_password")
          ∈ (Secret.ofDataset CopyTask.notebookOptions.secretScope copyTask.copy.source).map
            Secret.identity)) = true := by
    decide +kernel
  obtain ⟨pipeline, workflow, hpipeline, hworkflow, hcopies⟩ := exists_of_preparedWith hprepared
  obtain ⟨copyTask, hcopy, hsecret⟩ := of_decide_eq_true hcopies
  obtain ⟨notebook, hnotebook, hscript⟩ := Workflow.exists_notebook hworkflow hcopy
  have hname := (Script.Names.quote_not_mem_ofCopy copyTask.copy).1
  have hlooks := (Script.looksUp_options_iff CopyTask.notebookOptions.generator hname _
    copyTask.copy.sourceSide _ _).mpr hsecret
  obtain ⟨hblock, hinstruction⟩ := ((Workflow.ofPipeline_lookups hworkflow).2.2 notebook
    hnotebook).2 copyTask hcopy hscript _ List.mem_cons_self
  exact ⟨pipeline, workflow, hpipeline, hworkflow, notebook, hnotebook,
    hlooks.trans (hblock rfl), hinstruction _ _ hlooks⟩

end FactoryMigration
