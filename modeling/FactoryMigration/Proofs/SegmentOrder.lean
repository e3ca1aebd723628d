import FactoryMigration.Proofs.KeySegments
import FactoryMigration.Service.LinkedService
import Mathlib.Data.List.TakeWhile

set_option autoImplicit false

/-! # Segments in any order

A connection string holds the values of its parts in segments of their own, each behind the tag of its
part. Where no tag occurs anywhere else, the value of every part is found whatever the order of the
segments and whether or not a semicolon ends the last one (`Connection.read?_of_writes`). So a storage
account is read the same from every order, and only if account, protocol and suffix are all there
(`StorageService.ofDefinition_writes`). -/

namespace FactoryMigration

/-! ## Parts and their tags -/

/-- The parts that are read of a connection string. -/
inductive ConnectionPart where
  | protocol
  | account
  | suffix
  | key
deriving DecidableEq

namespace ConnectionPart

def all : List ConnectionPart :=
  [protocol, account, suffix, key]

/-- The parts that make the address of an account, and what they are called in reports. -/
def required : List (ConnectionPart × String) :=
  [(account, "Storage Account name"), (protocol, "Protocol"), (suffix, "Suffix")]

/-- The name in front of the equals sign. -/
def name : ConnectionPart → List Char
  | protocol => "DefaultEndpointsProtocol".toList
  | account => "AccountName".toList
  | suffix => "EndpointSuffix".toList
  | key => "AccountKey".toList

/-- What stands in front of the value: the name and an equals sign. -/
def tag : ConnectionPart → List Char
  | protocol => "DefaultEndpointsProtocol=".toList
  | account => "AccountName=".toList
  | suffix => "EndpointSuffix=".toList
  | key => "AccountKey=".toList

/-- The characters that values are made of. -/
def isCharacter : ConnectionPart → Char → Bool
  | protocol | account => Char.isAlphanum
  | suffix => ConnectionString.isHostCharacter
  | key => ConnectionString.isKeyCharacter

/-- The value that is read of a text. -/
def read? : ConnectionPart → List Char → Option (List Char)
  | protocol => ConnectionString.protocol?
  | account => ConnectionString.accountName?
  | suffix => ConnectionString.endpointSuffix?
  | key => ConnectionString.accountKey?

theorem mem_all (part : ConnectionPart) : part ∈ all := by
  cases part <;> decide

theorem read?_eq (part : ConnectionPart) (cs : List Char) :
    part.read? cs = ConnectionString.value? part.tag part.isCharacter cs := by
  cases part <;> rfl

theorem tag_eq (part : ConnectionPart) : part.tag = part.name ++ ['='] := by
  cases part <;> decide

theorem tag_ne_nil (part : ConnectionPart) : part.tag ≠ [] := by
  simp [tag_eq]

theorem semicolon_not_mem_tag (part : ConnectionPart) : ';' ∉ part.tag := by
  cases part <;> decide

theorem isCharacter_semicolon (part : ConnectionPart) : part.isCharacter ';' = false := by
  cases part <;> decide

theorem equals_not_mem_name (part : ConnectionPart) : '=' ∉ part.name := by
  cases part <;> decide

theorem not_name_suffix_name {part other : ConnectionPart} (h : part ≠ other) :
    ¬part.name <:+ other.name := by
  cases part <;> cases other <;> revert h <;> decide

/-- A tag that occurs behind the sign of another tag occurs in the value there. -/
theorem not_tag_infix {part other : ConnectionPart} (h : part ≠ other) {value : List Char}
    (hvalue : ¬part.tag <:+: value) : ¬part.tag <:+: other.tag ++ value := by
  rintro ⟨before, after, hsplit⟩
  have hsigns : (before ++ part.name) ++ '=' :: after = other.name ++ '=' :: value := by
    simpa [tag_eq] using hsplit
  rcases List.append_eq_append_iff.mp hsigns with ⟨more, hmore, hafter⟩ | ⟨more, hmore, hafter⟩
  · cases more with
    | nil => exact not_name_suffix_name h ⟨before, by simpa using hmore.symm⟩
    | cons c more =>
      -- the name of the other part has no sign in it
      obtain ⟨rfl, -⟩ := List.cons.inj hafter
      exact other.equals_not_mem_name (by simp [hmore])
  · cases more with
    | nil => exact not_name_suffix_name h ⟨before, by simpa using hmore⟩
    | cons c more =>
      obtain ⟨rfl, rfl⟩ := List.cons.inj hafter
      -- the tag stands behind the sign of the other one
      obtain ⟨front, rfl⟩ := Text.suffix_of_suffix_append_cons part.equals_not_mem_name ⟨before, hmore⟩
      exact hvalue ⟨front, after, by simp [tag_eq]⟩

end ConnectionPart

namespace ConnectionString

variable {tag : List Char} {isValue : Char → Bool}

theorem value?_tag_append (hne : tag ≠ []) {value : List Char} (hfilled : value ≠ [])
    (hvalue : value.all isValue = true) : value? tag isValue (tag ++ value) = some value := by
  rw [List.all_eq_true] at hvalue
  have hhere : valueHere? tag isValue (tag ++ value) = some value := by
    have htake : value.takeWhile isValue = value := List.takeWhile_eq_self_iff.mpr hvalue
    have hdrop : value.dropWhile isValue = [] := List.dropWhile_eq_nil_iff.mpr hvalue
    obtain ⟨c, rest, rfl⟩ := List.exists_cons_of_ne_nil hfilled
    simp only [valueHere?, Text.afterStart_eq_some_iff.mpr rfl, htake, hdrop]
  cases tag with
  | nil => exact absurd rfl hne
  | cons t tag =>
    rw [List.cons_append, value?, ← List.cons_append, hhere]

theorem value?_eq_none {cs : List Char} (h : ¬tag <:+: cs) : value? tag isValue cs = none := by
  cases hfound : value? tag isValue cs with
  | none => rfl
  | some value =>
    obtain ⟨before, rest, hcs, -⟩ := exists_of_value? hfound
    exact absurd ⟨before, rest, hcs.symm⟩ h

/-- A semicolon at the end makes no difference. -/
theorem value?_append_semicolon (hne : tag ≠ []) (htag : ';' ∉ tag) (hvalue : isValue ';' = false)
    (cs : List Char) : value? tag isValue (cs ++ [';']) = value? tag isValue cs := by
  rw [value?_append hne htag hvalue, value?_nil hne, Option.or_none]

end ConnectionString

/-! ## Texts of segments -/

/-- The values of the parts of a connection string, and its further segments. Every value is a text
of the characters of its part, and no tag occurs but in front of its value. -/
structure Connection where
  value? : ConnectionPart → Option (List Char)
  further : List (List Char)
  filled : ∀ part value, value? part = some value → value ≠ []
  allowed : ∀ part value, value? part = some value → value.all part.isCharacter = true
  further_untagged : ∀ part : ConnectionPart, ∀ segment ∈ further, ¬part.tag <:+: segment
  value_untagged : ∀ part other : ConnectionPart, ∀ value, value? other = some value →
    ¬part.tag <:+: value

namespace Connection

/-- The parts behind their tags, and the further segments. -/
def segments (connection : Connection) : List (List Char) :=
  ConnectionPart.all.filterMap (fun part => (connection.value? part).map (part.tag ++ ·))
    ++ connection.further

theorem eq_some_of_without {connection : Connection} {part other : ConnectionPart} {value : List Char}
    (h : (if other = part then none else connection.value? other) = some value) :
    connection.value? other = some value := by
  split at h
  · cases h
  · exact h

/-- All but the segment of a part. -/
def without (connection : Connection) (part : ConnectionPart) : Connection where
  value? other := if other = part then none else connection.value? other
  further := connection.further
  filled other value h := connection.filled other value (eq_some_of_without h)
  allowed other value h := connection.allowed other value (eq_some_of_without h)
  further_untagged := connection.further_untagged
  value_untagged tagged other value h :=
    connection.value_untagged tagged other value (eq_some_of_without h)

/-- The text holds the segments in some order, with a semicolon between neighbours and perhaps one at
its end. -/
def Writes (connection : Connection) (cs : List Char) : Prop :=
  ∃ segments, segments.Perm connection.segments ∧
    (cs = Text.join [';'] segments ∨ cs = Text.join [';'] segments ++ [';'])

variable {connection : Connection}

/-- A segment holds the value of a part, or its tag does not occur in it. -/
theorem segment_cases (part : ConnectionPart) {segment : List Char}
    (h : segment ∈ connection.segments) :
    (∃ value, connection.value? part = some value ∧ segment = part.tag ++ value) ∨
      ¬part.tag <:+: segment := by
  rcases List.mem_append.mp h with hsegment | hsegment
  · obtain ⟨other, -, hother⟩ := List.mem_filterMap.mp hsegment
    obtain ⟨value, hvalue, rfl⟩ := Option.map_eq_some_iff.mp hother
    by_cases hpart : part = other
    · subst hpart
      exact .inl ⟨value, hvalue, rfl⟩
    · exact .inr (ConnectionPart.not_tag_infix hpart
        (connection.value_untagged part other value hvalue))
  · exact .inr (connection.further_untagged part segment hsegment)

theorem mem_segments {part : ConnectionPart} {value : List Char}
    (h : connection.value? part = some value) : part.tag ++ value ∈ connection.segments := by
  refine List.mem_append_left _ (List.mem_filterMap.mpr ⟨part, part.mem_all, ?_⟩)
  rw [h, Option.map_some]

/-- **Segments.** From every order of the segments, the values of the parts are read. -/
theorem read?_of_writes {cs : List Char} (h : connection.Writes cs) (part : ConnectionPart) :
    part.read? cs = connection.value? part := by
  obtain ⟨segments, hperm, hcs⟩ := h
  have hread : part.read? cs
      = segments.findSome? (ConnectionString.value? part.tag part.isCharacter) := by
    rw [← ConnectionString.value?_join part.tag_ne_nil part.semicolon_not_mem_tag
      part.isCharacter_semicolon, part.read?_eq]
    rcases hcs with rfl | rfl
    · rfl
    · exact ConnectionString.value?_append_semicolon part.tag_ne_nil part.semicolon_not_mem_tag
        part.isCharacter_semicolon _
  rw [hread]
  cases hvalue : connection.value? part with
  | none =>
    refine List.findSome?_eq_none_iff.mpr fun segment hsegment => ?_
    rcases segment_cases part (hperm.mem_iff.mp hsegment) with ⟨value, hsome, -⟩ | htag
    · rw [hvalue] at hsome
      cases hsome
    · exact ConnectionString.value?_eq_none htag
  | some value =>
    refine findSome?_eq_of_unique (hperm.mem_iff.mpr (mem_segments hvalue))
      (ConnectionString.value?_tag_append part.tag_ne_nil (connection.filled part value hvalue)
        (connection.allowed part value hvalue)) fun segment hsegment hother => ?_
    rcases segment_cases part (hperm.mem_iff.mp hsegment) with ⟨_, hsome, rfl⟩ | htag
    · rw [hvalue] at hsome
      exact absurd (by rw [Option.some.inj hsome]) hother
    · exact ConnectionString.value?_eq_none htag

end Connection

/-! ## Storage accounts -/

namespace StorageService

/-- A definition in whose properties there is a connection string is an object with a field. -/
theorem requireDefinition_of_connection {definition : Json} {text : String}
    (h : ((definition.getD "properties").text? "url"
      <|> (definition.getD "properties").text? "connection_string") = some text) (label : String) :
    requireDefinition definition label = .ok () := by
  have hfilled : definition.isFilledObject = true := by
    cases definition with
    | obj fields =>
      cases fields with
      | nil => cases h
      | cons field fields => rfl
    | _ => cases h
  rw [requireDefinition, if_pos hfilled]

/-- **Storage accounts.** From every order of the segments, an account is read with its address and its
key, none if there is no segment for it. Without the segment of a part of the address, the definition is
not read, and the report names the part that is missing. -/
theorem ofDefinition_writes {connection : Connection} {protocol account suffix : List Char}
    (hprotocol : connection.value? .protocol = some protocol)
    (haccount : connection.value? .account = some account)
    (hsuffix : connection.value? .suffix = some suffix) {definition : Json} {text : String}
    (hconnection : ((definition.getD "properties").text? "url"
      <|> (definition.getD "properties").text? "connection_string") = some text) :
    (connection.Writes text.toList →
      ofDefinition definition = .ok {
        name := LinkedService.nameOf definition
        account := String.ofList account
        url := String.ofList protocol ++ "://" ++ String.ofList account ++ ".blob."
          ++ String.ofList suffix ++ "/"
        accountKey := (connection.value? .key).map String.ofList }) ∧
      ∀ part ∈ ConnectionPart.required, (connection.without part.1).Writes text.toList →
        ofDefinition definition = .error (LinkedService.missingPart definition text part.2) := by
  unfold ofDefinition
  rw [requireDefinition_of_connection hconnection]
  dsimp only
  rw [hconnection]
  dsimp only
  constructor
  · intro hwritten
    have hread (part : ConnectionPart) := Connection.read?_of_writes hwritten part
    have haccount' : ConnectionString.accountName? text.toList = some account :=
      (hread .account).trans haccount
    have hprotocol' : ConnectionString.protocol? text.toList = some protocol :=
      (hread .protocol).trans hprotocol
    have hsuffix' : ConnectionString.endpointSuffix? text.toList = some suffix :=
      (hread .suffix).trans hsuffix
    have hkey : ConnectionString.accountKey? text.toList = connection.value? .key := hread .key
    rw [haccount', hprotocol', hsuffix', hkey]
    rfl
  · intro part hpart hwritten
    have hread (other : ConnectionPart) : other.read? text.toList
        = if other = part.1 then none else connection.value? other :=
      Connection.read?_of_writes hwritten other
    have haccount' : ConnectionString.accountName? text.toList
        = if .account = part.1 then none else some account :=
      haccount ▸ hread .account
    have hprotocol' : ConnectionString.protocol? text.toList
        = if .protocol = part.1 then none else some protocol :=
      hprotocol ▸ hread .protocol
    have hsuffix' : ConnectionString.endpointSuffix? text.toList
        = if .suffix = part.1 then none else some suffix :=
      hsuffix ▸ hread .suffix
    rw [haccount', hprotocol', hsuffix']
    simp only [ConnectionPart.required, List.mem_cons, List.not_mem_nil, or_false] at hpart
    rcases hpart with rfl | rfl | rfl <;> rfl

/-- The address and the key of an account, and further segments, of which one is empty. -/
def lakeConnection : Connection where
  value?
    | .protocol => some "https".toList
    | .account => some "lake01".toList
    | .suffix => some "core.windows.net".toList
    | .key => some "c2Vj=cmV0==".toList
  further := ["BlobEndpoint=https://lake01".toList, []]
  filled part value h := by
    cases part <;> cases h <;> decide
  allowed part value h := by
    cases part <;> cases h <;> decide
  further_untagged part := by
    cases part <;> decide +kernel
  value_untagged part other value h := by
    cases other <;> cases h <;> cases part <;> decide +kernel

/-- The definition of a storage account with a connection string. -/
def lakeStorage (text : String) : Json :=
  .ofFields [("name", .str "lake"), ("properties", .ofFields [("connection_string", .str text)])]

/-- An order of the segments with the key at the end. -/
def keyLast : String :=
  "BlobEndpoint=https://lake01;EndpointSuffix=core.windows.net;;AccountName=lake01;"
    ++ "DefaultEndpointsProtocol=https;AccountKey=c2Vj=cmV0=="

/-- An order of the segments without the suffix, and with a semicolon at the end. -/
def suffixless : String :=
  ";AccountKey=c2Vj=cmV0==;DefaultEndpointsProtocol=https;BlobEndpoint=https://lake01;"
    ++ "AccountName=lake01;"

/-- The account is read with the key at the end, and it is not read without the suffix. -/
theorem lakeConnection_read :
    (lakeConnection.Writes keyLast.toList ∧
      ofDefinition (lakeStorage keyLast)
        = .ok ⟨"lake", "lake01", "https://lake01.blob.core.windows.net/", some "c2Vj=cmV0=="⟩) ∧
    (lakeConnection.without .suffix).Writes suffixless.toList ∧
      ofDefinition (lakeStorage suffixless)
        = .error (LinkedService.missingPart (lakeStorage suffixless) suffixless "Suffix") := by
  have hkeyLast : lakeConnection.Writes keyLast.toList :=
    ⟨["BlobEndpoint=https://lake01", "EndpointSuffix=core.windows.net", "", "AccountName=lake01",
      "DefaultEndpointsProtocol=https", "AccountKey=c2Vj=cmV0=="].map String.toList,
      by decide +kernel, .inl (by decide +kernel)⟩
  have hsuffixless : (lakeConnection.without .suffix).Writes suffixless.toList :=
    ⟨["", "AccountKey=c2Vj=cmV0==", "DefaultEndpointsProtocol=https",
      "BlobEndpoint=https://lake01", "AccountName=lake01"].map String.toList,
      by decide +kernel, .inr (by decide +kernel)⟩
  refine ⟨⟨hkeyLast, ?_⟩, hsuffixless, ?_⟩
  · exact ((ofDefinition_writes rfl rfl rfl (by decide +kernel)).1 hkeyLast).trans
      (congrArg Except.ok (by decide +kernel))
  · exact (ofDefinition_writes rfl rfl rfl (by decide +kernel)).2 (.suffix, "Suffix") (by decide)
      hsuffixless

end StorageService

end FactoryMigration
