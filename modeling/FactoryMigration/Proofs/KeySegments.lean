import FactoryMigration.Service.ConnectionString

set_option autoImplicit false

/-! # Keys in connection strings

A connection string is a list of segments, and each value is found within one of them
(`ConnectionString.value?_join`). A key is base64 text, in which equals signs stand only at the end,
so no other tag is found in its segment: account, protocol and endpoint do not depend on the keys
(`ConnectionString.accountName?_withoutKeys` and its likes). -/

namespace FactoryMigration

/-- What only one item of a list gives is what the list gives. -/
theorem findSome?_eq_of_unique {α β : Type} {g : α → Option β} {items : List α} {item : α} {value : β}
    (hmem : item ∈ items) (hitem : g item = some value)
    (hother : ∀ other ∈ items, other ≠ item → g other = none) : items.findSome? g = some value := by
  induction items with
  | nil => exact absurd hmem List.not_mem_nil
  | cons first rest ih =>
    by_cases hfirst : first = item
    · rw [List.findSome?_cons, hfirst, hitem]
    · have hnone : g first = none := hother first List.mem_cons_self hfirst
      rw [List.findSome?_cons, hnone]
      refine ih ((List.mem_cons.mp hmem).resolve_left (Ne.symm hfirst)) fun other hrest => ?_
      exact hother other (List.mem_cons_of_mem _ hrest)

/-! ## Segments -/

namespace Text

variable {sep : Char}

theorem segments_of_not_mem {piece : List Char} (h : sep ∉ piece) : segments sep piece = [piece] := by
  induction piece with
  | nil => rfl
  | cons c piece ih =>
    rw [List.mem_cons, not_or] at h
    rw [segments, if_neg (Ne.symm h.1), ih h.2]

theorem segments_append {piece : List Char} (h : sep ∉ piece) (rest : List Char) :
    segments sep (piece ++ sep :: rest) = piece :: segments sep rest := by
  induction piece with
  | nil => rw [List.nil_append, segments, if_pos rfl]
  | cons c piece ih =>
    rw [List.mem_cons, not_or] at h
    rw [List.cons_append, segments, if_neg (Ne.symm h.1), ih h.2]

theorem not_mem_of_mem_segments {cs piece : List Char} (h : piece ∈ segments sep cs) :
    sep ∉ piece := by
  induction cs generalizing piece with
  | nil =>
    rw [segments, List.mem_singleton] at h
    simp [h]
  | cons c rest ih =>
    by_cases hc : c = sep
    · rw [segments, if_pos hc, List.mem_cons] at h
      rcases h with rfl | h
      · exact List.not_mem_nil
      · exact ih h
    · cases hrest : segments sep rest with
      | nil => exact absurd hrest (segments_ne_nil sep rest)
      | cons first others =>
        simp only [segments, if_neg hc, hrest, List.mem_cons] at h
        rw [hrest] at ih
        rcases h with rfl | h
        · rw [List.mem_cons, not_or]
          exact ⟨Ne.symm hc, ih List.mem_cons_self⟩
        · exact ih (List.mem_cons_of_mem _ h)

/-- Pieces without the separator are found again. -/
theorem segments_join {pieces : List (List Char)} (hne : pieces ≠ [])
    (h : ∀ piece ∈ pieces, sep ∉ piece) : segments sep (join [sep] pieces) = pieces := by
  induction pieces with
  | nil => exact absurd rfl hne
  | cons piece rest ih =>
    have hpiece : sep ∉ piece := h piece List.mem_cons_self
    cases rest with
    | nil => exact segments_of_not_mem hpiece
    | cons next rest =>
      have hjoin : join [sep] (piece :: next :: rest)
          = piece ++ sep :: join [sep] (next :: rest) := by
        simp [join]
      rw [hjoin, segments_append hpiece, ih (List.cons_ne_nil _ _)]
      exact fun other hother => h other (List.mem_cons_of_mem _ hother)

theorem not_mem_join {c : Char} {gap : List Char} (hgap : c ∉ gap)
    {pieces : List (List Char)} (h : ∀ piece ∈ pieces, c ∉ piece) : c ∉ join gap pieces := by
  induction pieces with
  | nil => exact List.not_mem_nil
  | cons piece rest ih =>
    have hpiece := h piece List.mem_cons_self
    have hrest := ih fun other hother => h other (List.mem_cons_of_mem _ hother)
    cases rest with
    | nil => exact hpiece
    | cons next rest => simp [join, hpiece, hgap, hrest]

theorem infix_join_of_mem {piece : List Char} {pieces : List (List Char)} (h : piece ∈ pieces)
    (gap : List Char) : piece <:+: join gap pieces := by
  induction pieces with
  | nil => cases h
  | cons first rest ih =>
    cases rest with
    | nil =>
      rw [List.mem_singleton.mp h]
      exact List.infix_rfl
    | cons next rest =>
      have hjoin : join gap (first :: next :: rest) = first ++ gap ++ join gap (next :: rest) := rfl
      rw [hjoin]
      rcases List.mem_cons.mp h with rfl | h
      · rw [List.append_assoc]
        exact (List.prefix_append _ _).isInfix
      · exact (ih h).trans (List.suffix_append _ _).isInfix

/-- A text without the separator that ends another one stands after the separator. -/
theorem suffix_of_suffix_append_cons {text before after : List Char} (htext : sep ∉ text)
    (h : text <:+ before ++ sep :: after) : text <:+ after := by
  rcases List.suffix_or_suffix_of_suffix h (List.suffix_append before (sep :: after)) with h | h
  · rcases List.suffix_cons_iff.mp h with rfl | h
    · exact absurd List.mem_cons_self htext
    · exact h
  · exact absurd (h.subset List.mem_cons_self) htext

theorem toList_joinWith (sep : String) (texts : List String) :
    (joinWith sep texts).toList = join sep.toList (texts.map String.toList) := by
  induction texts with
  | nil => rfl
  | cons first rest ih =>
    cases rest with
    | nil => rfl
    | cons next rest =>
      have hjoin : joinWith sep (first :: next :: rest)
          = first ++ sep ++ joinWith sep (next :: rest) := rfl
      rw [hjoin, String.toList_append, String.toList_append, ih]
      rfl

theorem infix_joinWith_of_mem {text : String} {texts : List String} (h : text ∈ texts)
    (sep : String) : text.toList <:+: (joinWith sep texts).toList := by
  rw [toList_joinWith]
  exact infix_join_of_mem (List.mem_map_of_mem h) sep.toList

theorem afterStart_append_append (front start cs : List Char) :
    afterStart (front ++ start) (front ++ cs) = afterStart start cs := by
  induction front with
  | nil => rfl
  | cons c front ih => rw [List.cons_append, List.cons_append, afterStart, if_pos rfl, ih]

/-- Of two texts neither of which begins like the other, one does not begin a text that begins with the
other. -/
theorem afterStart_append_eq_none {start front rest : List Char}
    (h : afterStart start front = none) (h' : afterStart front start = none) :
    afterStart start (front ++ rest) = none := by
  induction start generalizing front with
  | nil => cases h
  | cons s start ih =>
    cases front with
    | nil => cases h'
    | cons c front =>
      rw [List.cons_append, afterStart]
      rw [afterStart] at h h'
      by_cases hc : s = c
      · rw [if_pos hc] at h ⊢
        rw [if_pos hc.symm] at h'
        exact ih h h'
      · rw [if_neg hc]

end Text

namespace ConnectionString

/-! ## Values in segments -/

section Values

variable {tag : List Char} {isValue : Char → Bool}

theorem afterStart_append (htag : ';' ∉ tag) (segment rest : List Char) :
    Text.afterStart tag (segment ++ ';' :: rest)
      = (Text.afterStart tag segment).map (· ++ ';' :: rest) := by
  induction tag generalizing segment with
  | nil => rfl
  | cons t tag ih =>
    rw [List.mem_cons, not_or] at htag
    obtain ⟨ht, htag⟩ := htag
    cases segment with
    | nil => simp [Text.afterStart, Ne.symm ht]
    | cons c segment =>
      by_cases h : t = c
      · simp [Text.afterStart, h, ih htag]
      · simp [Text.afterStart, h]

theorem takeWhile_append_semicolon (hvalue : isValue ';' = false) (text rest : List Char) :
    (text ++ ';' :: rest).takeWhile isValue = text.takeWhile isValue ∧
      (text ++ ';' :: rest).dropWhile isValue = text.dropWhile isValue ++ ';' :: rest := by
  induction text with
  | nil => simp [hvalue]
  | cons c text ih =>
    by_cases h : isValue c = true
    · simp [h, ih]
    · simp [h]

/-- A value ends where its segment ends. -/
theorem valueHere?_append (htag : ';' ∉ tag) (hvalue : isValue ';' = false)
    (segment rest : List Char) :
    valueHere? tag isValue (segment ++ ';' :: rest) = valueHere? tag isValue segment := by
  unfold valueHere?
  rw [afterStart_append htag]
  cases Text.afterStart tag segment with
  | none => rfl
  | some text =>
    obtain ⟨htake, hdrop⟩ := takeWhile_append_semicolon hvalue text rest
    simp only [Option.map_some, htake, hdrop]
    cases text.takeWhile isValue with
    | nil => rfl
    | cons v value =>
      cases text.dropWhile isValue with
      | nil => simp
      | cons c after => rfl

theorem valueHere?_nil (hne : tag ≠ []) : valueHere? tag isValue [] = none := by
  cases tag with
  | nil => exact absurd rfl hne
  | cons t tag => rfl

theorem value?_nil (hne : tag ≠ []) : value? tag isValue [] = none := by
  rw [value?, valueHere?_nil hne]

theorem value?_append (hne : tag ≠ []) (htag : ';' ∉ tag) (hvalue : isValue ';' = false)
    (segment rest : List Char) :
    value? tag isValue (segment ++ ';' :: rest)
      = (value? tag isValue segment).or (value? tag isValue rest) := by
  induction segment with
  | nil =>
    have hhere : valueHere? tag isValue (';' :: rest) = none := by
      rw [← List.nil_append (';' :: rest), valueHere?_append htag hvalue, valueHere?_nil hne]
    rw [List.nil_append, value?_nil hne, Option.none_or, value?, hhere]
  | cons c segment ih =>
    rw [List.cons_append, value?, value?, ← List.cons_append, valueHere?_append htag hvalue, ih]
    cases valueHere? tag isValue (c :: segment) with
    | none => rfl
    | some value => rfl

/-- The first segment with a value counts. -/
theorem value?_join (hne : tag ≠ []) (htag : ';' ∉ tag) (hvalue : isValue ';' = false)
    (segments : List (List Char)) :
    value? tag isValue (Text.join [';'] segments) = segments.findSome? (value? tag isValue) := by
  induction segments with
  | nil => exact value?_nil hne
  | cons segment rest ih =>
    cases rest with
    | nil =>
      rw [Text.join, List.findSome?_cons, List.findSome?_nil]
      cases value? tag isValue segment <;> rfl
    | cons next rest =>
      have hjoin : Text.join [';'] (segment :: next :: rest)
          = segment ++ ';' :: Text.join [';'] (next :: rest) := by
        simp [Text.join]
      rw [hjoin, value?_append hne htag hvalue, ih]
      cases hsegment : value? tag isValue segment with
      | none => simp only [List.findSome?_cons, hsegment, Option.none_or]
      | some value => simp only [List.findSome?_cons, hsegment, Option.some_or]

/-- A value that is found follows its tag. -/
theorem exists_of_value? {cs value : List Char} (h : value? tag isValue cs = some value) :
    ∃ before rest, cs = before ++ tag ++ rest ∧ rest.takeWhile isValue ≠ [] := by
  have hhere (cs : List Char) (hfound : valueHere? tag isValue cs = some value) :
      ∃ rest, cs = tag ++ rest ∧ rest.takeWhile isValue ≠ [] := by
    unfold valueHere? at hfound
    split at hfound
    · cases hfound
    · rename_i rest hrest
      refine ⟨rest, Text.afterStart_eq_some_iff.mp hrest, fun hnil => ?_⟩
      simp [hnil] at hfound
  induction cs with
  | nil =>
    obtain ⟨rest, hcs, hrest⟩ := hhere [] h
    exact ⟨[], rest, hcs, hrest⟩
  | cons c cs ih =>
    rw [value?] at h
    split at h
    · rename_i found hfound
      obtain rfl := Option.some.inj h
      obtain ⟨rest, hcs, hrest⟩ := hhere (c :: cs) hfound
      exact ⟨[], rest, hcs, hrest⟩
    · obtain ⟨before, rest, rfl, hrest⟩ := ih h
      exact ⟨c :: before, rest, rfl, hrest⟩

end Values

/-! ## Keys -/

/-- The characters of base64 text, without the padding. -/
def isBase64Character (c : Char) : Bool :=
  c.isAlphanum || c == '+' || c == '/'

/-- Base64 text, with equals signs at its end only. -/
def isBase64 (value : List Char) : Bool :=
  (value.dropWhile isBase64Character).all (· == '=')

/-- The tag of a key. -/
def keyTag : List Char :=
  "AccountKey=".toList

/-- A segment that holds a key, without the key; any other segment as it is. -/
def segmentWithoutKey (segment : List Char) : List Char :=
  match Text.afterStart keyTag segment with
  | some value => if isBase64 value then keyTag else segment
  | none => segment

/-- A connection string without its keys. -/
def withoutKeys (cs : List Char) : List Char :=
  Text.join [';'] ((Text.segments ';' cs).map segmentWithoutKey)

/-- Behind an equals sign in base64 text there are no other characters. -/
theorem eq_of_mem_of_isBase64 {before rest : List Char}
    (h : isBase64 (before ++ '=' :: rest) = true) : ∀ c ∈ rest, c = '=' := by
  have hsign : isBase64Character '=' = false := by decide
  induction before with
  | nil => simpa [isBase64, hsign] using h
  | cons b before ih =>
    by_cases hb : isBase64Character b = true
    · refine ih ?_
      simpa [isBase64, hb] using h
    · have hall : b = '=' ∧ (∀ c ∈ before, c = '=') ∧ ∀ c ∈ rest, c = '=' := by
        simpa [isBase64, hb] using h
      exact hall.2.2

theorem segmentWithoutKey_idem (segment : List Char) :
    segmentWithoutKey (segmentWithoutKey segment) = segmentWithoutKey segment := by
  have htag : segmentWithoutKey keyTag = keyTag := by decide
  cases hkey : Text.afterStart keyTag segment with
  | none =>
    have hsame : segmentWithoutKey segment = segment := by simp [segmentWithoutKey, hkey]
    rw [hsame, hsame]
  | some value =>
    by_cases hvalue : isBase64 value = true
    · have hcut : segmentWithoutKey segment = keyTag := by simp [segmentWithoutKey, hkey, hvalue]
      rw [hcut, htag]
    · have hsame : segmentWithoutKey segment = segment := by simp [segmentWithoutKey, hkey, hvalue]
      rw [hsame, hsame]

/-- There are no keys left to be left out. -/
theorem withoutKeys_idem (cs : List Char) : withoutKeys (withoutKeys cs) = withoutKeys cs := by
  have hne : (Text.segments ';' cs).map segmentWithoutKey ≠ [] := by
    simp [Text.segments_ne_nil]
  have hpieces : ∀ piece ∈ (Text.segments ';' cs).map segmentWithoutKey, ';' ∉ piece := by
    intro piece hpiece
    obtain ⟨segment, hsegment, rfl⟩ := List.mem_map.mp hpiece
    have hsemicolon : ';' ∉ segment := Text.not_mem_of_mem_segments hsegment
    unfold segmentWithoutKey
    split
    · split
      · decide
      · exact hsemicolon
    · exact hsemicolon
  unfold withoutKeys
  rw [Text.segments_join hne hpieces, List.map_map]
  congr 1
  exact List.map_congr_left fun segment _ => segmentWithoutKey_idem segment

/-- No value is found behind an equals sign in the segment of a key, except the key. -/
theorem value?_key {name value : List Char} {isValue : Char → Bool}
    (hname : ¬name <:+ "AccountKey".toList) (hvalue : isValue '=' = false)
    (hkey : isBase64 value = true) : value? (name ++ ['=']) isValue (keyTag ++ value) = none := by
  have htag : keyTag = "AccountKey".toList ++ ['='] := by decide
  have hequals : '=' ∉ "AccountKey".toList := by decide
  cases hfound : value? (name ++ ['=']) isValue (keyTag ++ value) with
  | none => rfl
  | some found =>
    obtain ⟨before, rest, htext, hrest⟩ := exists_of_value? hfound
    have hsplit : "AccountKey".toList ++ '=' :: value = (before ++ name) ++ '=' :: rest := by
      rw [htag] at htext
      simpa using htext
    rcases List.append_eq_append_iff.mp hsplit with ⟨more, hmore, hafter⟩ | ⟨more, hmore, hafter⟩
    · cases more with
      | nil =>
        rw [List.append_nil] at hmore
        exact absurd ⟨before, hmore⟩ hname
      | cons c more =>
        -- the sign is of the padding, and only further padding follows
        obtain ⟨-, hpadding⟩ := List.cons.inj hafter
        rw [hpadding] at hkey
        have hall := eq_of_mem_of_isBase64 hkey
        cases rest with
        | nil => exact absurd rfl hrest
        | cons c rest =>
          obtain rfl := hall c List.mem_cons_self
          exact absurd (by simp [hvalue]) hrest
    · cases more with
      | nil =>
        rw [List.append_nil] at hmore
        exact absurd ⟨before, hmore.symm⟩ hname
      | cons c more =>
        obtain ⟨rfl, -⟩ := List.cons.inj hafter
        exact absurd (by simp [hmore]) hequals

theorem value?_segmentWithoutKey {name : List Char} {isValue : Char → Bool}
    (hname : ¬name <:+ "AccountKey".toList) (hvalue : isValue '=' = false) (segment : List Char) :
    value? (name ++ ['=']) isValue (segmentWithoutKey segment)
      = value? (name ++ ['=']) isValue segment := by
  unfold segmentWithoutKey
  split
  · rename_i value hsegment
    obtain rfl := Text.afterStart_eq_some_iff.mp hsegment
    split
    · rename_i hkey
      have hempty : value? (name ++ ['=']) isValue (keyTag ++ []) = none :=
        value?_key hname hvalue rfl
      rw [List.append_nil] at hempty
      rw [hempty, value?_key hname hvalue hkey]
    · rfl
  · rfl

/-- A value behind another tag does not depend on the keys. -/
theorem value?_withoutKeys {name : List Char} {isValue : Char → Bool}
    (hname : ¬name <:+ "AccountKey".toList) (htag : ';' ∉ name ++ ['=']) (hvalue : isValue '=' = false)
    (hsemicolon : isValue ';' = false) (cs : List Char) :
    value? (name ++ ['=']) isValue (withoutKeys cs) = value? (name ++ ['=']) isValue cs := by
  have hne : name ++ ['='] ≠ [] := by simp
  calc value? (name ++ ['=']) isValue (withoutKeys cs)
      = ((Text.segments ';' cs).map segmentWithoutKey).findSome? (value? (name ++ ['=']) isValue) :=
        value?_join hne htag hsemicolon _
    _ = (Text.segments ';' cs).findSome? (value? (name ++ ['=']) isValue) := by
        rw [List.findSome?_map]
        congr 1
        funext segment
        exact value?_segmentWithoutKey hname hvalue segment
    _ = value? (name ++ ['=']) isValue cs := by
        rw [← value?_join hne htag hsemicolon, Text.join_segments]

theorem accountName?_withoutKeys (cs : List Char) :
    accountName? (withoutKeys cs) = accountName? cs := by
  have htag : "AccountName=".toList = "AccountName".toList ++ ['='] := by decide
  unfold accountName?
  rw [htag]
  exact value?_withoutKeys (by decide) (by decide +kernel) (by decide) (by decide) cs

theorem protocol?_withoutKeys (cs : List Char) : protocol? (withoutKeys cs) = protocol? cs := by
  have htag : "DefaultEndpointsProtocol=".toList = "DefaultEndpointsProtocol".toList ++ ['='] := by
    decide
  unfold protocol?
  rw [htag]
  exact value?_withoutKeys (by decide) (by decide +kernel) (by decide) (by decide) cs

theorem endpointSuffix?_withoutKeys (cs : List Char) :
    endpointSuffix? (withoutKeys cs) = endpointSuffix? cs := by
  have htag : "EndpointSuffix=".toList = "EndpointSuffix".toList ++ ['='] := by decide
  unfold endpointSuffix?
  rw [htag]
  exact value?_withoutKeys (by decide) (by decide +kernel) (by decide) (by decide) cs

end ConnectionString

end FactoryMigration
