import FactoryMigration.Proofs.ExactReading

set_option autoImplicit false

/-! # Reading text without apostrophes

The writer never escapes an apostrophe. So a text without apostrophes in which all escapes are those of
the writer is read as a value without apostrophes, if it is read at all (`Json.parseWith_lacks`).
Backslashes come in escapes only, hence a reader that takes whole tokens never begins inside one. -/

namespace FactoryMigration

/-! ## Escapes -/

namespace Text

theorem shortEscape?_ne_apostrophe {letter c : Char} (h : shortEscape? letter = some c) :
    c ≠ '\'' := by
  rintro rfl
  unfold shortEscape? at h
  split at h <;> cases h

theorem ofNat_ne_apostrophe : ∀ n < 0x20, Char.ofNat n ≠ '\'' := by
  decide

/-- No apostrophe, not even an escaped one: every backslash begins an escape of the writer. -/
inductive NoApostrophe : List Char → Prop where
  | nil : NoApostrophe []
  | plain {c : Char} {rest : List Char} (hbackslash : c ≠ '\\') (hc : c ≠ '\'')
      (hrest : NoApostrophe rest) : NoApostrophe (c :: rest)
  | letter {letter c : Char} {rest : List Char} (hletter : shortEscape? letter = some c)
      (hrest : NoApostrophe rest) : NoApostrophe ('\\' :: letter :: rest)
  | control {n : Nat} {rest : List Char} (hn : n < 0x20) (hrest : NoApostrophe rest) :
      NoApostrophe ('\\' :: 'u' :: (hex4 n ++ rest))

namespace NoApostrophe

variable {cs rest : List Char}

theorem append (h : NoApostrophe cs) (hrest : NoApostrophe rest) : NoApostrophe (cs ++ rest) := by
  induction h with
  | nil => exact hrest
  | plain hbackslash hc _ ih => exact plain hbackslash hc ih
  | letter hletter _ ih => exact letter hletter ih
  | control hn _ ih =>
    rw [List.cons_append, List.cons_append, List.append_assoc]
    exact control hn ih

theorem of_cons {c : Char} (hc : c ≠ '\\') (h : NoApostrophe (c :: rest)) : NoApostrophe rest := by
  cases h with
  | plain _ _ hrest => exact hrest
  | letter => exact absurd rfl hc
  | control => exact absurd rfl hc

/-- A token without a backslash is taken off. -/
theorem of_append (token : List Char) (htoken : '\\' ∉ token) (h : NoApostrophe (token ++ rest)) :
    NoApostrophe rest := by
  induction token with
  | nil => exact h
  | cons c token ih =>
    have hc : c ≠ '\\' := fun heq => htoken (heq ▸ List.mem_cons_self)
    exact ih (fun hmem => htoken (List.mem_cons_of_mem c hmem)) (h.of_cons hc)

/-- What a reader drops up to a character may not end inside an escape. -/
theorem dropWhile {p : Char → Bool} (hp : p '\\' = false) (h : NoApostrophe cs) :
    NoApostrophe (cs.dropWhile p) := by
  induction cs with
  | nil => exact nil
  | cons c cs ih =>
    rw [List.dropWhile_cons]
    split
    · rename_i hc
      refine ih (h.of_cons ?_)
      rintro rfl
      rw [hp] at hc
      cases hc
    · exact h

/-- No text between quotes has an apostrophe, and what follows it has none either. -/
theorem of_scanQuoted {text : List Char} (h : NoApostrophe cs)
    (hread : scanQuoted cs = some (text, rest)) : '\'' ∉ text ∧ NoApostrophe rest := by
  -- one more character before a text that was read
  have hcons {c : Char} {after text : List Char} (hc : c ≠ '\'')
      (ih : ∀ {text}, scanQuoted after = some (text, rest) → '\'' ∉ text ∧ NoApostrophe rest)
      (hread : (scanQuoted after).map (fun read => (c :: read.1, read.2)) = some (text, rest)) :
      '\'' ∉ text ∧ NoApostrophe rest := by
    obtain ⟨⟨tail, left⟩, htail, hresult⟩ := Option.map_eq_some_iff.mp hread
    cases hresult
    obtain ⟨hmem, hend⟩ := ih htail
    exact ⟨by simp [hmem, hc.symm], hend⟩
  induction h generalizing text with
  | nil => cases hread
  | @plain c after hbackslash hc hafter ih =>
    by_cases hquote : c = '"'
    · subst hquote
      cases hread
      exact ⟨List.not_mem_nil, hafter⟩
    · rw [scanQuoted_cons hquote hbackslash] at hread
      split at hread
      · cases hread
      · exact hcons hc ih hread
  | @letter letter c _ hletter _ ih =>
    rw [scanQuoted_letter hletter] at hread
    exact hcons (shortEscape?_ne_apostrophe hletter) ih hread
  | @control n _ hn _ ih =>
    rw [scanQuoted_control hn] at hread
    exact hcons (ofNat_ne_apostrophe n hn) ih hread

end NoApostrophe

end Text

namespace Json

/-! ## Texts in a value -/

variable {c : Char}

theorem lacks_str {text : String} (h : c ∉ text.toList) : Lacks c (.str text) := by
  rintro _ ⟨⟩
  exact h

theorem lacks_arr {items : List Json} (h : ∀ item ∈ items, Lacks c item) : Lacks c (.arr items) := by
  rintro text (_ | ⟨hitem, htext⟩)
  exact h _ hitem text htext

theorem lacks_obj {fields : List (String × Json)}
    (h : ∀ field ∈ fields, c ∉ field.1.toList ∧ Lacks c field.2) : Lacks c (.obj fields) := by
  rintro text (_ | _ | hfield | ⟨hfield, htext⟩)
  · exact (h _ hfield).1
  · exact (h _ hfield).2 text htext

/-! ## Reading -/

open Text (NoApostrophe)

variable {α : Type} {property : α → Prop} {entry : List Char → Option (α × List Char)}

/-- A reader that, where there is no apostrophe, reads what has the property, and leaves no apostrophe
over. -/
def Keeps (property : α → Prop) (entry : List Char → Option (α × List Char)) : Prop :=
  ∀ ⦃cs a rest⦄, NoApostrophe cs → entry cs = some (a, rest) → property a ∧ NoApostrophe rest

theorem noApostrophe_skipSpace {cs : List Char} (h : NoApostrophe cs) : NoApostrophe (skipSpace cs) :=
  h.dropWhile rfl

theorem Keeps.entries? (h : Keeps property entry) (close : Char) (hclose : close ≠ '\\')
    (steps : Nat) : Keeps (fun as => ∀ a ∈ as, property a) (entries? entry close steps) := by
  induction steps with
  | zero => exact nofun
  | succ steps ih =>
    intro cs as rest hcs hread
    rw [Json.entries?] at hread
    obtain ⟨⟨first, after⟩, hfirst, hread⟩ := Option.bind_eq_some_iff.mp hread
    obtain ⟨hproperty, hafter⟩ := h (noApostrophe_skipSpace hcs) hfirst
    have hskip := noApostrophe_skipSpace hafter
    dsimp only at hread
    split at hread
    · rename_i more hmore
      rw [hmore] at hskip
      obtain ⟨⟨others, left⟩, hothers, hread⟩ := Option.bind_eq_some_iff.mp hread
      obtain ⟨hall, hend⟩ := ih (hskip.of_cons (by decide)) hothers
      cases hread
      exact ⟨List.forall_mem_cons.mpr ⟨hproperty, hall⟩, hend⟩
    · rename_i c more hmore
      rw [hmore] at hskip
      split at hread
      · rename_i hc
        cases hread
        exact ⟨List.forall_mem_singleton.mpr hproperty, hskip.of_cons (hc ▸ hclose)⟩
      · cases hread
    · cases hread

theorem Keeps.bracketed? (h : Keeps property entry) {close : Char} (hclose : close ≠ '\\') :
    Keeps (fun as => ∀ a ∈ as, property a) (bracketed? entry close) := by
  intro cs as rest hcs hread
  have hskip := noApostrophe_skipSpace hcs
  unfold Json.bracketed? at hread
  split at hread
  · rename_i c more hmore
    rw [hmore] at hskip
    split at hread
    · rename_i hc
      cases hread
      exact ⟨List.forall_mem_nil _, hskip.of_cons (hc ▸ hclose)⟩
    · exact h.entries? close hclose _ hskip hread
  · cases hread

theorem Keeps.field? {value : List Char → Option (Json × List Char)}
    (h : Keeps (Lacks '\'') value) :
    Keeps (fun field => '\'' ∉ field.1.toList ∧ Lacks '\'' field.2) (field? value) := by
  intro cs field rest hcs hread
  unfold Json.field? at hread
  split at hread
  · rename_i inside
    obtain ⟨⟨key, after⟩, hkey, hread⟩ := Option.bind_eq_some_iff.mp hread
    obtain ⟨hmem, hafter⟩ := (hcs.of_cons (by decide)).of_scanQuoted hkey
    have hskip := noApostrophe_skipSpace hafter
    dsimp only at hread
    split at hread
    · rename_i more hmore
      rw [hmore] at hskip
      obtain ⟨⟨body, left⟩, hbody, hread⟩ := Option.bind_eq_some_iff.mp hread
      obtain ⟨hlacks, hend⟩ := h (noApostrophe_skipSpace (hskip.of_cons (by decide))) hbody
      cases hread
      exact ⟨⟨by rwa [String.toList_ofList], hlacks⟩, hend⟩
    · cases hread
  · cases hread

theorem keeps_valueWith {number : List Char → Option (Number × List Char)}
    (hnumber : Keeps (fun _ => True) number) (depth : Nat) :
    Keeps (Lacks '\'') (valueWith number depth) := by
  induction depth using Nat.strongRecOn with
  | ind depth ih =>
    intro cs value rest hcs hread
    unfold valueWith at hread
    -- one case for each kind of token, numbers last
    split at hread
    · cases hread
      exact ⟨nofun, NoApostrophe.of_append ['n', 'u', 'l', 'l'] (by decide) hcs⟩
    · cases hread
      exact ⟨nofun, NoApostrophe.of_append ['t', 'r', 'u', 'e'] (by decide) hcs⟩
    · cases hread
      exact ⟨nofun, NoApostrophe.of_append ['f', 'a', 'l', 's', 'e'] (by decide) hcs⟩
    · obtain ⟨⟨text, after⟩, htext, hread⟩ := Option.map_eq_some_iff.mp hread
      obtain ⟨hmem, hafter⟩ := (hcs.of_cons (by decide)).of_scanQuoted htext
      cases hread
      exact ⟨lacks_str (by rwa [String.toList_ofList]), hafter⟩
    · obtain ⟨⟨items, after⟩, hitems, hread⟩ := Option.map_eq_some_iff.mp hread
      obtain ⟨hall, hafter⟩ := (ih _ (Nat.lt_succ_self _)).bracketed? (by decide)
        (hcs.of_cons (by decide)) hitems
      cases hread
      exact ⟨lacks_arr hall, hafter⟩
    · obtain ⟨⟨fields, after⟩, hfields, hread⟩ := Option.map_eq_some_iff.mp hread
      obtain ⟨hall, hafter⟩ := (ih _ (Nat.lt_succ_self _)).field?.bracketed? (by decide)
        (hcs.of_cons (by decide)) hfields
      cases hread
      exact ⟨lacks_obj fun field hfield => hall field (Table.mem_ofEntries hfield), hafter⟩
    · obtain ⟨⟨n, after⟩, hn, hread⟩ := Option.map_eq_some_iff.mp hread
      obtain ⟨-, hafter⟩ := hnumber hcs hn
      cases hread
      exact ⟨nofun, hafter⟩

/-- **Apostrophes.** What is read from a text without apostrophes has none. -/
theorem parseWith_lacks {number : List Char → Option (Number × List Char)}
    (hnumber : Keeps (fun _ => True) number) {depth : Nat} {text : String} {value : Json}
    (htext : NoApostrophe text.toList) (hread : parseWith number depth text = some value) :
    Lacks '\'' value := by
  obtain ⟨⟨read, rest⟩, hvalue, hread⟩ := Option.bind_eq_some_iff.mp hread
  obtain ⟨hlacks, -⟩ := keeps_valueWith hnumber depth (noApostrophe_skipSpace htext) hvalue
  obtain ⟨-, -, hread⟩ := Option.bind_eq_some_iff.mp hread
  cases hread
  exact hlacks

end Json

end FactoryMigration
