import FactoryMigration.Proofs.TimeoutLanguage

set_option autoImplicit false

/-! # The language of numerals

A numeral is a row of digits with an optional point and an optional exponent, or the name of a number
that is not finite, and may have a sign in front. `Decimal.isNumeral` accepts exactly these texts
(`Decimal.isNumeral_iff`). -/

namespace FactoryMigration

theorem Text.isSome_digits?_iff {cs : List Char} :
    (digits? cs).isSome = true ↔ cs ≠ [] ∧ ∀ c ∈ cs, c.isDigit = true := by
  constructor
  · intro h
    obtain ⟨n, hn⟩ := Option.isSome_iff_exists.mp h
    obtain ⟨hne, hdigits, -⟩ := digits?_eq_some_iff.mp hn
    exact ⟨hne, hdigits⟩
  · rintro ⟨hne, hdigits⟩
    rw [digits?_of_isDigit hne hdigits]
    rfl

namespace Decimal

/-! ## Parts of a numeral -/

/-- A sign or none. -/
def IsSign (cs : List Char) : Prop :=
  cs = [] ∨ cs = ['+'] ∨ cs = ['-']

/-- The digits of a numeral: one or more, with or without a point. -/
inductive IsMantissa : List Char → Prop where
  | whole {digits : List Char} (hne : digits ≠ []) (h : ∀ c ∈ digits, c.isDigit = true) :
      IsMantissa digits
  | pointed {whole fraction : List Char} (hne : whole ≠ [] ∨ fraction ≠ [])
      (hwhole : ∀ c ∈ whole, c.isDigit = true) (hfraction : ∀ c ∈ fraction, c.isDigit = true) :
      IsMantissa (whole ++ '.' :: fraction)

/-- An exponent or none: a letter e of either case, perhaps a sign, and one or more digits. -/
inductive IsExponent : List Char → Prop where
  | nil : IsExponent []
  | mk {e : Char} {sign digits : List Char} (he : e = 'e' ∨ e = 'E') (hsign : IsSign sign)
      (hne : digits ≠ []) (h : ∀ c ∈ digits, c.isDigit = true) :
      IsExponent (e :: (sign ++ digits))

/-- A numeral: perhaps a sign, and then digits with an exponent, or a name in letters of either
case. -/
inductive IsNumeral : List Char → Prop where
  | finite {sign mantissa exponent : List Char} (hsign : IsSign sign)
      (hmantissa : IsMantissa mantissa) (hexponent : IsExponent exponent) :
      IsNumeral (sign ++ (mantissa ++ exponent))
  | nonFinite {sign name : List Char} (hsign : IsSign sign)
      (hname : name.map Char.toLower ∈ ["inf".toList, "infinity".toList, "nan".toList]) :
      IsNumeral (sign ++ name)

/-! ## Reading the parts -/

theorem isSome_map_digits? (cs : List Char) (f : Int → Int) :
    ((do let n ← Text.digits? cs; pure (n : Int)).map f).isSome = (Text.digits? cs).isSome := by
  cases Text.digits? cs <;> rfl

theorem isSome_exponentPart?_iff {cs : List Char} :
    (exponentPart? cs).isSome = true ↔ IsExponent cs := by
  constructor
  · intro h
    unfold exponentPart? at h
    split at h
    · exact .nil
    · rename_i e rest
      split at h
      · rename_i he
        split at h
        all_goals
          rw [isSome_map_digits?] at h
          obtain ⟨hne, hdigits⟩ := Text.isSome_digits?_iff.mp h
        · exact .mk he (.inr (.inl rfl)) hne hdigits
        · exact .mk he (.inr (.inr rfl)) hne hdigits
        · exact .mk he (.inl rfl) hne hdigits
      · cases h
  · intro h
    cases h with
    | nil => rfl
    | @mk e sign digits he hsign hne hdigits =>
      have hsome : (Text.digits? digits).isSome = true :=
        Text.isSome_digits?_iff.mpr ⟨hne, hdigits⟩
      simp only [exponentPart?, if_pos he]
      rcases hsign with rfl | rfl | rfl
      · rw [List.nil_append]
        -- the first digit is no sign
        split
        · exact absurd (hdigits '+' List.mem_cons_self) (by decide)
        · exact absurd (hdigits '-' List.mem_cons_self) (by decide)
        · rwa [isSome_map_digits?]
      · exact (isSome_map_digits? digits _).trans hsome
      · exact (isSome_map_digits? digits _).trans hsome

theorem isSome_ofParts?_iff {whole fraction rest : List Char} :
    (ofParts? whole fraction rest).isSome = true ↔
      (whole ≠ [] ∨ fraction ≠ []) ∧ IsExponent rest := by
  unfold ofParts?
  split
  · rename_i hempty
    simp [hempty]
  · rename_i hne
    rw [Option.isSome_map, isSome_exponentPart?_iff]
    exact (and_iff_right (not_and_or.mp hne)).symm

/-- What follows the digits of a numeral is neither a digit nor a point. -/
theorem IsExponent.head {cs : List Char} (h : IsExponent cs) :
    ∀ c ∈ cs.head?, c.isDigit = false ∧ c ≠ '.' := by
  cases h with
  | nil => exact nofun
  | mk he =>
    rintro _ ⟨⟩
    rcases he with rfl | rfl <;> exact ⟨rfl, by decide⟩

theorem isSome_parse?_iff {cs : List Char} :
    (parse? cs).isSome = true ↔
      ∃ mantissa exponent, IsMantissa mantissa ∧ IsExponent exponent ∧ cs = mantissa ++ exponent := by
  constructor
  · intro h
    have hcut (text : List Char) : text.takeWhile Char.isDigit ++ text.dropWhile Char.isDigit = text :=
      List.takeWhile_append_dropWhile
    have hdigits (text : List Char) : ∀ c ∈ text.takeWhile Char.isDigit, c.isDigit = true :=
      fun _ hc => List.mem_takeWhile_imp hc
    unfold parse? at h
    dsimp only at h
    split at h
    · rename_i rest hpoint
      obtain ⟨hne, hexponent⟩ := isSome_ofParts?_iff.mp h
      refine ⟨_, _, .pointed hne (hdigits cs) (hdigits rest), hexponent, ?_⟩
      rw [List.append_assoc, List.cons_append, hcut, ← hpoint, hcut]
    · obtain ⟨hne, hexponent⟩ := isSome_ofParts?_iff.mp h
      exact ⟨_, _, .whole (hne.resolve_right fun h => h rfl) (hdigits cs), hexponent, (hcut cs).symm⟩
  · rintro ⟨mantissa, exponent, hmantissa, hexponent, rfl⟩
    cases hmantissa with
    | whole hne h =>
      rw [parse?_of_parts h hexponent.head, isSome_ofParts?_iff]
      exact ⟨.inl hne, hexponent⟩
    | pointed hne hwhole hfraction =>
      rw [List.append_assoc, List.cons_append,
        parse?_of_point exponent hwhole hfraction fun c hc => (hexponent.head c hc).1,
        isSome_ofParts?_iff]
      exact ⟨hne, hexponent⟩

theorem isNonFinite_iff {cs : List Char} :
    isNonFinite cs = true ↔
      cs.map Char.toLower ∈ ["inf".toList, "infinity".toList, "nan".toList] := by
  simp [isNonFinite, or_assoc, ← String.toList_inj]

/-! ## Numerals -/

/-- What stands behind the sign of a numeral. -/
def isUnsigned (cs : List Char) : Bool :=
  (parse? cs).isSome || isNonFinite cs

/-- A second sign is no part of a numeral. -/
theorem isUnsigned_sign {c : Char} (hc : c = '+' ∨ c = '-') (rest : List Char) :
    isUnsigned (c :: rest) = false := by
  have hparse : parse? (c :: rest) = none := by
    rcases hc with rfl | rfl <;> rfl
  have hname : isNonFinite (c :: rest) = false := by
    rw [← Bool.not_eq_true, isNonFinite_iff]
    rcases hc with rfl | rfl <;> simp
  rw [isUnsigned, hparse, hname]
  rfl

theorem isNumeral_sign_append {sign cs : List Char} (hsign : IsSign sign)
    (h : isUnsigned cs = true) : isNumeral (sign ++ cs) = true := by
  rcases hsign with rfl | rfl | rfl
  · rw [List.nil_append]
    unfold isNumeral
    dsimp only
    split
    · rw [isUnsigned_sign (.inl rfl)] at h
      cases h
    · rw [isUnsigned_sign (.inr rfl)] at h
      cases h
    · exact h
  · exact h
  · exact h

theorem exists_of_isNumeral {cs : List Char} (h : isNumeral cs = true) :
    ∃ sign rest, IsSign sign ∧ isUnsigned rest = true ∧ cs = sign ++ rest := by
  unfold isNumeral at h
  dsimp only at h
  split at h
  · exact ⟨['+'], _, .inr (.inl rfl), h, rfl⟩
  · exact ⟨['-'], _, .inr (.inr rfl), h, rfl⟩
  · exact ⟨[], cs, .inl rfl, h, rfl⟩

/-- **Numerals.** A text is accepted as a number exactly if it is a numeral. -/
theorem isNumeral_iff {cs : List Char} : isNumeral cs = true ↔ IsNumeral cs := by
  constructor
  · intro h
    obtain ⟨sign, rest, hsign, hrest, rfl⟩ := exists_of_isNumeral h
    rcases (Bool.or_eq_true _ _).mp hrest with hparse | hname
    · obtain ⟨mantissa, exponent, hmantissa, hexponent, rfl⟩ := isSome_parse?_iff.mp hparse
      exact .finite hsign hmantissa hexponent
    · exact .nonFinite hsign (isNonFinite_iff.mp hname)
  · intro h
    cases h with
    | finite hsign hmantissa hexponent =>
      have hparse := isSome_parse?_iff.mpr ⟨_, _, hmantissa, hexponent, rfl⟩
      exact isNumeral_sign_append hsign (by rw [isUnsigned, hparse, Bool.true_or])
    | nonFinite hsign hname =>
      have hname := isNonFinite_iff.mpr hname
      exact isNumeral_sign_append hsign (by rw [isUnsigned, hname, Bool.or_true])

/-- A numeral has one sign at most: behind a plus sign there is none. -/
theorem IsNumeral.head_ne {rest : List Char} (h : IsNumeral ('+' :: rest)) :
    rest.head? ≠ some '+' := by
  intro hhead
  obtain ⟨tail, rfl⟩ := List.head?_eq_some_iff.mp hhead
  have hnot : isUnsigned ('+' :: tail) = false := isUnsigned_sign (.inl rfl) tail
  have htrue : isUnsigned ('+' :: tail) = true := isNumeral_iff.mpr h
  rw [hnot] at htrue
  cases htrue

end Decimal

end FactoryMigration
