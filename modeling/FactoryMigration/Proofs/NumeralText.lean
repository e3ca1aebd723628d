import FactoryMigration.Decimal.Numeral
import FactoryMigration.Proofs.ReadBack

set_option autoImplicit false

/-! # Written decimals

Reading a written decimal gives a decimal of the same value (`Decimal.parse?_digits`), whatever the
layout: with zeros after the digits, with a point among or before them, or with an exponent. So a
text of digits belongs to one binary number, apart from its sign (`Decimal.text_injective`). -/

namespace FactoryMigration

/-! ## Rows of digits -/

namespace Text

theorem ofDigits_eq_ofDigitChars (cs : List Char) : ofDigits cs = Nat.ofDigitChars 10 cs 0 := by
  rw [Nat.ofDigitChars_eq_foldl]
  rfl

theorem ofDigits_toDigits (n : Nat) : ofDigits (Nat.toDigits 10 n) = n := by
  rw [ofDigits_eq_ofDigitChars, Nat.ofDigitChars_ten_toDigits]

theorem ofDigits_append (xs ys : List Char) :
    ofDigits (xs ++ ys) = 10 ^ ys.length * ofDigits xs + ofDigits ys := by
  rw [ofDigits_eq_ofDigitChars, Nat.ofDigitChars_append, Nat.ofDigitChars_eq_ofDigitChars_zero]
  simp only [ofDigits_eq_ofDigitChars]

theorem ofDigits_append_zeros (xs : List Char) (n : Nat) :
    ofDigits (xs ++ List.replicate n '0') = 10 ^ n * ofDigits xs := by
  rw [ofDigits_eq_ofDigitChars, Nat.ofDigitChars_append, Nat.ofDigitChars_replicate_zero,
    ofDigits_eq_ofDigitChars]

theorem ofDigits_zeros_append (n : Nat) (xs : List Char) :
    ofDigits (List.replicate n '0' ++ xs) = ofDigits xs := by
  rw [ofDigits_append, ofDigits_eq_ofDigitChars (List.replicate n '0'),
    Nat.ofDigitChars_replicate_zero]
  simp

theorem isDigit_of_mem_toDigits {n : Nat} {c : Char} (h : c ∈ Nat.toDigits 10 n) :
    c.isDigit = true :=
  Nat.isDigit_of_mem_toDigits (by decide) (by decide) h

theorem isDigit_of_mem_zeros {n : Nat} {c : Char} (h : c ∈ List.replicate n '0') :
    c.isDigit = true := by
  rw [List.eq_of_mem_replicate h]
  rfl

theorem digits?_of_isDigit {cs : List Char} (hne : cs ≠ []) (h : ∀ c ∈ cs, c.isDigit = true) :
    digits? cs = some (ofDigits cs) :=
  if_pos ⟨hne, List.all_eq_true.mpr h⟩

/-- Characters of a class in front of another one are taken, and no more. -/
theorem takeWhile_append {p : Char → Bool} {cs rest : List Char} (h : ∀ c ∈ cs, p c = true)
    (hrest : ∀ c ∈ rest.head?, p c = false) :
    (cs ++ rest).takeWhile p = cs ∧ (cs ++ rest).dropWhile p = rest := by
  have hstop : rest.takeWhile p = [] ∧ rest.dropWhile p = rest := by
    cases rest with
    | nil => exact ⟨rfl, rfl⟩
    | cons c rest =>
      have hc : p c = false := hrest c rfl
      simp [hc]
  rw [List.takeWhile_append_of_pos h, List.dropWhile_append_of_pos h, hstop.1, hstop.2,
    List.append_nil]
  exact ⟨rfl, rfl⟩

end Text

/-! ## Reading what a layout writes -/

namespace Decimal

open Text

theorem exponentPart?_digits {cs : List Char} (hne : cs ≠ []) (h : ∀ c ∈ cs, c.isDigit = true) :
    exponentPart? ('e' :: cs) = some (ofDigits cs : Int) := by
  cases cs with
  | nil => exact absurd rfl hne
  | cons c cs =>
    have hc : c.isDigit = true := h c List.mem_cons_self
    simp only [exponentPart?, true_or, if_true]
    split
    · rename_i hplus
      obtain ⟨rfl, -⟩ := List.cons.inj hplus
      exact absurd hc (by decide)
    · rename_i hminus
      obtain ⟨rfl, -⟩ := List.cons.inj hminus
      exact absurd hc (by decide)
    · simp [digits?_of_isDigit hne h]

theorem exponentPart?_plus {cs : List Char} (hne : cs ≠ []) (h : ∀ c ∈ cs, c.isDigit = true) :
    exponentPart? ('e' :: '+' :: cs) = some (ofDigits cs : Int) := by
  simp [exponentPart?, digits?_of_isDigit hne h]

theorem exponentPart?_minus {cs : List Char} (hne : cs ≠ []) (h : ∀ c ∈ cs, c.isDigit = true) :
    exponentPart? ('e' :: '-' :: cs) = some (-(ofDigits cs : Int)) := by
  simp [exponentPart?, digits?_of_isDigit hne h]

theorem parse?_of_parts {whole rest : List Char} (hwhole : ∀ c ∈ whole, c.isDigit = true)
    (hrest : ∀ c ∈ rest.head?, c.isDigit = false ∧ c ≠ '.') :
    parse? (whole ++ rest) = ofParts? whole [] rest := by
  obtain ⟨htake, hdrop⟩ := takeWhile_append hwhole fun c hc => (hrest c hc).1
  unfold parse?
  dsimp only
  rw [htake, hdrop]
  split
  · rename_i after
    exact absurd rfl (hrest '.' rfl).2
  · rfl

theorem parse?_of_point {whole fraction : List Char} (rest : List Char)
    (hwhole : ∀ c ∈ whole, c.isDigit = true) (hfraction : ∀ c ∈ fraction, c.isDigit = true)
    (hrest : ∀ c ∈ rest.head?, c.isDigit = false) :
    parse? (whole ++ '.' :: (fraction ++ rest)) = ofParts? whole fraction rest := by
  have hpoint : ∀ c ∈ ('.' :: (fraction ++ rest)).head?, c.isDigit = false := by
    rintro _ ⟨⟩
    rfl
  obtain ⟨htake, hdrop⟩ := takeWhile_append hwhole hpoint
  obtain ⟨htake', hdrop'⟩ := takeWhile_append hfraction hrest
  unfold parse?
  dsimp only
  rw [htake, hdrop]
  show ofParts? whole ((fraction ++ rest).takeWhile Char.isDigit)
    ((fraction ++ rest).dropWhile Char.isDigit) = ofParts? whole fraction rest
  rw [htake', hdrop']

theorem ofParts?_of_exponentPart? {whole fraction rest : List Char} {exponent : Int}
    (hne : whole ≠ []) (h : exponentPart? rest = some exponent) :
    ofParts? whole fraction rest
      = some ⟨ofDigits (whole ++ fraction), exponent - fraction.length⟩ := by
  rw [ofParts?, if_neg fun hempty => hne hempty.1, h]
  rfl

theorem exponentPart?_lead (layout : Layout) (lead : Int) :
    exponentPart?
      ('e' :: (if lead < 0 then ['-'] else if layout.plusSign then ['+'] else [])
        ++ Nat.toDigits 10 lead.natAbs) = some lead := by
  have hne : Nat.toDigits 10 lead.natAbs ≠ [] := Nat.toDigits_ne_nil
  have hdigits : ∀ c ∈ Nat.toDigits 10 lead.natAbs, c.isDigit = true :=
    fun _ => isDigit_of_mem_toDigits
  by_cases hneg : lead < 0
  · rw [if_pos hneg]
    refine (exponentPart?_minus hne hdigits).trans ?_
    rw [ofDigits_toDigits]
    congr 1
    omega
  · rw [if_neg hneg]
    have hlead : (lead.natAbs : Int) = lead := by omega
    split
    · refine (exponentPart?_plus hne hdigits).trans ?_
      rw [ofDigits_toDigits, hlead]
    · refine (exponentPart?_digits hne hdigits).trans ?_
      rw [ofDigits_toDigits, hlead]

/-- Digits with zeros after them, and a fraction of one more zero. -/
theorem parse?_zeros {digits : List Char} (hne : digits ≠ [])
    (hdigits : ∀ c ∈ digits, c.isDigit = true) (n : Nat) :
    ∃ y, parse? (digits ++ List.replicate n '0' ++ ['.', '0']) = some y ∧
      y.value = (⟨ofDigits digits, n⟩ : Decimal).value := by
  have hwhole : ∀ c ∈ digits ++ List.replicate n '0', c.isDigit = true := by
    intro c hc
    rcases List.mem_append.mp hc with hc | hc
    · exact hdigits c hc
    · exact isDigit_of_mem_zeros hc
  have hfraction : ∀ c ∈ ['0'], c.isDigit = true := by
    intro c hc
    rw [List.mem_singleton.mp hc]
    rfl
  have hwhole_ne : digits ++ List.replicate n '0' ≠ [] := by simp [hne]
  have hparse := parse?_of_point [] hwhole hfraction nofun
  refine ⟨_, hparse.trans (ofParts?_of_exponentPart? hwhole_ne rfl), ?_⟩
  have hvalue : ofDigits (digits ++ List.replicate n '0' ++ ['0']) = 10 * (10 ^ n * ofDigits digits) := by
    rw [ofDigits_append, ofDigits_append_zeros]
    rfl
  unfold value
  dsimp only
  rw [hvalue, zpow_natCast]
  push_cast
  norm_num
  ring

/-- Digits with the point among them. -/
theorem parse?_among {digits : List Char} (hne : digits ≠ [])
    (hdigits : ∀ c ∈ digits, c.isDigit = true) {n : Nat} (h : n < digits.length) :
    parse? (digits.take (n + 1) ++ '.' :: digits.drop (n + 1))
      = some ⟨ofDigits digits, n + 1 - digits.length⟩ := by
  have htake : ∀ c ∈ digits.take (n + 1), c.isDigit = true :=
    fun c hc => hdigits c (List.mem_of_mem_take hc)
  have hdrop : ∀ c ∈ digits.drop (n + 1), c.isDigit = true :=
    fun c hc => hdigits c (List.mem_of_mem_drop hc)
  have htake_ne : digits.take (n + 1) ≠ [] := by simp [hne]
  have hparse := parse?_of_point [] htake hdrop nofun
  rw [List.append_nil] at hparse
  refine hparse.trans ((ofParts?_of_exponentPart? htake_ne rfl).trans ?_)
  rw [List.take_append_drop, List.length_drop]
  congr 2
  omega

/-- Digits with the point and zeros before them. -/
theorem parse?_before {digits : List Char} (hdigits : ∀ c ∈ digits, c.isDigit = true) (n : Nat) :
    parse? ('0' :: '.' :: List.replicate n '0' ++ digits)
      = some ⟨ofDigits digits, -(n + digits.length : Nat)⟩ := by
  have hfraction : ∀ c ∈ List.replicate n '0' ++ digits, c.isDigit = true := by
    intro c hc
    rcases List.mem_append.mp hc with hc | hc
    · exact isDigit_of_mem_zeros hc
    · exact hdigits c hc
  have hzero : ∀ c ∈ ['0'], c.isDigit = true := by
    intro c hc
    rw [List.mem_singleton.mp hc]
    rfl
  have hparse := parse?_of_point [] hzero hfraction nofun
  rw [List.append_nil] at hparse
  refine hparse.trans ((ofParts?_of_exponentPart? (List.cons_ne_nil _ _) rfl).trans ?_)
  rw [List.length_append, List.length_replicate, ← List.append_assoc, List.singleton_append,
    ← List.replicate_succ, ofDigits_zeros_append]
  congr 2
  omega

/-- Digits with an exponent after them, and with the point after the first one if there are more. -/
theorem parse?_scientific {digits part : List Char} (hne : digits ≠ [])
    (hdigits : ∀ c ∈ digits, c.isDigit = true) {lead : Int}
    (hpart : exponentPart? ('e' :: part) = some lead) :
    parse? (digits.take 1 ++ (if digits.length = 1 then [] else '.' :: digits.drop 1)
        ++ 'e' :: part)
      = some ⟨ofDigits digits, lead + 1 - digits.length⟩ := by
  have hlength : 0 < digits.length := List.length_pos_iff.mpr hne
  have hletter : ∀ c ∈ ('e' :: part).head?, c.isDigit = false ∧ c ≠ '.' := by
    rintro _ ⟨⟩
    exact ⟨rfl, by decide⟩
  split
  · rename_i hone
    rw [List.append_nil, List.take_of_length_le (by omega)]
    refine (parse?_of_parts hdigits hletter).trans
      ((ofParts?_of_exponentPart? hne hpart).trans ?_)
    rw [List.append_nil]
    congr 2
    simp only [List.length_nil]
    omega
  · have htake : ∀ c ∈ digits.take 1, c.isDigit = true :=
      fun c hc => hdigits c (List.mem_of_mem_take hc)
    have hdrop : ∀ c ∈ digits.drop 1, c.isDigit = true :=
      fun c hc => hdigits c (List.mem_of_mem_drop hc)
    have htake_ne : digits.take 1 ≠ [] := by simp [hne]
    have hparse := parse?_of_point ('e' :: part) htake hdrop fun c hc => (hletter c hc).1
    rw [List.append_assoc, List.cons_append]
    refine hparse.trans ((ofParts?_of_exponentPart? htake_ne hpart).trans ?_)
    rw [List.take_append_drop, List.length_drop]
    congr 2
    omega

/-- **Reading back.** What a layout writes is read as a decimal of the same value. -/
theorem parse?_digits (layout : Layout) (x : Decimal) :
    ∃ y, parse? (layout.digits x) = some y ∧ y.value = x.value := by
  obtain ⟨number, exponent⟩ := x
  have hne : Nat.toDigits 10 number ≠ [] := Nat.toDigits_ne_nil
  have hdigits : ∀ c ∈ Nat.toDigits 10 number, c.isDigit = true :=
    fun _ => isDigit_of_mem_toDigits
  -- from here on the digits are any characters that are digits
  obtain ⟨digits, hnumber⟩ : ∃ digits, Nat.toDigits 10 number = digits := ⟨_, rfl⟩
  obtain rfl : ofDigits digits = number := by rw [← hnumber, ofDigits_toDigits]
  unfold Layout.digits
  dsimp only
  rw [hnumber] at hne hdigits ⊢
  have hlength : 0 < digits.length := List.length_pos_iff.mpr hne
  obtain ⟨lead, hlead⟩ : ∃ lead : Int, exponent + digits.length - 1 = lead := ⟨_, rfl⟩
  rw [hlead]
  split
  · split
    · obtain ⟨n, rfl⟩ := Int.eq_ofNat_of_zero_le ‹0 ≤ exponent›
      exact parse?_zeros hne hdigits n
    · split
      · refine ⟨_, parse?_among hne hdigits (by omega), ?_⟩
        rw [show ((lead.toNat : Int) + 1 - digits.length) = exponent by omega]
      · refine ⟨_, parse?_before hdigits _, ?_⟩
        rw [show (-((lead.natAbs - 1 + digits.length : Nat) : Int)) = exponent by omega]
  · rw [List.append_assoc _ ('e' :: _)]
    refine ⟨_, parse?_scientific hne hdigits (exponentPart?_lead layout lead), ?_⟩
    rw [show lead + 1 - digits.length = exponent by omega]

/-- The text of a magnitude is read as zero for zero, and else as a decimal that rounds to it. -/
theorem parse?_magnitude (layout : Layout) (x : Binary64) :
    ∃ y, parse? (if x.significand = 0 then ['0', '.', '0']
        else layout.digits (shortest x.significand x.exponent)) = some y ∧
      ((x.rank = 0 ∧ y.value = 0) ∨ Binary64.Rounds x.rank y.value) := by
  split
  · rename_i h
    exact ⟨⟨0, -1⟩, rfl, .inl ⟨x.significand_eq_zero_iff.mp h, by simp [value]⟩⟩
  · rename_i h
    have hpos : 0 < x.rank := Nat.pos_of_ne_zero (mt x.significand_eq_zero_iff.mpr h)
    obtain ⟨y, hparse, hvalue⟩ := parse?_digits layout (shortest x.significand x.exponent)
    refine ⟨y, hparse, .inr ?_⟩
    rw [hvalue]
    exact shortest_rounds hpos

theorem head_ne_of_parse? {cs : List Char} {y : Decimal} (h : parse? cs = some y) :
    cs.head? ≠ some '-' := by
  intro hhead
  cases cs with
  | nil => cases hhead
  | cons c cs =>
    obtain rfl : c = '-' := Option.some.inj hhead
    cases h

theorem text_injective (layout : Layout) : Function.Injective layout.text := by
  intro x x' h
  obtain ⟨y, hparse, hrounds⟩ := parse?_magnitude layout x
  obtain ⟨y', hparse', hrounds'⟩ := parse?_magnitude layout x'
  have hhead := head_ne_of_parse? hparse
  have hhead' := head_ne_of_parse? hparse'
  simp only [Layout.text] at h
  generalize (if x.significand = 0 then ['0', '.', '0']
    else layout.digits (shortest x.significand x.exponent)) = text at *
  generalize (if x'.significand = 0 then ['0', '.', '0']
    else layout.digits (shortest x'.significand x'.exponent)) = text' at *
  -- a magnitude does not begin with a sign, so a sign in front of it is that of the number
  have hboth : x.negative = x'.negative ∧ text = text' := by
    cases hx : x.negative <;> cases hx' : x'.negative <;> rw [hx, hx'] at h
    · exact ⟨rfl, h⟩
    · exact absurd (congrArg List.head? h) hhead
    · exact absurd (congrArg List.head? h).symm hhead'
    · exact ⟨rfl, List.tail_eq_of_cons_eq h⟩
  obtain ⟨hnegative, rfl⟩ := hboth
  obtain rfl : y = y' := Option.some.inj (hparse.symm.trans hparse')
  have hrank : x.rank = x'.rank := Binary64.rank_eq_of_rounds hrounds hrounds'
  cases x
  cases x'
  cases hnegative
  cases hrank
  rfl

/-! ## What numerals are made of -/

/-- The characters of numerals: digits, signs, the point and the letter of exponents. -/
def isMark (c : Char) : Bool :=
  c.isDigit || c == '-' || c == '+' || c == '.' || c == 'e'

/-- The marks that only a numeral with a fraction or an exponent has. -/
def isFractionMark (c : Char) : Bool :=
  c == '.' || c == 'e'

theorem isMark_of_isDigit {c : Char} (h : c.isDigit = true) : isMark c = true := by
  simp [isMark, h]

theorem isMark_of_mem_toDigits {n : Nat} : ∀ c ∈ Nat.toDigits 10 n, isMark c = true :=
  fun _ hc => isMark_of_isDigit (isDigit_of_mem_toDigits hc)

theorem isMark_of_mem_zeros {n : Nat} : ∀ c ∈ List.replicate n '0', isMark c = true :=
  fun _ hc => isMark_of_isDigit (isDigit_of_mem_zeros hc)

theorem isMark_of_mem_digits (layout : Layout) (x : Decimal) :
    ∀ c ∈ layout.digits x, isMark c = true := by
  have hdigits : ∀ c ∈ Nat.toDigits 10 x.digits, isMark c = true := isMark_of_mem_toDigits
  have htake (n : Nat) : ∀ c ∈ (Nat.toDigits 10 x.digits).take n, isMark c = true :=
    fun c hc => hdigits c (List.mem_of_mem_take hc)
  have hdrop (n : Nat) : ∀ c ∈ (Nat.toDigits 10 x.digits).drop n, isMark c = true :=
    fun c hc => hdigits c (List.mem_of_mem_drop hc)
  unfold Layout.digits
  dsimp only
  split
  · split
    · simp only [List.forall_mem_append, List.forall_mem_cons]
      exact ⟨⟨hdigits, isMark_of_mem_zeros⟩, rfl, rfl, nofun⟩
    · split
      · simp only [List.forall_mem_append, List.forall_mem_cons]
        exact ⟨htake _, rfl, hdrop _⟩
      · simp only [List.cons_append, List.forall_mem_append, List.forall_mem_cons]
        exact ⟨rfl, rfl, isMark_of_mem_zeros, hdigits⟩
  · simp only [List.forall_mem_append, List.forall_mem_cons]
    refine ⟨⟨⟨htake _, ?_⟩, rfl, ?_⟩, isMark_of_mem_toDigits⟩
    · split
      · exact nofun
      · simp only [List.forall_mem_cons]
        exact ⟨rfl, hdrop _⟩
    · split
      · simp [isMark]
      · split
        · simp [isMark]
        · exact nofun

theorem exists_fractionMark_digits (layout : Layout) (x : Decimal) :
    ∃ c ∈ layout.digits x, isFractionMark c = true := by
  have hpoint : isFractionMark '.' = true := rfl
  have hletter : isFractionMark 'e' = true := rfl
  unfold Layout.digits
  dsimp only
  split
  · refine ⟨'.', ?_, hpoint⟩
    split
    · simp
    · split
      · simp
      · simp
  · exact ⟨'e', by simp, hletter⟩

/-- The text of a binary number is made of marks, and tells it from an integer. -/
theorem marks_text (layout : Layout) (x : Binary64) :
    (∀ c ∈ layout.text x, isMark c = true) ∧ ∃ c ∈ layout.text x, isFractionMark c = true := by
  have hmagnitude : (∀ c ∈ (if x.significand = 0 then ['0', '.', '0']
        else layout.digits (shortest x.significand x.exponent)), isMark c = true) ∧
      ∃ c ∈ (if x.significand = 0 then ['0', '.', '0']
        else layout.digits (shortest x.significand x.exponent)), isFractionMark c = true := by
    split
    · exact ⟨by simp [isMark], '.', by simp, rfl⟩
    · exact ⟨isMark_of_mem_digits _ _, exists_fractionMark_digits _ _⟩
  obtain ⟨hmarks, c, hc, hfraction⟩ := hmagnitude
  unfold Layout.text
  dsimp only
  split
  · simp only [List.forall_mem_cons]
    exact ⟨⟨rfl, hmarks⟩, c, List.mem_cons_of_mem _ hc, hfraction⟩
  · exact ⟨hmarks, c, hc, hfraction⟩

end Decimal

end FactoryMigration
