import Mathlib.Tactic.FieldSimp
import FactoryMigration.Proofs.ReadBack

set_option autoImplicit false

/-! # Rounding to the nearest binary number

A quotient is rounded to the nearest magnitude, and one that lies halfway to the even rank. So a quotient
between the midpoints around a magnitude is rounded to that magnitude (`Binary64.ofRatio?_of_rounds`), and
a decimal likewise (`Binary64.ofDecimal?_of_rounds`). -/

namespace FactoryMigration

namespace Binary64

/-! ## Rounding to an integer -/

/-- A quotient and its rounded integer differ by a half at most, and an odd integer by less. -/
theorem roundHalfEven_spec (num : Nat) {den : Nat} (hden : 0 < den) :
    2 * (roundHalfEven num den * den) ≤ 2 * num + den ∧
      2 * num ≤ 2 * (roundHalfEven num den * den) + den ∧
      (roundHalfEven num den % 2 = 1 → 2 * (roundHalfEven num den * den) < 2 * num + den ∧
        2 * num < 2 * (roundHalfEven num den * den) + den) := by
  have hsplit : num / den * den + num % den = num := Nat.div_add_mod' num den
  have hrest : num % den < den := Nat.mod_lt num hden
  unfold roundHalfEven
  dsimp only
  split
  · rw [Nat.add_mul, Nat.one_mul]
    omega
  · omega

/-- The same over the rationals. -/
theorem roundHalfEven_near (num : Nat) {den : Nat} (hden : 0 < den) :
    ((roundHalfEven num den : ℚ) - 1 / 2 ≤ num / den ∧
      (num / den : ℚ) ≤ roundHalfEven num den + 1 / 2) ∧
      (roundHalfEven num den % 2 = 1 → (roundHalfEven num den : ℚ) - 1 / 2 < num / den ∧
        (num / den : ℚ) < roundHalfEven num den + 1 / 2) := by
  obtain ⟨hlow, hhigh, hodd⟩ := roundHalfEven_spec num hden
  have hpos : (0 : ℚ) < den := by exact_mod_cast hden
  generalize roundHalfEven num den = rounded at *
  have hlow : 2 * ((rounded : ℚ) * den) ≤ 2 * num + den := by exact_mod_cast hlow
  have hhigh : 2 * (num : ℚ) ≤ 2 * (rounded * den) + den := by exact_mod_cast hhigh
  refine ⟨⟨(le_div_iff₀ hpos).mpr (by linarith), (div_le_iff₀ hpos).mpr (by linarith)⟩, fun h => ?_⟩
  obtain ⟨hlow, hhigh⟩ := hodd h
  have hlow : 2 * ((rounded : ℚ) * den) < 2 * num + den := by exact_mod_cast hlow
  have hhigh : 2 * (num : ℚ) < 2 * (rounded * den) + den := by exact_mod_cast hhigh
  exact ⟨(lt_div_iff₀ hpos).mpr (by linarith), (div_lt_iff₀ hpos).mpr (by linarith)⟩

/-- The quotient that is rounded at an exponent. -/
theorem scaledRatio (num : Nat) {den : Nat} (hden : 0 < den) (exponent : Int) :
    ((num * twoTo (-exponent) : Nat) : ℚ) / (den * twoTo exponent : Nat)
      = (num / den : ℚ) / 2 ^ exponent := by
  have hden' : (den : ℚ) ≠ 0 := by exact_mod_cast hden.ne'
  have htwo : (twoTo exponent : ℚ) ≠ 0 := by exact_mod_cast (twoTo_pos exponent).ne'
  have htwo' : (twoTo (-exponent) : ℚ) ≠ 0 := by exact_mod_cast (twoTo_pos (-exponent)).ne'
  rw [← twoTo_div]
  push_cast
  field_simp

/-! ## The exponent of a quotient -/

/-- The lengths of two numbers tell their quotient up to a factor of four. -/
theorem ratio_bounds {num den : Nat} (hnum : num ≠ 0) (hden : den ≠ 0) :
    (2 : ℚ) ^ ((num.log2 : Int) - den.log2 - 1) < num / den ∧
      (num / den : ℚ) < 2 ^ ((num.log2 : Int) - den.log2 + 1) := by
  have hnumLow : (2 : ℚ) ^ (num.log2 : Int) ≤ num := by
    exact_mod_cast Nat.log2_self_le hnum
  have hnumHigh : (num : ℚ) < 2 ^ ((num.log2 : Int) + 1) := by
    exact_mod_cast Nat.lt_log2_self
  have hdenLow : (2 : ℚ) ^ (den.log2 : Int) ≤ den := by
    exact_mod_cast Nat.log2_self_le hden
  have hdenHigh : (den : ℚ) < 2 ^ ((den.log2 : Int) + 1) := by
    exact_mod_cast Nat.lt_log2_self
  have hpos : (0 : ℚ) < den := by exact_mod_cast Nat.pos_of_ne_zero hden
  constructor
  · rw [lt_div_iff₀ hpos]
    calc (2 : ℚ) ^ ((num.log2 : Int) - den.log2 - 1) * den
        < 2 ^ ((num.log2 : Int) - den.log2 - 1) * 2 ^ ((den.log2 : Int) + 1) := by gcongr
      _ = 2 ^ (num.log2 : Int) := by
          rw [← zpow_add₀ (by norm_num)]
          congr 1
          ring
      _ ≤ num := hnumLow
  · rw [div_lt_iff₀ hpos]
    calc (num : ℚ) < 2 ^ ((num.log2 : Int) + 1) := hnumHigh
      _ = 2 ^ ((num.log2 : Int) - den.log2 + 1) * 2 ^ (den.log2 : Int) := by
          rw [← zpow_add₀ (by norm_num)]
          congr 1
          ring
      _ ≤ 2 ^ ((num.log2 : Int) - den.log2 + 1) * den := by gcongr

/-- The exponent that a quotient is rounded at. -/
def ratioExponent (num den : Nat) : Int :=
  let guess : Int := (num.log2 : Int) - den.log2 - 52
  let enough := fullSignificand * den * twoTo guess ≤ num * twoTo (-guess)
  max (if enough then guess else guess - 1) minExponent

theorem ofRatio?_eq {num : Nat} (hnum : num ≠ 0) (negative : Bool) (den : Nat) :
    ofRatio? negative num den
      = ofRank? negative ((ratioExponent num den - minExponent).toNat * fullSignificand
          + roundHalfEven (num * twoTo (-ratioExponent num den))
            (den * twoTo (ratioExponent num den))) :=
  if_neg hnum

theorem fullSignificand_eq : (fullSignificand : ℚ) = 2 ^ (52 : Int) := by
  norm_num [fullSignificand]

theorem zpow_split (exponent : Int) : (2 : ℚ) ^ exponent = 2 * 2 ^ (exponent - 1) := by
  rw [zpow_sub_one₀ (by norm_num)]
  ring

/-- The guess at an exponent is right or one too high. -/
theorem guess_spec {ratio : ℚ} {guess : Int} (hlow : (2 : ℚ) ^ (guess + 51) < ratio)
    (hhigh : ratio < 2 ^ (guess + 53)) :
    ∃ exponent, (if fullSignificand * 2 ^ guess ≤ ratio then guess else guess - 1) = exponent ∧
      fullSignificand * 2 ^ exponent ≤ ratio ∧ ratio < 2 * (fullSignificand * 2 ^ exponent) := by
  have htop : (2 : ℚ) ^ (guess + 53) = 2 * (fullSignificand * 2 ^ guess) := by
    rw [fullSignificand_eq, ← zpow_add₀ (by norm_num), add_comm guess, zpow_split]
    congr 2
    ring
  have hbottom : (2 : ℚ) ^ (guess + 51) = fullSignificand * 2 ^ (guess - 1) := by
    rw [fullSignificand_eq, ← zpow_add₀ (by norm_num)]
    congr 1
    ring
  rw [htop] at hhigh
  rw [hbottom] at hlow
  by_cases henough : (fullSignificand : ℚ) * 2 ^ guess ≤ ratio
  · exact ⟨guess, if_pos henough, henough, hhigh⟩
  · refine ⟨guess - 1, if_neg henough, hlow.le, ?_⟩
    rw [not_le, zpow_split guess] at henough
    linarith

/-- At its exponent a quotient has 53 bits at most, and exactly so many above the least exponent. -/
theorem ratioExponent_spec {num den : Nat} (hnum : num ≠ 0) (hden : den ≠ 0) :
    minExponent ≤ ratioExponent num den ∧
      (num / den : ℚ) < 2 * (fullSignificand * 2 ^ ratioExponent num den) ∧
      (minExponent < ratioExponent num den →
        (fullSignificand : ℚ) * 2 ^ ratioExponent num den ≤ num / den) := by
  obtain ⟨hlow, hhigh⟩ := ratio_bounds hnum hden
  have henough (guess : Int) : fullSignificand * den * twoTo guess ≤ num * twoTo (-guess) ↔
      (fullSignificand : ℚ) * 2 ^ guess ≤ num / den := by
    have htwo : (0 : ℚ) < twoTo (-guess) := by exact_mod_cast twoTo_pos (-guess)
    have hpos : (0 : ℚ) < den := by exact_mod_cast Nat.pos_of_ne_zero hden
    rw [← twoTo_div, mul_div_assoc', div_le_div_iff₀ htwo hpos, mul_right_comm]
    exact_mod_cast Iff.rfl
  unfold ratioExponent
  dsimp only
  simp only [henough]
  rw [show (num.log2 : Int) - den.log2 - 1 = num.log2 - den.log2 - 52 + 51 by ring] at hlow
  rw [show (num.log2 : Int) - den.log2 + 1 = num.log2 - den.log2 - 52 + 53 by ring] at hhigh
  obtain ⟨exponent, hexponent, hleast, hmost⟩ := guess_spec hlow hhigh
  rw [hexponent]
  refine ⟨le_max_right _ _, hmost.trans_le ?_, fun habove => ?_⟩
  · have : (2 : ℚ) ^ exponent ≤ 2 ^ max exponent minExponent :=
      zpow_le_zpow_right₀ (by norm_num) (le_max_left _ _)
    gcongr
  · rwa [max_eq_left (by omega)]

/-! ## The rank of a rounded significand -/

section

variable {steps rounded : Nat}

/-- A significand of 53 bits, or any one at the least exponent. -/
theorem at_rank (hhigh : rounded < 2 * fullSignificand) (hlow : steps ≠ 0 → fullSignificand ≤ rounded) :
    significandAt (steps * fullSignificand + rounded) = rounded ∧
      exponentAt (steps * fullSignificand + rounded) = steps + minExponent := by
  unfold significandAt exponentAt fullSignificand at *
  split <;> omega

/-- A magnitude is its significand at its exponent, also if the significand was rounded up to 54
bits. -/
theorem magnitude_rank (hhigh : rounded ≤ 2 * fullSignificand)
    (hlow : steps ≠ 0 → fullSignificand ≤ rounded) :
    magnitude (steps * fullSignificand + rounded) = rounded * 2 ^ (steps + minExponent) ∧
      steps + minExponent ≤ exponentAt (steps * fullSignificand + rounded) := by
  rcases hhigh.lt_or_eq with hlt | rfl
  · obtain ⟨hsignificand, hexponent⟩ := at_rank hlt hlow
    rw [magnitude, hsignificand, hexponent]
    exact ⟨rfl, le_rfl⟩
  · have hnext : steps * fullSignificand + 2 * fullSignificand
        = (steps + 1) * fullSignificand + fullSignificand := by ring
    have hat : significandAt ((steps + 1) * fullSignificand + fullSignificand) = fullSignificand ∧
        exponentAt ((steps + 1) * fullSignificand + fullSignificand)
          = (steps + 1 : Nat) + minExponent :=
      at_rank (by decide) fun _ => le_rfl
    obtain ⟨hsignificand, hexponent⟩ := hat
    rw [hnext, magnitude, hsignificand, hexponent]
    constructor
    · push_cast
      rw [show (steps : Int) + 1 + minExponent = steps + minExponent + 1 by ring,
        zpow_add_one₀ (by norm_num)]
      ring
    · push_cast
      omega

theorem midpoint_eq_add (rank : Nat) :
    midpoint rank = magnitude rank + 2 ^ exponentAt rank / 2 := by
  rw [midpoint, magnitude_succ]
  ring

theorem half_le_midpoint (hhigh : rounded ≤ 2 * fullSignificand)
    (hlow : steps ≠ 0 → fullSignificand ≤ rounded) :
    ((rounded : ℚ) + 1 / 2) * 2 ^ (steps + minExponent)
      ≤ midpoint (steps * fullSignificand + rounded) := by
  obtain ⟨hmagnitude, hexponent⟩ := magnitude_rank hhigh hlow
  have hunit : (2 : ℚ) ^ (steps + minExponent)
      ≤ 2 ^ exponentAt (steps * fullSignificand + rounded) :=
    zpow_le_zpow_right₀ (by norm_num) hexponent
  rw [midpoint_eq_add, hmagnitude]
  linarith

/-- Within an exponent the midpoint below is half a unit away. -/
theorem midpoint_pred (hrounded : 0 < rounded) (hhigh : rounded ≤ 2 * fullSignificand)
    (hlow : steps ≠ 0 → fullSignificand < rounded) :
    midpoint (steps * fullSignificand + rounded - 1)
      = ((rounded : ℚ) - 1 / 2) * 2 ^ (steps + minExponent) := by
  have hat : significandAt (steps * fullSignificand + (rounded - 1)) = rounded - 1 ∧
      exponentAt (steps * fullSignificand + (rounded - 1)) = steps + minExponent :=
    at_rank (by omega) fun h => Nat.le_pred_of_lt (hlow h)
  obtain ⟨hsignificand, hexponent⟩ := hat
  rw [Nat.add_sub_assoc hrounded, midpoint_eq_add, magnitude, hsignificand, hexponent,
    Nat.cast_sub hrounded]
  push_cast
  ring

/-- Below the first significand of an exponent the midpoint lies below its value. -/
theorem midpoint_pred_first (steps : Nat) :
    midpoint (steps * fullSignificand + fullSignificand - 1)
      < fullSignificand * 2 ^ (steps + minExponent) := by
  have hpos : 0 < steps * fullSignificand + fullSignificand :=
    Nat.add_pos_right _ (by decide)
  have hmagnitude : magnitude (steps * fullSignificand + fullSignificand)
      = fullSignificand * 2 ^ (steps + minExponent) :=
    (magnitude_rank (by omega) fun _ => le_rfl).1
  have hmono := magnitude_strictMono (Nat.sub_lt hpos Nat.one_pos)
  rw [midpoint, Nat.sub_add_cancel hpos]
  rw [hmagnitude] at hmono ⊢
  linarith

end

/-! ## Nearest magnitudes -/

/-- The value rounds to the magnitude of the rank, which may be zero. -/
def Nearest (rank : Nat) (value : ℚ) : Prop :=
  if rank = 0 then value ≤ midpoint 0 else Rounds rank value

theorem Nearest.eq_of_rounds {r s : Nat} {value : ℚ} (h : Nearest r value) (hpos : 0 < s)
    (h' : Rounds s value) : r = s := by
  by_cases hr : r = 0
  · rw [Nearest, if_pos hr] at h
    -- zero and a greater rank can only meet at the first midpoint, which the odd rank one leaves
    have hfirst : s - 1 = 0 := by
      have := midpoint_strictMono.le_iff_le.mp (h'.le.1.trans h)
      omega
    have hodd := (h'.lt_of_odd (by omega)).1
    rw [hfirst] at hodd
    exact absurd h (not_le.mpr hodd)
  · rw [Nearest, if_neg hr] at h
    exact h.unique h'

/-- The value is rounded to a significand, so many exponents above the least one: it is half a unit away
at most, less if the significand is odd, and does not lie below the values of the exponent. -/
structure RoundsAt (steps rounded : Nat) (value : ℚ) : Prop where
  le_full : rounded ≤ 2 * fullSignificand
  full_le : steps ≠ 0 → fullSignificand ≤ rounded
  begins : steps ≠ 0 → (fullSignificand : ℚ) * 2 ^ (steps + minExponent) ≤ value
  near : ((rounded : ℚ) - 1 / 2) * 2 ^ (steps + minExponent) ≤ value ∧
    value ≤ (rounded + 1 / 2) * 2 ^ (steps + minExponent)
  nearer : rounded % 2 = 1 → ((rounded : ℚ) - 1 / 2) * 2 ^ (steps + minExponent) < value ∧
    value < (rounded + 1 / 2) * 2 ^ (steps + minExponent)

namespace RoundsAt

variable {steps rounded : Nat} {value : ℚ}

/-- The significand follows from where the value lies in its exponent. -/
theorem of_near (hmost : value < 2 * (fullSignificand * 2 ^ (steps + minExponent)))
    (hbegins : steps ≠ 0 → (fullSignificand : ℚ) * 2 ^ (steps + minExponent) ≤ value)
    (hnear : ((rounded : ℚ) - 1 / 2) * 2 ^ (steps + minExponent) ≤ value ∧
      value ≤ (rounded + 1 / 2) * 2 ^ (steps + minExponent))
    (hnearer : rounded % 2 = 1 → ((rounded : ℚ) - 1 / 2) * 2 ^ (steps + minExponent) < value ∧
      value < (rounded + 1 / 2) * 2 ^ (steps + minExponent)) :
    RoundsAt steps rounded value := by
  have hunit : (0 : ℚ) < 2 ^ (steps + minExponent) := by positivity
  have hfull : rounded ≤ 2 * fullSignificand := by
    have hlt : (rounded : ℚ) < (2 * fullSignificand + 1 : Nat) := by
      have hlt := hnear.1.trans_lt hmost
      rw [← mul_assoc] at hlt
      push_cast
      linarith [lt_of_mul_lt_mul_right hlt hunit.le]
    exact Nat.lt_succ_iff.mp (by exact_mod_cast hlt)
  have hleast (hne : steps ≠ 0) : fullSignificand ≤ rounded := by
    have hlt : (fullSignificand : ℚ) < (rounded + 1 : Nat) := by
      push_cast
      linarith [le_of_mul_le_mul_right ((hbegins hne).trans hnear.2) hunit]
    exact Nat.lt_succ_iff.mp (by exact_mod_cast hlt)
  exact ⟨hfull, hleast, hbegins, hnear, hnearer⟩

variable (h : RoundsAt steps rounded value)

include h

theorem midpoint_pred_le (hpos : 0 < steps * fullSignificand + rounded) :
    midpoint (steps * fullSignificand + rounded - 1) ≤ value ∧
      (rounded % 2 = 1 → midpoint (steps * fullSignificand + rounded - 1) < value) := by
  by_cases hfirst : steps ≠ 0 ∧ rounded = fullSignificand
  · -- the gap is half as wide, but values begin above it
    have hlt := (midpoint_pred_first steps).trans_le (h.begins hfirst.1)
    rw [hfirst.2]
    exact ⟨hlt.le, fun _ => hlt⟩
  · have hlow (hsteps : steps ≠ 0) : fullSignificand < rounded :=
      (h.full_le hsteps).lt_of_ne fun heq => hfirst ⟨hsteps, heq.symm⟩
    have hrounded : 0 < rounded := by
      by_cases hsteps : steps = 0
      · rwa [hsteps, Nat.zero_mul, Nat.zero_add] at hpos
      · exact Nat.zero_lt_of_lt (hlow hsteps)
    rw [midpoint_pred hrounded h.le_full hlow]
    exact ⟨h.near.1, fun hodd => (h.nearer hodd).1⟩

/-- Such a value rounds to the magnitude of its significand. -/
theorem nearest : Nearest (steps * fullSignificand + rounded) value := by
  have habove := half_le_midpoint h.le_full h.full_le
  have hmod : (steps * fullSignificand + rounded) % 2 = rounded % 2 := by
    unfold fullSignificand
    omega
  unfold Nearest
  split
  · rename_i hzero
    rw [hzero] at habove
    exact h.near.2.trans habove
  · obtain ⟨hlow, hlowOdd⟩ := h.midpoint_pred_le (by omega)
    unfold Rounds
    rw [hmod]
    split
    · exact ⟨hlow, h.near.2.trans habove⟩
    · have hone : rounded % 2 = 1 := by omega
      exact ⟨hlowOdd hone, (h.nearer hone).2.trans_le habove⟩

end RoundsAt

/-- **Quotients.** A quotient that rounds to a magnitude in the range is rounded to it. -/
theorem ofRatio?_of_rounds {num den rank : Nat} (hden : 0 < den) (hpos : 0 < rank)
    (h : Rounds rank (num / den)) (hrank : rank < magnitudes) (negative : Bool) :
    ofRatio? negative num den = some ⟨negative, rank, hrank⟩ := by
  have hnum : num ≠ 0 := by
    rintro rfl
    have := h.pos
    simp at this
  obtain ⟨hleast, hmost, habove⟩ := ratioExponent_spec hnum hden.ne'
  rw [ofRatio?_eq hnum]
  have hscaled : 0 < den * twoTo (ratioExponent num den) := Nat.mul_pos hden (twoTo_pos _)
  obtain ⟨hnear, hodd⟩ := roundHalfEven_near (num * twoTo (-ratioExponent num den)) hscaled
  rw [scaledRatio num hden] at hnear hodd
  generalize roundHalfEven (num * twoTo (-ratioExponent num den))
    (den * twoTo (ratioExponent num den)) = rounded at *
  obtain ⟨steps, hexponent⟩ : ∃ steps : Nat, ratioExponent num den = steps + minExponent :=
    ⟨(ratioExponent num den - minExponent).toNat, by omega⟩
  rw [hexponent] at hmost habove hnear hodd ⊢
  have hunit : (0 : ℚ) < 2 ^ ((steps : Int) + minExponent) := by positivity
  rw [le_div_iff₀ hunit, div_le_iff₀ hunit] at hnear
  rw [lt_div_iff₀ hunit, div_lt_iff₀ hunit] at hodd
  have hrounds : RoundsAt steps rounded (num / den) :=
    .of_near hmost (fun hne => habove (by omega)) hnear hodd
  obtain rfl := hrounds.nearest.eq_of_rounds hpos h
  rw [show ((steps : Int) + minExponent - minExponent).toNat = steps by omega]
  exact dif_pos hrank

/-! ## Decimals -/

theorem midpoint_zero : midpoint 0 = 2 ^ (-1075 : Int) := by
  rw [midpoint_eq_above]
  show ((2 : Nat) : ℚ) * 2 ^ (-1076 : Int) = 2 ^ (-1075 : Int)
  rw [zpow_split (-1075)]
  norm_num

theorem magnitude_magnitudes : magnitude magnitudes = 2 ^ (1024 : Int) := by
  have hsignificand : significandAt magnitudes = fullSignificand := by decide
  have hexponent : exponentAt magnitudes = 972 := by decide
  rw [magnitude, hsignificand, hexponent, fullSignificand_eq, ← zpow_add₀ (by norm_num)]
  rfl

theorem two_zpow_lt_ten_zpow : (2 : ℚ) ^ (1100 : Int) < 10 ^ (400 : Int) := by
  rw [show (1100 : Int) = 11 * 100 from rfl, show (400 : Int) = 4 * 100 from rfl, zpow_mul, zpow_mul]
  exact zpow_lt_zpow_left₀ (by norm_num) (by norm_num) (by norm_num)

/-- What rounds to a magnitude in the range lies between powers of ten. -/
theorem Rounds.bounds {rank : Nat} {value : ℚ} (h : Rounds rank value) (hrank : rank < magnitudes) :
    (10 : ℚ) ^ (-400 : Int) < value ∧ value < 10 ^ (400 : Int) := by
  have hpower {exponent : Int} (hexponent : exponent ≤ 1100) : (2 : ℚ) ^ exponent < 10 ^ (400 : Int) :=
    (zpow_le_zpow_right₀ (by norm_num) hexponent).trans_lt two_zpow_lt_ten_zpow
  constructor
  · calc (10 : ℚ) ^ (-400 : Int) < 2 ^ (-1075 : Int) := by
          rw [zpow_neg, zpow_neg]
          exact inv_strictAnti₀ (by positivity) (hpower (by norm_num))
      _ = midpoint 0 := midpoint_zero.symm
      _ ≤ midpoint (rank - 1) := midpoint_strictMono.monotone (Nat.zero_le _)
      _ ≤ value := h.le.1
  · calc value ≤ midpoint rank := h.le.2
      _ < magnitude (rank + 1) := by
          have := magnitude_strictMono (show rank < rank + 1 by omega)
          rw [midpoint]
          linarith
      _ ≤ magnitude magnitudes := magnitude_strictMono.monotone hrank
      _ = 2 ^ (1024 : Int) := magnitude_magnitudes
      _ < 10 ^ (400 : Int) := hpower (by norm_num)

/-- The number of digits of a decimal and its exponent tell its value up to a factor of ten. -/
theorem value_bounds {x : Decimal} (h : x.digits ≠ 0) :
    (10 : ℚ) ^ (((Nat.toDigits 10 x.digits).length : Int) + x.exponent - 1) ≤ x.value ∧
      x.value < 10 ^ (((Nat.toDigits 10 x.digits).length : Int) + x.exponent) := by
  have hten : (0 : ℚ) < 10 ^ x.exponent := by positivity
  have hsize : 0 < (Nat.toDigits 10 x.digits).length := Nat.length_toDigits_pos
  have hhigh : x.digits < 10 ^ (Nat.toDigits 10 x.digits).length :=
    (Nat.length_toDigits_le_iff (by decide) hsize).mp le_rfl
  have hlow : 10 ^ ((Nat.toDigits 10 x.digits).length - 1) ≤ x.digits := by
    by_contra hlt
    rcases Nat.eq_zero_or_pos ((Nat.toDigits 10 x.digits).length - 1) with hone | hmore
    · rw [hone] at hlt
      omega
    · have := (Nat.length_toDigits_le_iff (by decide) hmore).mpr (not_le.mp hlt)
      omega
  generalize (Nat.toDigits 10 x.digits).length = size at *
  constructor
  · rw [show (size : Int) + x.exponent - 1 = ((size - 1 : Nat) : Int) + x.exponent by omega,
      zpow_add₀ (by norm_num), zpow_natCast, Decimal.value]
    have : ((10 : ℚ) ^ (size - 1)) ≤ x.digits := by exact_mod_cast hlow
    gcongr
  · rw [zpow_add₀ (by norm_num), zpow_natCast, Decimal.value]
    have : (x.digits : ℚ) < 10 ^ size := by exact_mod_cast hhigh
    gcongr

/-- **Decimals.** A decimal that rounds to a magnitude in the range is rounded to it. -/
theorem ofDecimal?_of_rounds {x : Decimal} {rank : Nat} (hpos : 0 < rank) (h : Rounds rank x.value)
    (hrank : rank < magnitudes) (negative : Bool) :
    ofDecimal? negative x.digits x.exponent = some ⟨negative, rank, hrank⟩ := by
  have hdigits : x.digits ≠ 0 := by
    intro hzero
    have := h.pos
    simp [Decimal.value, hzero] at this
  obtain ⟨hlow, hhigh⟩ := value_bounds hdigits
  obtain ⟨hleast, hmost⟩ := h.bounds hrank
  have hsmall := (zpow_lt_zpow_iff_right₀ (by norm_num : (1 : ℚ) < 10)).mp (hleast.trans hhigh)
  have hlarge := (zpow_lt_zpow_iff_right₀ (by norm_num : (1 : ℚ) < 10)).mp (hlow.trans_lt hmost)
  have hvalue : ((x.digits * tenTo x.exponent : Nat) : ℚ) / (tenTo (-x.exponent) : Nat) = x.value := by
    rw [Decimal.value, ← tenTo_div]
    push_cast
    ring
  unfold ofDecimal?
  dsimp only
  rw [if_neg (by omega), if_neg (by omega)]
  exact ofRatio?_of_rounds (tenTo_pos _) hpos (hvalue ▸ h) hrank negative

end Binary64

end FactoryMigration
