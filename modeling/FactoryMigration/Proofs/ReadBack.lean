import Mathlib.Algebra.Order.Field.Power
import Mathlib.Algebra.Order.Field.Rat
import Mathlib.Order.Monotone.Basic
import Mathlib.Tactic.Linarith
import Mathlib.Tactic.LinearCombination
import Mathlib.Tactic.Positivity
import Mathlib.Tactic.Ring
import FactoryMigration.Decimal.Shortest

set_option autoImplicit false

/-! # Decimals that read back

The decimal written for a binary number lies between the midpoints to the two neighbouring
magnitudes (`Decimal.shortest_rounds`). These ranges are disjoint, since a midpoint belongs to the
even one of its two ranks only, so a decimal belongs to at most one magnitude. -/

namespace FactoryMigration

/-! ## Values -/

/-- The value of a decimal. -/
def Decimal.value (x : Decimal) : ℚ :=
  x.digits * 10 ^ x.exponent

namespace Binary64

/-- The value of the magnitude of a rank. -/
def magnitude (rank : Nat) : ℚ :=
  significandAt rank * 2 ^ exponentAt rank

/-- The point halfway between the magnitude of a rank and the next one. -/
def midpoint (rank : Nat) : ℚ :=
  (magnitude rank + magnitude (rank + 1)) / 2

/-- The values that round to the magnitude of a rank other than zero. -/
def Rounds (rank : Nat) (value : ℚ) : Prop :=
  if rank % 2 = 0 then midpoint (rank - 1) ≤ value ∧ value ≤ midpoint rank
  else midpoint (rank - 1) < value ∧ value < midpoint rank

end Binary64

theorem twoTo_div (exponent : Int) :
    (twoTo exponent : ℚ) / twoTo (-exponent) = 2 ^ exponent := by
  obtain ⟨n, rfl | rfl⟩ := exponent.eq_nat_or_neg
  · simp [twoTo]
  · simp [twoTo]

theorem tenTo_div (exponent : Int) :
    (tenTo exponent : ℚ) / tenTo (-exponent) = 10 ^ exponent := by
  obtain ⟨n, rfl | rfl⟩ := exponent.eq_nat_or_neg
  · simp [tenTo]
  · simp [tenTo]

namespace Decimal

/-- The two sides of a scaled comparison have one denominator. -/
theorem scaled_lt_iff (d : Nat) (k : Int) (n : Nat) (q : Int) :
    d * tenTo k * twoTo (-q) < n * twoTo q * tenTo (-k) ↔ (d : ℚ) * 10 ^ k < n * 2 ^ q := by
  have hten : (0 : ℚ) < tenTo (-k) := by exact_mod_cast tenTo_pos (-k)
  have htwo : (0 : ℚ) < twoTo (-q) := by exact_mod_cast twoTo_pos (-q)
  rw [← tenTo_div, ← twoTo_div, mul_div_assoc', mul_div_assoc', div_lt_div_iff₀ hten htwo]
  exact_mod_cast Iff.rfl

theorem scaled_gt_iff (d : Nat) (k : Int) (n : Nat) (q : Int) :
    n * twoTo q * tenTo (-k) < d * tenTo k * twoTo (-q) ↔ (n : ℚ) * 2 ^ q < d * 10 ^ k := by
  have hten : (0 : ℚ) < tenTo (-k) := by exact_mod_cast tenTo_pos (-k)
  have htwo : (0 : ℚ) < twoTo (-q) := by exact_mod_cast twoTo_pos (-q)
  rw [← tenTo_div, ← twoTo_div, mul_div_assoc', mul_div_assoc', div_lt_div_iff₀ htwo hten]
  exact_mod_cast Iff.rfl

theorem compareScaled_eq_lt_iff (d : Nat) (k : Int) (n : Nat) (q : Int) :
    compareScaled d k n q = .lt ↔ (d : ℚ) * 10 ^ k < n * 2 ^ q := by
  rw [compareScaled, Nat.compare_eq_lt, scaled_lt_iff]

theorem compareScaled_eq_gt_iff (d : Nat) (k : Int) (n : Nat) (q : Int) :
    compareScaled d k n q = .gt ↔ (n : ℚ) * 2 ^ q < d * 10 ^ k := by
  rw [compareScaled, Nat.compare_eq_gt, scaled_gt_iff]

end Decimal

/-! ## Magnitudes in ascending order -/

namespace Binary64

theorem significandAt_mod_two (rank : Nat) : significandAt rank % 2 = rank % 2 := by
  unfold significandAt fullSignificand
  split <;> omega

theorem significand_eq_zero_iff (x : Binary64) : x.significand = 0 ↔ x.rank = 0 := by
  unfold significand significandAt fullSignificand
  split <;> omega

/-- From one rank to the next the significand grows by one, unless a new exponent begins. -/
theorem step_cases (rank : Nat) :
    (significandAt (rank + 1) = significandAt rank + 1 ∧
      exponentAt (rank + 1) = exponentAt rank ∧
      (significandAt (rank + 1) = fullSignificand → exponentAt (rank + 1) = minExponent)) ∨
    (significandAt rank + 1 = 2 * fullSignificand ∧ significandAt (rank + 1) = fullSignificand ∧
      exponentAt (rank + 1) = exponentAt rank + 1 ∧ minExponent < exponentAt (rank + 1)) := by
  unfold exponentAt significandAt fullSignificand minExponent
  split <;> split <;> omega

/-- A magnitude and the next one differ by a unit of the smaller one's exponent. -/
theorem magnitude_succ (rank : Nat) :
    magnitude (rank + 1) = magnitude rank + 2 ^ exponentAt rank := by
  unfold magnitude
  rcases step_cases rank with ⟨hsignificand, hexponent, -⟩ | ⟨hlast, hfirst, hexponent, -⟩
  · rw [hsignificand, hexponent]
    push_cast
    ring
  · have hlast : (significandAt rank : ℚ) + 1 = 2 * fullSignificand := by exact_mod_cast hlast
    rw [hfirst, hexponent, zpow_add_one₀ (by norm_num)]
    linear_combination (-(2 : ℚ) ^ exponentAt rank) * hlast

theorem magnitude_strictMono : StrictMono magnitude := by
  refine strictMono_nat_of_lt_succ fun rank => ?_
  rw [magnitude_succ]
  have : (0 : ℚ) < 2 ^ exponentAt rank := by positivity
  linarith

theorem midpoint_strictMono : StrictMono midpoint := by
  refine strictMono_nat_of_lt_succ fun rank => ?_
  unfold midpoint
  have h := magnitude_strictMono (show rank < rank + 1 + 1 by omega)
  linarith

theorem midpoint_eq_above (rank : Nat) :
    midpoint rank = ((4 * significandAt rank + 2 : Nat) : ℚ) * 2 ^ (exponentAt rank - 2) := by
  unfold midpoint
  rw [magnitude_succ, magnitude, zpow_sub₀ (by norm_num)]
  push_cast
  ring

/-- The lower end of the range of a rank: the gap below the first significand of an exponent is half
as wide. -/
theorem midpoint_eq_below (rank : Nat) :
    midpoint rank
      = ((if significandAt (rank + 1) = fullSignificand ∧ exponentAt (rank + 1) > minExponent
          then 4 * significandAt (rank + 1) - 1 else 4 * significandAt (rank + 1) - 2 : Nat) : ℚ)
        * 2 ^ (exponentAt (rank + 1) - 2) := by
  rw [midpoint_eq_above]
  rcases step_cases rank with ⟨hsignificand, hexponent, hleast⟩ | ⟨hlast, hfirst, hexponent, habove⟩
  · have hwide : ¬(significandAt (rank + 1) = fullSignificand ∧
        exponentAt (rank + 1) > minExponent) :=
      fun h => absurd (hleast h.1) (ne_of_gt h.2)
    rw [if_neg hwide, hsignificand, hexponent]
    congr 2
  · -- a new exponent begins: its unit is two units of the one below
    rw [if_pos ⟨hfirst, habove⟩, hfirst, hexponent]
    have hlast : 4 * significandAt rank + 2 = 2 * (4 * fullSignificand - 1) := by
      unfold fullSignificand at hlast ⊢
      omega
    rw [hlast, show exponentAt rank + 1 - 2 = exponentAt rank - 2 + 1 by ring,
      zpow_add_one₀ (by norm_num)]
    push_cast
    ring

theorem Rounds.le {rank : Nat} {value : ℚ} (h : Rounds rank value) :
    midpoint (rank - 1) ≤ value ∧ value ≤ midpoint rank := by
  unfold Rounds at h
  split at h
  · exact h
  · exact ⟨h.1.le, h.2.le⟩

/-- Odd ranks leave both midpoints to their neighbours. -/
theorem Rounds.lt_of_odd {rank : Nat} {value : ℚ} (h : Rounds rank value) (hodd : rank % 2 = 1) :
    midpoint (rank - 1) < value ∧ value < midpoint rank := by
  rwa [Rounds, if_neg (by omega)] at h

theorem not_rounds_of_lt {r s : Nat} {value : ℚ} (hlt : r < s) (h : Rounds r value) :
    ¬Rounds s value := by
  intro h'
  -- the two ranges can only meet in a midpoint, which leaves neighbours, one of them odd
  have hmiddle : midpoint r ≤ midpoint (s - 1) := midpoint_strictMono.monotone (by omega)
  have hvalue : midpoint r = midpoint (s - 1) :=
    hmiddle.antisymm (h'.le.1.trans h.le.2)
  have hnext : r = s - 1 := midpoint_strictMono.injective hvalue
  rcases Nat.mod_two_eq_zero_or_one r with heven | hodd
  · have hodd : s % 2 = 1 := by omega
    have := (h'.lt_of_odd hodd).1
    have := h.le.2
    linarith
  · have := (h.lt_of_odd hodd).2
    have := h'.le.1
    linarith

theorem Rounds.unique {r s : Nat} {value : ℚ} (h : Rounds r value) (h' : Rounds s value) :
    r = s := by
  rcases Nat.lt_trichotomy r s with hlt | heq | hlt
  · exact absurd h' (not_rounds_of_lt hlt h)
  · exact heq
  · exact absurd h (not_rounds_of_lt hlt h')

theorem midpoint_pos (rank : Nat) : 0 < midpoint rank := by
  rw [midpoint_eq_above]
  positivity

theorem Rounds.pos {rank : Nat} {value : ℚ} (h : Rounds rank value) : 0 < value :=
  (midpoint_pos (rank - 1)).trans_le h.le.1

/-- A value belongs to one rank at most, also if zero belongs to rank zero. -/
theorem rank_eq_of_rounds {r s : Nat} {value : ℚ} (h : (r = 0 ∧ value = 0) ∨ Rounds r value)
    (h' : (s = 0 ∧ value = 0) ∨ Rounds s value) : r = s := by
  rcases h with ⟨hr, hzero⟩ | h
  · rcases h' with ⟨hs, -⟩ | h'
    · rw [hr, hs]
    · exact absurd hzero h'.pos.ne'
  · rcases h' with ⟨-, hzero⟩ | h'
    · exact absurd hzero h.pos.ne'
    · exact h.unique h'

theorem rounds_magnitude {rank : Nat} (h : 0 < rank) : Rounds rank (magnitude rank) := by
  have hbelow : magnitude (rank - 1) < magnitude rank := magnitude_strictMono (by omega)
  have habove : magnitude rank < magnitude (rank + 1) := magnitude_strictMono (by omega)
  have hlow : midpoint (rank - 1) < magnitude rank := by
    rw [midpoint, Nat.sub_add_cancel h]
    linarith
  have hhigh : magnitude rank < midpoint rank := by
    rw [midpoint]
    linarith
  unfold Rounds
  split
  · exact ⟨hlow.le, hhigh.le⟩
  · exact ⟨hlow, hhigh⟩

end Binary64

namespace Decimal

open Binary64

/-- The test compares with both midpoints. -/
theorem readsBack_iff {rank : Nat} (h : 0 < rank) (x : Decimal) :
    readsBack (significandAt rank) (exponentAt rank) x = true ↔ Rounds rank x.value := by
  have hlow := midpoint_eq_below (rank - 1)
  have hhigh := midpoint_eq_above rank
  rw [Nat.sub_add_cancel h] at hlow
  -- the comparisons that the test makes, as comparisons with the two midpoints
  have hlow_lt := compareScaled_eq_lt_iff x.digits x.exponent
    (if significandAt rank = fullSignificand ∧ exponentAt rank > minExponent
      then 4 * significandAt rank - 1 else 4 * significandAt rank - 2) (exponentAt rank - 2)
  have hlow_gt := compareScaled_eq_gt_iff x.digits x.exponent
    (if significandAt rank = fullSignificand ∧ exponentAt rank > minExponent
      then 4 * significandAt rank - 1 else 4 * significandAt rank - 2) (exponentAt rank - 2)
  have hhigh_lt := compareScaled_eq_lt_iff x.digits x.exponent (4 * significandAt rank + 2)
    (exponentAt rank - 2)
  have hhigh_gt := compareScaled_eq_gt_iff x.digits x.exponent (4 * significandAt rank + 2)
    (exponentAt rank - 2)
  rw [← hlow] at hlow_lt hlow_gt
  rw [← hhigh] at hhigh_lt hhigh_gt
  unfold readsBack Rounds value
  rw [significandAt_mod_two]
  dsimp only
  split
  · simp only [Bool.and_eq_true, bne_iff_ne, ne_eq, hlow_lt, hhigh_gt, not_lt]
  · simp only [Bool.and_eq_true, beq_iff_eq, hlow_gt, hhigh_lt]

theorem readsBack_of_onGrid? {m n : Nat} {e : Int} {x : Decimal} (h : onGrid? m e n = some x) :
    readsBack m e x = true := by
  unfold onGrid? at h
  dsimp only at h
  split at h
  · rename_i hdown hup
    split at h
    · cases h
      exact hdown
    · cases h
      exact hup
    · split at h
      · cases h
        exact hdown
      · cases h
        exact hup
  · rename_i hdown hup
    cases h
    exact hdown
  · rename_i hdown hup
    cases h
    exact hup
  · cases h

theorem value_stripZeros (digits : Nat) (exponent : Int) :
    (stripZeros digits exponent).value = (⟨digits, exponent⟩ : Decimal).value := by
  fun_induction stripZeros digits exponent with
  | case1 exponent => simp [value]
  | case2 digits exponent hzero hten ih =>
    rw [ih]
    have hdigits : digits = 10 * (digits / 10) := by omega
    unfold value
    dsimp only
    rw [zpow_add_one₀ (by norm_num)]
    conv_rhs => rw [hdigits]
    push_cast
    ring
  | case3 digits exponent hzero hten => rfl

/-- The decimal of a magnitude as it stands. -/
theorem value_exact (rank : Nat) :
    (⟨significandAt rank * twoTo (exponentAt rank) * Nat.pow 5 (-exponentAt rank).toNat,
      min (exponentAt rank) 0⟩ : Decimal).value = magnitude rank := by
  unfold value magnitude
  dsimp only
  obtain ⟨n, hn | hn⟩ := (exponentAt rank).eq_nat_or_neg
  · rw [hn]
    simp [twoTo]
  · have hten : (10 : ℚ) ^ n = 2 ^ n * 5 ^ n := by rw [← mul_pow]; norm_num
    have hleast : min (-(n : Int)) 0 = -n := by omega
    have hfive : (5 : ℚ) ^ n ≠ 0 := by positivity
    rw [hn, hleast, zpow_neg, zpow_neg, zpow_natCast, zpow_natCast, hten]
    simp only [twoTo, Int.toNat_neg_natCast, neg_neg, Int.toNat_natCast, Nat.pow_eq, pow_zero,
      mul_one, Nat.cast_mul, Nat.cast_pow, Nat.cast_ofNat]
    rw [mul_inv, mul_assoc, mul_comm (((2 : ℚ) ^ n)⁻¹), mul_inv_cancel_left₀ hfive]

/-- The decimal of a magnitude other than zero rounds to that magnitude. -/
theorem shortest_rounds {rank : Nat} (h : 0 < rank) :
    Rounds rank (shortest (significandAt rank) (exponentAt rank)).value := by
  unfold shortest
  rw [value_stripZeros]
  cases hfound : (List.range 17).findSome? fun n =>
      onGrid? (significandAt rank) (exponentAt rank) (n + 1) with
  | none =>
    rw [Option.getD_none, value_exact]
    exact rounds_magnitude h
  | some x =>
    obtain ⟨n, -, hx⟩ := List.exists_of_findSome?_eq_some hfound
    exact (readsBack_iff h x).mp (readsBack_of_onGrid? hx)

end Decimal

end FactoryMigration
