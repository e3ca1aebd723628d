import Mathlib.Algebra.Order.Floor.Semifield
import Mathlib.Data.Rat.Floor
import FactoryMigration.Json.Field
import FactoryMigration.Proofs.ReadBack
import FactoryMigration.Proofs.TimeoutLanguage

set_option autoImplicit false

/-! # Counts in fields

A field is a count if it is a number from zero on, or a text that writes a count with blanks around it.
A binary fraction loses its fraction and is kept below `2 ^ 64` (`Json.count?_eq_some_iff`). -/

namespace FactoryMigration

namespace Binary64

/-- The integer part is the greatest integer up to the magnitude. -/
theorem truncate_eq_floor (x : Binary64) : x.truncate = ⌊magnitude x.rank⌋₊ := by
  rw [magnitude, ← twoTo_div, mul_div_assoc', truncate, ← Nat.floor_div_eq_div (K := ℚ)]
  push_cast
  rfl

end Binary64

namespace Json

/-- What a value counts. A number below zero counts nothing, but minus zero does. -/
inductive Counts : Json → Nat → Prop where
  | int (n : Nat) : Counts (.num (.int n)) n
  | real (x : Binary64) (h : x.negative = true → x.rank = 0) :
      Counts (.num (.real x)) (min ⌊Binary64.magnitude x.rank⌋₊ (Text.limit64 - 1))
  | text {s : String} {n : Nat} (h : Text.WritesCount Text.limit64 (Text.trim s.toList) n) :
      Counts (.str s) n

theorem Counts.ne_null {field : Json} {n : Nat} (h : Counts field n) : field ≠ .null := by
  rintro rfl
  cases h

theorem numberCount?_eq_some_iff {number : Number} {n : Nat} :
    numberCount? number = some n ↔ Counts (.num number) n := by
  constructor
  · intro h
    cases number with
    | int m =>
      obtain ⟨hm, hn⟩ := Option.ite_none_right_eq_some.mp h
      obtain ⟨k, rfl⟩ := Int.eq_ofNat_of_zero_le hm
      obtain rfl : k = n := Option.some.inj hn
      exact .int k
    | real x =>
      obtain ⟨hx, hn⟩ := Option.ite_none_left_eq_some.mp h
      obtain rfl := Option.some.inj hn
      rw [Binary64.truncate_eq_floor]
      refine .real x fun hnegative => ?_
      by_contra hrank
      exact hx ⟨hnegative, mt x.significand_eq_zero_iff.mp hrank⟩
  · intro h
    cases h with
    | int n => rw [numberCount?, if_pos (Int.natCast_nonneg n), Int.toNat_natCast]
    | real x h =>
      have hx : ¬(x.negative = true ∧ x.significand ≠ 0) :=
        fun hx => hx.2 (x.significand_eq_zero_iff.mpr (h hx.1))
      rw [numberCount?, if_neg hx, Binary64.truncate_eq_floor]

/-- **Counts.** A field is read as a count exactly if its value counts that. -/
theorem count?_eq_some_iff {value : Json} {key : String} {n : Nat} :
    value.count? key = some n ↔ ∃ field, value.get? key = some field ∧ Counts field n := by
  unfold count?
  cases hfield : value.get? key with
  | none => simp
  | some field =>
    simp only [Option.some.injEq, exists_eq_left']
    cases field with
    | num number => exact numberCount?_eq_some_iff
    | str s =>
      rw [Text.count?_eq_some_iff]
      exact ⟨.text, fun h => by cases h; assumption⟩
    | _ => exact ⟨nofun, nofun⟩

end Json

end FactoryMigration
