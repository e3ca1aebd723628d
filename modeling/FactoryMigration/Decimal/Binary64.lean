import FactoryMigration.Decimal.Power

set_option autoImplicit false

/-! # Binary fractions of 64 bits

A finite number `± significand · 2 ^ exponent` of the 64-bit binary format: the significand has at
most 53 bits, and all 53 unless the exponent is the least one. A number is kept as its sign and the
rank of its magnitude, from which significand and exponent follow, so that every number has one form.
All arithmetic is exact, followed by one rounding to nearest, ties to even. -/

namespace FactoryMigration

/-- How many magnitudes the format has. -/
def Binary64.magnitudes : Nat := 9218868437227405312

/-- A finite 64-bit binary number. Zero has a sign. -/
structure Binary64 where
  negative : Bool
  /-- The place of the magnitude among all magnitudes, in ascending order from zero. -/
  rank : Nat
  rank_lt : rank < Binary64.magnitudes
deriving DecidableEq

namespace Binary64

/-- The least exponent. -/
def minExponent : Int := -1074

/-- The least significand of 53 bits, and the number of magnitudes of one exponent. -/
def fullSignificand : Nat := 4503599627370496

/-- The significand of the magnitude of a rank. -/
def significandAt (rank : Nat) : Nat :=
  if rank < fullSignificand then rank else fullSignificand + rank % fullSignificand

/-- The exponent of the magnitude of a rank. The magnitudes with fewer than 53 bits have the same
exponent as the first ones with all. -/
def exponentAt (rank : Nat) : Int :=
  (rank / fullSignificand - 1 : Nat) + minExponent

def significand (x : Binary64) : Nat := significandAt x.rank

def exponent (x : Binary64) : Int := exponentAt x.rank

/-- The number of a rank, or none when it lies beyond the range. -/
def ofRank? (negative : Bool) (rank : Nat) : Option Binary64 :=
  if h : rank < magnitudes then some ⟨negative, rank, h⟩ else none

/-- Zero with the given sign. -/
def zero (negative : Bool) : Binary64 :=
  ⟨negative, 0, by decide⟩

/-- The integer nearest to `num / den`, a half going to the even neighbour. -/
def roundHalfEven (num den : Nat) : Nat :=
  let q := num / den
  let r := num % den
  if 2 * r > den ∨ (2 * r = den ∧ q % 2 = 1) then q + 1 else q

/-- The number nearest to `num / den`, or none when it lies beyond the range. -/
def ofRatio? (negative : Bool) (num den : Nat) : Option Binary64 :=
  if num = 0 then some (zero negative)
  else
    let guess : Int := (num.log2 : Int) - den.log2 - 52
    let enough := fullSignificand * den * twoTo guess ≤ num * twoTo (-guess)
    let exponent := max (if enough then guess else guess - 1) minExponent
    let rounded := roundHalfEven (num * twoTo (-exponent)) (den * twoTo exponent)
    -- A significand that is rounded up to 54 bits has the rank of the next exponent's first one.
    ofRank? negative ((exponent - minExponent).toNat * fullSignificand + rounded)

/-- The number nearest to a count of at most 64 bits. -/
def ofNat (negative : Bool) (n : Nat) : Binary64 :=
  (ofRatio? negative n 1).getD (zero negative)

/-- The rounded product, or none beyond the range. -/
def mul? (x y : Binary64) : Option Binary64 :=
  let exponent := x.exponent + y.exponent
  ofRatio? (x.negative != y.negative) (x.significand * y.significand * twoTo exponent)
    (twoTo (-exponent))

/-- The rounded quotient by a number other than zero. -/
def div? (x y : Binary64) : Option Binary64 :=
  let exponent := x.exponent - y.exponent
  ofRatio? (x.negative != y.negative) (x.significand * twoTo exponent)
    (y.significand * twoTo (-exponent))

/-- The greatest power of ten inside the range. -/
def maxTenPower : Nat := 308

/-- The number nearest to a power of ten up to `maxTenPower`. -/
def tenPower (n : Nat) : Binary64 :=
  ofNat false (tenTo n)

/-- Divides by a power of ten, in steps of `10 ^ 308` when the power is beyond the range. -/
def divTenPower (x : Binary64) (n : Nat) : Binary64 :=
  if n ≤ maxTenPower then (x.div? (tenPower n)).getD x
  else if x.significand = 0 then x
  else divTenPower ((x.div? (tenPower maxTenPower)).getD x) (n - maxTenPower)
termination_by n
decreasing_by simp only [maxTenPower] at *; omega

/-- Multiplies by `10 ^ exponent` with a rounding of its own: the number is rounded before, and the
product or quotient is rounded again. None when the result lies beyond the range. -/
def scaleTen? (x : Binary64) (exponent : Int) : Option Binary64 :=
  if exponent < 0 then some (x.divTenPower exponent.natAbs)
  else if exponent ≤ maxTenPower then x.mul? (tenPower exponent.toNat)
  else if x.significand = 0 then some x
  else none

/-- The number nearest to `digits · 10 ^ exponent`, rounded once; none beyond the range. Exponents
far outside the range are settled by the number of digits alone. -/
def ofDecimal? (negative : Bool) (digits : Nat) (exponent : Int) : Option Binary64 :=
  let size : Int := (Nat.toDigits 10 digits).length
  if digits = 0 ∨ size + exponent < -400 then some (zero negative)
  else if size + exponent > 400 then none
  else ofRatio? negative (digits * tenTo exponent) (tenTo (-exponent))

/-- The integer part of the magnitude. -/
def truncate (x : Binary64) : Nat :=
  x.significand * twoTo x.exponent / twoTo (-x.exponent)

end Binary64

end FactoryMigration
