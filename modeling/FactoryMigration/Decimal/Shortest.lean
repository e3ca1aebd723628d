import FactoryMigration.Decimal.Binary64

set_option autoImplicit false

/-! # The fewest digits that read back

The decimal of a binary number: among the decimals that round to it, those with the fewest digits,
and of these the nearest. The search goes through grids of one, two, … seventeen digits and tests on
each the two neighbours of the value, in exact integer arithmetic. -/

namespace FactoryMigration

/-- The number `digits · 10 ^ exponent`. -/
structure Decimal where
  digits : Nat
  exponent : Int
deriving DecidableEq

namespace Decimal

/-- How many decimal digits a number has. -/
def digitCount (n : Nat) : Nat :=
  (Nat.toDigits 10 n).length

/-- The least `p` with `m · 2 ^ e < 10 ^ p`, for `m` other than zero. -/
def pointPosition (m : Nat) (e : Int) : Int :=
  let num := m * twoTo e
  let den := twoTo (-e)
  if den ≤ num then digitCount (num / den)
  else 1 - (digitCount ((den + num - 1) / num - 1) : Int)

/-- Compares `d · 10 ^ k` with `n · 2 ^ q`. -/
def compareScaled (d : Nat) (k : Int) (n : Nat) (q : Int) : Ordering :=
  compare (d * tenTo k * twoTo (-q)) (n * twoTo q * tenTo (-k))

/-- The decimals that round to `m · 2 ^ e`: those between the midpoints to the two neighbours. The
gap below a power of two is half as wide, and the midpoints belong to the range when `m` is even. -/
def readsBack (m : Nat) (e : Int) (x : Decimal) : Bool :=
  let narrow := m = Binary64.fullSignificand ∧ e > Binary64.minExponent
  let low := compareScaled x.digits x.exponent (if narrow then 4 * m - 1 else 4 * m - 2) (e - 2)
  let high := compareScaled x.digits x.exponent (4 * m + 2) (e - 2)
  if m % 2 = 0 then low != .lt && high != .gt else low == .gt && high == .lt

/-- The decimal on the grid of `n` digits that reads back, the nearer one if both neighbours do. -/
def onGrid? (m : Nat) (e : Int) (n : Nat) : Option Decimal :=
  let k := pointPosition m e - n
  let below := m * twoTo e * tenTo (-k) / (tenTo k * twoTo (-e))
  let down : Decimal := ⟨below, k⟩
  let up : Decimal := ⟨below + 1, k⟩
  match readsBack m e down, readsBack m e up with
  | true, true =>
    -- The point halfway between both neighbours decides, and a tie goes to the even one.
    match compareScaled (2 * below + 1) k (2 * m) e with
    | .gt => some down
    | .lt => some up
    | .eq => some (if below % 2 = 0 then down else up)
  | true, false => some down
  | false, true => some up
  | false, false => none

/-- Moves the zeros at the end of the digits into the exponent. -/
def stripZeros (digits : Nat) (exponent : Int) : Decimal :=
  if digits = 0 then ⟨0, 0⟩
  else if digits % 10 = 0 then stripZeros (digits / 10) (exponent + 1)
  else ⟨digits, exponent⟩
termination_by digits
decreasing_by omega

/-- The shortest decimal that reads back as `m · 2 ^ e`. Seventeen digits always do. -/
def shortest (m : Nat) (e : Int) : Decimal :=
  let found := (List.range 17).findSome? fun n => onGrid? m e (n + 1)
  -- Without a hit, the exact decimal itself.
  let chosen := found.getD ⟨m * twoTo e * Nat.pow 5 (-e).toNat, min e 0⟩
  stripZeros chosen.digits chosen.exponent

/-! ## Layout -/

/-- Where digits are written positionally, and how an exponent is written. -/
structure Layout where
  /-- Least decimal exponent of the first digit that is written positionally. -/
  lowest : Int
  /-- First decimal exponent above those written positionally. -/
  beyond : Int
  /-- Whether an exponent that is not negative gets a plus sign. -/
  plusSign : Bool

/-- The digits of a decimal with a point or an exponent; a positional number always has a
fraction. -/
def Layout.digits (layout : Layout) (x : Decimal) : List Char :=
  let digits := Nat.toDigits 10 x.digits
  let lead : Int := x.exponent + digits.length - 1
  if layout.lowest ≤ lead ∧ lead < layout.beyond then
    if 0 ≤ x.exponent then digits ++ List.replicate x.exponent.toNat '0' ++ ['.', '0']
    else if 0 ≤ lead then
      digits.take (lead.toNat + 1) ++ '.' :: digits.drop (lead.toNat + 1)
    else '0' :: '.' :: List.replicate (lead.natAbs - 1) '0' ++ digits
  else
    let fraction := if digits.length = 1 then [] else '.' :: digits.drop 1
    let sign := if lead < 0 then ['-'] else if layout.plusSign then ['+'] else []
    digits.take 1 ++ fraction ++ 'e' :: sign ++ Nat.toDigits 10 lead.natAbs

/-- The text of a binary number. -/
def Layout.text (layout : Layout) (x : Binary64) : List Char :=
  let magnitude :=
    if x.significand = 0 then ['0', '.', '0']
    else layout.digits (shortest x.significand x.exponent)
  if x.negative then '-' :: magnitude else magnitude

end Decimal

end FactoryMigration
