set_option autoImplicit false

/-! # Powers of two and ten

A factor `2 ^ e` or `10 ^ e` with an exponent of either sign stands above or below the line of a
fraction. It is written as the quotient of two natural numbers, the power of `e` and that of `-e`,
one of which is one. -/

namespace FactoryMigration

/-- The power of two, which is one for exponents below zero. -/
def twoTo (exponent : Int) : Nat :=
  Nat.pow 2 exponent.toNat

/-- The power of ten, which is one for exponents below zero. -/
def tenTo (exponent : Int) : Nat :=
  Nat.pow 10 exponent.toNat

theorem twoTo_pos (exponent : Int) : 0 < twoTo exponent :=
  Nat.pow_pos (by decide)

theorem tenTo_pos (exponent : Int) : 0 < tenTo exponent :=
  Nat.pow_pos (by decide)

end FactoryMigration
