set_option autoImplicit false

/-! Double precision numbers as exact codes. Below the sign a double is a natural number: the codes
of the finite magnitudes follow one another in order of size, and the code of infinity comes next.
Rounding is done on whole numbers, so no result depends on a machine's arithmetic. -/

namespace MessageForms

/-- A double: no number at all, or a sign and the code of a magnitude. -/
inductive Binary64 where
  | notANumber
  | signed (negative : Bool) (magnitude : Nat)
deriving DecidableEq, Inhabited

namespace Binary64

/-- The code of the infinite magnitude, the first that is not finite. -/
def infinityCode : Nat := 0x7ff0000000000000

/-- The number of codes from one power of two up to the next. -/
def codesPerBinade : Nat := 0x10000000000000

/-- The whole number nearest to a quotient; a half goes to the even neighbour. -/
def nearestWhole (numerator denominator : Nat) : Nat :=
  let quotient := numerator / denominator
  let twice := 2 * (numerator % denominator)
  if twice < denominator || (twice = denominator && quotient % 2 = 0) then quotient
  else quotient + 1

/-- The exponent of the largest power of two that a positive quotient reaches. -/
def binaryExponent (numerator denominator : Nat) : Int :=
  let guess : Int := (numerator.log2 : Int) - (denominator.log2 : Int)
  if denominator * Nat.pow 2 guess.toNat ≤ numerator * Nat.pow 2 (-guess).toNat then guess
  else guess - 1

/-- The code of the magnitude nearest to a quotient. Magnitudes from `2^e` to `2^(e+1)` are whole
multiples of `2^(e-52)`, and none is finer than `2^(-1074)`; what overflows is infinite. -/
def nearestCode (numerator denominator : Nat) : Nat :=
  if numerator = 0 then 0
  else
    let unit : Int := max (binaryExponent numerator denominator - 52) (-1074)
    let multiple :=
      nearestWhole (numerator * Nat.pow 2 (-unit).toNat) (denominator * Nat.pow 2 unit.toNat)
    min ((unit + 1074).toNat * codesPerBinade + multiple) infinityCode

/-- Whether two doubles are equal as numbers: the zeros are, and what is no number equals
nothing. -/
def numericallyEqual : Binary64 → Binary64 → Bool
  | .signed leftNegative left, .signed rightNegative right =>
      left == right && (leftNegative == rightNegative || left == 0)
  | _, _ => false

end Binary64

end MessageForms
