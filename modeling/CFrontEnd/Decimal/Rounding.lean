import CFrontEnd.Decimal.Binary64

/-!
# Rounding to the Nearest Double

The double nearest to a fraction or to a decimal number, ties going to the even significand. All
arithmetic is exact, on natural numbers.

The rank of the result is computed from the place of the last binary digit that the double keeps
and the rounded count of units in that place. The two meet in one sum: a count that rounding
carries to the next power of two gives the first rank of the next binade by itself.

* `roundHalfEven_mul`: a whole quotient is not rounded.
-/

namespace CFrontEnd

/-- A decimal number: `digits` times ten to the `exponent`. -/
structure Decimal where
  /-- The digits, read as one whole number. -/
  digits : Nat
  /-- The power of ten of the last digit. -/
  exponent : Int
deriving DecidableEq, Repr

/-- The whole number nearest to `num / den`; of two equally near ones the even one. -/
def roundHalfEven (num den : Nat) : Nat :=
  let quotient := num / den
  let twice := 2 * (num % den)
  if twice < den then quotient
  else if den < twice then quotient + 1
  else quotient + quotient % 2

/-- A whole quotient is not rounded. -/
theorem roundHalfEven_mul (n : Nat) {den : Nat} (h : 0 < den) :
    roundHalfEven (n * den) den = n := by
  simp [roundHalfEven, h]

namespace Binary64

/-- The exponent of the leading binary digit of `num / den`. -/
def leadingExponent (num den : Nat) : Int :=
  -- the leading digits alone give the exponent or one more
  let guess : Int := (num.log2 : Int) - (den.log2 : Int)
  if num * Nat.pow 2 (-guess).toNat < den * Nat.pow 2 guess.toNat then guess - 1 else guess

/-- The exponent of the last binary digit that the double nearest to `num / den` keeps: 53 digits
are kept, fewer below the normal numbers. -/
def lastExponent (num den : Nat) : Int :=
  max (leadingExponent num den - 52) leastExponent

/-- The rank of the double nearest to `num / den`. -/
def nearestRank (num den : Nat) : Nat :=
  let last := lastExponent num den
  let units := roundHalfEven (num * Nat.pow 2 (-last).toNat) (den * Nat.pow 2 last.toNat)
  -- the units of a normal number are at least `binadeSize`, which counts the subnormal ranks
  min ((last - leastExponent).toNat * binadeSize + units) infiniteRank

/-- The number of digits of a decimal number before its point. -/
def wholePlaces (decimal : Decimal) : Int :=
  ((Nat.toDigits 10 decimal.digits).length : Int) + decimal.exponent

/-- The rank of the double nearest to a decimal number. Numbers below `10 ^ -330` have rank 0 and
numbers from `10 ^ 330` on are infinite, whatever their digits. -/
def decimalRank (decimal : Decimal) : Nat :=
  if decimal.digits = 0 ∨ wholePlaces decimal < -330 then 0
  else if 330 < wholePlaces decimal then infiniteRank
  else nearestRank (decimal.digits * Nat.pow 10 decimal.exponent.toNat)
    (Nat.pow 10 (-decimal.exponent).toNat)

/-- The double of the given sign nearest to a decimal number. -/
def ofDecimal (negative : Bool) (decimal : Decimal) : Binary64 :=
  ofRank negative (decimalRank decimal)

end Binary64

end CFrontEnd
