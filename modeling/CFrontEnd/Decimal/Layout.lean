import CFrontEnd.Decimal.Shortest

/-!
# Text of a Double

A double is written with the digits of its shortest decimal form. From `0.0001` to below `1e16`
the digits stand around a point with at least one digit on each side, as in `100000.0`; other
magnitudes have one digit before the point and an exponent, as in `1.5e-7`, and no point if there
is one digit only, as in `1e16`.
-/

namespace CFrontEnd.Binary64

/-- The places of the point that are written with the point among the digits: at least
`leastPoint` and at most `greatestPoint` digits stand before it, counting zeros after the point
as negative. -/
structure PointRange where
  /-- The least place of the point. -/
  leastPoint : Int
  /-- The greatest place of the point. -/
  greatestPoint : Int

/-- Magnitudes from `1e-4` to below `1e16` are written without an exponent. -/
def positional : PointRange :=
  { leastPoint := -3, greatestPoint := 16 }

/-- The digits of a number without zeros at their end. -/
def stripZeros (digits : List Char) : List Char :=
  (digits.reverse.dropWhile (· = '0')).reverse

/-- Digits around a point that stands after `point` of them. -/
def pointText (digits : List Char) (point : Int) : List Char :=
  if point ≤ 0 then ['0', '.'] ++ List.replicate (-point).toNat '0' ++ digits
  else if digits.length ≤ point.toNat then
    digits ++ List.replicate (point.toNat - digits.length) '0' ++ ['.', '0']
  else digits.take point.toNat ++ ['.'] ++ digits.drop point.toNat

/-- One digit, the others after a point, and the exponent of the first. -/
def exponentText (digits : List Char) (point : Int) : List Char :=
  let fraction := digits.drop 1
  digits.take 1 ++ (if fraction = [] then [] else '.' :: fraction) ++
    ['e'] ++ (toString (point - 1)).toList

/-- The text of a positive decimal number. -/
def decimalText (decimal : Decimal) : List Char :=
  let digits := Nat.toDigits 10 decimal.digits
  let point : Int := digits.length + decimal.exponent
  if positional.leastPoint ≤ point ∧ point ≤ positional.greatestPoint then
    pointText (stripZeros digits) point
  else exponentText (stripZeros digits) point

example : decimalText { digits := 15, exponent := -8 } = "1.5e-7".toList := by decide +kernel

example : decimalText { digits := 1, exponent := 16 } = "1e16".toList := by decide +kernel

example : decimalText { digits := 100, exponent := 3 } = "100000.0".toList := by decide +kernel

example : decimalText { digits := 12, exponent := -5 } = "0.00012".toList := by decide +kernel

/-- The text of a magnitude. -/
def rankText (rank : Nat) : List Char :=
  if rank = 0 then "0.0".toList
  else if rank = infiniteRank then "inf".toList
  else decimalText (shortest rank)

/-- The text of a double. The sign of zero is written. -/
def text : Binary64 → String
  | .nan => "NaN"
  | .number negative rank _ =>
    (if negative then "-" else "") ++ String.ofList (rankText rank)

end CFrontEnd.Binary64
