import CFrontEnd.Decimal.Rounding

/-!
# Numerals

Reading a 64-bit integer or a double from its text. Both readers take the whole text or nothing:
there is no blank around a numeral and no separator in it.

* An integer is an optional sign and one or more digits; a value outside the 64 bits is refused.
* A double is an optional sign and then a word (`inf`, `infinity` or `nan` in letters of either
  case), or digits with an optional point, at least one digit in all, and an optional exponent.
-/

namespace CFrontEnd.Numeral

/-- A sign at the front, `true` for minus, and the rest. -/
def splitSign : List Char → Bool × List Char
  | '-' :: body => (true, body)
  | '+' :: body => (false, body)
  | body => (false, body)

/-- The value of one or more digits. -/
def natural? (digits : List Char) : Option Nat :=
  if digits ≠ [] ∧ digits.all Char.isDigit = true then some (Nat.ofDigitChars 10 digits 0)
  else none

/-- The value of digits after an optional sign. -/
def integer? (text : List Char) : Option Int :=
  let (negative, digits) := splitSign text
  (natural? digits).map fun n => if negative then -(n : Int) else n

/-- The 64-bit integer that a text denotes. -/
def int64? (text : List Char) : Option Int64 :=
  (integer? text).bind fun n =>
    if Int64.minValue.toInt ≤ n ∧ n ≤ Int64.maxValue.toInt then some (Int64.ofInt n) else none

/-- The digits at the front and the rest. -/
def splitDigits (text : List Char) : List Char × List Char :=
  (text.takeWhile Char.isDigit, text.dropWhile Char.isDigit)

/-- The digits after a point at the front, if there is a point, and the rest. -/
def splitFraction : List Char → List Char × List Char
  | '.' :: body => splitDigits body
  | body => ([], body)

/-- The exponent that makes up the whole rest of a numeral; nothing stands for zero. -/
def exponent? : List Char → Option Int
  | [] => some 0
  | c :: body => if c = 'e' ∨ c = 'E' then integer? body else none

/-- The decimal number that digits, an optional point and an optional exponent denote. -/
def decimal? (text : List Char) : Option Decimal :=
  let (whole, rest) := splitDigits text
  let (fraction, rest) := splitFraction rest
  (natural? (whole ++ fraction)).bind fun digits =>
    (exponent? rest).map fun exponent =>
      { digits, exponent := exponent - fraction.length }

/-- The double that a word without a sign denotes. -/
def word? (negative : Bool) (text : List Char) : Option Binary64 :=
  let word := text.map Char.toLower
  if word = "inf".toList ∨ word = "infinity".toList then
    some (Binary64.ofRank negative Binary64.infiniteRank)
  else if word = "nan".toList then some .nan
  else none

/-- The double that a text denotes: the one nearest to the decimal number, infinite if the number
is too great and zero if it is too small. -/
def binary64? (text : List Char) : Option Binary64 :=
  let (negative, body) := splitSign text
  (word? negative body).or ((decimal? body).map (Binary64.ofDecimal negative))

end CFrontEnd.Numeral
