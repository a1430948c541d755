import CFrontEnd.Decimal.Rounding

/-!
# Shortest Decimal Form

The decimal number with the fewest digits that reads back as a given double, and of those with
equally many digits the one nearest to the double; of two equally near ones the greater. A double
is a decimal number with finitely many digits, so the search over the number of digits ends there
at the latest.

* `exactDecimal_digits_pos`: a positive magnitude has a digit.
-/

namespace CFrontEnd.Binary64

/-- The exact value of a finite rank as a decimal number. -/
def exactDecimal (rank : Nat) : Decimal :=
  let last := exponent rank
  if 0 ≤ last then { digits := significand rank * Nat.pow 2 last.toNat, exponent := 0 }
  else { digits := significand rank * Nat.pow 5 (-last).toNat, exponent := last }

/-- The two neighbours of a decimal number that end `dropped` places earlier, the nearer one
first. -/
def neighbours (exact : Decimal) (dropped : Nat) : List Decimal :=
  let place := Nat.pow 10 dropped
  let below : Decimal := { digits := exact.digits / place, exponent := exact.exponent + dropped }
  let above : Decimal := { below with digits := below.digits + 1 }
  if 2 * (exact.digits % place) < place then [below, above] else [above, below]

/-- The first neighbour that reads back as the double of the given rank, for the number of dropped
places going down from `dropped`. -/
def shortestFrom (rank : Nat) (exact : Decimal) : Nat → Decimal
  | 0 => exact
  | dropped + 1 =>
    ((neighbours exact (dropped + 1)).find? fun decimal => decimalRank decimal == rank).getD
      (shortestFrom rank exact dropped)

/-- The shortest decimal number that reads back as the double of a finite rank. -/
def shortest (rank : Nat) : Decimal :=
  let exact := exactDecimal rank
  shortestFrom rank exact ((Nat.toDigits 10 exact.digits).length - 1)

/-- A positive magnitude has a digit. -/
theorem exactDecimal_digits_pos {rank : Nat} (h : 0 < rank) : 0 < (exactDecimal rank).digits := by
  have hsignificand : 0 < significand rank := by
    unfold significand binadeSize
    split <;> omega
  have hpower : ∀ base exponent : Nat, 0 < base → 0 < Nat.pow base exponent :=
    fun _ _ => Nat.pow_pos
  unfold exactDecimal
  by_cases hlast : 0 ≤ exponent rank
  · simp only [hlast, ↓reduceIte]
    exact Nat.mul_pos hsignificand (hpower 2 _ (by decide))
  · simp only [hlast, ↓reduceIte]
    exact Nat.mul_pos hsignificand (hpower 5 _ (by decide))

end CFrontEnd.Binary64
