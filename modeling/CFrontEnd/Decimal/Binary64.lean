/-!
# Double Precision Numbers

The values of the IEEE 754 format binary64. A number is a sign and a *rank*: the place of its
magnitude in the increasing sequence of all magnitudes, zero having rank 0 and infinity the last
rank. So each magnitude has one representation, neighbouring ranks are neighbouring doubles, and
the order of the ranks is the order of the magnitudes.

* `significand_lt`: the significand of a rank has at most 53 bits.
* `same_self_iff`: a double is the same as itself unless it is not a number.
-/

namespace CFrontEnd

namespace Binary64

/-- The number of doubles from a power of two to before the next one, `2 ^ 52`. It is also the
least significand of a normal number. -/
def binadeSize : Nat :=
  4503599627370496

/-- The rank of the infinite magnitude: there are 2046 binades of normal numbers above the
subnormal ones. -/
def infiniteRank : Nat :=
  2047 * binadeSize

/-- The least exponent of the last binary place. -/
def leastExponent : Int :=
  -1074

end Binary64

/-- A binary64 value: not a number, or a sign and the rank of a magnitude. -/
inductive Binary64 where
  /-- The result of reading `nan`. -/
  | nan
  /-- A finite or infinite number. -/
  | number (negative : Bool) (rank : Nat) (bounded : rank ≤ Binary64.infiniteRank)
deriving DecidableEq, Repr

namespace Binary64

/-- The number of the given sign and rank; ranks past the last stand for infinity. -/
def ofRank (negative : Bool) (rank : Nat) : Binary64 :=
  .number negative (min rank infiniteRank) (Nat.min_le_right ..)

/-- The integer that, scaled by `2 ^ exponent rank`, is the magnitude of a finite rank. -/
def significand (rank : Nat) : Nat :=
  if rank < binadeSize then rank else rank % binadeSize + binadeSize

/-- The exponent of the last binary place of a finite rank. -/
def exponent (rank : Nat) : Int :=
  if rank < binadeSize then leastExponent else leastExponent + (rank / binadeSize - 1 : Nat)

/-- The significand of a rank has at most 53 bits. -/
theorem significand_lt (rank : Nat) : significand rank < 2 * binadeSize := by
  unfold significand binadeSize
  split <;> omega

/-- The last place of a rank is never below that of the subnormal numbers. -/
theorem leastExponent_le_exponent (rank : Nat) : leastExponent ≤ exponent rank := by
  unfold exponent
  split <;> omega

/-- Equality of values: a value that is not a number equals nothing, and zero has no sign. -/
def same : Binary64 → Binary64 → Bool
  | .number sign rank _, .number sign' rank' _ =>
    rank == rank' && (sign == sign' || rank == 0)
  | _, _ => false

/-- A double is the same as itself unless it is not a number. -/
theorem same_self_iff (x : Binary64) : x.same x = true ↔ x ≠ .nan := by
  cases x <;> simp [same]

end Binary64

end CFrontEnd
