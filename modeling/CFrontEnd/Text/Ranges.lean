/-!
# Character Ranges

A set of characters given by a table of inclusive code point ranges. The Unicode classes of
this library are such tables.
-/

namespace CFrontEnd.Text

/-- The code point of `c` lies in one of the inclusive ranges of `table`. -/
def inRanges (table : List (Nat × Nat)) (c : Char) : Bool :=
  table.any fun range => range.1 ≤ c.toNat && c.toNat ≤ range.2

end CFrontEnd.Text
