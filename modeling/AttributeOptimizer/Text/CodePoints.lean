set_option autoImplicit false

/-! # Ranges of code points

Classes of characters are kept as tables of ranges of code points, in ascending order and with both
ends included, by version 17 of the Unicode character database. -/

namespace AttributeOptimizer.Text

/-- Whether the code point of a character lies in one of the ranges. -/
def isWithin (ranges : List (Nat × Nat)) (c : Char) : Bool :=
  ranges.any fun (low, high) => low ≤ c.toNat && c.toNat ≤ high

end AttributeOptimizer.Text
