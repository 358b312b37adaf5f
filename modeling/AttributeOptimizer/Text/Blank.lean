import AttributeOptimizer.Text.CodePoints

set_option autoImplicit false

/-! # Blank characters

The characters of the property `White_Space`: the space, the control characters that move to another
place, and the spaces of other scripts and widths. -/

namespace AttributeOptimizer.Text

/-- The ranges of the blank code points. -/
def blankRanges : List (Nat × Nat) :=
  [(0x9, 0xD), (0x20, 0x20), (0x85, 0x85), (0xA0, 0xA0), (0x1680, 0x1680), (0x2000, 0x200A),
   (0x2028, 0x2029), (0x202F, 0x202F), (0x205F, 0x205F), (0x3000, 0x3000)]

/-- Whether a character is blank. -/
def isBlank (c : Char) : Bool := isWithin blankRanges c

/-- A text without the blanks at its ends. -/
def trim (text : List Char) : List Char :=
  ((text.dropWhile isBlank).reverse.dropWhile isBlank).reverse

end AttributeOptimizer.Text
