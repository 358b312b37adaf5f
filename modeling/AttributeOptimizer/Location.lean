set_option autoImplicit false

/-! # Source locations

Every node of an expression tree carries the place in the compiled program that it was written at.
Locations serve diagnostics only: two trees that differ in nothing else mean the same. -/

namespace AttributeOptimizer

/-- A place in the compiled program: a file and a line, the first line being 1. -/
structure Location where
  /-- The name of the file. -/
  file : String
  /-- The line within the file. -/
  line : UInt32
  deriving DecidableEq, Repr

namespace Location

/-- Another line of the same file. -/
def atLine (location : Location) (line : UInt32) : Location :=
  { location with line }

/-- The text `file:line`. -/
def text (location : Location) : String :=
  location.file ++ ":" ++ toString location.line.toNat

end Location

end AttributeOptimizer
