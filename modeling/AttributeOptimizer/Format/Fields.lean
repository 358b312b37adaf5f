import AttributeOptimizer.Json.Basic

set_option autoImplicit false

/-! # Fields of records

A record is written as an object with a member for each field. It is read from an object, whose
members may come in any order and among others, or from the array of its fields in order. A field
that is given twice is refused. -/

namespace AttributeOptimizer

namespace Json

/-- The only value with a name among named values: `some none` if there is none, `none` if there are
    several. -/
def only? {α : Type} (values : List (String × α)) (name : String) : Option (Option α) :=
  match values.filter fun v => v.1 = name with
  | [] => some none
  | [(_, value)] => some (some value)
  | _ => none

/-- The fields with the given names, absent ones as `none`, of a record in either form; the array
    must hold all of them. -/
def fields? (names : List String) : Json → Option (List (Option Json))
  | .obj members => names.mapM (only? members)
  | .arr items => if items.length = names.length then some (items.map some) else none
  | _ => none

/-- Reads a string. -/
def string? : Json → Option String
  | .str s => some s
  | _ => none

/-- Reads a truth value. -/
def bool? : Json → Option Bool
  | .bool b => some b
  | _ => none

/-- Reads a whole number from `low` to `high`. -/
def intBetween? (low high : Int) : Json → Option Int
  | .int i => if low ≤ i ∧ i ≤ high then some i else none
  | _ => none

/-- Reads a count, a whole number of 64 bits without sign. -/
def count? (j : Json) : Option Nat := (j.intBetween? 0 (UInt64.size - 1)).map Int.toNat

/-- Reads a number; a whole one becomes the nearest float. -/
def float? : Json → Option Binary64
  | .float x => some x
  | .int i => some (Binary64.ofRatio (decide (i < 0)) i.natAbs 1)
  | _ => none

end Json

end AttributeOptimizer
