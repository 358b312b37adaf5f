import AttributeOptimizer.Binary64.Basic
import AttributeOptimizer.Exception

set_option autoImplicit false

/-! # Constants

The values that the compiled program's literals stand for, and those that evaluation at compile time
produces. Equality of constants, `Constant.equal`, is that of the compiled program's numbers inside:
a NaN equals nothing and the two zeros are equal, so it is symmetric and transitive but reflexive
only on constants without NaN. -/

namespace AttributeOptimizer

/-- A value known at compile time. -/
inductive Constant where
  /-- The value that stands for no value. -/
  | none
  /-- A truth value. -/
  | bool (value : Bool)
  /-- An integer of 64 bits. -/
  | int (value : Int64)
  /-- A floating point number. -/
  | float (value : Binary64)
  /-- A string. -/
  | str (value : String)
  /-- A byte string. -/
  | bytes (value : List UInt8)
  /-- A tuple. -/
  | tuple (elements : List Constant)
  /-- A dictionary, as its pairs in order; keys may repeat. -/
  | dict (pairs : List (Constant × Constant))
  /-- The value written as three dots. -/
  | ellipsis

namespace Constant

instance : Inhabited Constant := ⟨.none⟩

/-- The tuple without elements. -/
def emptyTuple : Constant := .tuple []

/-- The dictionary without pairs. -/
def emptyDict : Constant := .dict []

/-- The name of the value's type, as exception messages give it. -/
def typeName : Constant → String
  | .none => "NoneType"
  | .bool _ => "bool"
  | .int _ => "int"
  | .float _ => "float"
  | .str _ => "str"
  | .bytes _ => "bytes"
  | .tuple _ => "tuple"
  | .dict _ => "dict"
  | .ellipsis => "ellipsis"

/-- The text of a string constant. -/
def string? : Constant → Option String
  | .str value => some value
  | _ => Option.none

mutual

/-- Equality of constants, floats being compared as numbers. -/
def equal : Constant → Constant → Bool
  | .none, .none => true
  | .bool a, .bool b => a == b
  | .int a, .int b => a == b
  | .float a, .float b => a.numEq b
  | .str a, .str b => a == b
  | .bytes a, .bytes b => a == b
  | .tuple a, .tuple b => equalElements a b
  | .dict a, .dict b => equalPairs a b
  | .ellipsis, .ellipsis => true
  | _, _ => false

/-- Equality of tuples, element by element. -/
def equalElements : List Constant → List Constant → Bool
  | [], [] => true
  | a :: as, b :: bs => equal a b && equalElements as bs
  | _, _ => false

/-- Equality of dictionaries, pair by pair. -/
def equalPairs : List (Constant × Constant) → List (Constant × Constant) → Bool
  | [], [] => true
  | (ka, va) :: as, (kb, vb) :: bs => equal ka kb && equal va vb && equalPairs as bs
  | _, _ => false

end

end Constant

end AttributeOptimizer
