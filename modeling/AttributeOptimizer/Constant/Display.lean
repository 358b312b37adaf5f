import AttributeOptimizer.Constant.Basic
import AttributeOptimizer.Binary64.Decimal
import AttributeOptimizer.Text.Quoted
import AttributeOptimizer.Text.Utf8

set_option autoImplicit false

/-! # The text of constants

Constants are shown as the compiled program's own literals. A tuple of one element ends in a comma,
so that it differs from a value in parentheses; the bytes of a byte string are shown as the text
they encode. -/

namespace AttributeOptimizer

namespace Constant

mutual

/-- The literal that stands for a constant. -/
def text : Constant → String
  | .none => "None"
  | .bool true => "True"
  | .bool false => "False"
  | .int value => toString value.toInt
  | .float value => value.text
  | .str value => Text.quoted value
  | .bytes value => "b" ++ Text.quoted (Text.decodeLossy value)
  | .tuple elements =>
    "(" ++ ", ".intercalate (elementTexts elements) ++ (if elements.length = 1 then ",)" else ")")
  | .dict pairs => "\x7b" ++ ", ".intercalate (pairTexts pairs) ++ "\x7d"
  | .ellipsis => "Ellipsis"

/-- The literals of a list of constants. -/
def elementTexts : List Constant → List String
  | [] => []
  | c :: rest => text c :: elementTexts rest

/-- The entries of a dictionary, each a key, a colon and a value. -/
def pairTexts : List (Constant × Constant) → List String
  | [] => []
  | (key, value) :: rest => (text key ++ ": " ++ text value) :: pairTexts rest

end

theorem elementTexts_eq_map (cs : List Constant) : elementTexts cs = cs.map text := by
  induction cs with
  | nil => rfl
  | cons c rest ih => simp [elementTexts, ih]

end Constant

end AttributeOptimizer
