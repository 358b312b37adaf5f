import AttributeOptimizer.Constant.Display
import AttributeOptimizer.Expression.Basic

set_option autoImplicit false

/-! # The text of expressions

`Expression.text` shows a whole tree in the notation of the compiled program, without locations.
`Expression.detail` describes one node for a diagnostic, and `Expression.details` lists the data
that it carries besides its children. -/

namespace AttributeOptimizer

namespace Expression

mutual

/-- The tree in the notation of the compiled program. -/
def text : Expression → String
  | .attributeLookup _ source name | .specialLookup _ source name => text source ++ "." ++ name
  | .getattr _ source selector none => "getattr(" ++ text source ++ ", " ++ text selector ++ ")"
  | .getattr _ source selector (some fallback) =>
    "getattr(" ++ text source ++ ", " ++ text selector ++ ", " ++ text fallback ++ ")"
  | .setattr _ source selector value =>
    "setattr(" ++ text source ++ ", " ++ text selector ++ ", " ++ text value ++ ")"
  | .hasattr _ source selector => "hasattr(" ++ text source ++ ", " ++ text selector ++ ")"
  | .constant _ value => value.text
  | .var _ name => name
  | .raise _ exception => "raise " ++ exception.text
  | .sideEffects _ effects value =>
    "side_effects(" ++ ", ".intercalate (texts effects) ++ "; " ++ text value ++ ")"
  | .tuple _ elements =>
    "(" ++ ", ".intercalate (texts elements) ++ (if elements.length = 1 then ",)" else ")")
  | .call _ called args kw => text called ++ "(*" ++ text args ++ ", **" ++ text kw ++ ")"

/-- The trees of a list in the notation of the compiled program. -/
def texts : List Expression → List String
  | [] => []
  | e :: rest => text e :: texts rest

end

theorem texts_eq_map (es : List Expression) : texts es = es.map text := by
  induction es with
  | nil => rfl
  | cons e rest ih => simp [texts, ih]

/-- The data of a node besides its children, by name, as text. -/
def details : Expression → List (String × String)
  | .attributeLookup _ _ name | .specialLookup _ _ name => [("attribute", name)]
  | .constant _ value => [("constant", value.text)]
  | .var _ name => [("variable_name", name)]
  | .raise _ exception => [("exception", exception.text)]
  | _ => []

/-- One line that describes a node. -/
def detail : Expression → String
  | .attributeLookup _ source name | .specialLookup _ source name =>
    s!"attribute {name} from {source.kind.text}"
  | e => s!"{e.kind.text} at {e.location.text}"

end Expression

end AttributeOptimizer
