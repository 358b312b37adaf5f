set_option autoImplicit false

/-! # Change tags

The closed vocabulary in which a simplification says what it did to a node. -/

namespace AttributeOptimizer

/-- What kind of change a simplification made. -/
inductive ChangeTag where
  /-- The node was replaced by an expression that always raises. -/
  | exceptionPropagated
  /-- The node was replaced by a different, simpler expression. -/
  | simplified
  /-- The node was evaluated into a constant. -/
  | constantFolded
  deriving DecidableEq, Repr

namespace ChangeTag

/-- The tag as traces show it. -/
def text : ChangeTag → String
  | exceptionPropagated => "new_raise"
  | simplified => "new_expression"
  | constantFolded => "new_constant"

end ChangeTag

end AttributeOptimizer
