import AttributeOptimizer.ChangeTag
import AttributeOptimizer.Defect
import AttributeOptimizer.Expression.Basic

set_option autoImplicit false

/-! # Simplifications

The result of one attempt at one node, and the way a computation done at compile time becomes such a
result: a value folds the node into a constant, an exception replaces it by a node that raises it,
and anything else is a defect found at the node. -/

namespace AttributeOptimizer

/-- The result of one attempt to simplify one node. -/
inductive Simplification where
  /-- Nothing more is to be done at the node. -/
  | unchanged
  /-- The node is to be replaced, with the kind of the change and its justification. -/
  | changed (node : Expression) (tag : ChangeTag) (description : String)

namespace Simplification

/-- Whether the node is to be replaced. -/
def isChanged : Simplification → Bool
  | unchanged => false
  | changed .. => true

/-- The kind of the change, if there is one. -/
def tag? : Simplification → Option ChangeTag
  | unchanged => none
  | changed _ tag _ => some tag

/-- The replacement transformed; its tag and description stay. -/
def mapNode (f : Expression → Expression) : Simplification → Simplification
  | unchanged => unchanged
  | changed node tag description => changed (f node) tag description

/-- The node that stands in the place of `before` afterwards. -/
def node (before : Expression) : Simplification → Expression
  | unchanged => before
  | changed node _ _ => node

@[simp] theorem tag?_mapNode (f : Expression → Expression) (s : Simplification) :
    (s.mapNode f).tag? = s.tag? := by
  cases s <;> rfl

/-- The simplification that a computation on behalf of the node at `location` amounts to. -/
def ofComputation (location : Location) (result : Except ComputationFailure Constant)
    (description : String) : Except Defect Simplification :=
  match result with
  | .ok value => .ok (.changed (.constant location value) .constantFolded description)
  | .error (.raised exception) =>
    .ok (.changed (.raise location exception) .exceptionPropagated
      s!"{description} Predicted to raise {exception.text}.")
  | .error (.broken message) => .error (.brokenInvariant message location)

end Simplification

end AttributeOptimizer
