import AttributeOptimizer.Exception
import AttributeOptimizer.Kind
import AttributeOptimizer.Location

set_option autoImplicit false

/-! # Defects

What can go wrong in building, querying and optimizing a tree. A defect is never a property of the
compiled program: it is a malformed request, or a broken promise within the optimizer, and names the
location it was found at. The failures of a computation done at compile time are kept apart: the
compiled program's own exception is an ordinary result, anything else becomes a defect. -/

namespace AttributeOptimizer

/-- A malformed request, or a broken promise within the optimizer. -/
inductive Defect where
  /-- A node was asked for a child in a role that its kind does not have. -/
  | noSuchRole (kind : Kind) (role : Role) (location : Location)
  /-- A builtin call lacks one of its required arguments. -/
  | missingArgument (kind : Kind) (argument : String) (location : Location)
  /-- A node that carries no attribute name was to be renamed. -/
  | notALookup (kind : Kind) (location : Location)
  /-- A promise that the optimizer itself keeps was found broken. -/
  | brokenInvariant (message : String) (location : Location)
  deriving DecidableEq, Repr

namespace Defect

/-- The message of a defect, its location first. -/
def message : Defect → String
  | noSuchRole kind role location =>
    s!"{location.text}: {kind.text} has no child role '{role.name}'"
  | missingArgument kind argument location =>
    s!"{location.text}: {kind.text} requires argument '{argument}'"
  | notALookup kind location => s!"{location.text}: {kind.text} does not carry an attribute name"
  | brokenInvariant message location =>
    s!"{location.text}: internal invariant violated: {message}"

end Defect

/-- How a computation done at compile time fails. -/
inductive ComputationFailure where
  /-- It raises as the compiled program would. -/
  | raised (exception : RaisedException)
  /-- It met a state that the optimizer promises not to reach. -/
  | broken (message : String)
  deriving DecidableEq, Repr

namespace ComputationFailure

/-- The message of a failed computation. -/
def message : ComputationFailure → String
  | raised exception => s!"computation raised {exception.text}"
  | broken message => message

end ComputationFailure

end AttributeOptimizer
