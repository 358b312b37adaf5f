import AttributeOptimizer.Defect
import AttributeOptimizer.Expression.Basic

set_option autoImplicit false

/-! # Building expressions

The builtin calls are built from arguments that may be absent; a required argument that is missing
is a defect. Calls have shorter forms that supply the empty tuple or dictionary for arguments that
are not given. -/

namespace AttributeOptimizer

namespace Expression

/-- A required argument of a builtin call. -/
def required (argument : Option Expression) (name : String) (kind : Kind) (location : Location) :
    Except Defect Expression :=
  match argument with
  | some e => .ok e
  | none => .error (.missingArgument kind name location)

/-- The builtin that reads a computed attribute, with or without a fallback. -/
def ofGetattr (location : Location) (object? name? fallback? : Option Expression) :
    Except Defect Expression := do
  let source ← required object? "object" .getattr location
  let selector ← required name? "name" .getattr location
  return .getattr location source selector fallback?

/-- The builtin that sets a computed attribute. -/
def ofSetattr (location : Location) (object? name? value? : Option Expression) :
    Except Defect Expression := do
  let source ← required object? "object" .setattr location
  let selector ← required name? "name" .setattr location
  let value ← required value? "value" .setattr location
  return .setattr location source selector value

/-- The builtin that tests for a computed attribute. -/
def ofHasattr (location : Location) (object? name? : Option Expression) :
    Except Defect Expression := do
  let source ← required object? "object" .hasattr location
  let selector ← required name? "name" .hasattr location
  return .hasattr location source selector

/-- A string constant. -/
def ofString (location : Location) (value : String) : Expression :=
  .constant location (.str value)

/-- A call without keyword arguments. -/
def callPositional (location : Location) (called args : Expression) : Expression :=
  .call location called args (.constant location .emptyDict)

/-- A call with keyword arguments only. -/
def callKeywords (location : Location) (called kw : Expression) : Expression :=
  .call location called (.constant location .emptyTuple) kw

/-- A call without arguments. -/
def callEmpty (location : Location) (called : Expression) : Expression :=
  .call location called (.constant location .emptyTuple) (.constant location .emptyDict)

/-- A lookup node under another attribute name, its source and location kept. -/
def rename (e : Expression) (name : String) : Except Defect Expression :=
  match e with
  | .attributeLookup location source _ => .ok (.attributeLookup location source name)
  | .specialLookup location source _ => .ok (.specialLookup location source name)
  | e => .error (.notALookup e.kind e.location)

end Expression

end AttributeOptimizer
