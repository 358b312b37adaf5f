import AttributeOptimizer.Simplification.Rules

set_option autoImplicit false

/-! # Remarks

What an attempt at a node has to say for a trace, apart from the change it makes: why a promising
node was left alone, or that a computation raises. An attempt makes at most one remark. -/

namespace AttributeOptimizer

/-- What an attempt at a node has to say for a trace. -/
inductive Remark where
  /-- The name of an attribute read through the builtin is not literal. -/
  | computedName (location : Location)
  /-- The receiver of an attribute read through the builtin has effects. -/
  | receiverHasEffects (location : Location)
  /-- An attribute of a constant exists and has no constant value. -/
  | noConstantValue (name typeName : String)
  /-- A computation done at compile time raises. -/
  | computationRaises (location : Location) (exception : RaisedException)
  deriving DecidableEq, Repr

namespace Remark

/-- The wording of a remark. -/
def message : Remark → String
  | computedName location => s!"getattr at {location.text} has no literal attribute name"
  | receiverHasEffects location => s!"getattr at {location.text} kept, receiver has side effects"
  | noConstantValue name typeName => s!"Attribute '{name}' of {typeName} has no constant value"
  | computationRaises location exception =>
    s!"Compile time computation at {location.text} raises {exception.text}"

end Remark

namespace Expression

/-- The remark that an attempt to simplify the node makes, if any. -/
def remark? : Expression → Option Remark
  | .attributeLookup location (.constant _ value) name =>
    match value.lookupAttribute name with
    | .ok (some _) => none
    | .ok none => some (.noConstantValue name value.typeName)
    | .error exception => some (.computationRaises location exception)
  | .getattr location source selector _ =>
    if selector.string?.isNone then some (.computedName location)
    else if source.effects.isEmpty then none
    else some (.receiverHasEffects location)
  | .call location (.constant _ value) args kw =>
    if args.raises || kw.raises then none
    else some (.computationRaises location (.notCallable value.typeName))
  | _ => none

end Expression

end AttributeOptimizer
