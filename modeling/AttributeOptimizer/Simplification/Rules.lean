import AttributeOptimizer.Constant.Attributes
import AttributeOptimizer.Effects
import AttributeOptimizer.Simplification.Basic

set_option autoImplicit false

/-! # Simplification rules

`Expression.simplify` makes one attempt at one node, its children being left as they are. The rules:

* an operand that always raises replaces the node, after the effects of the operands before it;
* an attribute lookup, or a call, of a constant is evaluated: the receiver decides, in
  `Expression.simplifyLookupOn` and `Expression.simplifyCallOf`;
* a lookup through a builtin with a literal name becomes a plain lookup, if the receiver has no
  effects that would have to run before those of the other operands;
* a test for an attribute of a constant is evaluated;
* effects that are none are removed, and a tuple of constants becomes a constant.

Lookups of reserved names wait for their receiver to raise and are otherwise left alone, and setting
an attribute is never simplified. -/

namespace AttributeOptimizer

namespace Expression

/-! ## Receivers -/

/-- How the lookup of an attribute on a constant simplifies. An attribute that exists without having
    a constant value leaves the lookup as it is. -/
def simplifyConstantLookup (value : Constant) (location : Location) (name : String) :
    Except Defect Simplification :=
  let description := s!"Attribute '{name}' of constant pre-computed."
  match value.lookupAttribute name with
  | .ok (some folded) => Simplification.ofComputation location (.ok folded) description
  | .ok none => .ok .unchanged
  | .error exception =>
    Simplification.ofComputation location (.error (.raised exception)) description

/-- How the lookup of an attribute on a receiver simplifies; only constants know their
    attributes. -/
def simplifyLookupOn (receiver lookup : Expression) (name : String) :
    Except Defect Simplification :=
  match receiver with
  | .constant _ value => simplifyConstantLookup value lookup.location name
  | _ => .ok .unchanged

/-- How the call of a constant simplifies: the arguments are evaluated, then the call raises. -/
def simplifyConstantCall (value : Constant) (call : Expression) :
    Except Defect Simplification := do
  let result ← Simplification.ofComputation call.location
    (.error (.raised (.notCallable value.typeName))) "Call of constant value pre-computed."
  return result.mapNode fun raised => raised.after call.argumentEffects call.location

/-- How the call of a receiver simplifies; only constants are known not to be callable. -/
def simplifyCallOf (receiver call : Expression) : Except Defect Simplification :=
  match receiver with
  | .constant _ value => simplifyConstantCall value call
  | _ => .ok .unchanged

/-! ## Attribute access -/

/-- A lookup whose receiver raises is its receiver; otherwise the receiver decides. -/
def simplifyLookup (node source : Expression) (name : String) : Except Defect Simplification :=
  if source.raises then
    .ok (.changed source .exceptionPropagated "Attribute lookup source raises exception.")
  else source.simplifyLookupOn node name

/-- A lookup of a reserved name whose receiver raises is its receiver. -/
def simplifySpecialLookup (source : Expression) : Except Defect Simplification :=
  if source.raises then
    .ok (.changed source .exceptionPropagated "Special attribute lookup source raises exception.")
  else .ok .unchanged

/-- A lookup through the builtin with a literal name, on a receiver without effects, is a plain
    lookup after the effects of the name and of the fallback. -/
def simplifyGetattr (location : Location) (source selector : Expression)
    (fallback : Option Expression) : Except Defect Simplification :=
  match selector.string? with
  | none => .ok .unchanged
  | some name =>
    if source.effects.isEmpty then
      let lookup := attributeLookup location source name
      let dropped := selector.effects ++ (fallback.map effects).getD []
      .ok (.changed (lookup.after dropped location) .simplified
        s!"getattr with constant attribute '{name}' replaced by attribute lookup")
    else .ok .unchanged

/-- The value of an operand that was found to be constant. -/
def constantOperand (e : Expression) : Except ComputationFailure Constant :=
  match e.constant? with
  | some value => .ok value
  | none => .error (.broken s!"{e.kind.text} reported constant without a value")

/-- A test for an attribute with a literal name, on a constant, is evaluated. -/
def simplifyHasattr (location : Location) (source selector : Expression) :
    Except Defect Simplification := do
  if source.isConstant then
    match selector.string? with
    | none => return .unchanged
    | some name =>
      let computation : Except ComputationFailure Constant := do
        let value ← source.constantOperand
        return .bool (value.hasAttribute name)
      let result ← Simplification.ofComputation location computation "hasattr pre-computed"
      return result.mapNode fun folded => (folded.inPlaceOf selector).inPlaceOf source
  else return .unchanged

/-! ## Calls -/

/-- The first operand that raises replaces a call, after the effects of the operands before it;
    otherwise what is called decides. -/
def simplifyCall (node called args kw : Expression) : Except Defect Simplification :=
  if called.raises then
    .ok (.changed called .exceptionPropagated "Called expression raises exception")
  else if args.raises then
    .ok (.changed (args.after [called] node.location) .exceptionPropagated
      "Call arguments raise exception")
  else if kw.raises then
    .ok (.changed (kw.after [called, args] node.location) .exceptionPropagated
      "Call keyword arguments raise exception")
  else called.simplifyCallOf node

/-! ## Effects and tuples -/

/-- The expressions before the first that always raises, and that one. -/
def splitAtRaise? : List Expression → Option (List Expression × Expression)
  | [] => none
  | e :: rest =>
    if e.raises then some ([], e)
    else (splitAtRaise? rest).map fun (before, raising) => (e :: before, raising)

/-- Effects end with the first that raises; those that are none are removed, and with the last of
    them the node itself. -/
def simplifySideEffects (location : Location) (effects : List Expression) (value : Expression) :
    Except Defect Simplification :=
  match splitAtRaise? effects with
  | some (before, raising) =>
    .ok (.changed (raising.after before location) .exceptionPropagated
      "Side effects raise exception, value is never computed.")
  | none =>
    let kept := effects.filter mayHaveEffects
    if kept.isEmpty then
      .ok (.changed value .simplified "Side effects removed as they have no effect.")
    else if kept.length = effects.length then .ok .unchanged
    else
      .ok (.changed (.sideEffects location kept value) .simplified
        "Side effects without effect removed.")

/-- A tuple ends with the first element that raises; a tuple of constants is a constant. -/
def simplifyTuple (location : Location) (elements : List Expression) :
    Except Defect Simplification :=
  match splitAtRaise? elements with
  | some (before, raising) =>
    .ok (.changed (raising.after before location) .exceptionPropagated
      "Tuple element raises exception, tuple is never created.")
  | none =>
    if elements.all isConstant then
      Simplification.ofComputation location ((elements.mapM constantOperand).map Constant.tuple)
        "Tuple with constant elements pre-computed."
    else .ok .unchanged

/-! ## One attempt at one node -/

/-- One attempt to simplify a node; its children are not visited. -/
def simplify (node : Expression) : Except Defect Simplification :=
  match node with
  | .attributeLookup _ source name => simplifyLookup node source name
  | .specialLookup _ source _ => simplifySpecialLookup source
  | .getattr location source selector fallback =>
    simplifyGetattr location source selector fallback
  | .setattr .. => .ok .unchanged
  | .hasattr location source selector => simplifyHasattr location source selector
  | .call _ called args kw => simplifyCall node called args kw
  | .sideEffects location effects value => simplifySideEffects location effects value
  | .tuple location elements => simplifyTuple location elements
  | .constant .. | .var .. | .raise .. => .ok .unchanged

end Expression

end AttributeOptimizer
