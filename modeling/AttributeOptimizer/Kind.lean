set_option autoImplicit false

/-! # Node kinds and child roles

The static description of expression nodes: which kinds there are, and which children, by role, a
node of each kind has. Roles are listed in evaluation order. -/

namespace AttributeOptimizer

/-- What kind of expression a node is. -/
inductive Kind where
  | attributeLookup
  | specialLookup
  | getattr
  | setattr
  | hasattr
  | constant
  | var
  | raise
  | sideEffects
  | tuple
  | call
  deriving DecidableEq, Repr

/-- The place of a child within its node. -/
inductive Role where
  | source
  | selector
  | default
  | value
  | called
  | args
  | kw
  | expression
  | sideEffects
  | elements
  deriving DecidableEq, Repr

namespace Role

/-- All roles, in the order of their declaration. -/
def all : List Role :=
  [.source, .selector, .default, .value, .called, .args, .kw, .expression, .sideEffects, .elements]

/-- The name of the role, in documents and in messages. -/
def name : Role → String
  | source => "source"
  | selector => "attribute"
  | default => "default"
  | value => "value"
  | called => "called"
  | args => "args"
  | kw => "kw"
  | expression => "expression"
  | sideEffects => "side_effects"
  | elements => "elements"

/-- Whether the role holds any number of children; each other role holds one. -/
def isSequence : Role → Bool
  | sideEffects | elements => true
  | _ => false

end Role

namespace Kind

/-- All kinds, in the order of their declaration. -/
def all : List Kind :=
  [.attributeLookup, .specialLookup, .getattr, .setattr, .hasattr, .constant, .var, .raise,
   .sideEffects, .tuple, .call]

/-- The name of the kind in messages. -/
def text : Kind → String
  | attributeLookup => "AttributeLookup"
  | specialLookup => "SpecialAttributeLookup"
  | getattr => "Builtin::Getattr"
  | setattr => "Builtin::Setattr"
  | hasattr => "Builtin::Hasattr"
  | constant => "ConstantRef"
  | var => "VariableRef"
  | raise => "RaiseException"
  | sideEffects => "SideEffects"
  | tuple => "MakeTuple"
  | call => "Call"

/-- The roles of the children that a node of this kind has, in evaluation order. -/
def roles : Kind → List Role
  | attributeLookup | specialLookup => [.source]
  | getattr => [.source, .selector, .default]
  | setattr => [.source, .selector, .value]
  | hasattr => [.source, .selector]
  | constant | var | raise => []
  | sideEffects => [.sideEffects, .expression]
  | tuple => [.elements]
  | call => [.called, .args, .kw]

/-- Whether a node of this kind has children in the role. -/
def declares (kind : Kind) (role : Role) : Bool := kind.roles.contains role

end Kind

end AttributeOptimizer
