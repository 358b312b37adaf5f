import AttributeOptimizer.Constant.Basic
import AttributeOptimizer.Kind
import AttributeOptimizer.Location

set_option autoImplicit false

/-! # Expressions

The trees that the optimizer works on: attribute access in its five forms, and the operands it can
have. Every node carries its location. Evaluation runs the children from left to right, in the order
in which the fields stand here. -/

namespace AttributeOptimizer

/-- An expression of the compiled program. -/
inductive Expression where
  /-- Reads an attribute by its literal name. -/
  | attributeLookup (location : Location) (source : Expression) (name : String)
  /-- Reads an attribute with a reserved name. -/
  | specialLookup (location : Location) (source : Expression) (name : String)
  /-- Reads the attribute that `selector` names; `fallback` is the value to use when it is missing,
      where the program gives one. -/
  | getattr (location : Location) (source selector : Expression) (fallback : Option Expression)
  /-- Sets the attribute that `selector` names. -/
  | setattr (location : Location) (source selector value : Expression)
  /-- Tests for the attribute that `selector` names. -/
  | hasattr (location : Location) (source selector : Expression)
  /-- A value known at compile time. -/
  | constant (location : Location) (value : Constant)
  /-- Reads a local variable that is known to be assigned. -/
  | var (location : Location) (name : String)
  /-- Raises an exception. -/
  | raise (location : Location) (exception : RaisedException)
  /-- Evaluates `effects` in order for their effects alone, then `value`. -/
  | sideEffects (location : Location) (effects : List Expression) (value : Expression)
  /-- Makes a tuple of its elements. -/
  | tuple (location : Location) (elements : List Expression)
  /-- Calls `called` with the positional arguments in the tuple `args` and the keyword arguments in
      the dictionary `kw`. -/
  | call (location : Location) (called args kw : Expression)

namespace Expression

instance : Inhabited Expression := ⟨.constant ⟨"", 0⟩ .none⟩

/-- The kind of a node. -/
def kind : Expression → Kind
  | .attributeLookup .. => .attributeLookup
  | .specialLookup .. => .specialLookup
  | .getattr .. => .getattr
  | .setattr .. => .setattr
  | .hasattr .. => .hasattr
  | .constant .. => .constant
  | .var .. => .var
  | .raise .. => .raise
  | .sideEffects .. => .sideEffects
  | .tuple .. => .tuple
  | .call .. => .call

/-- The location of a node. -/
def location : Expression → Location
  | .attributeLookup location ..
  | .specialLookup location ..
  | .getattr location ..
  | .setattr location ..
  | .hasattr location ..
  | .constant location ..
  | .var location ..
  | .raise location ..
  | .sideEffects location ..
  | .tuple location ..
  | .call location .. => location

/-- The attribute name that a lookup node carries. -/
def attributeName? : Expression → Option String
  | .attributeLookup _ _ name | .specialLookup _ _ name => some name
  | _ => none

/-- The value of a constant node. -/
def constant? : Expression → Option Constant
  | .constant _ value => some value
  | _ => none

/-- The text of a node that is a string constant. -/
def string? (e : Expression) : Option String := e.constant?.bind Constant.string?

/-- Whether a node is a constant. -/
def isConstant : Expression → Bool
  | .constant .. => true
  | _ => false

mutual

/-- The same tree with every node moved to one location. -/
def relocate (place : Location) : Expression → Expression
  | .attributeLookup _ source name => .attributeLookup place (relocate place source) name
  | .specialLookup _ source name => .specialLookup place (relocate place source) name
  | .getattr _ source selector none =>
    .getattr place (relocate place source) (relocate place selector) none
  | .getattr _ source selector (some fallback) =>
    .getattr place (relocate place source) (relocate place selector)
      (some (relocate place fallback))
  | .setattr _ source selector value =>
    .setattr place (relocate place source) (relocate place selector) (relocate place value)
  | .hasattr _ source selector => .hasattr place (relocate place source) (relocate place selector)
  | .constant _ value => .constant place value
  | .var _ name => .var place name
  | .raise _ exception => .raise place exception
  | .sideEffects _ effects value =>
    .sideEffects place (relocateAll place effects) (relocate place value)
  | .tuple _ elements => .tuple place (relocateAll place elements)
  | .call _ called args kw =>
    .call place (relocate place called) (relocate place args) (relocate place kw)

/-- The same trees with every node moved to one location. -/
def relocateAll (place : Location) : List Expression → List Expression
  | [] => []
  | e :: rest => relocate place e :: relocateAll place rest

end

theorem relocateAll_eq_map (place : Location) (es : List Expression) :
    relocateAll place es = es.map (relocate place) := by
  induction es with
  | nil => rfl
  | cons e rest ih => simp [relocateAll, ih]

@[simp] theorem kind_relocate (place : Location) (e : Expression) :
    (relocate place e).kind = e.kind := by
  cases e with
  | getattr _ _ _ fallback => cases fallback <;> simp [relocate, kind]
  | _ => simp [relocate, kind]

@[simp] theorem location_relocate (place : Location) (e : Expression) :
    (relocate place e).location = place := by
  cases e with
  | getattr _ _ _ fallback => cases fallback <;> simp [relocate, location]
  | _ => simp [relocate, location]

mutual

/-- Equality of two trees in all but their locations. -/
def alike : Expression → Expression → Bool
  | .attributeLookup _ sa na, .attributeLookup _ sb nb => na == nb && alike sa sb
  | .specialLookup _ sa na, .specialLookup _ sb nb => na == nb && alike sa sb
  | .getattr _ sa aa none, .getattr _ sb ab none => alike sa sb && alike aa ab
  | .getattr _ sa aa (some fa), .getattr _ sb ab (some fb) =>
    alike sa sb && alike aa ab && alike fa fb
  | .setattr _ sa aa va, .setattr _ sb ab vb => alike sa sb && alike aa ab && alike va vb
  | .hasattr _ sa aa, .hasattr _ sb ab => alike sa sb && alike aa ab
  | .constant _ va, .constant _ vb => va.equal vb
  | .var _ na, .var _ nb => na == nb
  | .raise _ ea, .raise _ eb => ea == eb
  | .sideEffects _ sa va, .sideEffects _ sb vb => allAlike sa sb && alike va vb
  | .tuple _ ea, .tuple _ eb => allAlike ea eb
  | .call _ ca aa ka, .call _ cb ab kb => alike ca cb && alike aa ab && alike ka kb
  | _, _ => false

/-- Equality of two lists of trees in all but their locations. -/
def allAlike : List Expression → List Expression → Bool
  | [], [] => true
  | a :: as, b :: bs => alike a b && allAlike as bs
  | _, _ => false

end

end Expression

end AttributeOptimizer
