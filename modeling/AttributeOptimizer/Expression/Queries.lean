import AttributeOptimizer.Expression.Basic

set_option autoImplicit false

/-! # What the rules ask of their operands

Will an expression always raise, what would be lost if its value were not used, and what is known of
its value. -/

namespace AttributeOptimizer

namespace Expression

/-! ## Raising -/

mutual

/-- Whether evaluation always raises, where some part that is always evaluated raises an exception
    of the class `base` or below it. -/
def alwaysRaises (base : ExceptionClass) : Expression → Bool
  | .raise _ exception => exception.cls.derivesFrom base
  | .sideEffects _ effects value => anyAlwaysRaises base effects || alwaysRaises base value
  | _ => false

/-- Whether some expression of a list always raises. -/
def anyAlwaysRaises (base : ExceptionClass) : List Expression → Bool
  | [] => false
  | e :: rest => alwaysRaises base e || anyAlwaysRaises base rest

end

theorem anyAlwaysRaises_eq_any (base : ExceptionClass) (es : List Expression) :
    anyAlwaysRaises base es = es.any (alwaysRaises base) := by
  induction es with
  | nil => rfl
  | cons e rest ih => simp [anyAlwaysRaises, ih]

/-- Whether evaluation always raises. -/
abbrev raises (e : Expression) : Bool := e.alwaysRaises .baseException

/-! ## Effects -/

mutual

/-- Whether evaluation may do more than give a value. Lookups, builtins and calls can run code of
    the program and can raise; raising always counts as an effect. -/
def mayHaveEffects : Expression → Bool
  | .constant .. | .var .. => false
  | .tuple _ elements => anyMayHaveEffects elements
  | .sideEffects _ effects value => anyMayHaveEffects effects || mayHaveEffects value
  | _ => true

/-- Whether some expression of a list may have effects. -/
def anyMayHaveEffects : List Expression → Bool
  | [] => false
  | e :: rest => mayHaveEffects e || anyMayHaveEffects rest

end

theorem anyMayHaveEffects_eq_any (es : List Expression) :
    anyMayHaveEffects es = es.any mayHaveEffects := by
  induction es with
  | nil => rfl
  | cons e rest ih => simp [anyMayHaveEffects, ih]

mutual

/-- What must still be evaluated, in this order, where the value of an expression is not used. -/
def effects : Expression → List Expression
  | .constant .. | .var .. => []
  | .tuple _ elements => allEffects elements
  | .sideEffects _ before value => allEffects before ++ effects value
  | e => [e]

/-- What must still be evaluated of a list of expressions, in this order. -/
def allEffects : List Expression → List Expression
  | [] => []
  | e :: rest => effects e ++ allEffects rest

end

theorem allEffects_eq_flatMap (es : List Expression) : allEffects es = es.flatMap effects := by
  induction es with
  | nil => rfl
  | cons e rest ih => simp [allEffects, ih]

/-- What a call's arguments must still have evaluated between the evaluation of what is called and
    the call; nothing where the node is no call. -/
def argumentEffects : Expression → List Expression
  | .call _ _ args kw => args.effects ++ kw.effects
  | _ => []

/-! ## Values -/

/-- Whether the value can be iterated over with exactly `count` elements, where that is known. -/
def iterableWith? (e : Expression) (count : Nat) : Option Bool :=
  match e with
  | .constant _ (.tuple elements) => some (elements.length == count)
  | .tuple _ elements => some (elements.length == count)
  | _ => none

end Expression

end AttributeOptimizer
