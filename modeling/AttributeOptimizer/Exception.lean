set_option autoImplicit false

/-! # Exceptions of the compiled program

The exception classes form a tree rooted at `BaseException`: every class but the root has one direct
base, and `ExceptionClass.derivesFrom` walks the bases upward. A `RaisedException` is one that the
compiled program would raise when it runs. -/

namespace AttributeOptimizer

/-- The exception classes that attribute access, calls and constant evaluation can involve. -/
inductive ExceptionClass where
  | baseException
  | exception
  | attributeError
  | typeError
  | nameError
  | lookupError
  | keyError
  | indexError
  | arithmeticError
  | zeroDivisionError
  | valueError
  | runtimeError
  deriving DecidableEq, Repr

namespace ExceptionClass

/-- All classes, in the order of their declaration. -/
def all : List ExceptionClass :=
  [.baseException, .exception, .attributeError, .typeError, .nameError, .lookupError, .keyError,
   .indexError, .arithmeticError, .zeroDivisionError, .valueError, .runtimeError]

/-- The name of the class in the compiled program. -/
def name : ExceptionClass → String
  | baseException => "BaseException"
  | exception => "Exception"
  | attributeError => "AttributeError"
  | typeError => "TypeError"
  | nameError => "NameError"
  | lookupError => "LookupError"
  | keyError => "KeyError"
  | indexError => "IndexError"
  | arithmeticError => "ArithmeticError"
  | zeroDivisionError => "ZeroDivisionError"
  | valueError => "ValueError"
  | runtimeError => "RuntimeError"

/-- The direct base of a class; none for the root. -/
def base? : ExceptionClass → Option ExceptionClass
  | baseException => none
  | exception => some baseException
  | attributeError | typeError | nameError | lookupError | arithmeticError | valueError
  | runtimeError => some exception
  | keyError | indexError => some lookupError
  | zeroDivisionError => some arithmeticError

/-- How many bases lie above a class. -/
def depth : ExceptionClass → Nat
  | baseException => 0
  | exception => 1
  | keyError | indexError | zeroDivisionError => 3
  | _ => 2

/-- Whether `ancestor` is reached from a class within the given number of steps to a direct base. -/
def reaches (ancestor : ExceptionClass) : Nat → ExceptionClass → Bool
  | 0, c => c = ancestor
  | steps + 1, c =>
    c = ancestor ||
      match c.base? with
      | none => false
      | some base => reaches ancestor steps base

/-- Whether a class is `ancestor` or lies below it in the tree of classes. -/
def derivesFrom (c ancestor : ExceptionClass) : Bool := reaches ancestor c.depth c

@[simp] theorem derivesFrom_self (c : ExceptionClass) : c.derivesFrom c = true := by
  cases c <;> rfl

@[simp] theorem derivesFrom_baseException (c : ExceptionClass) :
    c.derivesFrom .baseException = true := by
  cases c <;> rfl

theorem derivesFrom_base {c base : ExceptionClass} (h : c.base? = some base) :
    c.derivesFrom base = true := by
  cases c <;> cases h <;> rfl

end ExceptionClass

/-- An exception as the compiled program raises it: its class and its message. -/
structure RaisedException where
  /-- The class of the exception. -/
  cls : ExceptionClass
  /-- The message; empty if there is none. -/
  message : String
  deriving DecidableEq, Repr

namespace RaisedException

/-- The exception raised by the lookup of an attribute that a type does not have. -/
def missingAttribute (typeName attributeName : String) : RaisedException :=
  ⟨.attributeError, s!"'{typeName}' object has no attribute '{attributeName}'"⟩

/-- The exception raised by calling a value of a type that cannot be called. -/
def notCallable (typeName : String) : RaisedException :=
  ⟨.typeError, s!"'{typeName}' object is not callable"⟩

/-- The class name, followed by the message if there is one. -/
def text (e : RaisedException) : String :=
  if e.message.isEmpty then e.cls.name else s!"{e.cls.name}: {e.message}"

end RaisedException

end AttributeOptimizer
