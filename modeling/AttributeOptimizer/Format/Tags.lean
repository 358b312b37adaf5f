import AttributeOptimizer.ChangeTag
import AttributeOptimizer.Exception
import AttributeOptimizer.Json.Basic
import AttributeOptimizer.Kind

set_option autoImplicit false

/-! # Tags

How the values of the closed vocabularies are written in documents: as a string, and when read also
as an object whose only member has that string as its name and no data. Within a node the absence of
data may be an empty object as well as `null`. -/

namespace AttributeOptimizer

/-- Where a value is read: a value that stands alone is read more strictly than a part of a node. -/
inductive Context where
  /-- The value stands alone. -/
  | alone
  /-- The value is part of a node. -/
  | inNode
  deriving DecidableEq, Repr

namespace Context

/-- Whether a member's value counts as the absence of data. -/
def isNoData (context : Context) : Json → Bool
  | .null => true
  | .obj [] => context = .inNode
  | _ => false

/-- The tag that a value without data spells. -/
def tag? (context : Context) : Json → Option String
  | .str tag => some tag
  | .obj [(tag, data)] => if context.isNoData data then some tag else none
  | _ => none

end Context

/-- The first of some values with a given name. -/
def findNamed? {α : Type} (nameOf : α → String) (values : List α) (name : String) : Option α :=
  values.find? fun a => nameOf a = name

namespace Kind

/-- The tag of a kind in documents. -/
def tag : Kind → String
  | attributeLookup => "AttributeLookup"
  | specialLookup => "SpecialAttributeLookup"
  | getattr => "BuiltinGetattr"
  | setattr => "BuiltinSetattr"
  | hasattr => "BuiltinHasattr"
  | constant => "ConstantRef"
  | var => "VariableRef"
  | raise => "RaiseException"
  | sideEffects => "SideEffects"
  | tuple => "MakeTuple"
  | call => "Call"

/-- The kind with a tag. -/
def ofTag? (tag : String) : Option Kind := findNamed? Kind.tag all tag

/-- A kind as a value of its own. -/
def toJson (kind : Kind) : Json := .str kind.tag

/-- Reads a kind. -/
def ofJson? (j : Json) : Option Kind := (Context.alone.tag? j).bind ofTag?

end Kind

namespace Role

/-- The role with a name. -/
def ofName? (name : String) : Option Role := findNamed? Role.name all name

/-- A role as a value of its own. -/
def toJson (role : Role) : Json := .str role.name

/-- Reads a role. -/
def ofJson? (j : Json) : Option Role := (Context.alone.tag? j).bind ofName?

end Role

namespace ChangeTag

/-- All tags, in the order of their declaration. -/
def all : List ChangeTag := [.exceptionPropagated, .simplified, .constantFolded]

/-- The name of a tag in documents. -/
def name : ChangeTag → String
  | exceptionPropagated => "ExceptionPropagated"
  | simplified => "Rewritten"
  | constantFolded => "ConstantFolded"

/-- The tag with a name. -/
def ofName? (name : String) : Option ChangeTag := findNamed? ChangeTag.name all name

/-- A tag as a value of its own. -/
def toJson (tag : ChangeTag) : Json := .str tag.name

/-- Reads a tag. -/
def ofJson? (j : Json) : Option ChangeTag := (Context.alone.tag? j).bind ofName?

end ChangeTag

namespace ExceptionClass

/-- The class with a name. -/
def ofName? (className : String) : Option ExceptionClass :=
  findNamed? ExceptionClass.name all className

/-- A class as a value of its own. -/
def toJson (c : ExceptionClass) : Json := .str c.name

/-- Reads a class. -/
def ofJson? (context : Context) (j : Json) : Option ExceptionClass :=
  (context.tag? j).bind ofName?

end ExceptionClass

end AttributeOptimizer
