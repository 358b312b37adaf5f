import AttributeOptimizer.Constant.Basic

set_option autoImplicit false

/-! # Attributes of constants

Which attributes a constant has follows from its type alone. The value of an attribute is known here
only for data attributes of numbers; all other attributes are methods, which exist but are not
constants themselves.

* `Constant.hasAttribute` decides existence;
* `Constant.lookupAttribute` gives the value, the absence of a constant value, or the exception that
  the lookup of a missing attribute raises. -/

namespace AttributeOptimizer

namespace Constant

/-! ## Tables -/

/-- Attributes that every value has. -/
def objectAttributes : List String :=
  ["__class__", "__delattr__", "__dir__", "__doc__", "__eq__", "__format__", "__ge__",
   "__getattribute__", "__gt__", "__hash__", "__init__", "__init_subclass__", "__le__",
   "__lt__", "__ne__", "__new__", "__reduce__", "__reduce_ex__", "__repr__", "__setattr__",
   "__sizeof__", "__str__", "__subclasshook__"]

/-- Attributes of integers, and of the truth values, which are integers too. -/
def intAttributes : List String :=
  ["__abs__", "__add__", "__and__", "__bool__", "__ceil__", "__divmod__", "__float__",
   "__floor__", "__floordiv__", "__getnewargs__", "__index__", "__int__", "__invert__",
   "__lshift__", "__mod__", "__mul__", "__neg__", "__or__", "__pos__", "__pow__", "__radd__",
   "__rand__", "__rdivmod__", "__rfloordiv__", "__rlshift__", "__rmod__", "__rmul__",
   "__ror__", "__round__", "__rpow__", "__rrshift__", "__rshift__", "__rsub__", "__rtruediv__",
   "__rxor__", "__sub__", "__truediv__", "__trunc__", "__xor__", "as_integer_ratio",
   "bit_count", "bit_length", "conjugate", "denominator", "from_bytes", "imag", "numerator",
   "real", "to_bytes"]

/-- Attributes of floating point numbers. -/
def floatAttributes : List String :=
  ["__abs__", "__add__", "__bool__", "__ceil__", "__divmod__", "__float__", "__floor__",
   "__floordiv__", "__getformat__", "__getnewargs__", "__int__", "__mod__", "__mul__",
   "__neg__", "__pos__", "__pow__", "__radd__", "__rdivmod__", "__rfloordiv__", "__rmod__",
   "__rmul__", "__round__", "__rpow__", "__rsub__", "__rtruediv__", "__sub__", "__truediv__",
   "__trunc__", "as_integer_ratio", "conjugate", "fromhex", "hex", "imag", "is_integer",
   "real"]

/-- Attributes shared by strings, byte strings and tuples. -/
def sequenceAttributes : List String :=
  ["__add__", "__contains__", "__getitem__", "__getnewargs__", "__iter__", "__len__",
   "__mul__", "__rmul__", "count", "index"]

/-- Further attributes of strings. -/
def strAttributes : List String :=
  ["__mod__", "__rmod__", "capitalize", "casefold", "center", "encode", "endswith",
   "expandtabs", "find", "format", "format_map", "isalnum", "isalpha", "isascii", "isdecimal",
   "isdigit", "isidentifier", "islower", "isnumeric", "isprintable", "isspace", "istitle",
   "isupper", "join", "ljust", "lower", "lstrip", "maketrans", "partition", "removeprefix",
   "removesuffix", "replace", "rfind", "rindex", "rjust", "rpartition", "rsplit", "rstrip",
   "split", "splitlines", "startswith", "strip", "swapcase", "title", "translate", "upper",
   "zfill"]

/-- Further attributes of byte strings. -/
def bytesAttributes : List String :=
  ["__bytes__", "__mod__", "__rmod__", "capitalize", "center", "decode", "endswith",
   "expandtabs", "find", "fromhex", "hex", "isalnum", "isalpha", "isascii", "isdigit",
   "islower", "isspace", "istitle", "isupper", "join", "ljust", "lower", "lstrip", "maketrans",
   "partition", "removeprefix", "removesuffix", "replace", "rfind", "rindex", "rjust",
   "rpartition", "rsplit", "rstrip", "split", "splitlines", "startswith", "strip", "swapcase",
   "title", "translate", "upper", "zfill"]

/-- Attributes of dictionaries. -/
def dictAttributes : List String :=
  ["__contains__", "__delitem__", "__getitem__", "__ior__", "__iter__", "__len__", "__or__",
   "__reversed__", "__ror__", "__setitem__", "clear", "copy", "fromkeys", "get", "items",
   "keys", "pop", "popitem", "setdefault", "update", "values"]

/-- The names of all attributes a constant of this type has. -/
def attributes : Constant → List String
  | .none => objectAttributes ++ ["__bool__"]
  | .bool _ | .int _ => objectAttributes ++ intAttributes
  | .float _ => objectAttributes ++ floatAttributes
  | .str _ => objectAttributes ++ sequenceAttributes ++ strAttributes
  | .bytes _ => objectAttributes ++ sequenceAttributes ++ bytesAttributes
  | .tuple _ => objectAttributes ++ sequenceAttributes
  | .dict _ => objectAttributes ++ dictAttributes
  | .ellipsis => objectAttributes

/-! ## Lookup -/

/-- Whether `value.name` exists. -/
def hasAttribute (value : Constant) (name : String) : Bool :=
  value.attributes.contains name

/-- The value of a data attribute. A truth value counts as the integer 0 or 1. -/
def dataAttribute? (value : Constant) (name : String) : Option Constant :=
  match value with
  | .int i =>
    if name = "real" ∨ name = "numerator" then some (.int i)
    else if name = "imag" then some (.int 0)
    else if name = "denominator" then some (.int 1)
    else Option.none
  | .bool b =>
    if name = "real" ∨ name = "numerator" then some (.int (if b then 1 else 0))
    else if name = "imag" then some (.int 0)
    else if name = "denominator" then some (.int 1)
    else Option.none
  | .float x =>
    if name = "real" then some (.float x)
    else if name = "imag" then some (.float Binary64.zero)
    else Option.none
  | _ => Option.none

/-- What `value.name` evaluates to: a constant, something that exists and is no constant, or the
    exception raised because there is no such attribute. -/
def lookupAttribute (value : Constant) (name : String) : Except RaisedException (Option Constant) :=
  if value.hasAttribute name then .ok (value.dataAttribute? name)
  else .error (.missingAttribute value.typeName name)

end Constant

end AttributeOptimizer
