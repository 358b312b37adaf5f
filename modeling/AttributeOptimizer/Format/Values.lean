import AttributeOptimizer.Constant.Basic
import AttributeOptimizer.Format.Fields
import AttributeOptimizer.Format.Tags
import AttributeOptimizer.Location

set_option autoImplicit false

/-! # Documents of locations, exceptions and constants

The values that nodes carry besides their children, as JSON values. A constant is an object whose
only member has the constant's sort as its name and its data as the value; the two constants without
data are tags. A float that stands for no finite number is written as `null` and cannot be read
back. -/

namespace AttributeOptimizer

/-! ## Locations -/

namespace Location

/-- A location as a record. -/
def toJson (location : Location) : Json :=
  .obj [("file", .str location.file), ("line", .int location.line.toNat)]

/-- Reads a line number, which has 32 bits. -/
def lineOfJson? (j : Json) : Option UInt32 :=
  (j.intBetween? 0 (UInt32.size - 1)).map fun i => UInt32.ofNat i.toNat

/-- Reads a location. -/
def ofJson? (j : Json) : Option Location :=
  match j.fields? ["file", "line"] with
  | some [some file, some line] => do return ⟨← file.string?, ← lineOfJson? line⟩
  | _ => none

end Location

/-! ## Exceptions -/

namespace RaisedException

/-- An exception as a record. -/
def toJson (e : RaisedException) : Json :=
  .obj [("kind", e.cls.toJson), ("message", .str e.message)]

/-- Reads an exception. -/
def ofJson? (context : Context) (j : Json) : Option RaisedException :=
  match j.fields? ["kind", "message"] with
  | some [some cls, some message] => do
    return ⟨← ExceptionClass.ofJson? context cls, ← message.string?⟩
  | _ => none

end RaisedException

/-! ## Constants -/

namespace Constant

mutual

/-- A constant as a tag or as an object of one member. -/
def toJson : Constant → Json
  | .none => .str "None"
  | .bool value => .obj [("Bool", .bool value)]
  | .int value => .obj [("Int", .int value.toInt)]
  | .float value => .obj [("Float", if value.isFinite then .float value else .null)]
  | .str value => .obj [("Str", .str value)]
  | .bytes value => .obj [("Bytes", .arr (value.map fun b => .int b.toNat))]
  | .tuple elements => .obj [("Tuple", .arr (elementsToJson elements))]
  | .dict pairs => .obj [("Dict", .arr (pairsToJson pairs))]
  | .ellipsis => .str "Ellipsis"

/-- The elements of a tuple. -/
def elementsToJson : List Constant → List Json
  | [] => []
  | c :: rest => toJson c :: elementsToJson rest

/-- The pairs of a dictionary, each an array of key and value. -/
def pairsToJson : List (Constant × Constant) → List Json
  | [] => []
  | (key, value) :: rest => .arr [toJson key, toJson value] :: pairsToJson rest

end

theorem elementsToJson_eq_map (elements : List Constant) :
    elementsToJson elements = elements.map toJson := by
  induction elements with
  | nil => rfl
  | cons c rest ih => rw [elementsToJson, ih, List.map_cons]

theorem pairsToJson_eq_map (pairs : List (Constant × Constant)) :
    pairsToJson pairs = pairs.map fun p => .arr [p.1.toJson, p.2.toJson] := by
  induction pairs with
  | nil => rfl
  | cons p rest ih => rw [pairsToJson, ih, List.map_cons]

/-- Reads a byte. -/
def byteOfJson? (j : Json) : Option UInt8 :=
  (j.intBetween? 0 255).map fun i => UInt8.ofNat i.toNat

/-- Reads a constant without data from its tag. -/
def ofTag? (tag : String) : Option Constant :=
  if tag = "None" then some .none else if tag = "Ellipsis" then some .ellipsis else Option.none

/-- Reads a constant whose data is no array, from the name of its sort and the data. -/
def ofScalar? (context : Context) (sort : String) (data : Json) : Option Constant :=
  if context.isNoData data then ofTag? sort
  else if sort = "Bool" then data.bool?.map .bool
  else if sort = "Int" then
    (data.intBetween? Int64.minValue.toInt Int64.maxValue.toInt).map fun i => .int (Int64.ofInt i)
  else if sort = "Float" then data.float?.map .float
  else if sort = "Str" then data.string?.map .str
  else Option.none

mutual

/-- Reads a constant. -/
def ofJson? (context : Context) : Json → Option Constant
  | .str tag => ofTag? tag
  | .obj [(sort, .arr items)] =>
    if sort = "Bytes" then (items.mapM byteOfJson?).map .bytes
    else if sort = "Tuple" then (elementsOfJson? context items).map .tuple
    else if sort = "Dict" then (pairsOfJson? context items).map .dict
    else Option.none
  | .obj [(sort, data)] => ofScalar? context sort data
  | _ => Option.none

/-- Reads the elements of a tuple. -/
def elementsOfJson? (context : Context) : List Json → Option (List Constant)
  | [] => some []
  | j :: rest => do
    let c ← ofJson? context j
    let cs ← elementsOfJson? context rest
    return c :: cs

/-- Reads the pairs of a dictionary. -/
def pairsOfJson? (context : Context) : List Json → Option (List (Constant × Constant))
  | [] => some []
  | .arr [key, value] :: rest => do
    let key ← ofJson? context key
    let value ← ofJson? context value
    let pairs ← pairsOfJson? context rest
    return (key, value) :: pairs
  | _ :: _ => Option.none

end

theorem elementsOfJson?_eq_mapM (context : Context) (items : List Json) :
    elementsOfJson? context items = items.mapM (ofJson? context) := by
  induction items with
  | nil => rfl
  | cons j rest ih => rw [elementsOfJson?, ih, List.mapM_cons]

end Constant

end AttributeOptimizer
