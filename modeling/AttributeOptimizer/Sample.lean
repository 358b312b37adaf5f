import AttributeOptimizer.Format.Tags

set_option autoImplicit false

/-! # Sample trees

Descriptions of trees for tests, and the documents they stand for. A sample names only the line of a
node, all samples being in one file, and names the class of an exception by any string. Its document
is written here independently of `Expression.toJson`, so that a test which reads one exercises the
reader on a text that its own writer did not make. -/

namespace AttributeOptimizer

/-- A constant in a sample tree. -/
inductive SampleConstant where
  | none
  | bool (value : Bool)
  | int (value : Int64)
  | float (value : Binary64)
  | str (value : String)
  | tuple (elements : List SampleConstant)
  | emptyDict
  | ellipsis

namespace SampleConstant

mutual

/-- The document of a constant. -/
def toJson : SampleConstant → Json
  | .none => .str "None"
  | .bool value => .obj [("Bool", .bool value)]
  | .int value => .obj [("Int", .int value.toInt)]
  | .float value => .obj [("Float", if value.isFinite then .float value else .null)]
  | .str value => .obj [("Str", .str value)]
  | .tuple elements => .obj [("Tuple", .arr (listToJson elements))]
  | .emptyDict => .obj [("Dict", .arr [])]
  | .ellipsis => .str "Ellipsis"

/-- The documents of constants. -/
def listToJson : List SampleConstant → List Json
  | [] => []
  | c :: rest => toJson c :: listToJson rest

end

end SampleConstant

/-- A sample tree. -/
inductive Sample where
  | attributeLookup (line : UInt32) (source : Sample) (name : String)
  | specialLookup (line : UInt32) (source : Sample) (name : String)
  | getattr (line : UInt32) (source selector : Sample) (fallback : Option Sample)
  | setattr (line : UInt32) (source selector value : Sample)
  | hasattr (line : UInt32) (source selector : Sample)
  | constant (line : UInt32) (value : SampleConstant)
  | var (line : UInt32) (name : String)
  | raise (line : UInt32) (className message : String)
  | sideEffects (line : UInt32) (effects : List Sample) (value : Sample)
  | tuple (line : UInt32) (elements : List Sample)
  | call (line : UInt32) (called args kw : Sample)

namespace Sample

/-- The file that all samples are in. -/
def file : String := "generated.py"

/-- The document of a location in a sample tree. -/
def locationToJson (line : UInt32) : Json :=
  .obj [("file", .str file), ("line", .int line.toNat)]

mutual

/-- The document of a sample tree. -/
def toJson : Sample → Json
  | .attributeLookup line source name =>
    .obj [("kind", .str "AttributeLookup"), ("source_ref", locationToJson line),
      ("source", toJson source), ("attribute_name", .str name)]
  | .specialLookup line source name =>
    .obj [("kind", .str "SpecialAttributeLookup"), ("source_ref", locationToJson line),
      ("source", toJson source), ("attribute_name", .str name)]
  | .getattr line source selector none =>
    .obj [("kind", .str "BuiltinGetattr"), ("source_ref", locationToJson line),
      ("source", toJson source), ("attribute", toJson selector), ("default", .null)]
  | .getattr line source selector (some fallback) =>
    .obj [("kind", .str "BuiltinGetattr"), ("source_ref", locationToJson line),
      ("source", toJson source), ("attribute", toJson selector), ("default", toJson fallback)]
  | .setattr line source selector value =>
    .obj [("kind", .str "BuiltinSetattr"), ("source_ref", locationToJson line),
      ("source", toJson source), ("attribute", toJson selector), ("value", toJson value)]
  | .hasattr line source selector =>
    .obj [("kind", .str "BuiltinHasattr"), ("source_ref", locationToJson line),
      ("source", toJson source), ("attribute", toJson selector)]
  | .constant line value =>
    .obj [("kind", .str "ConstantRef"), ("source_ref", locationToJson line),
      ("value", value.toJson)]
  | .var line name =>
    .obj [("kind", .str "VariableRef"), ("source_ref", locationToJson line),
      ("variable_name", .str name)]
  | .raise line className message =>
    .obj [("kind", .str "RaiseException"), ("source_ref", locationToJson line),
      ("exception", .obj [("kind", .str className), ("message", .str message)])]
  | .sideEffects line effects value =>
    .obj [("kind", .str "SideEffects"), ("source_ref", locationToJson line),
      ("side_effects", .arr (listToJson effects)), ("expression", toJson value)]
  | .tuple line elements =>
    .obj [("kind", .str "MakeTuple"), ("source_ref", locationToJson line),
      ("elements", .arr (listToJson elements))]
  | .call line called args kw =>
    .obj [("kind", .str "Call"), ("source_ref", locationToJson line),
      ("called", toJson called), ("args", toJson args), ("kw", toJson kw)]

/-- The documents of sample trees. -/
def listToJson : List Sample → List Json
  | [] => []
  | s :: rest => toJson s :: listToJson rest

end

end Sample

end AttributeOptimizer
