import AttributeOptimizer.Expression.Basic
import AttributeOptimizer.Format.Values

set_option autoImplicit false

/-! # Documents of expressions

A node is written as a record whose first field, `kind`, is the tag of its kind; its location and
the fields of the kind follow. It is read from a record in either form. A fallback may be absent or
`null`.

Reading goes bottom-up: `Json.asNode` reads every part of a value for what it can be within a node,
and a node is then made of the readings of its fields, of which each kind takes its own and ignores
the others. -/

namespace AttributeOptimizer

/-! ## Writing -/

namespace Expression

/-- A node of a kind with a location as a record. -/
def recordOf (kind : Kind) (location : Location) (fields : List (String × Json)) : Json :=
  .obj (("kind", kind.toJson) :: ("source_ref", location.toJson) :: fields)

mutual

/-- A tree as a record of records. -/
def toJson : Expression → Json
  | .attributeLookup location source name =>
    recordOf .attributeLookup location
      [("source", toJson source), ("attribute_name", .str name)]
  | .specialLookup location source name =>
    recordOf .specialLookup location
      [("source", toJson source), ("attribute_name", .str name)]
  | .getattr location source selector none =>
    recordOf .getattr location
      [("source", toJson source), ("attribute", toJson selector), ("default", .null)]
  | .getattr location source selector (some fallback) =>
    recordOf .getattr location
      [("source", toJson source), ("attribute", toJson selector), ("default", toJson fallback)]
  | .setattr location source selector value =>
    recordOf .setattr location
      [("source", toJson source), ("attribute", toJson selector), ("value", toJson value)]
  | .hasattr location source selector =>
    recordOf .hasattr location [("source", toJson source), ("attribute", toJson selector)]
  | .constant location value => recordOf .constant location [("value", value.toJson)]
  | .var location name => recordOf .var location [("variable_name", .str name)]
  | .raise location exception => recordOf .raise location [("exception", exception.toJson)]
  | .sideEffects location effects value =>
    recordOf .sideEffects location
      [("side_effects", .arr (listToJson effects)), ("expression", toJson value)]
  | .tuple location elements =>
    recordOf .tuple location [("elements", .arr (listToJson elements))]
  | .call location called args kw =>
    recordOf .call location
      [("called", toJson called), ("args", toJson args), ("kw", toJson kw)]

/-- A list of trees as a list of records. -/
def listToJson : List Expression → List Json
  | [] => []
  | e :: rest => toJson e :: listToJson rest

end

theorem listToJson_eq_map (es : List Expression) : listToJson es = es.map toJson := by
  induction es with
  | nil => rfl
  | cons e rest ih => simp [listToJson, ih]

end Expression

/-! ## Reading -/

namespace Kind

/-- The names of the fields that follow the tag of a node, in order. -/
def fieldNames : Kind → List String
  | attributeLookup | specialLookup => ["source_ref", "source", "attribute_name"]
  | getattr => ["source_ref", "source", "attribute", "default"]
  | setattr => ["source_ref", "source", "attribute", "value"]
  | hasattr => ["source_ref", "source", "attribute"]
  | constant => ["source_ref", "value"]
  | var => ["source_ref", "variable_name"]
  | raise => ["source_ref", "exception"]
  | sideEffects => ["source_ref", "side_effects", "expression"]
  | tuple => ["source_ref", "elements"]
  | call => ["source_ref", "called", "args", "kw"]

/-- Reads the tag of a node within another node, where the position of the kind in the order of
    declaration may stand for it. -/
def ofInnerTag? : Json → Option Kind
  | .str tag => ofTag? tag
  | .int i => if 0 ≤ i then all[i.toNat]? else none
  | _ => none

end Kind

/-- What a JSON value can be read as within a node. -/
structure NodeReading where
  /-- The value itself. -/
  json : Json
  /-- The node it is, if it is one. -/
  node? : Option Expression
  /-- The list of nodes it is, if it is one. -/
  list? : Option (List Expression)

namespace NodeReading

/-- The location it is, if it is one. -/
def location? (r : NodeReading) : Option Location := Location.ofJson? r.json

/-- The fallback it gives: none for `null`. -/
def fallback? (r : NodeReading) : Option (Option Expression) :=
  match r.json with
  | .null => some none
  | _ => r.node?.map some

/-- The node of a kind with the given fields, absent ones as `none`. -/
def assemble? : Kind → List (Option NodeReading) → Option Expression
  | .attributeLookup, [some location, some source, some name] => do
    return .attributeLookup (← location.location?) (← source.node?) (← name.json.string?)
  | .specialLookup, [some location, some source, some name] => do
    return .specialLookup (← location.location?) (← source.node?) (← name.json.string?)
  | .getattr, [some location, some source, some selector, none] => do
    return .getattr (← location.location?) (← source.node?) (← selector.node?) none
  | .getattr, [some location, some source, some selector, some fallback] => do
    return .getattr (← location.location?) (← source.node?) (← selector.node?)
      (← fallback.fallback?)
  | .setattr, [some location, some source, some selector, some value] => do
    return .setattr (← location.location?) (← source.node?) (← selector.node?) (← value.node?)
  | .hasattr, [some location, some source, some selector] => do
    return .hasattr (← location.location?) (← source.node?) (← selector.node?)
  | .constant, [some location, some value] => do
    return .constant (← location.location?) (← Constant.ofJson? .inNode value.json)
  | .var, [some location, some name] => do
    return .var (← location.location?) (← name.json.string?)
  | .raise, [some location, some exception] => do
    return .raise (← location.location?) (← RaisedException.ofJson? .inNode exception.json)
  | .sideEffects, [some location, some effects, some value] => do
    return .sideEffects (← location.location?) (← effects.list?) (← value.node?)
  | .tuple, [some location, some elements] => do
    return .tuple (← location.location?) (← elements.list?)
  | .call, [some location, some called, some args, some kw] => do
    return .call (← location.location?) (← called.node?) (← args.node?) (← kw.node?)
  | _, _ => none

/-- The node that named readings make. -/
def ofMembers? (members : List (String × NodeReading)) : Option Expression := do
  let tag ← (← Json.only? members "kind")
  let kind ← Kind.ofInnerTag? tag.json
  assemble? kind (← kind.fieldNames.mapM (Json.only? members))

/-- The node that readings in order make. -/
def ofItems? : List NodeReading → Option Expression
  | [] => none
  | tag :: fields => do
    let kind ← Kind.ofInnerTag? tag.json
    if fields.length = kind.fieldNames.length then assemble? kind (fields.map some) else none

end NodeReading

namespace Json

mutual

/-- What a value can be read as within a node. -/
def asNode : Json → NodeReading
  | .arr items =>
    let readings := asNodes items
    ⟨.arr items, NodeReading.ofItems? readings, readings.mapM NodeReading.node?⟩
  | .obj members => ⟨.obj members, NodeReading.ofMembers? (asMembers members), none⟩
  | j => ⟨j, none, none⟩

/-- What values can be read as within a node. -/
def asNodes : List Json → List NodeReading
  | [] => []
  | j :: rest => asNode j :: asNodes rest

/-- What named values can be read as within a node. -/
def asMembers : List (String × Json) → List (String × NodeReading)
  | [] => []
  | (name, j) :: rest => (name, asNode j) :: asMembers rest

end

theorem asNodes_eq_map (items : List Json) : asNodes items = items.map asNode := by
  induction items with
  | nil => rfl
  | cons j rest ih => simp [asNodes, ih]

theorem asMembers_eq_map (members : List (String × Json)) :
    asMembers members = members.map fun m => (m.1, asNode m.2) := by
  induction members with
  | nil => rfl
  | cons m rest ih => simp [asMembers, ih]

/-- Whether the tag of a node is a string. -/
def hasTextTag : Json → Bool
  | .obj members => members.all fun (name, j) => name != "kind" || j.string?.isSome
  | .arr (.str _ :: _) => true
  | _ => false

end Json

namespace Expression

/-- Reads a tree. -/
def ofJson? (j : Json) : Option Expression := if j.hasTextTag then j.asNode.node? else none

end Expression

end AttributeOptimizer
