import AttributeOptimizer.Binary64.Decimal
import AttributeOptimizer.Json.Basic

set_option autoImplicit false

/-! # Writing JSON texts

A value is written either without any space, `Json.compact`, or over several lines, `Json.pretty`,
where every item and member has its own line, indented by two spaces for each level; an empty array
or object stays on one line. A float that stands for no finite number is written as `null`. -/

namespace AttributeOptimizer

namespace Json

/-- A character as it stands inside a JSON string. -/
def escapeChar (c : Char) : List Char :=
  match c with
  | '"' => ['\\', '"']
  | '\\' => ['\\', '\\']
  | '\x08' => ['\\', 'b']
  | '\x0c' => ['\\', 'f']
  | '\n' => ['\\', 'n']
  | '\r' => ['\\', 'r']
  | '\t' => ['\\', 't']
  | c =>
    if c.toNat < 0x20 then
      ['\\', 'u', '0', '0', Nat.digitChar (c.toNat / 16), Nat.digitChar (c.toNat % 16)]
    else [c]

/-- A JSON string. -/
def renderString (s : String) : List Char := '"' :: s.toList.flatMap escapeChar ++ ['"']

/-- The text of a value that is neither an array nor an object. -/
def renderScalar : Json → List Char
  | .bool true => "true".toList
  | .bool false => "false".toList
  | .int value => (toString value).toList
  | .float value =>
    if value.isFinite then (value.finiteText Binary64.documentLayout).toList else "null".toList
  | .str value => renderString value
  | _ => "null".toList

mutual

/-- The text of a value, without any space. -/
def render : Json → List Char
  | .arr [] => ['[', ']']
  | .arr (j :: rest) => '[' :: render j ++ renderItems rest ++ [']']
  | .obj [] => ['\x7b', '\x7d']
  | .obj ((name, j) :: rest) =>
    '\x7b' :: renderString name ++ ':' :: render j ++ renderMembers rest ++ ['\x7d']
  | j => renderScalar j

/-- The items after the first of an array, each after a comma. -/
def renderItems : List Json → List Char
  | [] => []
  | j :: rest => ',' :: render j ++ renderItems rest

/-- The members after the first of an object, each after a comma. -/
def renderMembers : List (String × Json) → List Char
  | [] => []
  | (name, j) :: rest => ',' :: renderString name ++ ':' :: render j ++ renderMembers rest

end

/-- A line end and the indentation of a line at a level. -/
def newLine (level : Nat) : List Char := '\n' :: List.replicate (2 * level) ' '

mutual

/-- The text of a value over several lines, the first of them begun at a level. -/
def renderPretty (level : Nat) : Json → List Char
  | .arr [] => ['[', ']']
  | .arr (j :: rest) =>
    '[' :: newLine (level + 1) ++ renderPretty (level + 1) j ++
      renderPrettyItems (level + 1) rest ++ newLine level ++ [']']
  | .obj [] => ['\x7b', '\x7d']
  | .obj ((name, j) :: rest) =>
    '\x7b' :: newLine (level + 1) ++ renderString name ++ ':' :: ' ' ::
      renderPretty (level + 1) j ++ renderPrettyMembers (level + 1) rest ++ newLine level ++
      ['\x7d']
  | j => renderScalar j

/-- The items after the first of an array, each after a comma and on its own line. -/
def renderPrettyItems (level : Nat) : List Json → List Char
  | [] => []
  | j :: rest => ',' :: newLine level ++ renderPretty level j ++ renderPrettyItems level rest

/-- The members after the first of an object, each after a comma and on its own line. -/
def renderPrettyMembers (level : Nat) : List (String × Json) → List Char
  | [] => []
  | (name, j) :: rest =>
    ',' :: newLine level ++ renderString name ++ ':' :: ' ' :: renderPretty level j ++
      renderPrettyMembers level rest

end

/-- The text of a value, without any space. -/
def compact (j : Json) : String := String.ofList j.render

/-- The text of a value over several lines. -/
def pretty (j : Json) : String := String.ofList (j.renderPretty 0)

end Json

end AttributeOptimizer
