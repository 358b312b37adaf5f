import AttributeOptimizer.Json.Number

set_option autoImplicit false

/-! # Reading JSON texts

A text is read character by character: `Json.Reader.step` takes the reader from one state to the
next, and reading a text is the fold of it. A state has two halves. The `Lexeme` is the token that
was begun and is not complete; the `Progress` is what the tokens so far amount to: the arrays and
objects that are open, innermost first, and what may come next in the innermost.

Nesting is not limited here, and scalars without value are kept as such; `Json.isSound` is the test
for both. -/

namespace AttributeOptimizer

namespace Json

/-! ## Strings -/

/-- Where a reader stands within a string. -/
inductive StringMode where
  /-- Between characters. -/
  | plain
  /-- After a backslash. -/
  | escape
  /-- Within an escaped code: how many hexadecimal digits are missing, and the value so far. -/
  | code (missing : Nat) (value : Nat)
  deriving DecidableEq, Repr

/-- A string that was begun and is not complete. -/
structure OpenString where
  /-- The characters so far, last first. -/
  before : List Char
  /-- Whether they are all of them: false once half a surrogate pair was met alone. -/
  readable : Bool
  /-- The first half of a surrogate pair, if the second must come next. -/
  half : Option Nat
  /-- Where the reader stands. -/
  mode : StringMode

namespace OpenString

/-- A string of which nothing has been read. -/
def empty : OpenString := ⟨[], true, none, .plain⟩

/-- A first half that is not followed by a second is a fault. -/
def dropHalf (s : OpenString) : OpenString :=
  { s with readable := s.readable && s.half.isNone, half := none }

/-- Takes one character. -/
def push (s : OpenString) (c : Char) : OpenString :=
  { s.dropHalf with before := c :: s.before, mode := .plain }

/-- Takes an escaped code: a character, or one half of a surrogate pair. -/
def pushCode (s : OpenString) (code : Nat) : OpenString :=
  if 0xDC00 ≤ code ∧ code ≤ 0xDFFF then
    match s.half with
    | some first =>
      { s with
        before := Char.ofNat (0x10000 + (first - 0xD800) * 0x400 + (code - 0xDC00)) :: s.before,
        half := none, mode := .plain }
    | none => { s with readable := false, mode := .plain }
  else if 0xD800 ≤ code ∧ code ≤ 0xDBFF then
    { s.dropHalf with half := some code, mode := .plain }
  else s.push (Char.ofNat code)

/-- The text of a completed string; none if it has a fault. -/
def text? (s : OpenString) : Option String :=
  if s.dropHalf.readable then some (String.ofList s.before.reverse) else none

end OpenString

/-- The value of a hexadecimal digit. -/
def hexDigit? (c : Char) : Option Nat :=
  if '0' ≤ c ∧ c ≤ '9' then some (c.toNat - '0'.toNat)
  else if 'a' ≤ c ∧ c ≤ 'f' then some (c.toNat - 'a'.toNat + 10)
  else if 'A' ≤ c ∧ c ≤ 'F' then some (c.toNat - 'A'.toNat + 10)
  else none

/-- The character that a letter stands for after a backslash. -/
def escaped? : Char → Option Char
  | '"' => some '"'
  | '\\' => some '\\'
  | '/' => some '/'
  | 'b' => some '\x08'
  | 'f' => some '\x0c'
  | 'n' => some '\n'
  | 'r' => some '\r'
  | 't' => some '\t'
  | _ => none

/-! ## Tokens -/

/-- A token of a JSON text. -/
inductive Token where
  | openArray
  | closeArray
  | openObject
  | closeObject
  | comma
  | colon
  /-- A literal or a number. -/
  | word (value : Json)
  /-- A string; none if it has a fault. -/
  | string (text : Option String)

/-- The token that a character is by itself. -/
def Token.ofChar? : Char → Option Token
  | '[' => some .openArray
  | ']' => some .closeArray
  | '\x7b' => some .openObject
  | '\x7d' => some .closeObject
  | ',' => some .comma
  | ':' => some .colon
  | _ => none

/-! ## Progress -/

/-- The name of a member; none if it has a fault. -/
abbrev Name := Option String

/-- An array or object that is open, its parts so far last first. -/
inductive Frame where
  /-- An array. -/
  | items (before : List Json)
  /-- An object between two members. -/
  | members (before : List (Name × Json))
  /-- An object within a member of the given name. -/
  | member (before : List (Name × Json)) (name : Name)

/-- What the tokens so far amount to. -/
inductive Progress where
  /-- They begin no JSON text. -/
  | failed
  /-- They are a whole JSON text. -/
  | complete (value : Json)
  /-- A value must come next. -/
  | needValue (stack : List Frame)
  /-- The first item of an array, or its end, must come next. -/
  | needItem (stack : List Frame)
  /-- The first name of an object, or its end, must come next. -/
  | needMember (stack : List Frame)
  /-- A name must come next. -/
  | needName (stack : List Frame)
  /-- A colon must come next. -/
  | needColon (stack : List Frame)
  /-- A comma, or the end of the innermost array or object, must come next. -/
  | needNext (stack : List Frame)

/-- The object of the given members, last first. -/
def ofMembers (before : List (Name × Json)) : Json :=
  match before.reverse.mapM fun (name, value) => name.map (·, value) with
  | some members => .obj members
  | none => .unreadable

namespace Progress

/-- A value is complete. -/
def accept (value : Json) : List Frame → Progress
  | [] => .complete value
  | .items before :: stack => .needNext (.items (value :: before) :: stack)
  | .member before name :: stack => .needNext (.members ((name, value) :: before) :: stack)
  | .members _ :: _ => .failed

/-- The innermost array ends. -/
def closeArray : List Frame → Progress
  | .items before :: stack => accept (.arr before.reverse) stack
  | _ => .failed

/-- The innermost object ends. -/
def closeObject : List Frame → Progress
  | .members before :: stack => accept (ofMembers before) stack
  | _ => .failed

/-- A token comes where a value must. -/
def beginValue (stack : List Frame) : Token → Progress
  | .openArray => .needItem (.items [] :: stack)
  | .openObject => .needMember (.members [] :: stack)
  | .word value => accept value stack
  | .string (some text) => accept (.str text) stack
  | .string none => accept .unreadable stack
  | _ => .failed

/-- A token comes where a name must. -/
def beginMember (stack : List Frame) : Token → Progress
  | .string name =>
    match stack with
    | .members before :: stack => .needColon (.member before name :: stack)
    | _ => .failed
  | _ => .failed

/-- A comma comes after an item or a member. -/
def afterComma : List Frame → Progress
  | .items before :: stack => .needValue (.items before :: stack)
  | .members before :: stack => .needName (.members before :: stack)
  | _ => .failed

/-- Takes one token. -/
def take : Progress → Token → Progress
  | .needValue stack, token => beginValue stack token
  | .needItem stack, .closeArray => closeArray stack
  | .needItem stack, token => beginValue stack token
  | .needMember stack, .closeObject => closeObject stack
  | .needMember stack, token => beginMember stack token
  | .needName stack, token => beginMember stack token
  | .needColon stack, .colon => .needValue stack
  | .needNext stack, .comma => afterComma stack
  | .needNext stack, .closeArray => closeArray stack
  | .needNext stack, .closeObject => closeObject stack
  | _, _ => .failed

end Progress

/-! ## The reader -/

/-- The token that was begun and is not complete. -/
inductive Lexeme where
  /-- None. -/
  | between
  /-- A word, last character first. -/
  | word (before : List Char)
  /-- A string. -/
  | string (s : OpenString)

/-- The state of a reader. -/
structure Reader where
  /-- The token that was begun. -/
  lexeme : Lexeme
  /-- What the tokens before it amount to. -/
  progress : Progress

namespace Reader

/-- The reader of a text of which nothing has been read. -/
def start : Reader := ⟨.between, .needValue []⟩

/-- The reader of a text that begins no JSON text. -/
def failed : Reader := ⟨.between, .failed⟩

/-- Completes a word. -/
def endWord (before : List Char) (progress : Progress) : Progress :=
  match readWord? before.reverse with
  | some value => progress.take (.word value)
  | none => .failed

/-- Takes a character that no token was begun before. -/
def stepBetween (progress : Progress) (c : Char) : Reader :=
  if c = ' ' ∨ c = '\n' ∨ c = '\t' ∨ c = '\r' then ⟨.between, progress⟩
  else if c = '"' then ⟨.string .empty, progress⟩
  else if isWordChar c then ⟨.word [c], progress⟩
  else
    match Token.ofChar? c with
    | some token => ⟨.between, progress.take token⟩
    | none => failed

/-- Takes a character within a string. -/
def stepString (s : OpenString) (progress : Progress) (c : Char) : Reader :=
  match s.mode with
  | .plain =>
    if c = '"' then ⟨.between, progress.take (.string s.text?)⟩
    else if c = '\\' then ⟨.string { s with mode := .escape }, progress⟩
    else if c.toNat < 0x20 then failed
    else ⟨.string (s.push c), progress⟩
  | .escape =>
    if c = 'u' then ⟨.string { s with mode := .code 4 0 }, progress⟩
    else
      match escaped? c with
      | some c => ⟨.string (s.push c), progress⟩
      | none => failed
  | .code missing value =>
    match hexDigit? c with
    | none => failed
    | some digit =>
      let value := value * 16 + digit
      if missing ≤ 1 then ⟨.string (s.pushCode value), progress⟩
      else ⟨.string { s with mode := .code (missing - 1) value }, progress⟩

/-- Takes one character. -/
def step (r : Reader) (c : Char) : Reader :=
  match r.lexeme with
  | .between => stepBetween r.progress c
  | .word before =>
    if isWordChar c then ⟨.word (c :: before), r.progress⟩
    else stepBetween (endWord before r.progress) c
  | .string s => stepString s r.progress c

/-- The value of the text that has been read, if it is a whole JSON text. -/
def finish? (r : Reader) : Option Json :=
  let progress :=
    match r.lexeme with
    | .between => r.progress
    | .word before => endWord before r.progress
    | .string _ => .failed
  match progress with
  | .complete value => some value
  | _ => none

end Reader

/-- Reads a JSON text; none if it is not one. -/
def ofChars? (cs : List Char) : Option Json := (cs.foldl Reader.step Reader.start).finish?

/-- Reads a JSON text; none if it is not one. -/
def parse? (text : String) : Option Json := ofChars? text.toList

end Json

end AttributeOptimizer
