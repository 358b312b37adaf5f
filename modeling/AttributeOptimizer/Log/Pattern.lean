import AttributeOptimizer.Text.Alphanumeric
import AttributeOptimizer.Text.Blank

set_option autoImplicit false

/-! # Patterns

A filter may test the value of a field against a pattern, a regular expression with groups,
alternatives, repetitions, classes and flags. No line is ever tested here, so only the grammar
matters: `Pattern.isWellFormed` decides whether a text is a pattern. A bounded repetition, which
would need braces, cannot be written within a filter, so an opening brace stands for itself only in
a class or after a backslash.

A pattern is for text, and without tables of letters beyond ASCII. So in the mode for all of
Unicode, which is the normal one, it has no classes of digits, blanks or letters, no ends of words,
and no folding of case; and in the mode for bytes, nothing that would match half a character.

The parts of a pattern may be nested to a depth of 250, where a group, a repetition, a choice, a
class, and a row of more than one part count one each. -/

namespace AttributeOptimizer

/-- The flags that decide what is well-formed. -/
structure PatternMode where
  /-- Whether the pattern is for characters, and not for bytes. -/
  unicode : Bool
  /-- Whether case is folded. -/
  foldsCase : Bool
  /-- Whether blanks and comments between the parts mean nothing. -/
  spaced : Bool
  deriving DecidableEq, Repr

namespace PatternMode

/-- The mode in which a pattern begins. -/
def initial : PatternMode := ⟨true, false, false⟩

/-- Switches the flag with a letter on or off. -/
def set (mode : PatternMode) (flag : Char) (on : Bool) : PatternMode :=
  match flag with
  | 'u' => { mode with unicode := on }
  | 'i' => { mode with foldsCase := on }
  | 'x' => { mode with spaced := on }
  | _ => mode

/-- Whether a character can be matched in the mode. -/
def matchesCharacters (mode : PatternMode) : Bool := !(mode.unicode && mode.foldsCase)

/-- Removes blanks and comments, which run from a number sign to the end of the line. -/
def skipFrom : Bool → List Char → List Char
  | _, [] => []
  | true, c :: rest => skipFrom (c ≠ '\n') rest
  | false, c :: rest =>
    if Text.isBlank c then skipFrom false rest
    else if c = '#' then skipFrom true rest
    else c :: rest

/-- Removes what means nothing between the parts of a pattern. -/
def skip (mode : PatternMode) (text : List Char) : List Char :=
  if mode.spaced then skipFrom false text else text

/-- The character that decides whether a hyphen before the text makes a range. Of a comment only the
    sign that begins it is passed over, and where nothing else follows, nothing is. -/
def afterHyphen? (mode : PatternMode) (text : List Char) : Option Char :=
  if mode.spaced then
    let found := match text.dropWhile Text.isBlank with
      | '#' :: rest => rest.dropWhile Text.isBlank
      | rest => rest
    found.head?.or text.head?
  else text.head?

end PatternMode

namespace Pattern

/-! ## Depth -/

/-- The greatest depth to which parts may be nested. -/
def depthLimit : Nat := 250

/-- The depth of a row of parts: a single one is itself, and several are nested in the row. -/
def depthOfRow : List Nat → Nat
  | [] => 0
  | [depth] => depth
  | depth :: rest => rest.foldl max depth + 1

/-! ## Escapes -/

/-- What an escape stands for. -/
inductive Escape where
  /-- One character. -/
  | character (c : Char)
  /-- A class of characters. -/
  | characters
  /-- A place between characters. -/
  | place

/-- The value of a hexadecimal digit. -/
def hexDigit? (c : Char) : Option Nat :=
  if c.isDigit then some (c.toNat - '0'.toNat)
  else if 'a' ≤ c ∧ c ≤ 'f' then some (c.toNat - 'a'.toNat + 10)
  else if 'A' ≤ c ∧ c ≤ 'F' then some (c.toNat - 'A'.toNat + 10)
  else none

/-- Reads as many hexadecimal digits as are asked for, after the value of those before. -/
def hexValue? (mode : PatternMode) : Nat → Nat → List Char → Option (Nat × List Char)
  | 0, value, text => some (value, text)
  | count + 1, value, text =>
    match mode.skip text with
    | [] => none
    | c :: rest => do hexValue? mode count (16 * value + (← hexDigit? c)) rest

/-- Reads a character given by its code point in as many hexadecimal digits as are asked for. -/
def codePoint? (mode : PatternMode) (count : Nat) (text : List Char) :
    Option (Escape × List Char) := do
  let (value, rest) ← hexValue? mode count 0 text
  if value.isValidChar then return (.character (Char.ofNat value), rest) else none

/-- Whether an escape of two hexadecimal digits would stand for half a character. -/
def isHalfCharacter (mode : PatternMode) : Escape × List Char → Bool
  | (.character c, _) => !mode.unicode && 0x80 ≤ c.toNat
  | _ => false

/-- Reads an escape from after its backslash on. -/
def escape? (mode : PatternMode) : List Char → Option (Escape × List Char)
  | [] => none
  | c :: rest =>
    match c with
    | 'x' => (codePoint? mode 2 rest).filter (!isHalfCharacter mode ·)
    | 'u' => codePoint? mode 4 rest
    | 'U' => codePoint? mode 8 rest
    | 'd' | 's' | 'w' => if mode.unicode then none else some (.characters, rest)
    | 'b' | 'B' | '<' | '>' => if mode.unicode then none else some (.place, rest)
    | 'A' | 'z' => some (.place, rest)
    | 'a' => some (.character '\x07', rest)
    | 't' => some (.character '\t', rest)
    | 'n' => some (.character '\n', rest)
    | 'v' => some (.character '\x0b', rest)
    | 'f' => some (.character '\x0c', rest)
    | 'r' => some (.character '\r', rest)
    | _ => if c.isAlphanum || 0x80 ≤ c.toNat then none else some (.character c, rest)

/-! ## Classes -/

/-- The classes that have a name. -/
def classNames : List String :=
  ["alnum", "alpha", "ascii", "blank", "cntrl", "digit", "graph", "lower", "print", "punct",
   "space", "upper", "word", "xdigit"]

/-- Reads a named class from after its bracket on; tells whether it is negated. -/
def namedClass? : List Char → Option (Bool × List Char)
  | ':' :: text =>
    let (negated, text) := match text with
      | '^' :: rest => (true, rest)
      | rest => (false, rest)
    let name := text.takeWhile (· ≠ ':')
    match text.drop name.length with
    | ':' :: ']' :: rest =>
      if classNames.contains (String.ofList name) then some (negated, rest) else none
    | _ => none
  | _ => none

/-- What was read of a class. -/
structure ClassReading where
  /-- The depths of the members since the class or its last operator began. -/
  members : List Nat
  /-- The depth of what stands before the last operator, if there is one. -/
  operand : Option Nat

namespace ClassReading

/-- A class of which nothing was read. -/
def empty : ClassReading := ⟨[], none⟩

/-- Adds a member. -/
def add (r : ClassReading) (depth : Nat) : ClassReading := { r with members := depth :: r.members }

/-- The depth of what was read. -/
def depth (r : ClassReading) : Nat :=
  match r.operand with
  | none => depthOfRow r.members
  | some operand => max operand (depthOfRow r.members) + 1

/-- Goes on after an operator. -/
def operator (r : ClassReading) : ClassReading := ⟨[], some r.depth⟩

end ClassReading

/-- Reads one character of a class, or a class within it, for which the answer is `none`. -/
def classCharacter? (mode : PatternMode) : List Char → Option (Option Char × List Char)
  | [] => none
  | '\\' :: text => do
    match ← escape? mode text with
    | (.character c, rest) => if mode.unicode || c.toNat < 0x80 then some (some c, rest) else none
    | (.characters, rest) => some (none, rest)
    | (.place, _) => none
  | c :: rest => if mode.unicode || c.toNat < 0x80 then some (some c, rest) else none

/-- Reads a character or a range of a class. A hyphen before a bracket or a hyphen makes no
    range. -/
def range? (mode : PatternMode) (text : List Char) : Option (List Char) := do
  let (first, rest) ← classCharacter? mode text
  match mode.skip rest with
  | '-' :: after =>
    if mode.afterHyphen? after = some ']' ∨ mode.afterHyphen? after = some '-' then
      some ('-' :: after)
    else
      let (last, rest) ← classCharacter? mode (mode.skip after)
      match first, last with
      | some low, some high => if low ≤ high then some rest else none
      | _, _ => none
  | rest => some rest

/-- Reads the hyphens that a class may begin with. The fuel is the length of the text. -/
def leadingHyphens (mode : PatternMode) :
    Nat → ClassReading → List Char → ClassReading × List Char
  | fuel + 1, r, '-' :: rest => leadingHyphens mode fuel (r.add 0) (mode.skip rest)
  | _, r, text => (r, text)

/-- Reads what stands for itself at the beginning of a class: hyphens, or a closing bracket. -/
def leadingMembers (mode : PatternMode) (text : List Char) : ClassReading × List Char :=
  match leadingHyphens mode text.length .empty text with
  | (⟨[], operand⟩, ']' :: rest) => (⟨[0], operand⟩, rest)
  | read => read

/-- Reads the beginning of a class from after its bracket on. -/
def classStart? (mode : PatternMode) (text : List Char) : Option (ClassReading × List Char) :=
  let (negated, text) := match mode.skip text with
    | '^' :: rest => (true, mode.skip rest)
    | rest => (false, rest)
  let (r, rest) := leadingMembers mode text
  if (negated && !mode.unicode) || (!r.members.isEmpty && !mode.matchesCharacters) then none
  else some (r, rest)

/-- Reads the rest of a class that stands in others, the innermost first; the answer is its depth
    and what follows it. The fuel is more than the length of the text. -/
def classRest? (mode : PatternMode) :
    Nat → ClassReading → List ClassReading → List Char → Option (Nat × List Char)
  | 0, _, _, _ => none
  | fuel + 1, r, around, text =>
    match mode.skip text with
    | [] => none
    | ']' :: rest =>
      match around with
      | [] => some (r.depth + 1, rest)
      | outer :: around => classRest? mode fuel (outer.add (r.depth + 1)) around rest
    | '[' :: rest =>
      match namedClass? rest with
      | some (negated, rest) =>
        if (negated && !mode.unicode) || !mode.matchesCharacters then none
        else classRest? mode fuel (r.add 0) around rest
      | none => do
        let (inner, rest) ← classStart? mode rest
        classRest? mode fuel inner (r :: around) rest
    | '&' :: '&' :: rest | '-' :: '-' :: rest | '~' :: '~' :: rest =>
      classRest? mode fuel r.operator around rest
    | text => do
      if mode.matchesCharacters then classRest? mode fuel (r.add 0) around (← range? mode text)
      else none

/-- Reads a class from after its bracket on; the answer is its depth and what follows it. -/
def class? (mode : PatternMode) (text : List Char) : Option (Nat × List Char) := do
  let (r, rest) ← classStart? mode text
  classRest? mode (text.length + 1) r [] rest

/-! ## Groups -/

/-- What was read of a group, or of the whole pattern. -/
structure GroupReading where
  /-- The mode that holds. -/
  mode : PatternMode
  /-- The depths of the alternatives before the one that is read. -/
  alternatives : List Nat
  /-- The depths of the parts of the alternative that is read, the last one first. -/
  parts : List Nat

namespace GroupReading

/-- A group of which nothing was read. -/
def empty (mode : PatternMode) : GroupReading := ⟨mode, [], []⟩

/-- Adds a part. -/
def add (g : GroupReading) (depth : Nat) : GroupReading := { g with parts := depth :: g.parts }

/-- The depth of what was read. -/
def depth (g : GroupReading) : Nat := depthOfRow (depthOfRow g.parts :: g.alternatives)

/-- Goes on with another alternative. -/
def alternative (g : GroupReading) : GroupReading :=
  { g with alternatives := depthOfRow g.parts :: g.alternatives, parts := [] }

/-- Repeats the last part. -/
def repeated (g : GroupReading) : GroupReading :=
  match g.parts with
  | [] => g
  | depth :: parts => { g with parts := (depth + 1) :: parts }

end GroupReading

/-- Where the reading of a pattern stands. -/
structure Reading where
  /-- The group that is read. -/
  group : GroupReading
  /-- The groups around it, the innermost first. -/
  around : List GroupReading
  /-- The names of the groups so far. -/
  names : List (List Char)
  /-- Whether the last part can be repeated. -/
  repeatable : Bool

namespace Reading

/-- The mode that holds. -/
def mode (r : Reading) : PatternMode := r.group.mode

/-- Adds a part that can be repeated. -/
def add (r : Reading) (depth : Nat) : Reading :=
  { r with group := r.group.add depth, repeatable := true }

/-- Begins a group in a mode. -/
def openGroup (r : Reading) (mode : PatternMode) : Reading :=
  { r with group := .empty mode, around := r.group :: r.around, repeatable := false }

/-- Ends a group, if there is one. -/
def closeGroup? (r : Reading) : Option Reading :=
  match r.around with
  | [] => none
  | outer :: around =>
    some { r with group := outer.add (r.group.depth + 1), around, repeatable := true }

/-- Changes the mode for the rest of the group. This is a part that cannot be repeated. -/
def change (r : Reading) (mode : PatternMode) : Reading :=
  { r with group := { r.group.add 0 with mode }, repeatable := false }

end Reading

/-- Whether a text can be the name of a group. -/
def isGroupName : List Char → Bool
  | [] => false
  | c :: rest =>
    (c = '_' || Text.isAlphabetic c) &&
      rest.all fun c => c = '_' || c = '.' || c = '[' || c = ']' || Text.isAlphanumeric c

/-- Reads the name of a group, which no other may have, and its closing angle bracket. -/
def namedGroup? (r : Reading) (text : List Char) : Option (Reading × List Char) :=
  let name := text.takeWhile (· ≠ '>')
  match text.drop name.length with
  | '>' :: rest =>
    if isGroupName name && !r.names.contains name then
      some ({ r.openGroup r.mode with names := name :: r.names }, rest)
    else none
  | _ => none

/-- The letters of the flags. -/
def flagLetters : List Char := ['i', 'm', 's', 'U', 'u', 'R', 'x']

/-- Reads flags, none of them twice, with those after one minus sign switched off. They hold for a
    new group after a colon, and for the rest of the group after a parenthesis. -/
def flags? (r : Reading) (mode : PatternMode) (seen : List Char) :
    List Char → Option (Reading × List Char)
  | [] => none
  | ':' :: rest => if seen.head? = some '-' then none else some (r.openGroup mode, rest)
  | ')' :: rest =>
    if seen = [] ∨ seen.head? = some '-' then none
    else some (r.change mode, rest)
  | c :: rest =>
    if (c = '-' || flagLetters.contains c) && !seen.contains c then
      flags? r (mode.set c (!seen.contains '-')) (c :: seen) rest
    else none

/-- Reads the beginning of a group from after its parenthesis on. Looking ahead or behind is not
    part of the grammar. -/
def group? (r : Reading) (text : List Char) : Option (Reading × List Char) :=
  match r.mode.skip text with
  | '?' :: '=' :: _ | '?' :: '!' :: _ | '?' :: '<' :: '=' :: _ | '?' :: '<' :: '!' :: _ => none
  | '?' :: 'P' :: '<' :: rest | '?' :: '<' :: rest => namedGroup? r rest
  | '?' :: rest => flags? r r.mode [] rest
  | rest => some (r.openGroup r.mode, rest)

/-! ## Patterns -/

/-- Reads one part of a pattern, or a sign between parts. A question mark after the sign of a
    repetition belongs to it. -/
def part? (r : Reading) : List Char → Option (Reading × List Char)
  | [] => none
  | c :: rest =>
    match c with
    | '(' => group? r rest
    | ')' => r.closeGroup?.map (·, rest)
    | '|' => some ({ r with group := r.group.alternative, repeatable := false }, rest)
    | '[' => (class? r.mode rest).map fun (depth, rest) => (r.add depth, rest)
    | '?' | '*' | '+' =>
      let rest := match rest with
        | '?' :: rest => rest
        | rest => rest
      if r.repeatable then some ({ r with group := r.group.repeated }, rest) else none
    | '{' => none
    | '.' => if r.mode.unicode then some (r.add 0, rest) else none
    | '^' | '$' => some (r.add 0, rest)
    | '\\' => do
      match ← escape? r.mode rest with
      | (.character _, rest) => if r.mode.matchesCharacters then some (r.add 0, rest) else none
      | (_, rest) => some (r.add 0, rest)
    | _ => if r.mode.matchesCharacters then some (r.add 0, rest) else none

/-- Whether the rest of a pattern is well-formed. The fuel is more than the length of the text. -/
def isRest : Nat → Reading → List Char → Bool
  | 0, _, _ => false
  | fuel + 1, r, text =>
    match r.mode.skip text with
    | [] => r.around.isEmpty && decide (r.group.depth ≤ depthLimit)
    | text =>
      match part? r text with
      | some (r, rest) => isRest fuel r rest
      | none => false

/-- Whether a text is a pattern. -/
def isWellFormed (text : List Char) : Bool :=
  isRest (text.length + 1) ⟨.empty .initial, [], [], false⟩ text

end Pattern

end AttributeOptimizer
