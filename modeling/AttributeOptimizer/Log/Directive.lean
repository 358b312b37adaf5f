import AttributeOptimizer.Log.Pattern
import AttributeOptimizer.Text.Natural
import AttributeOptimizer.Text.Slice

set_option autoImplicit false

/-! # Log directives

A directive is a verbosity for all targets, or a target, or a target with a verbosity after an
equals sign; without verbosity it admits everything. Between the target and the equals sign, or in
place of the target, there may be brackets with the name of a span, a field in braces, or both; a
field may have a value after an equals sign.

Blanks around a directive are passed over, but the places in it are counted from its first character
that is not blank, and its parts are cut out of the text with the blanks. So with blanks in front
the parts are not what is written, and where a cut would go through a character there is no reading
at all: `DirectiveFault.unreachable`. -/

namespace AttributeOptimizer

/-- What one directive admits. -/
inductive Directive where
  /-- Lines up to a verbosity from the targets whose path begins with `path`, and only those with
      the field that is named, if one is. -/
  | lines (path : String) (field : Option String) (verbosity : Nat)
  /-- Lines within a span. -/
  | spans
  deriving DecidableEq, Repr

/-- Why a text is no directive. -/
inductive DirectiveFault where
  /-- It breaks the grammar. -/
  | malformed
  /-- A part would begin or end within a character. -/
  | unreachable
  deriving DecidableEq, Repr

namespace Directive

/-! ## Verbosities -/

/-- The words for the verbosities, from none to all. -/
def verbosityWords : List String := ["off", "error", "warn", "info", "debug", "trace"]

/-- The verbosity that admits everything. -/
def everything : Nat := 5

/-- Reads a verbosity: one of the words, in any case, or its position from 0 to 5. -/
def verbosity? (text : List Char) : Option Nat :=
  match Text.natural? (String.ofList text) with
  | some n => if n ≤ everything then some n else none
  | none => verbosityWords.findIdx? (· = (String.ofList text).map Char.toLower)

/-! ## Fields -/

/-- Whether a text is a decimal number with an exponent or none. -/
def isDecimal (text : List Char) : Bool :=
  let whole := text.takeWhile Char.isDigit
  let (fraction, rest) := match text.drop whole.length with
    | '.' :: rest => (rest.takeWhile Char.isDigit, rest.dropWhile Char.isDigit)
    | rest => ([], rest)
  let exponentFits := match rest with
    | [] => true
    | e :: '+' :: digits | e :: '-' :: digits =>
      (e = 'e' || e = 'E') && !digits.isEmpty && digits.all Char.isDigit
    | e :: digits => (e = 'e' || e = 'E') && !digits.isEmpty && digits.all Char.isDigit
  !(whole.isEmpty && fraction.isEmpty) && exponentFits

/-- Whether a text is a number with a plus sign, which is a value although it is no pattern. Every
    other number, and every truth value, is a pattern too. -/
def isSignedNumber : List Char → Bool
  | '+' :: text =>
    isDecimal text || ["inf", "infinity", "nan"].contains ((String.ofList text).map Char.toLower)
  | _ => false

/-- What a directive asks of a field. -/
structure FieldTest where
  /-- The name of the field. -/
  name : String
  /-- Whether its value is tested. -/
  hasValue : Bool
  deriving DecidableEq, Repr

/-- Reads what stands in braces: a name, and a value between the first equals sign and the next. -/
def FieldTest.parse? (text : List Char) : Option FieldTest :=
  let name := text.takeWhile (· ≠ '=')
  match text.drop name.length with
  | [] => if text.isEmpty then none else some ⟨String.ofList name, false⟩
  | _ :: rest =>
    let value := rest.takeWhile (· ≠ '=')
    if isSignedNumber value || Pattern.isWellFormed value then some ⟨String.ofList name, true⟩
    else none

/-! ## Reading -/

/-- Where the reading of a directive stands. -/
inductive Place where
  /-- Before everything. -/
  | start
  /-- In the target, or in the verbosity if there is nothing else. -/
  | word
  /-- In brackets, from a place on. -/
  | span (start : Nat)
  /-- In braces, from a place on. -/
  | field (start : Nat)
  /-- After braces. -/
  | fieldEnd
  /-- After brackets. -/
  | spanEnd
  /-- After the equals sign, at a place. -/
  | verbosity (start : Nat)
  deriving DecidableEq, Repr

/-- What was read of a directive. -/
structure Draft where
  /-- Where the reading stands. -/
  place : Place
  /-- The path of the target; empty without one. -/
  path : String
  /-- Whether a span is named. -/
  namesSpan : Bool
  /-- The test of a field. -/
  field : Option FieldTest
  deriving DecidableEq, Repr

namespace Draft

/-- Before everything. -/
def empty : Draft := ⟨.start, "", false, none⟩

/-- The directive with a verbosity. Names of spans and values of fields are properties of spans
    only. -/
def directive (d : Draft) (verbosity : Nat) : Directive :=
  if d.namesSpan || d.field.any FieldTest.hasValue then .spans
  else .lines d.path (d.field.map FieldTest.name) verbosity

end Draft

/-- Whether a character can begin a target. -/
def beginsPath (c : Char) : Bool := c = '-' || c = ':' || c = '_' || Text.isAlphanumeric c

/-- The part of a text between two places. -/
def cut (text : List Char) (start stop : Nat) : Except DirectiveFault (List Char) :=
  match Text.slice? start stop text with
  | some part => .ok part
  | none => .error .unreachable

/-- Reads the character at a place. -/
def step (text : List Char) (d : Draft) (here : Nat) (c : Char) : Except DirectiveFault Draft :=
  match d.place, c with
  | .start, '[' => .ok { d with place := .span (here + 1) }
  | .start, c => if beginsPath c then .ok { d with place := .word } else .error .malformed
  | .word, '=' => do
    return { d with path := String.ofList (← cut text 0 here), place := .verbosity (here + 1) }
  | .word, '[' => do
    return { d with path := String.ofList (← cut text 0 here), place := .span (here + 1) }
  | .span start, ']' => do
    let _ ← cut text start here
    return { d with namesSpan := true, place := .spanEnd }
  | .span start, '{' => do
    return { d with namesSpan := !(← cut text start here).isEmpty, place := .field (here + 1) }
  | .field start, '}' => do
    match FieldTest.parse? (← cut text start here) with
    | some field => return { d with field := some field, place := .fieldEnd }
    | none => .error .malformed
  | .fieldEnd, ']' => .ok { d with place := .spanEnd }
  | .spanEnd, '=' => .ok { d with place := .verbosity (here + 1) }
  | .fieldEnd, _ | .spanEnd, _ => .error .malformed
  | _, _ => .ok d

/-- Reads the characters from a place on. -/
def steps (text : List Char) : Draft → Nat → List Char → Except DirectiveFault Draft
  | d, _, [] => .ok d
  | d, here, c :: rest => do steps text (← step text d here c) (here + c.utf8Size) rest

/-- What a directive amounts to at its end. -/
def finish (text : List Char) (d : Draft) : Except DirectiveFault Directive :=
  match d.place with
  | .word =>
    match verbosity? text with
    | some verbosity => .ok (.lines "" none verbosity)
    | none => .ok (.lines (String.ofList text) none everything)
  | .verbosity start =>
    match Text.sliceFrom? start text with
    | none => .error .unreachable
    | some [] => .ok (d.directive everything)
    | some level =>
      match verbosity? level with
      | some verbosity => .ok (d.directive verbosity)
      | none => .error .malformed
  | .spanEnd => .ok (d.directive everything)
  | _ => .error .malformed

/-- Reads a directive. -/
def read (text : List Char) : Except DirectiveFault Directive := do
  finish text (← steps text .empty 0 (Text.trim text))

end Directive

end AttributeOptimizer
