import AttributeOptimizer.Binary64.Reading
import AttributeOptimizer.Json.Basic

set_option autoImplicit false

/-! # Words of JSON texts

A word is a run of letters, digits, signs and points: one of the three literals, or a number. The
grammar of numbers is exact: no leading zero, no plus sign in front, and digits on both sides of a
point and after an exponent mark. -/

namespace AttributeOptimizer

namespace Json

/-- The value of a decimal digit. -/
def digit? (c : Char) : Option Nat :=
  if '0' ≤ c ∧ c ≤ '9' then some (c.toNat - '0'.toNat) else none

/-- The leading decimal digits of a text, and the rest. -/
def spanDigits : List Char → List Nat × List Char
  | [] => ([], [])
  | c :: rest =>
    match digit? c with
    | some d =>
      let (digits, rest) := spanDigits rest
      (d :: digits, rest)
    | none => ([], c :: rest)

/-- The number that decimal digits spell. -/
def ofDigits (digits : List Nat) : Nat := digits.foldl (fun n d => n * 10 + d) 0

/-- The fraction of a number: nothing, or a point and at least one digit. -/
def readFraction? : List Char → Option (List Nat × List Char)
  | '.' :: rest =>
    match spanDigits rest with
    | ([], _) => none
    | (digits, rest) => some (digits, rest)
  | cs => some ([], cs)

/-- The digits of an exponent, to the end of the word. -/
def readExponentDigits? (negative : Bool) (cs : List Char) : Option Int :=
  match spanDigits cs with
  | ([], _) => none
  | (digits, []) => some (if negative then -(ofDigits digits : Int) else ofDigits digits)
  | _ => none

/-- The exponent of a number, to the end of the word: nothing, or a mark, a sign that may be left
    out, and at least one digit. -/
def readExponent? : List Char → Option (Option Int)
  | [] => some none
  | mark :: rest =>
    if mark = 'e' ∨ mark = 'E' then
      match rest with
      | '+' :: rest => (readExponentDigits? false rest).map some
      | '-' :: rest => (readExponentDigits? true rest).map some
      | rest => (readExponentDigits? false rest).map some
    else none

/-- The value of a number without point and exponent: whole if it fits in 64 bits, unsigned or
    signed. A negative zero is not whole, since only a float has one. -/
def wholeNumber (negative : Bool) (digits : List Nat) : Option Json :=
  let n := ofDigits digits
  if negative then
    if 0 < n ∧ n ≤ Int64.minValue.toInt.natAbs then some (.int (-(n : Int)))
    else (Binary64.ofDecimal? ⟨true, digits, [], 0⟩).map .float
  else if n < UInt64.size then some (.int n)
  else (Binary64.ofDecimal? ⟨false, digits, [], 0⟩).map .float

/-- Reads an unsigned number. -/
def readUnsigned? (negative : Bool) (cs : List Char) : Option Json :=
  match spanDigits cs with
  | ([], _) => none
  | (0 :: _ :: _, _) => none
  | (whole, rest) =>
    match readFraction? rest with
    | none => none
    | some (fraction, rest) =>
      match readExponent? rest with
      | none => none
      | some exponent =>
        let value :=
          if fraction.isEmpty ∧ exponent.isNone then wholeNumber negative whole
          else (Binary64.ofDecimal? ⟨negative, whole, fraction, exponent.getD 0⟩).map .float
        some (value.getD .unreadable)

/-- Reads a number; none if the word is not one. -/
def readNumber? : List Char → Option Json
  | '-' :: rest => readUnsigned? true rest
  | cs => readUnsigned? false cs

/-- Reads a word; none if it is neither a literal nor a number. -/
def readWord? (cs : List Char) : Option Json :=
  if cs = "null".toList then some .null
  else if cs = "true".toList then some (.bool true)
  else if cs = "false".toList then some (.bool false)
  else readNumber? cs

/-- Whether a character can be part of a word. -/
def isWordChar (c : Char) : Bool := c.isAlphanum || c = '-' || c = '+' || c = '.'

end Json

end AttributeOptimizer
