import AttributeOptimizer.Text.Visible

set_option autoImplicit false

/-! # Quoted text

String constants are shown in double quotes. The quote itself, the backslash and four control
characters have short escapes; every other character that cannot be seen on its own is written as
its code point. -/

namespace AttributeOptimizer.Text

/-- The lower case hexadecimal digits of a number, without leading zeros. -/
def hexDigits (n : Nat) : List Char := Nat.toDigits 16 n

/-- A character written as its code point. -/
def codePointEscape (c : Char) : List Char :=
  ['\\', 'u', '\x7b'] ++ hexDigits c.toNat ++ ['\x7d']

/-- A character as it stands inside double quotes. -/
def quotedChar (c : Char) : List Char :=
  match c with
  | '"' => ['\\', '"']
  | '\\' => ['\\', '\\']
  | '\n' => ['\\', 'n']
  | '\r' => ['\\', 'r']
  | '\t' => ['\\', 't']
  | '\x00' => ['\\', '0']
  | c =>
    if isSpelledOut c then codePointEscape c else [c]

/-- A string in double quotes. -/
def quoted (s : String) : String :=
  String.ofList ('"' :: s.toList.flatMap quotedChar ++ ['"'])

end AttributeOptimizer.Text
