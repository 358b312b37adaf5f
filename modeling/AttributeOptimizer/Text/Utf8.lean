set_option autoImplicit false

/-! # Reading UTF-8

Bytes are read as text in two ways. `Text.decode?` is strict: it is for whole files, which are text
or are refused. `Text.decodeLossy` never fails: every maximal run of bytes that begins a character
and does not complete one becomes a single replacement character, and so does every byte that cannot
begin one. -/

namespace AttributeOptimizer.Text

/-- What may follow a leading byte: how many bytes complete the character, the bounds of the first
    of them, and the bits the leading byte contributes. Bounds tighter than `80` to `BF` exclude
    overlong forms, surrogates and values above `10FFFF`. -/
structure Lead where
  /-- How many continuation bytes complete the character. -/
  missing : Nat
  /-- The least first continuation byte. -/
  low : Nat
  /-- The greatest first continuation byte. -/
  high : Nat
  /-- The value of the leading byte's own bits. -/
  value : Nat

/-- The role of a byte as the first of a character; none for a byte that cannot begin one. -/
def lead? (b : Nat) : Option Lead :=
  if b < 0x80 then some ⟨0, 0x80, 0xBF, b⟩
  else if b < 0xC2 then none
  else if b < 0xE0 then some ⟨1, 0x80, 0xBF, b - 0xC0⟩
  else if b = 0xE0 then some ⟨2, 0xA0, 0xBF, 0⟩
  else if b = 0xED then some ⟨2, 0x80, 0x9F, 0xD⟩
  else if b < 0xF0 then some ⟨2, 0x80, 0xBF, b - 0xE0⟩
  else if b = 0xF0 then some ⟨3, 0x90, 0xBF, 0⟩
  else if b < 0xF4 then some ⟨3, 0x80, 0xBF, b - 0xF0⟩
  else if b = 0xF4 then some ⟨3, 0x80, 0x8F, 4⟩
  else none

/-- Where a reader stands: between characters, or inside one that was begun well. -/
inductive ReaderState where
  /-- The next byte begins a character. -/
  | between
  /-- `missing + 1` bytes are due, the next of them within the bounds. -/
  | inside (missing low high value : Nat)

/-- The reader's answer to the first byte of a character: what it shows, if anything, and the state
    after it. The answer `none` marks a fault. -/
def beginChar (b : Nat) : Option (Option Char) × ReaderState :=
  match lead? b with
  | none => (none, .between)
  | some ⟨0, _, _, value⟩ => (some (some (Char.ofNat value)), .between)
  | some ⟨missing + 1, low, high, value⟩ => (some none, .inside missing low high value)

/-- The characters of a byte sequence, `none` standing for each fault. A byte that breaks a
    character off is a fault of that character and is then read again as the beginning of a
    character. -/
def readChars : ReaderState → List UInt8 → List (Option Char)
  | .between, [] => []
  | .inside .., [] => [none]
  | .between, b :: rest =>
    match beginChar b.toNat with
    | (none, next) => none :: readChars next rest
    | (some none, next) => readChars next rest
    | (some (some c), next) => some c :: readChars next rest
  | .inside missing low high value, b :: rest =>
    if low ≤ b.toNat ∧ b.toNat ≤ high then
      let value := value * 64 + (b.toNat - 0x80)
      match missing with
      | 0 => some (Char.ofNat value) :: readChars .between rest
      | missing + 1 => readChars (.inside missing 0x80 0xBF value) rest
    else
      none ::
        match beginChar b.toNat with
        | (none, next) => none :: readChars next rest
        | (some none, next) => readChars next rest
        | (some (some c), next) => some c :: readChars next rest

/-- The text of a byte sequence, each fault shown as the replacement character. -/
def decodeLossy (bytes : List UInt8) : String :=
  String.ofList ((readChars .between bytes).map (·.getD '\uFFFD'))

/-- The text of a byte sequence without faults. -/
def decode? (bytes : List UInt8) : Option String :=
  ((readChars .between bytes).mapM id).map String.ofList

end AttributeOptimizer.Text
