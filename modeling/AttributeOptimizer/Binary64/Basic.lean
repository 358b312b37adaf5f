set_option autoImplicit false

/-! # Binary64 numbers

A floating point constant is kept as its 64-bit word: one sign bit, eleven exponent bits, 52
fraction bits. Everything the library does with such a number is stated in exact arithmetic on the
word:

* `Binary64.numEq` is the numeric comparison, for which zero has one value and NaN none;
* `Binary64.significand` and `Binary64.scale` give a finite magnitude as `significand * 2 ^ scale`;
* `Binary64.ofRatio` is the nearest word to a quotient of two natural numbers, a half going to the
  even neighbour, and `mul` and `div` are that rounding of the exact product and quotient. -/

namespace AttributeOptimizer

/-- A 64-bit floating point word. Two words are equal when all their bits are. -/
structure Binary64 where
  /-- The word. -/
  bits : UInt64
  deriving DecidableEq, Repr

namespace Binary64

/-! ## The parts of a word -/

/-- The word in which only the sign bit is set. -/
def signBit : Nat := 1 <<< 63

/-- One unit of the exponent bits, which stand above the 52 fraction bits. -/
def exponentUnit : Nat := 1 <<< 52

/-- The word without its sign bit. Magnitudes are ordered as these words are. -/
def magnitude (x : Binary64) : Nat := x.bits.toNat % signBit

/-- Whether the sign bit is set. -/
def isNegative (x : Binary64) : Bool := signBit ≤ x.bits.toNat

/-- The magnitude of the infinities: all exponent bits, no fraction bit. -/
def infiniteMagnitude : Nat := 2047 * exponentUnit

/-- Whether the word stands for no number. -/
def isNaN (x : Binary64) : Bool := infiniteMagnitude < x.magnitude

/-- Whether the word is one of the two infinities. -/
def isInfinite (x : Binary64) : Bool := x.magnitude = infiniteMagnitude

/-- Whether the word stands for a number of finite size. -/
def isFinite (x : Binary64) : Bool := x.magnitude < infiniteMagnitude

/-- Whether the word is one of the two zeros. -/
def isZero (x : Binary64) : Bool := x.magnitude = 0

/-- The word with the given sign and magnitude. -/
def ofMagnitude (negative : Bool) (magnitude : Nat) : Binary64 :=
  ⟨UInt64.ofNat (if negative then signBit + magnitude else magnitude)⟩

/-- Positive zero. -/
def zero : Binary64 := ⟨0⟩

/-- A word that stands for no number. -/
def nan : Binary64 := ofMagnitude false (infiniteMagnitude + exponentUnit / 2)

/-- The infinity of the given sign. -/
def infinity (negative : Bool) : Binary64 := ofMagnitude negative infiniteMagnitude

/-- Equality of the numbers two words stand for: NaN equals nothing, not even itself, and the two
    zeros are equal. -/
def numEq (x y : Binary64) : Bool :=
  !x.isNaN && !y.isNaN && (x = y || (x.isZero && y.isZero))

/-! ## The value of a finite word -/

/-- The eleven exponent bits. -/
def exponentBits (x : Binary64) : Nat := x.magnitude / exponentUnit

/-- The 52 fraction bits. -/
def fractionBits (x : Binary64) : Nat := x.magnitude % exponentUnit

/-- A finite magnitude is `significand * 2 ^ scale`. -/
def significand (x : Binary64) : Nat :=
  if x.exponentBits = 0 then x.fractionBits else exponentUnit + x.fractionBits

/-- A finite magnitude is `significand * 2 ^ scale`. -/
def scale (x : Binary64) : Int :=
  if x.exponentBits = 0 then -1074 else (x.exponentBits : Int) - 1075

/-- The numerator of a finite magnitude. -/
def numerator (x : Binary64) : Nat := x.significand <<< x.scale.toNat

/-- The denominator of a finite magnitude. -/
def denominator (x : Binary64) : Nat := 1 <<< (-x.scale).toNat

/-! ## Rounding -/

/-- The quotient rounded to the nearest natural number, a half to the even neighbour. -/
def roundHalfEven (num den : Nat) : Nat :=
  let quotient := num / den
  let rest := num % den
  if 2 * rest < den then quotient
  else if den < 2 * rest then quotient + 1
  else quotient + quotient % 2

/-- The binary logarithm of `num / den`, rounded down. -/
def log2Ratio (num den : Nat) : Int :=
  let guess : Int := (Nat.log2 num : Int) - (Nat.log2 den : Int)
  if den <<< guess.toNat ≤ num <<< (-guess).toNat then guess else guess - 1

/-- The magnitude nearest to `num / den`, a half going to the even neighbour; infinite from half a
    unit above the largest finite magnitude on.

    The unit `2 ^ unit` leaves 53 bits before the point, or fewer where that would go below the
    smallest unit. A rounding up to `2 ^ 53` carries into the exponent bits by itself. -/
def magnitudeOfRatio (num den : Nat) : Nat :=
  if num = 0 then 0
  else
    let unit := max (log2Ratio num den - 52) (-1074)
    let rounded := roundHalfEven (num <<< (-unit).toNat) (den <<< unit.toNat)
    min ((unit + 1074).toNat * exponentUnit + rounded) infiniteMagnitude

/-- The nearest word to the quotient of two natural numbers, with the given sign. -/
def ofRatio (negative : Bool) (num den : Nat) : Binary64 :=
  ofMagnitude negative (magnitudeOfRatio num den)

/-- The nearest word to a natural number. -/
def ofNat (n : Nat) : Binary64 := ofRatio false n 1

/-- The nearest word to the product of two finite magnitudes. -/
def mul (x y : Binary64) : Binary64 :=
  ofRatio false (x.numerator * y.numerator) (x.denominator * y.denominator)

/-- The nearest word to the quotient of two finite magnitudes, the second not zero. -/
def div (x y : Binary64) : Binary64 :=
  ofRatio false (x.numerator * y.denominator) (x.denominator * y.numerator)

/-- The same magnitude with the sign bit set. -/
def neg (x : Binary64) : Binary64 := ofMagnitude true x.magnitude

end Binary64

end AttributeOptimizer
