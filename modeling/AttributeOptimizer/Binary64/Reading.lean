import AttributeOptimizer.Binary64.Basic

set_option autoImplicit false

/-! # Reading decimal numbers

A decimal is read in two steps, as documents define it here: the leading digits that fit in 64 bits
make a whole number, which is rounded once, and the power of ten is then applied by one
multiplication or division with a rounded power, in portions of at most `10 ^ 308`. So a result can
be off the nearest word by a unit, and only a decimal beyond the largest finite word is refused; one
that is too small becomes zero. -/

namespace AttributeOptimizer

/-- A decimal as it is spelled: digits before and after the point, and an exponent of ten. -/
structure DecimalSpelling where
  /-- Whether a minus sign comes first. -/
  negative : Bool
  /-- The digits before the point. -/
  whole : List Nat
  /-- The digits after the point. -/
  fraction : List Nat
  /-- The exponent of ten. -/
  exponent : Int

namespace Binary64

/-- The largest whole number that digits are collected into. -/
def significandLimit : Nat := UInt64.size - 1

/-- Appends digits to a whole number as long as it stays within the limit; the number reached, and
    how many digits it took. -/
def collect : Nat → List Nat → Nat × Nat
  | n, [] => (n, 0)
  | n, d :: rest =>
    if n * 10 + d ≤ significandLimit then
      let (total, taken) := collect (n * 10 + d) rest
      (total, taken + 1)
    else (n, 0)

/-- The nearest word to a power of ten. -/
def powerOfTen (k : Nat) : Binary64 := ofNat (Nat.pow 10 k)

/-- Divides by `10 ^ (308 * portions + k)`, one portion of `10 ^ 308` after the other. -/
def scaleDown (x : Binary64) (k : Nat) : Nat → Binary64
  | 0 => x.div (powerOfTen k)
  | portions + 1 => if x.isZero then x else scaleDown (x.div (powerOfTen 308)) k portions

/-- The magnitude `significand * 10 ^ exponent`; none if it is beyond the largest finite word. -/
def scaled? (significand : Nat) (exponent : Int) : Option Binary64 :=
  let x := ofNat significand
  if 0 ≤ exponent then
    if x.isZero then some x
    else if exponent ≤ 308 then
      let y := x.mul (powerOfTen exponent.toNat)
      if y.isInfinite then none else some y
    else none
  else
    let k := (-exponent).toNat
    let portions := (k - 1) / 308
    some (x.scaleDown (k - 308 * portions) portions)

/-- The word that a decimal is read as; none if it is beyond the largest finite word. -/
def ofDecimal? (d : DecimalSpelling) : Option Binary64 :=
  let (whole, wholeTaken) := collect 0 d.whole
  let (significand, fractionTaken) := collect whole d.fraction
  let exponent : Int := (d.whole.length - wholeTaken : Nat) - (fractionTaken : Int) + d.exponent
  (scaled? significand exponent).map fun x => if d.negative then x.neg else x

end Binary64

end AttributeOptimizer
