import AttributeOptimizer.Binary64.Basic

set_option autoImplicit false

/-! # Decimal text of binary64 numbers

The digits of a finite number are the fewest that single it out: of all decimals that lie in its
rounding interval, `Binary64.shortest` selects one with the fewest digits, and of those the nearest.
What a text does with the digits (where positional notation ends, which way an exact tie goes) is
decided by a record, `DecimalLayout`; two such records are in use, one for the text of constants and
one for JSON documents. -/

namespace AttributeOptimizer

/-- The decimal `digits * 10 ^ exponent`. -/
structure Decimal where
  /-- The digits, read as one natural number. -/
  digits : Nat
  /-- The power of ten the digits are multiplied by. -/
  exponent : Int
  deriving DecidableEq, Repr

/-- Which of two equally near decimals is selected. -/
inductive TieRule where
  /-- The one with the larger magnitude. -/
  | up
  /-- The one whose last digit is even. -/
  | toEven
  deriving DecidableEq, Repr

namespace Decimal

/-- Moves trailing zeros of the digits into the exponent. The fuel is a bound on their number. -/
def strip : Nat → Decimal → Decimal
  | 0, d => d
  | fuel + 1, d =>
    if d.digits ≠ 0 ∧ d.digits % 10 = 0 then strip fuel ⟨d.digits / 10, d.exponent + 1⟩ else d

end Decimal

namespace Binary64

/-! ## The rounding interval

All comparisons are between decimals and binary fractions, by cross-multiplication of natural
numbers. -/

/-- Compares `a * 10 ^ i` with `n * 2 ^ j`. -/
def compareScaled (a : Nat) (i : Int) (n : Nat) (j : Int) : Ordering :=
  compare ((a * Nat.pow 10 i.toNat) <<< (-j).toNat) ((n * Nat.pow 10 (-i).toNat) <<< j.toNat)

/-- Whether the neighbour below is only half as far away as the neighbour above. -/
def narrowBelow (x : Binary64) : Bool := x.fractionBits = 0 && 1 < x.exponentBits

/-- Four times the lower end of the rounding interval, in units of `2 ^ scale`. -/
def lowerEnd (x : Binary64) : Nat :=
  if x.narrowBelow then 4 * x.significand - 1 else 4 * x.significand - 2

/-- Four times the upper end of the rounding interval, in units of `2 ^ scale`. -/
def upperEnd (x : Binary64) : Nat := 4 * x.significand + 2

/-- Whether a decimal lies in the rounding interval of a finite magnitude. The ends belong to it
    exactly when the significand is even. -/
def singledOutBy (x : Binary64) (d : Decimal) : Bool :=
  let low := compareScaled d.digits d.exponent x.lowerEnd (x.scale - 2)
  let high := compareScaled d.digits d.exponent x.upperEnd (x.scale - 2)
  if x.significand % 2 = 0 then low != .lt && high != .gt else low == .gt && high == .lt

/-! ## The shortest decimal -/

/-- The two neighbours of a magnitude on the grid of multiples of `10 ^ exponent`: the digits of the
    lower one, and how twice the magnitude compares with the sum of both. -/
def gridNeighbours (x : Binary64) (exponent : Int) : Nat × Ordering :=
  let num := x.numerator * Nat.pow 10 (-exponent).toNat
  let den := x.denominator * Nat.pow 10 exponent.toNat
  let low := num / den
  (low, compare (2 * num) ((2 * low + 1) * den))

/-- The grid point nearest to the magnitude among those that single it out. -/
def onGrid? (tie : TieRule) (x : Binary64) (exponent : Int) : Option Decimal :=
  let (low, order) := x.gridNeighbours exponent
  let below : Decimal := ⟨low, exponent⟩
  let above : Decimal := ⟨low + 1, exponent⟩
  let upper : Bool :=
    match order with
    | .lt => false
    | .gt => true
    | .eq => decide (tie = .up) || low % 2 == 1
  match 0 < low && x.singledOutBy below, x.singledOutBy above with
  | true, true => some (if upper then above else below)
  | true, false => some below
  | false, true => some above
  | false, false => none

/-- Tries grids of falling powers of ten; the exact value if none of them has a hit. -/
def searchGrids (tie : TieRule) (x : Binary64) : Nat → Int → Decimal
  | 0, _ =>
    let places := (-x.scale).toNat
    ⟨x.numerator * Nat.pow 5 places, -(places : Int)⟩
  | fuel + 1, exponent =>
    match x.onGrid? tie exponent with
    | some d => d
    | none => searchGrids tie x fuel (exponent - 1)

/-- The exponent of the first grid to try. A magnitude with `b` binary digits before the point is
    below `2 ^ b`, and `0.30103` is the decimal logarithm of two. -/
def decimalBound (x : Binary64) : Int :=
  (((Nat.log2 x.significand : Int) + 1 + x.scale) * 30103).fdiv 100000 + 1

/-- The decimal with the fewest digits that singles out a finite magnitude, and the nearest of
    those. -/
def shortest (tie : TieRule) (x : Binary64) : Decimal :=
  if x.isZero then ⟨0, 0⟩ else (x.searchGrids tie 20 x.decimalBound).strip 20

/-! ## Texts -/

/-- How the digits of a number are laid out. With the digits `d₁d₂…dₙ` and the value
    `0.d₁d₂…dₙ * 10 ^ point`, notation is positional while `point` lies between the two bounds. -/
structure DecimalLayout where
  /-- Which of two equally near decimals is printed. -/
  tie : TieRule
  /-- The smallest `point` that is written positionally. -/
  leastPoint : Int
  /-- The largest `point` that is written positionally. -/
  greatestPoint : Int

/-- The digits of a natural number in base ten. -/
def digitText (n : Nat) : String := toString n

/-- The text of a positive decimal in a layout: always with a point in positional notation, an
    exponent without plus sign otherwise. -/
def DecimalLayout.positiveText (layout : DecimalLayout) (d : Decimal) : String :=
  let digits := (digitText d.digits).toList
  let count := digits.length
  let point : Int := count + d.exponent
  if layout.leastPoint ≤ point ∧ point ≤ layout.greatestPoint then
    if point ≤ 0 then
      "0." ++ String.ofList (List.replicate (-point).toNat '0' ++ digits)
    else if count ≤ point.toNat then
      String.ofList (digits ++ List.replicate (point.toNat - count) '0') ++ ".0"
    else
      String.ofList (digits.take point.toNat) ++ "." ++ String.ofList (digits.drop point.toNat)
  else
    let mantissa :=
      if count = 1 then String.ofList digits
      else String.ofList (digits.take 1) ++ "." ++ String.ofList (digits.drop 1)
    mantissa ++ "e" ++ toString (point - 1)

/-- The text of a finite word in a layout; zero is `0.0`, and the sign bit shows as a minus sign. -/
def finiteText (layout : DecimalLayout) (x : Binary64) : String :=
  let sign := if x.isNegative then "-" else ""
  sign ++ if x.isZero then "0.0" else layout.positiveText (x.shortest layout.tie)

/-- Constants are written positionally from `0.0001` up to but not including `10 ^ 16`, and an
    exact tie between two shortest decimals goes upward. -/
def constantLayout : DecimalLayout := ⟨.up, -3, 16⟩

/-- JSON documents write numbers positionally from `0.00001` up to but not including `10 ^ 16`, and
    an exact tie between two shortest decimals goes to the even digit. -/
def documentLayout : DecimalLayout := ⟨.toEven, -4, 16⟩

/-- The text of a word as a constant of the compiled program. -/
def text (x : Binary64) : String :=
  if x.isNaN then "NaN"
  else if x.isInfinite then (if x.isNegative then "-inf" else "inf")
  else x.finiteText constantLayout

end Binary64

end AttributeOptimizer
