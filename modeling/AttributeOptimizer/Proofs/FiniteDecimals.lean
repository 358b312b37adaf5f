import AttributeOptimizer.Binary64.Reading
import Mathlib.Algebra.Group.Nat.Defs

set_option autoImplicit false

/-! # Decimals are read as finite numbers

Rounding a quotient below `2 ^ t` gives a magnitude of at most `t + 1026` units of the exponent
bits, and a magnitude of at most `m` such units is below `2 ^ (m - 1022)`. Nothing sharper is needed
to see that the reader of decimals never leaves the finite numbers: it starts below `2 ^ 64`, only a
positive power of ten could lead beyond the largest number, and that is refused. -/

namespace AttributeOptimizer

namespace Binary64

/-! ## Magnitudes -/

theorem magnitude_ofMagnitude {m : Nat} (h : m < 2 ^ 63) (negative : Bool) :
    (ofMagnitude negative m).magnitude = m := by
  have hsign : signBit = 2 ^ 63 := rfl
  cases negative with
  | false =>
      simp only [magnitude, ofMagnitude, Bool.false_eq_true, if_false, hsign, UInt64.toNat_ofNat']
      omega
  | true =>
      simp only [magnitude, ofMagnitude, if_true, hsign, UInt64.toNat_ofNat']
      omega

theorem infiniteMagnitude_lt : infiniteMagnitude < 2 ^ 63 := by
  decide

theorem magnitudeOfRatio_le (num den : Nat) : magnitudeOfRatio num den ≤ infiniteMagnitude := by
  unfold magnitudeOfRatio
  split
  · exact Nat.zero_le _
  · exact Nat.min_le_right _ _

theorem magnitude_ofRatio (negative : Bool) (num den : Nat) :
    (ofRatio negative num den).magnitude = magnitudeOfRatio num den :=
  magnitude_ofMagnitude (Nat.lt_of_le_of_lt (magnitudeOfRatio_le num den) infiniteMagnitude_lt) _

/-- What rounding gives is finite unless it is infinite. -/
theorem isFinite_ofRatio {negative : Bool} {num den : Nat}
    (h : (ofRatio negative num den).isInfinite = false) :
    (ofRatio negative num den).isFinite = true := by
  simp only [isInfinite, isFinite, magnitude_ofRatio, decide_eq_false_iff_not, decide_eq_true_eq]
    at h ⊢
  exact Nat.lt_of_le_of_ne (magnitudeOfRatio_le num den) h

theorem isFinite_neg {x : Binary64} (h : x.isFinite = true) : x.neg.isFinite = true := by
  have hbound : x.magnitude < 2 ^ 63 := Nat.mod_lt _ (by decide)
  simpa only [isFinite, neg, magnitude_ofMagnitude hbound] using h

/-! ## Rounding -/

theorem roundHalfEven_le {num den n : Nat} (h : num ≤ den * n) (hden : 0 < den) :
    roundHalfEven num den ≤ n := by
  have hquotient : num / den ≤ n := Nat.div_le_of_le_mul h
  have hdivision := Nat.div_add_mod num den
  unfold roundHalfEven
  -- The quotient is rounded up only if there is a rest, and then it is below the bound.
  by_cases hexact : num / den = n
  · have hrest : num % den = 0 := by
      rw [hexact] at hdivision
      omega
    simp [hrest, hden, hexact]
  · have hparity := Nat.mod_lt (num / den) (show 0 < 2 by decide)
    dsimp only
    split
    · exact hquotient
    · split <;> omega

/-- The logarithm is guessed from those of the two numbers, which is off by one at most. -/
theorem log2Ratio_bounds (num den : Nat) :
    (Nat.log2 num : Int) - Nat.log2 den - 1 ≤ log2Ratio num den ∧
      log2Ratio num den ≤ (Nat.log2 num : Int) - Nat.log2 den := by
  unfold log2Ratio
  dsimp only
  split <;> omega

theorem log2_lt_of_lt {num den t : Nat} (hnum : num ≠ 0) (h : num < den * 2 ^ t) :
    Nat.log2 num < Nat.log2 den + 1 + t := by
  have hpowers : 2 ^ Nat.log2 num < 2 ^ (Nat.log2 den + 1 + t) := calc
    2 ^ Nat.log2 num ≤ num := Nat.log2_self_le hnum
    _ < den * 2 ^ t := h
    _ ≤ 2 ^ (Nat.log2 den + 1) * 2 ^ t := Nat.mul_le_mul_right _ (Nat.le_of_lt Nat.lt_log2_self)
    _ = 2 ^ (Nat.log2 den + 1 + t) := (Nat.pow_add ..).symm
  exact (Nat.pow_lt_pow_iff_right (by decide)).1 hpowers

theorem shiftLeft_le_of_log2 {num den p q t : Nat} (hden : den ≠ 0)
    (h : Nat.log2 num + 1 + p ≤ Nat.log2 den + q + t) : num <<< p ≤ den <<< q * 2 ^ t := by
  rw [Nat.shiftLeft_eq, Nat.shiftLeft_eq]
  calc
    num * 2 ^ p ≤ 2 ^ (Nat.log2 num + 1) * 2 ^ p :=
      Nat.mul_le_mul_right _ (Nat.le_of_lt Nat.lt_log2_self)
    _ = 2 ^ (Nat.log2 num + 1 + p) := (Nat.pow_add ..).symm
    _ ≤ 2 ^ (Nat.log2 den + q + t) := Nat.pow_le_pow_right (by decide) h
    _ = 2 ^ Nat.log2 den * 2 ^ q * 2 ^ t := by rw [Nat.pow_add, Nat.pow_add]
    _ ≤ den * 2 ^ q * 2 ^ t :=
      Nat.mul_le_mul_right _ (Nat.mul_le_mul_right _ (Nat.log2_self_le hden))

theorem magnitudeOfRatio_le_of_lt {num den t : Nat} (h : num < den * 2 ^ t) :
    magnitudeOfRatio num den ≤ (t + 1026) * exponentUnit := by
  have hden : 0 < den := Nat.pos_of_mul_pos_right (Nat.zero_lt_of_lt h)
  unfold magnitudeOfRatio
  split
  · exact Nat.zero_le _
  · next hnum =>
      obtain ⟨hlow, hhigh⟩ := log2Ratio_bounds num den
      have hlogs := log2_lt_of_lt hnum h
      generalize log2Ratio num den = log at hlow hhigh
      have hunit : (max (log - 52) (-1074) + 1074).toNat ≤ t + 1022 := by omega
      have hrounded : roundHalfEven (num <<< (-max (log - 52) (-1074)).toNat)
          (den <<< (max (log - 52) (-1074)).toNat) ≤ 2 ^ 54 := by
        refine roundHalfEven_le (shiftLeft_le_of_log2 (Nat.ne_of_gt hden) (by omega)) ?_
        rw [Nat.shiftLeft_eq]
        exact Nat.mul_pos hden (Nat.pow_pos (by decide))
      have hscaled := Nat.mul_le_mul_right exponentUnit hunit
      have hunits : 2 ^ 54 = 4 * exponentUnit := rfl
      have hsum : (t + 1026) * exponentUnit = (t + 1022) * exponentUnit + 4 * exponentUnit :=
        Nat.add_mul (t + 1022) 4 exponentUnit
      refine Nat.le_trans (Nat.min_le_left _ _) ?_
      omega

/-- A magnitude of at most `m` units of the exponent bits is below `2 ^ (m - 1022)`. -/
theorem numerator_lt {x : Binary64} {t : Nat} (h : x.magnitude ≤ (t + 1022) * exponentUnit) :
    x.numerator < x.denominator * 2 ^ t := by
  have hbits : x.exponentBits ≤ t + 1022 := Nat.div_le_of_le_mul (by rwa [Nat.mul_comm])
  have hsignificand : x.significand < 2 ^ 53 := by
    have hfraction : x.fractionBits < exponentUnit := Nat.mod_lt _ (by decide)
    have hunit : exponentUnit = 2 ^ 52 := rfl
    unfold significand
    split <;> omega
  have hscale : x.scale ≤ (t : Int) - 53 := by
    unfold scale
    split <;> omega
  rw [numerator, denominator, Nat.shiftLeft_eq, Nat.shiftLeft_eq, Nat.one_mul]
  calc
    x.significand * 2 ^ x.scale.toNat < 2 ^ 53 * 2 ^ x.scale.toNat :=
      Nat.mul_lt_mul_of_pos_right hsignificand (Nat.pow_pos (by decide))
    _ = 2 ^ (53 + x.scale.toNat) := (Nat.pow_add ..).symm
    _ ≤ 2 ^ ((-x.scale).toNat + t) := Nat.pow_le_pow_right (by decide) (by omega)
    _ = 2 ^ (-x.scale).toNat * 2 ^ t := Nat.pow_add ..

/-! ## Powers of ten -/

theorem denominator_pos (x : Binary64) : 0 < x.denominator := by
  rw [denominator, Nat.shiftLeft_eq, Nat.one_mul]
  exact Nat.pow_pos (by decide)

/-- The powers of ten that a decimal is divided by are not below one. -/
theorem denominator_le_powerOfTen {k : Nat} (h : k ≤ 308) :
    (powerOfTen k).denominator ≤ (powerOfTen k).numerator := by
  have hall : ∀ k < 309, (powerOfTen k).denominator ≤ (powerOfTen k).numerator := by
    decide +kernel
  exact hall k (Nat.lt_succ_of_le h)

theorem sixteen_le_powerOfTen :
    (powerOfTen 308).denominator * 2 ^ 4 ≤ (powerOfTen 308).numerator := by
  decide +kernel

/-- Division by a number from `2 ^ s` on. -/
theorem magnitude_div_le {x y : Binary64} {s t : Nat}
    (hx : x.magnitude ≤ (s + t + 1022) * exponentUnit)
    (hy : y.denominator * 2 ^ s ≤ y.numerator) :
    (x.div y).magnitude ≤ (t + 1026) * exponentUnit := by
  rw [div, magnitude_ofRatio]
  refine magnitudeOfRatio_le_of_lt ?_
  calc
    x.numerator * y.denominator < x.denominator * 2 ^ (s + t) * y.denominator :=
      Nat.mul_lt_mul_of_pos_right (numerator_lt hx) y.denominator_pos
    _ = x.denominator * (y.denominator * 2 ^ s) * 2 ^ t := by
      rw [Nat.pow_add]
      simp only [Nat.mul_assoc, Nat.mul_comm, Nat.mul_left_comm]
    _ ≤ x.denominator * y.numerator * 2 ^ t :=
      Nat.mul_le_mul_right _ (Nat.mul_le_mul_left _ hy)

/-! ## Decimals -/

theorem isFinite_of_magnitude_le {x : Binary64} (h : x.magnitude ≤ 2046 * exponentUnit) :
    x.isFinite = true := by
  rw [isFinite, decide_eq_true_eq]
  exact Nat.lt_of_le_of_lt h (by decide)

theorem collect_le {n : Nat} (h : n ≤ significandLimit) (digits : List Nat) :
    (collect n digits).1 ≤ significandLimit := by
  induction digits generalizing n with
  | nil => exact h
  | cons d rest ih =>
      rw [collect]
      split
      · next hfits => exact ih hfits
      · exact h

theorem magnitude_ofNat_le {n : Nat} (h : n ≤ significandLimit) :
    (ofNat n).magnitude ≤ 1090 * exponentUnit := by
  have hlimit : significandLimit < 2 ^ 64 := by decide
  rw [ofNat, magnitude_ofRatio]
  exact magnitudeOfRatio_le_of_lt (t := 64) (by omega)

theorem isFinite_scaleDown {x : Binary64} {k : Nat} (hx : x.magnitude ≤ 1090 * exponentUnit)
    (hk : k ≤ 308) (portions : Nat) : (x.scaleDown k portions).isFinite = true := by
  induction portions generalizing x with
  | zero =>
      have hdiv : (x.div (powerOfTen k)).magnitude ≤ (68 + 1026) * exponentUnit :=
        magnitude_div_le (s := 0) hx (by simpa using denominator_le_powerOfTen hk)
      exact isFinite_of_magnitude_le (Nat.le_trans hdiv (by decide))
  | succ portions ih =>
      rw [scaleDown]
      split
      · exact isFinite_of_magnitude_le (Nat.le_trans hx (by decide))
      · exact ih (magnitude_div_le (s := 4) (t := 64) hx sixteen_le_powerOfTen)

theorem isFinite_of_scaled? {significand : Nat} {exponent : Int} {x : Binary64}
    (hsignificand : significand ≤ significandLimit) (h : scaled? significand exponent = some x) :
    x.isFinite = true := by
  have hstart := magnitude_ofNat_le hsignificand
  unfold scaled? at h
  dsimp only at h
  split at h
  · split at h
    · obtain rfl := Option.some.inj h
      exact isFinite_of_magnitude_le (Nat.le_trans hstart (by decide))
    · split at h
      · split at h
        · cases h
        · next hbounded =>
            obtain rfl := Option.some.inj h
            exact isFinite_ofRatio (Bool.eq_false_iff.2 hbounded)
      · cases h
  · obtain rfl := Option.some.inj h
    exact isFinite_scaleDown hstart (by omega) _

/-- What a decimal is read as is finite. -/
theorem isFinite_of_ofDecimal? {d : DecimalSpelling} {x : Binary64} (h : ofDecimal? d = some x) :
    x.isFinite = true := by
  have hwhole := collect_le (Nat.zero_le significandLimit) d.whole
  have hsignificand := collect_le hwhole d.fraction
  obtain ⟨y, hy, rfl⟩ := Option.map_eq_some_iff.1 h
  have hfinite := isFinite_of_scaled? hsignificand hy
  split
  · exact isFinite_neg hfinite
  · exact hfinite

/-- A whole number of 64 bits, read as a float, is finite. -/
theorem isFinite_ofRatio_of_lt {negative : Bool} {n : Nat} (h : n < 2 ^ 64) :
    (ofRatio negative n 1).isFinite = true := by
  refine isFinite_of_magnitude_le ?_
  rw [magnitude_ofRatio]
  exact Nat.le_trans (magnitudeOfRatio_le_of_lt (t := 64) (by omega)) (by decide)

end Binary64

end AttributeOptimizer
