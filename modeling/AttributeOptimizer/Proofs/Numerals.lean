import AttributeOptimizer.Json.Number
import AttributeOptimizer.Json.Printer
import Mathlib.Algebra.Group.Int.Defs
import Mathlib.Tactic.SplitIfs

set_option autoImplicit false

/-! # Numbers as words

The text of a whole number is a word that is read as that number, as long as it fits in 64 bits. The
text of a float is always a word; whether it is read as the same float is a question of its own,
since decimals are not rounded exactly. -/

namespace AttributeOptimizer

namespace Json

/-! ## Digits -/

theorem digit?_of_isDigit {c : Char} (h : c.isDigit = true) :
    digit? c = some (c.toNat - '0'.toNat) := by
  rw [Char.isDigit, Bool.and_eq_true, decide_eq_true_eq, decide_eq_true_eq] at h
  exact if_pos ⟨h.1, h.2⟩

theorem spanDigits_of_isDigit {cs : List Char} (h : ∀ c ∈ cs, c.isDigit = true) :
    spanDigits cs = (cs.map fun c => c.toNat - '0'.toNat, []) := by
  induction cs with
  | nil => rfl
  | cons c cs ih =>
      obtain ⟨hc, hcs⟩ := List.forall_mem_cons.1 h
      rw [spanDigits, digit?_of_isDigit hc, ih hcs]
      rfl

theorem ofDigits_map (cs : List Char) :
    ofDigits (cs.map fun c => c.toNat - '0'.toNat) = Nat.ofDigitChars 10 cs 0 := by
  simp only [ofDigits, List.foldl_map, Nat.ofDigitChars_eq_foldl, Nat.mul_comm 10]

theorem isDigit_of_mem_toDigits {n : Nat} {c : Char} (h : c ∈ Nat.toDigits 10 n) :
    c.isDigit = true :=
  Nat.isDigit_of_mem_toDigits (by decide) (by decide) h

theorem head?_toDigits {n : Nat} (h : 0 < n) : (Nat.toDigits 10 n).head? ≠ some '0' := by
  induction n using Nat.strongRecOn with
  | _ n ih =>
      by_cases hsmall : n < 10
      · rw [Nat.toDigits_of_lt_base hsmall, List.head?_cons, Ne, Option.some_inj,
          Nat.digitChar_eq_zero]
        omega
      · have hfront := ih (n / 10) (by omega) (by omega)
        rw [Nat.toDigits_of_base_le (by decide) (by omega), List.head?_append]
        cases hchars : (Nat.toDigits 10 (n / 10)).head? with
        | none => exact absurd (List.head?_eq_none_iff.1 hchars) Nat.toDigits_ne_nil
        | some c => rwa [hchars] at hfront

/-! ## Whole numbers -/

/-- A word of digits without a leading zero is a whole number. -/
theorem readUnsigned?_digits {cs : List Char} (negative : Bool)
    (hdigits : ∀ c ∈ cs, c.isDigit = true) (hne : cs ≠ [])
    (hzero : cs.head? = some '0' → cs = ['0']) :
    readUnsigned? negative cs =
      some ((wholeNumber negative (cs.map fun c => c.toNat - '0'.toNat)).getD .unreadable) := by
  rw [readUnsigned?, spanDigits_of_isDigit hdigits]
  split
  · next hnil => simp [hne] at hnil
  · next hleading =>
      obtain ⟨c, rest, rfl, hc, hrest⟩ := List.map_eq_cons_iff.1 (congrArg Prod.fst hleading)
      have hbounds := Char.isDigit_iff_toNat.1 (hdigits c List.mem_cons_self)
      have hfirst : c = '0' := Char.toNat_inj.1 (by omega)
      have hall := hzero (congrArg some hfirst)
      rw [(List.cons.inj hall).2] at hrest
      cases hrest
  · next hspan =>
      obtain ⟨rfl, rfl⟩ := Prod.mk.inj hspan
      rfl

theorem readUnsigned?_toDigits (negative : Bool) (n : Nat) :
    ∃ digits, ofDigits digits = n ∧ readUnsigned? negative (Nat.toDigits 10 n) =
      some ((wholeNumber negative digits).getD .unreadable) := by
  refine ⟨_, ?_, readUnsigned?_digits negative (fun _ => isDigit_of_mem_toDigits)
    Nat.toDigits_ne_nil fun hzero => ?_⟩
  · rw [ofDigits_map, Nat.ofDigitChars_ten_toDigits]
  · rcases Nat.eq_zero_or_pos n with rfl | hpos
    · rfl
    · exact absurd hzero (head?_toDigits hpos)

theorem toList_toString_ofNat (n : Nat) :
    (toString (Int.ofNat n)).toList = Nat.toDigits 10 n :=
  Nat.toList_repr

theorem toList_toString_negSucc (n : Nat) :
    (toString (Int.negSucc n)).toList = '-' :: Nat.toDigits 10 (n + 1) := by
  rw [show toString (Int.negSucc n) = "-" ++ (n + 1).repr from rfl, String.toList_append,
    Nat.toList_repr]
  rfl

/-- A whole number of 64 bits, signed or unsigned, is read from its text. -/
theorem readNumber?_toString {i : Int} (hlow : -2 ^ 63 ≤ i) (hhigh : i < 2 ^ 64) :
    readNumber? (toString i).toList = some (.int i) := by
  cases i with
  | ofNat n =>
      rw [Int.ofNat_eq_natCast] at hhigh
      obtain ⟨digits, hvalue, hread⟩ := readUnsigned?_toDigits false n
      have hfits : n < UInt64.size := by
        simp only [UInt64.size]
        omega
      have hunsigned : '-' ∉ Nat.toDigits 10 n :=
        fun hminus => Bool.noConfusion (isDigit_of_mem_toDigits hminus)
      rw [toList_toString_ofNat, readNumber?, hread]
      · simp [wholeNumber, hvalue, hfits]
      · rintro rest hminus
        exact hunsigned (hminus ▸ List.mem_cons_self)
  | negSucc n =>
      obtain ⟨digits, hvalue, hread⟩ := readUnsigned?_toDigits true (n + 1)
      have hfits : 0 < n + 1 ∧ n + 1 ≤ Int64.minValue.toInt.natAbs := by
        have hmin : Int64.minValue.toInt.natAbs = 2 ^ 63 := by decide
        omega
      rw [toList_toString_negSucc, readNumber?, hread]
      simp only [wholeNumber, hvalue, if_pos hfits, if_true]
      rfl

/-! ## Words -/

theorem isWordChar_of_isDigit {c : Char} (h : c.isDigit = true) : isWordChar c = true := by
  simp [isWordChar, Char.isAlphanum, h]

/-- A number is no literal. -/
theorem readWord?_of_readNumber? {cs : List Char} {j : Json} (h : readNumber? cs = some j) :
    readWord? cs = some j := by
  have hliteral : ∀ text : String, readNumber? text.toList = none → cs ≠ text.toList := by
    rintro text hnone rfl
    exact absurd (h.symm.trans hnone) (Option.some_ne_none j)
  rw [readWord?, if_neg (hliteral "null" rfl), if_neg (hliteral "true" rfl),
    if_neg (hliteral "false" rfl), h]

theorem isWordChar_of_mem_toDigits {n : Nat} {c : Char} (h : c ∈ Nat.toDigits 10 n) :
    isWordChar c = true :=
  isWordChar_of_isDigit (isDigit_of_mem_toDigits h)

theorem isWordChar_of_mem_toString {i : Int} {c : Char} (h : c ∈ (toString i).toList) :
    isWordChar c = true := by
  cases i with
  | ofNat n =>
      rw [toList_toString_ofNat] at h
      exact isWordChar_of_mem_toDigits h
  | negSucc n =>
      rw [toList_toString_negSucc] at h
      rcases List.mem_cons.1 h with rfl | h
      · rfl
      · exact isWordChar_of_mem_toDigits h

end Json

/-! ## Floats -/

namespace Binary64

theorem isWordChar_of_mem_positiveText (layout : DecimalLayout) (d : Decimal) :
    ∀ c ∈ (layout.positiveText d).toList, Json.isWordChar c = true := by
  have hdigits : ∀ c ∈ (digitText d.digits).toList, Json.isWordChar c = true := by
    intro c hc
    rw [digitText, Nat.toString_eq_repr, Nat.toList_repr] at hc
    exact Json.isWordChar_of_mem_toDigits hc
  have hzeros : ∀ n, ∀ c ∈ List.replicate n '0', Json.isWordChar c = true := by
    intro n c hc
    obtain rfl := List.eq_of_mem_replicate hc
    rfl
  have htake : ∀ n, ∀ c ∈ (digitText d.digits).toList.take n, Json.isWordChar c = true :=
    fun n c hc => hdigits c (List.mem_of_mem_take hc)
  have hdrop : ∀ n, ∀ c ∈ (digitText d.digits).toList.drop n, Json.isWordChar c = true :=
    fun n c hc => hdigits c (List.mem_of_mem_drop hc)
  have hexponent : ∀ i : Int, ∀ c ∈ (toString i).toList, Json.isWordChar c = true :=
    fun _ _ => Json.isWordChar_of_mem_toString
  have hzero : ∀ c ∈ "0.".toList, Json.isWordChar c = true := List.all_eq_true.1 rfl
  have hwhole : ∀ c ∈ ".0".toList, Json.isWordChar c = true := List.all_eq_true.1 rfl
  have hpoint : ∀ c ∈ ".".toList, Json.isWordChar c = true := List.all_eq_true.1 rfl
  have hmark : ∀ c ∈ "e".toList, Json.isWordChar c = true := List.all_eq_true.1 rfl
  unfold DecimalLayout.positiveText
  lift_lets
  intro digits count point mantissa
  split_ifs <;> simp only [String.toList_append, List.forall_mem_append, String.toList_ofList]
  · exact ⟨hzero, hzeros _, hdigits⟩
  · exact ⟨⟨hdigits, hzeros _⟩, hwhole⟩
  · exact ⟨⟨htake _, hpoint⟩, hdrop _⟩
  · refine ⟨⟨?_, hmark⟩, hexponent _⟩
    simp only [mantissa]
    split_ifs
    · simpa using hdigits
    · simpa only [String.toList_append, List.forall_mem_append, String.toList_ofList]
        using ⟨⟨htake _, hpoint⟩, hdrop _⟩

theorem isWordChar_of_mem_finiteText (layout : DecimalLayout) (x : Binary64) :
    ∀ c ∈ (x.finiteText layout).toList, Json.isWordChar c = true := by
  have hsign : ∀ c ∈ (if x.isNegative then "-" else "").toList, Json.isWordChar c = true := by
    cases x.isNegative <;> exact List.all_eq_true.1 rfl
  unfold finiteText
  simp only [String.toList_append, List.forall_mem_append]
  refine ⟨hsign, ?_⟩
  split_ifs
  · exact List.all_eq_true.1 rfl
  · exact isWordChar_of_mem_positiveText layout _

end Binary64

end AttributeOptimizer
