import FactoryAgent.Lib.DecimalText
import FactoryAgent.Lib.DecimalValue

/-!
# The digits of decimals

A number with few enough digits is not changed by rounding (`value_rounded`). A decimal is shown without trailing
zeros and without an exponent: `format(value.normalize(), "f")`. The text is read back as the same number
(`parse_fixedText`), and numbers without trailing zeros are the same where their values and signs are
(`eq_of_value_eq`), so the text that is shown depends on the value and the sign alone.
-/

namespace Decimal

/-- A coefficient without its trailing zeros, of which there are at most so many. -/
def withoutZeros : Nat → Nat → Int → Nat × Int
  | 0, coefficient, exponent => (coefficient, exponent)
  | zeros + 1, coefficient, exponent =>
    if coefficient % 10 = 0 then withoutZeros zeros (coefficient / 10) (exponent + 1) else (coefficient, exponent)

/-- A number without its trailing zeros. -/
def trimmed : Decimal → Decimal
  | finite negative coefficient exponent =>
    let kept := withoutZeros (digitCount coefficient) coefficient exponent
    finite negative kept.1 kept.2
  | other => other

/-- **`value.normalize()`**, in the default context; `none` is a raised `InvalidOperation`. -/
def normalized : Decimal → Option Decimal
  | finite negative coefficient exponent =>
    some (if coefficient = 0 then finite negative 0 0
      else trimmed (DecimalContext.python.round negative coefficient exponent))
  | nan _ true _ => none
  | other => some other

/-- `value.quantize(Decimal("0.01"))`, rounded half to even. -/
def quantizedCents : Decimal → Option Decimal
  | finite negative coefficient exponent =>
    let cents := if -2 ≤ exponent then coefficientAt coefficient exponent (-2)
      else roundedHalfEven coefficient (-2 - exponent).toNat
    if digitCount cents ≤ 28 then some (finite negative cents (-2)) else none
  | infinity _ => none
  | nan _ true _ => none
  | other => some other

/-- `format(value, "f")` -/
def fixedText : Decimal → String
  | finite negative coefficient exponent =>
    let digits := (Nat.repr coefficient).toList
    signText negative ++ String.ofList
      (if 0 ≤ exponent then digits ++ List.replicate exponent.toNat '0' else pointed digits (digits.length + exponent))
  | other => other.toText

/-! ## Significant digits -/

/-- **Whether a number has this many significant digits**, or fewer. -/
def Fits (precision : Nat) (x : ℚ) : Prop :=
  ∃ (coefficient : Int) (exponent : Int), coefficient.natAbs < 10 ^ precision ∧ x = coefficient * (10 : ℚ) ^ exponent

/-- The number of digits of a coefficient. -/
theorem digitCount_le_iff {coefficient digits : Nat} (h : 0 < digits) :
    digitCount coefficient ≤ digits ↔ coefficient < 10 ^ digits := by
  rw [digitCount, Nat.toList_repr]
  exact Nat.length_toDigits_le_iff (by decide) h

/-- A coefficient has a digit. -/
theorem digitCount_pos (coefficient : Nat) : 0 < digitCount coefficient :=
  List.length_pos_iff.mpr (repr_ne_nil coefficient)

/-- The absolute value of a finite number. -/
theorem abs_value (negative : Bool) (coefficient : Nat) (exponent : Int) :
    |(finite negative coefficient exponent).value| = coefficient * (10 : ℚ) ^ exponent := by
  rw [value, abs_mul, abs_of_pos (zpow_pos (by norm_num : (0 : ℚ) < 10) exponent)]
  cases negative with
  | false => simp [signed]
  | true => simp [signed]

/-- **The digits that rounding drops are zeros** where the number fits. -/
theorem pow_dvd_of_fits {precision : Nat} {negative : Bool} {coefficient : Nat} {exponent : Int}
    (hprecision : 0 < precision) (h : Fits precision (finite negative coefficient exponent).value)
    (hdropped : digitCount coefficient - precision ≠ 0) :
    10 ^ (digitCount coefficient - precision) ∣ coefficient := by
  obtain ⟨c, e, hc, hvalue⟩ := h
  have habs : (coefficient : ℚ) * 10 ^ exponent = c.natAbs * 10 ^ e := by
    rw [← abs_value negative, hvalue, abs_mul, abs_of_pos (zpow_pos (by norm_num : (0 : ℚ) < 10) e), Nat.cast_natAbs,
      Int.cast_abs]
  have hten : (10 : ℚ) ≠ 0 := by norm_num
  rcases le_or_gt e exponent with hle | hlt
  · -- The coefficient would have few enough digits.
    have hsplit : c.natAbs = coefficient * 10 ^ (exponent - e).toNat := by
      have hpow : (10 : ℚ) ^ exponent = 10 ^ (exponent - e).toNat * 10 ^ e := by
        rw [← zpow_natCast, ← zpow_add₀ hten, Int.toNat_of_nonneg (by omega), Int.sub_add_cancel]
      rw [hpow, ← mul_assoc, mul_left_inj' (zpow_ne_zero e hten)] at habs
      exact_mod_cast habs.symm
    have hsmall : coefficient < 10 ^ precision :=
      lt_of_le_of_lt (hsplit ▸ Nat.le_mul_of_pos_right _ (Nat.pow_pos (by decide))) hc
    have := (digitCount_le_iff hprecision).mpr hsmall
    omega
  · have hsplit : coefficient = c.natAbs * 10 ^ (e - exponent).toNat := by
      have hpow : (10 : ℚ) ^ e = 10 ^ (e - exponent).toNat * 10 ^ exponent := by
        rw [← zpow_natCast, ← zpow_add₀ hten, Int.toNat_of_nonneg (by omega), Int.sub_add_cancel]
      rw [hpow, ← mul_assoc, mul_left_inj' (zpow_ne_zero exponent hten)] at habs
      exact_mod_cast habs
    have hbound : coefficient < 10 ^ (precision + (e - exponent).toNat) := by
      rw [hsplit, Nat.pow_add]
      exact Nat.mul_lt_mul_of_pos_right hc (Nat.pow_pos (by decide))
    have hcount := (digitCount_le_iff (by omega)).mpr hbound
    have hdvd : 10 ^ (digitCount coefficient - precision) ∣ 10 ^ (e - exponent).toNat := Nat.pow_dvd_pow 10 (by omega)
    exact hdvd.trans (Dvd.intro_left _ hsplit.symm)

/-- **What fits is not changed by rounding.** -/
theorem value_rounded {precision : Nat} (hprecision : 0 < precision) {negative : Bool} {coefficient : Nat}
    {exponent : Int} (h : Fits precision (finite negative coefficient exponent).value) :
    ∃ c e, rounded precision negative coefficient exponent = finite negative c e
      ∧ (finite negative c e).value = (finite negative coefficient exponent).value := by
  rw [rounded]
  by_cases hdropped : digitCount coefficient - precision = 0
  · exact ⟨coefficient, exponent, if_pos hdropped, rfl⟩
  · have hdvd := pow_dvd_of_fits hprecision h hdropped
    have hbound : coefficient < 10 ^ (precision + (digitCount coefficient - precision)) :=
      (digitCount_le_iff (by omega)).mp (by omega)
    generalize digitCount coefficient - precision = dropped at hdropped hdvd hbound ⊢
    obtain ⟨kept, rfl⟩ := hdvd
    have hpos : 0 < 10 ^ dropped := Nat.pow_pos (by decide)
    have hround : roundedHalfEven (10 ^ dropped * kept) dropped = kept := by
      rw [roundedHalfEven]
      simp only [Nat.mul_div_cancel_left kept hpos, Nat.mul_mod_right, Nat.mul_zero, Nat.not_lt_zero, decide_false,
        Bool.false_or]
      rw [decide_eq_false hpos.ne, Bool.false_and]
      rfl
    have hsmall : digitCount kept ≤ precision := by
      rw [Nat.pow_add, Nat.mul_comm (10 ^ precision)] at hbound
      exact (digitCount_le_iff hprecision).mpr (Nat.lt_of_mul_lt_mul_left hbound)
    refine ⟨kept, exponent + dropped, ?_, ?_⟩
    · simp only [hdropped, if_false, hround, hsmall, if_true]
    · rw [value, value, zpow_add₀ (by norm_num), zpow_natCast, Nat.mul_comm, signed_mul]
      push_cast
      ring

/-! ## Without trailing zeros -/

/-- **Whether a number has no trailing zeros.** -/
def IsTrimmed : Decimal → Prop
  | finite _ coefficient exponent => coefficient % 10 ≠ 0 ∨ (coefficient = 0 ∧ exponent = 0)
  | _ => True

/-- Numbers without trailing zeros that are the same have the same digits. -/
theorem eq_of_value_eq {a b : Decimal} (ha : a.isFinite = true) (hb : b.isFinite = true) (haTrimmed : a.IsTrimmed)
    (hbTrimmed : b.IsTrimmed) (hvalue : a.value = b.value) (hnegative : a.negative = b.negative) : a = b := by
  have hten : (10 : ℚ) ≠ 0 := by norm_num
  have hsame : ∀ {n c e c' e'}, (finite n c e).IsTrimmed → (finite n c' e').IsTrimmed →
      (finite n c e).value = (finite n c' e').value → e ≤ e' → c = c' ∧ e = e' := by
    intro n c e c' e' h h' hvalue hle
    have hsplit : c = c' * 10 ^ (e' - e).toNat := by
      have habs := congrArg abs hvalue
      have hpow : (10 : ℚ) ^ e' = 10 ^ (e' - e).toNat * 10 ^ e := by
        rw [← zpow_natCast, ← zpow_add₀ hten, Int.toNat_of_nonneg (by omega), Int.sub_add_cancel]
      rw [abs_value, abs_value, hpow, ← mul_assoc, mul_left_inj' (zpow_ne_zero e hten)] at habs
      exact_mod_cast habs
    rcases hle.eq_or_lt with rfl | hlt
    · rw [Int.sub_self] at hsplit
      exact ⟨hsplit.trans (Nat.mul_one c'), rfl⟩
    · obtain ⟨zeros, hzeros⟩ := Nat.exists_eq_add_of_le' (show 1 ≤ (e' - e).toNat by omega)
      rw [hzeros, Nat.pow_succ, ← Nat.mul_assoc] at hsplit
      rcases h with hdigit | ⟨hzero, rfl⟩
      · exact absurd (by rw [hsplit, Nat.mul_mod_left]) hdigit
      · rcases h' with hdigit | ⟨rfl, rfl⟩
        · have hpos : 0 < 10 ^ zeros := Nat.pow_pos (by decide)
          have hnil : c' = 0 := by
            rcases Nat.eq_zero_or_pos c' with hnil | hpos'
            · exact hnil
            · have := Nat.mul_pos (Nat.mul_pos hpos' hpos) (show 0 < 10 by decide)
              omega
          exact absurd (by rw [hnil]) hdigit
        · exact absurd hlt (Int.lt_irrefl 0)
  cases a with
  | infinity _ => cases ha
  | nan _ _ _ => cases ha
  | finite n c e => cases b with
    | infinity _ => cases hb
    | nan _ _ _ => cases hb
    | finite n' c' e' =>
      have hsign : n = n' := hnegative
      subst hsign
      rcases Int.le_total e e' with hle | hle
      · obtain ⟨rfl, rfl⟩ := hsame haTrimmed hbTrimmed hvalue hle
        rfl
      · obtain ⟨rfl, rfl⟩ := hsame hbTrimmed haTrimmed hvalue.symm hle
        rfl

/-- A coefficient without its trailing zeros is the same number. -/
theorem value_withoutZeros (negative : Bool) (zeros coefficient : Nat) (exponent : Int) :
    (finite negative (withoutZeros zeros coefficient exponent).1 (withoutZeros zeros coefficient exponent).2).value
      = (finite negative coefficient exponent).value := by
  induction zeros generalizing coefficient exponent with
  | zero => rfl
  | succ zeros ih =>
    rw [withoutZeros]
    split
    · next hdigit =>
      have hsplit : coefficient = coefficient / 10 * 10 := (Nat.div_mul_cancel (Nat.dvd_of_mod_eq_zero hdigit)).symm
      rw [ih, value, value, zpow_add₀ (by norm_num), zpow_one]
      conv_rhs => rw [hsplit, signed_mul]
      push_cast
      ring
    · rfl

/-- The last digit that is left is not zero. -/
theorem withoutZeros_mod_ne {zeros coefficient : Nat} (hne : coefficient ≠ 0) (hbound : coefficient < 10 ^ zeros)
    (exponent : Int) : (withoutZeros zeros coefficient exponent).1 % 10 ≠ 0 := by
  induction zeros generalizing coefficient exponent with
  | zero => exact absurd (Nat.lt_one_iff.mp hbound) hne
  | succ zeros ih =>
    rw [withoutZeros]
    split
    · next hdigit =>
      rw [Nat.pow_succ] at hbound
      exact ih (by omega) (by omega) (exponent + 1)
    · next hdigit => exact hdigit

/-- **What is shown of a finite number that fits**: the number itself, without trailing zeros. -/
theorem normalized_finite {negative : Bool} {coefficient : Nat} {exponent : Int}
    (h : Fits 28 (finite negative coefficient exponent).value) :
    ∃ shown, (finite negative coefficient exponent).normalized = some shown ∧ shown.isFinite = true
      ∧ shown.IsTrimmed ∧ shown.value = (finite negative coefficient exponent).value
      ∧ shown.negative = negative := by
  rw [normalized]
  by_cases hzero : coefficient = 0
  · subst hzero
    refine ⟨finite negative 0 0, by rw [if_pos rfl], rfl, .inr ⟨rfl, rfl⟩, ?_, rfl⟩
    cases negative <;> simp [value, signed]
  · obtain ⟨c, e, hround, hvalue⟩ := value_rounded (by decide) h
    have hc : c ≠ 0 := by
      rintro rfl
      have habs := congrArg abs hvalue
      rw [abs_value, abs_value, Nat.cast_zero, zero_mul] at habs
      rcases mul_eq_zero.mp habs.symm with hnil | hpow
      · exact hzero (by exact_mod_cast hnil)
      · exact absurd hpow (zpow_ne_zero _ (by norm_num))
    refine ⟨trimmed (finite negative c e), ?_, rfl, .inl ?_, ?_, rfl⟩
    · rw [if_neg hzero, DecimalContext.round, DecimalContext.python]
      show some (trimmed (rounded 28 negative coefficient exponent)) = _
      rw [hround]
    · exact withoutZeros_mod_ne hc ((digitCount_le_iff (digitCount_pos c)).mp (Nat.le_refl _)) e
    · rw [trimmed, value_withoutZeros, hvalue]

/-! ## Reading what is shown -/

/-- Zeros behind the digits of a number. -/
theorem digitsValue_append_zeros (cs : List Char) (zeros : Nat) :
    digitsValue (cs ++ List.replicate zeros '0') = digitsValue cs * 10 ^ zeros := by
  rw [digitsValue_eq, digitsValue_eq, Nat.ofDigitChars_append, Nat.ofDigitChars_replicate_zero, Nat.mul_comm]

/-- **What is shown of a finite number is read back as it.** -/
theorem parse_fixedText {d : Decimal} (hfinite : d.isFinite = true) :
    ∃ read, parse d.fixedText = some read ∧ read.isFinite = true ∧ read.value = d.value
      ∧ read.negative = d.negative := by
  cases d with
  | infinity _ => cases hfinite
  | nan _ _ _ => cases hfinite
  | finite negative coefficient exponent =>
    have hdigits : ∀ c ∈ (Nat.repr coefficient).toList, c.isDigit = true := fun c hc => isDigit_of_mem_repr hc
    rw [fixedText]
    by_cases hexponent : 0 ≤ exponent
    · obtain ⟨c, rest, hcons⟩ := List.exists_cons_of_ne_nil (repr_ne_nil coefficient)
      have hall : ∀ d ∈ (Nat.repr coefficient).toList ++ List.replicate exponent.toNat '0', d.isDigit = true := by
        intro d hd
        rcases List.mem_append.mp hd with hd | hd
        · exact hdigits d hd
        · rw [List.eq_of_mem_replicate hd]
          rfl
      have hparse : parse (signText negative ++ String.ofList ((Nat.repr coefficient).toList
          ++ List.replicate exponent.toNat '0') ++ exponentText 0) = _ :=
        parse_digits (rest ++ List.replicate exponent.toNat '0') (by rw [hcons]; rfl)
          (hdigits c (hcons ▸ List.mem_cons_self)) fun d hd => .inl (hall d hd)
      rw [show exponentText 0 = "" from rfl, String.append_empty] at hparse
      refine ⟨finite negative (coefficient * 10 ^ exponent.toNat) 0, ?_, rfl, ?_, rfl⟩
      · simp only [hexponent, if_true]
        rw [hparse, finite?_whole (by simp) hall, digitsValue_append_zeros, digitsValue_repr]
      · rw [value, value, signed_mul, zpow_zero, mul_one]
        conv_rhs => rw [← Int.toNat_of_nonneg hexponent, zpow_natCast]
        push_cast
        ring
    · have hparse : parse (signText negative ++ String.ofList (pointed (Nat.repr coefficient).toList
          ((Nat.repr coefficient).toList.length + exponent)) ++ exponentText 0) = _ := parse_pointed (by omega)
      rw [show exponentText 0 = "" from rfl, String.append_empty] at hparse
      refine ⟨finite negative coefficient exponent, ?_, rfl, rfl, rfl⟩
      simp only [hexponent, if_false]
      rw [hparse]
      congr 2
      omega

/-! ## Sums -/

/-- A number with a sign is not above zero, and one without it not below. -/
theorem value_of_negative {d : Decimal} (hfinite : d.isFinite = true) :
    if d.negative then d.value ≤ 0 else 0 ≤ d.value := by
  cases d with
  | infinity _ => cases hfinite
  | nan _ _ _ => cases hfinite
  | finite negative coefficient exponent =>
    have hpow : (0 : ℚ) < 10 ^ exponent := zpow_pos (by norm_num) exponent
    have hcoefficient : (0 : ℚ) ≤ coefficient := Nat.cast_nonneg coefficient
    cases negative with
    | false =>
      show (0 : ℚ) ≤ ((coefficient : Int) : ℚ) * 10 ^ exponent
      exact mul_nonneg (by exact_mod_cast hcoefficient) hpow.le
    | true =>
      show ((-(coefficient : Int) : Int) : ℚ) * 10 ^ exponent ≤ 0
      push_cast
      nlinarith [mul_nonneg hcoefficient hpow.le]

/-- The value of a sum in units of a power of ten. -/
theorem value_ofSum (zeroSign : Bool) (sum exponent : Int) :
    (ofSum zeroSign sum exponent).value = sum * (10 : ℚ) ^ exponent := by
  rw [value_eq_units (d := ofSum zeroSign sum exponent) rfl
    (show exponent ≤ (ofSum zeroSign sum exponent).exponent from Int.le_refl _), units_ofSum]

/-- **A sum that fits is exact**, with the sign of the numbers where it is zero. -/
theorem python_add {a b : Decimal} (ha : a.isFinite = true) (hb : b.isFinite = true)
    (h : Fits 28 (a.value + b.value)) :
    ∃ sum, DecimalContext.python.add a b = some sum ∧ sum.isFinite = true ∧ sum.value = a.value + b.value
      ∧ sum.negative = if a.value + b.value = 0 then a.negative && b.negative else decide (a.value + b.value < 0) := by
  obtain ⟨total, htotal, hfinite, hvalue⟩ := DecimalContext.value_add ha hb
  cases a with
  | infinity _ => cases ha
  | nan _ _ _ => cases ha
  | finite n₁ c₁ e₁ => cases b with
    | infinity _ => cases hb
    | nan _ _ _ => cases hb
    | finite n₂ c₂ e₂ =>
      rw [DecimalContext.exact_add_finite, Option.some.injEq] at htotal
      generalize hunits : (finite n₁ c₁ e₁).units (min e₁ e₂) + (finite n₂ c₂ e₂).units (min e₁ e₂) = units at htotal
      subst htotal
      rw [ofSum] at hvalue
      obtain ⟨c, e, hround, hrounded⟩ := value_rounded (by decide) (hvalue ▸ h)
      have hpow : (0 : ℚ) < 10 ^ min e₁ e₂ := zpow_pos (by norm_num) _
      have htotal : (finite n₁ c₁ e₁).value + (finite n₂ c₂ e₂).value = units * (10 : ℚ) ^ min e₁ e₂ := by
        rw [← hvalue, ← ofSum, value_ofSum]
      refine ⟨finite _ c e, ?_, rfl, hrounded.trans hvalue, ?_⟩
      · rw [← hround, ← hunits]
        rfl
      · have hzero : ((units : ℚ) * 10 ^ min e₁ e₂ = 0) ↔ units = 0 := by
          rw [mul_eq_zero, or_iff_left hpow.ne', Int.cast_eq_zero]
        have hneg : ((units : ℚ) * 10 ^ min e₁ e₂ < 0) ↔ units < 0 := by
          rw [mul_neg_iff, or_iff_right fun h => absurd h.2 hpow.not_gt, and_iff_left hpow, Int.cast_lt_zero]
        rw [htotal]
        simp only [hzero, hneg]
        rfl

end Decimal
