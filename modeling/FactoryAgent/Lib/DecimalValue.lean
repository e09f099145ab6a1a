import Mathlib.Data.Rat.Floor
import Mathlib.Tactic.Ring
import Mathlib.Tactic.FieldSimp
import Mathlib.Tactic.Linarith
import FactoryAgent.Lib.ExactDecimal

/-!
# The values of decimals

A finite decimal is a rational number. Exact sums are sums of these numbers, and a ratio in percent is
the quotient of the numbers, rounded half up to two decimals.
-/

namespace Decimal

/-- **The number that a finite decimal is.** -/
def value : Decimal → ℚ
  | finite negative coefficient exponent => signed negative coefficient * (10 : ℚ) ^ exponent
  | _ => 0

@[simp] theorem value_zero : zero.value = 0 := by
  simp [value, zero, signed]

/-- The value of a number in units of a smaller power of ten. -/
theorem value_eq_units {d : Decimal} (hfinite : d.isFinite = true) {smaller : Int}
    (h : smaller ≤ d.exponent) : d.value = d.units smaller * (10 : ℚ) ^ smaller := by
  cases d with
  | infinity _ => cases hfinite
  | nan _ _ _ => cases hfinite
  | finite negative coefficient exponent =>
    have hsplit : exponent = ((exponent - smaller).toNat : Int) + smaller := by
      rw [exponent_finite] at h
      omega
    have hpow : (10 : ℚ) ^ exponent = 10 ^ (exponent - smaller).toNat * (10 : ℚ) ^ smaller := by
      conv_lhs => rw [hsplit]
      rw [zpow_add₀ (by norm_num), zpow_natCast]
    rw [units_finite, value, coefficientAt, signed_mul, hpow]
    push_cast
    ring

/-- A finite number is zero where its coefficient is. -/
theorem value_eq_zero_iff {d : Decimal} (hfinite : d.isFinite = true) :
    d.value = 0 ↔ d.isZero = true := by
  cases d with
  | infinity _ => cases hfinite
  | nan _ _ _ => cases hfinite
  | finite negative coefficient exponent =>
    have hpow : (10 : ℚ) ^ exponent ≠ 0 := zpow_ne_zero _ (by norm_num)
    rw [value, mul_eq_zero, or_iff_left hpow, isZero, decide_eq_true_eq]
    cases negative <;> simp [signed]

end Decimal

namespace DecimalContext

open Decimal

/-- **The exact sum of two finite numbers is their sum.** -/
theorem value_add {a b : Decimal} (ha : a.isFinite = true) (hb : b.isFinite = true) :
    ∃ sum, exact.add a b = some sum ∧ sum.isFinite = true ∧ sum.value = a.value + b.value := by
  obtain ⟨sum, hsum, hfinite⟩ := exists_exact_add ha hb
  obtain ⟨-, hexponent, hunits⟩ := units_add _ ha hb hsum (Int.le_refl _)
  refine ⟨sum, hsum, hfinite, ?_⟩
  rw [value_eq_units hfinite (Int.le_of_eq hexponent.symm), value_eq_units ha (Int.min_le_left _ _),
    value_eq_units hb (Int.min_le_right _ _), hunits]
  push_cast
  ring

/-- **The exact total of finite numbers is their sum.** -/
theorem value_total {values : List Decimal} (h : ∀ d ∈ values, d.isFinite = true) :
    ∃ sum, exact.total (values.map some) = some sum ∧ sum.isFinite = true
      ∧ sum.value = (values.map value).sum := by
  induction values using List.reverseRecOn with
  | nil => exact ⟨zero, rfl, rfl, value_zero⟩
  | append_singleton values value ih =>
    obtain ⟨before, hbefore, hfinite, hvalue⟩ := ih (fun d hd => h d (List.mem_append_left _ hd))
    obtain ⟨sum, hsum, hsumFinite, hsumValue⟩ := value_add hfinite
      (h value (List.mem_append_right _ (List.mem_singleton_self _)))
    refine ⟨sum, ?_, hsumFinite, ?_⟩
    · rw [List.map_append, List.map_singleton, total_concat, hbefore]
      exact hsum
    · rw [List.map_append, List.sum_append, ← hvalue, hsumValue]
      simp

/-- The sum of numbers that are not below zero is not below zero. -/
theorem isNegative_add {a b sum : Decimal} (ha : a.isFinite = true) (hb : b.isFinite = true)
    (haSign : a.isNegative = false) (hbSign : b.isNegative = false) (h : exact.add a b = some sum) :
    sum.isNegative = false := by
  have hunits : ∀ {negative coefficient exponent smaller},
      (finite negative coefficient exponent).isNegative = false →
      0 ≤ (finite negative coefficient exponent).units smaller := by
    intro negative coefficient exponent smaller hsign
    cases negative with
    | false => exact Int.natCast_nonneg _
    | true =>
      have hc : coefficient = 0 := by simpa [isNegative] using hsign
      simp [hc, signed, coefficientAt]
  cases a with
  | infinity _ => cases ha
  | nan _ _ _ => cases ha
  | finite n₁ c₁ e₁ => cases b with
    | infinity _ => cases hb
    | nan _ _ _ => cases hb
    | finite n₂ c₂ e₂ =>
      rw [exact_add_finite, Option.some.injEq] at h
      have hfirst : 0 ≤ (finite n₁ c₁ e₁).units (min e₁ e₂) := hunits haSign
      have hsecond : 0 ≤ (finite n₂ c₂ e₂).units (min e₁ e₂) := hunits hbSign
      subst h
      rw [ofSum, isNegative]
      split
      · next hzero =>
        rw [hzero]
        exact Bool.and_false _
      · have hpos : ¬ (finite n₁ c₁ e₁).units (min e₁ e₂) + (finite n₂ c₂ e₂).units (min e₁ e₂) < 0 := by
          omega
        rw [decide_eq_false hpos]
        rfl

/-- The exact total of numbers that are not below zero is not below zero. -/
theorem isNegative_total {values : List (Option Decimal)}
    (h : ∀ d, some d ∈ values → d.isFinite = true ∧ d.isNegative = false) {sum : Decimal}
    (hsum : exact.total values = some sum) : sum.isNegative = false :=
  (total_induction (I := fun d => d.isFinite = true ∧ d.isNegative = false) ⟨rfl, rfl⟩
    (fun ha hb hadd => ⟨(units_add _ ha.1 hb.1 hadd (Int.le_refl _)).1,
      isNegative_add ha.1 hb.1 ha.2 hb.2 hadd⟩) h hsum).2

/-- A number rounded half up to two decimals. -/
def halfUpCents (x : ℚ) : ℚ :=
  ⌊x * 100 + 1 / 2⌋ / 100

/-- Rounding a quotient half up. -/
theorem roundedQuotient_eq (dividend divisor : Nat) (h : 0 < divisor) :
    ((dividend / divisor + if divisor ≤ 2 * (dividend % divisor) then 1 else 0 : Nat) : Int)
      = ⌊(dividend : ℚ) / divisor + 1 / 2⌋ := by
  have hfloor : ⌊((2 * dividend + divisor : Nat) : ℚ) / (2 * divisor : Nat)⌋
      = (((2 * dividend + divisor) / (2 * divisor) : Nat) : Int) := by
    exact_mod_cast Rat.floor_natCast_div_natCast (2 * dividend + divisor) (2 * divisor)
  have hquotient : (dividend : ℚ) / divisor + 1 / 2
      = ((2 * dividend + divisor : Nat) : ℚ) / (2 * divisor : Nat) := by
    have hpos : (divisor : ℚ) ≠ 0 := by exact_mod_cast h.ne'
    push_cast
    field_simp
  rw [hquotient, hfloor]
  congr 1
  have hremainder := Nat.mod_lt dividend h
  have hsplit : 2 * dividend + divisor
      = 2 * (dividend % divisor) + divisor + 2 * divisor * (dividend / divisor) := by
    have hdivision := Nat.div_add_mod dividend divisor
    linarith
  rw [hsplit, Nat.add_mul_div_left _ _ (by omega), Nat.add_comm]
  congr 1
  split
  · exact (Nat.div_eq_of_lt_le (by omega) (by omega)).symm
  · exact (Nat.div_eq_of_lt (by omega)).symm

/-- **The cents of a ratio of numbers without a sign.** -/
theorem value_exactCents (c₁ : Nat) (e₁ : Int) {c₂ : Nat} (e₂ : Int) (hc : c₂ ≠ 0) :
    (exactCents c₁ e₁ c₂ e₂ : ℚ) / 100
      = halfUpCents (100 * (finite false c₁ e₁).value / (finite false c₂ e₂).value) := by
  have hdivisor : 0 < coefficientAt c₂ e₂ (min e₁ e₂) :=
    Nat.mul_pos (Nat.pos_of_ne_zero hc) (Nat.pow_pos (by decide))
  -- both in units of the smaller power of ten, which cancels
  have hactual := value_eq_units (d := finite false c₁ e₁) rfl (Int.min_le_left e₁ e₂)
  have hplanned := value_eq_units (d := finite false c₂ e₂) rfl (Int.min_le_right e₁ e₂)
  have hunits : ∀ c e, (finite false c e).units (min e₁ e₂) = coefficientAt c e (min e₁ e₂) :=
    fun _ _ => rfl
  have hratio : 100 * (finite false c₁ e₁).value / (finite false c₂ e₂).value * 100
      = ((coefficientAt c₁ e₁ (min e₁ e₂) * 10000 : Nat) : ℚ)
          / (coefficientAt c₂ e₂ (min e₁ e₂) : Nat) := by
    have hpow : (10 : ℚ) ^ min e₁ e₂ ≠ 0 := zpow_ne_zero _ (by norm_num)
    have hne : (coefficientAt c₂ e₂ (min e₁ e₂) : ℚ) ≠ 0 := by exact_mod_cast hdivisor.ne'
    rw [hactual, hplanned, hunits, hunits]
    push_cast
    field_simp
    ring
  have hrounded : (exactCents c₁ e₁ c₂ e₂ : Int)
      = ⌊((coefficientAt c₁ e₁ (min e₁ e₂) * 10000 : Nat) : ℚ)
          / (coefficientAt c₂ e₂ (min e₁ e₂) : Nat) + 1 / 2⌋ :=
    roundedQuotient_eq _ _ hdivisor
  rw [halfUpCents, hratio, ← hrounded, Int.cast_natCast]

/-- **A ratio in percent is the quotient, rounded half up to two decimals**, and zero where nothing was
planned. -/
theorem value_percentage {actual planned : Decimal} (hactual : actual.isFinite = true)
    (hplanned : planned.isFinite = true) (hactualSign : actual.isNegative = false)
    (hplannedSign : planned.isNegative = false) :
    ∃ rate, exact.percentage actual planned = some rate
      ∧ rate.value = if planned.value = 0 then 0
        else halfUpCents (100 * actual.value / planned.value) := by
  cases actual with
  | infinity _ => cases hactual
  | nan _ _ _ => cases hactual
  | finite n₁ c₁ e₁ => cases planned with
    | infinity _ => cases hplanned
    | nan _ _ _ => cases hplanned
    | finite n₂ c₂ e₂ =>
      have hzero := value_eq_zero_iff hplanned
      by_cases hnothing : (finite n₂ c₂ e₂).isZero = true
      · refine ⟨finite false 0 (-2), ?_, ?_⟩
        · unfold percentage
          rw [if_pos hnothing]
          rfl
        · rw [if_pos (hzero.mpr hnothing)]
          simp [value, signed]
      · refine ⟨finite (n₁ != n₂) (exactCents c₁ e₁ c₂ e₂) (-2), ?_, ?_⟩
        · unfold percentage
          rw [if_neg hnothing]
          rfl
        · rw [if_neg (mt hzero.mp hnothing)]
          have hc : c₂ ≠ 0 := fun hc => hnothing (by simp [isZero, hc])
          have hpositive : n₂ = false := by simpa [isNegative, hc] using hplannedSign
          have hpow : (10 : ℚ) ^ (-2 : Int) = 1 / 100 := by norm_num
          subst hpositive
          cases n₁ with
          | false =>
            rw [← value_exactCents c₁ e₁ e₂ hc, value, hpow, mul_one_div]
            rfl
          | true =>
            -- the negative zero
            have hnothingDone : c₁ = 0 := by simpa [isNegative] using hactualSign
            subst hnothingDone
            have hcents := value_exactCents 0 e₁ e₂ hc
            have hnone : exactCents 0 e₁ c₂ e₂ = 0 := by
              have hdivisor : 0 < coefficientAt c₂ e₂ (min e₁ e₂) :=
                Nat.mul_pos (Nat.pos_of_ne_zero hc) (Nat.pow_pos (by decide))
              unfold exactCents
              dsimp only
              rw [coefficientAt, Nat.zero_mul, Nat.zero_mul, Nat.zero_div, Nat.zero_mod,
                if_neg (by omega)]
            rw [hnone] at hcents
            have hsame : (finite true 0 e₁).value = (finite false 0 e₁).value := by
              simp [value, signed]
            rw [hsame, ← hcents, hnone]
            simp [value, signed]

end DecimalContext
