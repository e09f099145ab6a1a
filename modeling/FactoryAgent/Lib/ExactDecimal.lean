import Mathlib.Data.List.Induction
import Mathlib.Data.List.Perm.Basic
import FactoryAgent.Lib.Decimal

/-!
# Exact sums

Sums of decimals in a context without a precision. The sum of finite numbers is a finite number, and it
does not depend on the order in which they are added: not in its value, not in its exponent, and not in
the sign of a zero (`DecimalContext.add_right_comm`). With infinities and NaNs a sum can fail, or be a NaN,
and which of the two it is may depend on the order; nothing else does (`Decimal.number?_total_of_perm`).
-/

namespace Decimal

/-! ## Finite numbers at a common exponent -/

/-- Whether a decimal is a NaN. -/
def isNan : Decimal → Bool
  | nan .. => true
  | _ => false

/-- The sum of numbers at a common exponent; `zeroSign` is the sign of a sum that is zero. -/
def ofSum (zeroSign : Bool) (sum exponent : Int) : Decimal :=
  finite (if sum = 0 then zeroSign else decide (sum < 0)) sum.natAbs exponent

/-- The exponent of a finite number. -/
def exponent : Decimal → Int
  | finite _ _ exponent => exponent
  | _ => 0

/-- The sign of a number. -/
def negative : Decimal → Bool
  | finite negative _ _ => negative
  | infinity negative => negative
  | nan negative _ _ => negative

/-- **A finite number in units** of a power of ten that is not above its own. -/
def units (smaller : Int) : Decimal → Int
  | finite negative coefficient exponent => signed negative (coefficientAt coefficient exponent smaller)
  | _ => 0

@[simp] theorem exponent_finite (negative : Bool) (coefficient : Nat) (exponent : Int) :
    (finite negative coefficient exponent).exponent = exponent := rfl

@[simp] theorem units_finite (negative : Bool) (coefficient : Nat) (exponent smaller : Int) :
    (finite negative coefficient exponent).units smaller
      = signed negative (coefficientAt coefficient exponent smaller) := rfl

@[simp] theorem exponent_ofSum (zeroSign : Bool) (sum exponent : Int) :
    (ofSum zeroSign sum exponent).exponent = exponent := rfl

/-- A coefficient at its own exponent. -/
@[simp] theorem coefficientAt_self (coefficient : Nat) (exponent : Int) :
    coefficientAt coefficient exponent exponent = coefficient := by
  rw [coefficientAt, Int.sub_self]
  simp

/-- A number in smaller units. -/
theorem coefficientAt_of_le {coefficient : Nat} {exponent middle smaller : Int} (h : middle ≤ exponent)
    (h' : smaller ≤ middle) :
    coefficientAt coefficient exponent smaller
      = coefficientAt coefficient exponent middle * 10 ^ (middle - smaller).toNat := by
  have hsplit : (exponent - smaller).toNat = (exponent - middle).toNat + (middle - smaller).toNat := by
    omega
  rw [coefficientAt, coefficientAt, hsplit, Nat.pow_add, Nat.mul_assoc]

/-- The sign of a product. -/
theorem signed_mul (negative : Bool) (m n : Nat) : signed negative (m * n) = signed negative m * n := by
  cases negative with
  | false => rfl
  | true => rw [signed, signed, if_pos rfl, if_pos rfl, Int.natCast_mul, Int.neg_mul]

/-- **A finite number in smaller units.** -/
theorem units_of_le {d : Decimal} {middle smaller : Int} (hmiddle : middle ≤ d.exponent)
    (hsmaller : smaller ≤ middle) :
    d.units smaller = d.units middle * (10 ^ (middle - smaller).toNat : Nat) := by
  cases d with
  | finite negative coefficient exponent =>
    rw [exponent_finite] at hmiddle
    rw [units_finite, units_finite, coefficientAt_of_le hmiddle hsmaller, signed_mul]
  | infinity negative => simp [units]
  | nan negative signaling payload => simp [units]

/-- A number is zero in every unit, or in none. -/
theorem units_eq_zero_iff {d : Decimal} {smaller : Int} (middle : Int) (hmiddle : middle ≤ d.exponent)
    (hsmaller : smaller ≤ middle) : d.units smaller = 0 ↔ d.units middle = 0 := by
  have hpow : ((10 ^ (middle - smaller).toNat : Nat) : Int) ≠ 0 := by
    exact_mod_cast Nat.pos_iff_ne_zero.mp (Nat.pow_pos (by decide))
  rw [units_of_le hmiddle hsmaller]
  exact ⟨fun h => (Int.mul_eq_zero.mp h).resolve_right hpow, fun h => by rw [h, Int.zero_mul]⟩

/-- The sign of a number that is not zero is that of its units. -/
theorem negative_eq {negative : Bool} {coefficient : Nat} {exponent smaller : Int}
    (h : (finite negative coefficient exponent).units smaller ≠ 0) :
    negative = decide ((finite negative coefficient exponent).units smaller < 0) := by
  cases negative with
  | true =>
    have hpos : coefficientAt coefficient exponent smaller ≠ 0 := by
      intro hzero
      exact h (by simp [units, signed, hzero])
    simp only [units, signed, if_true]
    rw [eq_comm, decide_eq_true_eq]
    omega
  | false =>
    simp only [units, signed, Bool.false_eq_true, if_false]
    rw [eq_comm, decide_eq_false_iff_not]
    omega

/-- The units of a sum. -/
@[simp] theorem units_ofSum (zeroSign : Bool) (sum exponent : Int) :
    (ofSum zeroSign sum exponent).units exponent = sum := by
  rw [ofSum, units_finite, coefficientAt_self]
  by_cases hzero : sum = 0
  · simp [hzero, signed]
  · by_cases hnegative : sum < 0
    · rw [if_neg hzero, decide_eq_true hnegative, signed, if_pos rfl]
      omega
    · rw [if_neg hzero, decide_eq_false hnegative, signed, if_neg (by decide)]
      omega

end Decimal

namespace DecimalContext

open Decimal

/-- **The exact sum of two finite numbers.** -/
theorem exact_add_finite (n₁ n₂ : Bool) (c₁ c₂ : Nat) (e₁ e₂ : Int) :
    exact.add (finite n₁ c₁ e₁) (finite n₂ c₂ e₂)
      = some (ofSum (n₁ && n₂) ((finite n₁ c₁ e₁).units (min e₁ e₂)
          + (finite n₂ c₂ e₂).units (min e₁ e₂)) (min e₁ e₂)) := rfl

/-- **Finite numbers have an exact sum**, which is finite. -/
theorem exists_exact_add {a b : Decimal} (ha : a.isFinite = true) (hb : b.isFinite = true) :
    ∃ sum, exact.add a b = some sum ∧ sum.isFinite = true := by
  cases a with
  | infinity _ => cases ha
  | nan _ _ _ => cases ha
  | finite _ _ _ => cases b with
    | infinity _ => cases hb
    | nan _ _ _ => cases hb
    | finite _ _ _ => exact ⟨_, rfl, rfl⟩

/-- The exact sum of finite numbers, in smaller units. -/
theorem units_add {a b sum : Decimal} (smaller : Int) (ha : a.isFinite = true) (hb : b.isFinite = true)
    (h : exact.add a b = some sum) (hle : smaller ≤ min a.exponent b.exponent) :
    sum.isFinite = true ∧ sum.exponent = min a.exponent b.exponent
      ∧ sum.units smaller = a.units smaller + b.units smaller := by
  cases a with
  | infinity _ => cases ha
  | nan _ _ _ => cases ha
  | finite n₁ c₁ e₁ =>
    cases b with
    | infinity _ => cases hb
    | nan _ _ _ => cases hb
    | finite n₂ c₂ e₂ =>
      rw [exact_add_finite, Option.some.injEq] at h
      subst h
      refine ⟨rfl, rfl, ?_⟩
      have hsum := units_of_le (d := ofSum (n₁ && n₂) ((finite n₁ c₁ e₁).units (min e₁ e₂)
        + (finite n₂ c₂ e₂).units (min e₁ e₂)) (min e₁ e₂)) (Int.le_refl _) hle
      rw [exponent_ofSum, units_ofSum] at hsum
      have hfirst := units_of_le (d := finite n₁ c₁ e₁) (Int.min_le_left e₁ e₂) hle
      have hsecond := units_of_le (d := finite n₂ c₂ e₂) (Int.min_le_right e₁ e₂) hle
      rw [hsum, Int.add_mul]
      exact congrArg₂ (· + ·) hfirst.symm hsecond.symm

/-- The sign of an exact sum. -/
theorem negative_add {n₁ n₂ : Bool} {c₁ c₂ : Nat} {e₁ e₂ : Int} {sum : Decimal} (smaller : Int)
    (h : exact.add (finite n₁ c₁ e₁) (finite n₂ c₂ e₂) = some sum) (hle : smaller ≤ min e₁ e₂) :
    sum.negative
      = if (finite n₁ c₁ e₁).units smaller + (finite n₂ c₂ e₂).units smaller = 0 then n₁ && n₂
        else decide ((finite n₁ c₁ e₁).units smaller + (finite n₂ c₂ e₂).units smaller < 0) := by
  have hunits := (units_add smaller rfl rfl h hle).2.2
  rw [exact_add_finite, Option.some.injEq] at h
  rw [← hunits]
  have hzero := units_eq_zero_iff (d := sum) (min e₁ e₂) (h ▸ Int.le_refl _) hle
  by_cases hsum : (finite n₁ c₁ e₁).units (min e₁ e₂) + (finite n₂ c₂ e₂).units (min e₁ e₂) = 0
  · subst h
    rw [units_ofSum] at hzero
    rw [if_pos (hzero.mpr hsum), ofSum, negative, if_pos hsum]
  · subst h
    rw [units_ofSum] at hzero
    rw [if_neg (fun h => hsum (hzero.mp h))]
    exact negative_eq (fun h => hsum (hzero.mp h))

/-- The sign of a sum of three that is zero: it is negative where all three are negative zeros. -/
theorem sign_right_comm {a x y : Int} {na nx ny : Bool} (ha : a ≠ 0 → na = decide (a < 0))
    (hx : x ≠ 0 → nx = decide (x < 0)) (hy : y ≠ 0 → ny = decide (y < 0)) (h : a + x + y = 0) :
    ((if a + x = 0 then na && nx else decide (a + x < 0)) && ny)
      = ((if a + y = 0 then na && ny else decide (a + y < 0)) && nx) := by
  by_cases hfirst : a + x = 0
  · have hy0 : y = 0 := by omega
    rw [if_pos hfirst]
    by_cases hsecond : a + y = 0
    · rw [if_pos hsecond, Bool.and_right_comm]
    · have hane : a ≠ 0 := by omega
      have hxne : x ≠ 0 := by omega
      rw [if_neg hsecond, ha hane, hx hxne]
      have hopposite : ¬(a < 0 ∧ x < 0) := by omega
      have hsame : ¬(a + y < 0 ∧ x < 0) := by omega
      simp only [← Bool.decide_and, hopposite, hsame, decide_false, Bool.false_and]
  · have hyne : y ≠ 0 := by omega
    rw [if_neg hfirst, hy hyne]
    have hopposite : ¬(a + x < 0 ∧ y < 0) := by omega
    rw [← Bool.decide_and, decide_eq_false hopposite]
    by_cases hsecond : a + y = 0
    · have hane : a ≠ 0 := by omega
      have hboth : ¬(a < 0 ∧ y < 0) := by omega
      rw [if_pos hsecond, ha hane, ← Bool.decide_and, decide_eq_false hboth, Bool.false_and]
    · have hxne : x ≠ 0 := by omega
      have hboth : ¬(a + y < 0 ∧ x < 0) := by omega
      rw [if_neg hsecond, hx hxne, ← Bool.decide_and, decide_eq_false hboth]

/-- **Two finite numbers can be added in either order.** -/
theorem add_right_comm {a x y : Decimal} (ha : a.isFinite = true) (hx : x.isFinite = true)
    (hy : y.isFinite = true) :
    (exact.add a x).bind (exact.add · y) = (exact.add a y).bind (exact.add · x) := by
  cases a with
  | infinity _ => cases ha
  | nan _ _ _ => cases ha
  | finite na ca ea =>
  cases x with
  | infinity _ => cases hx
  | nan _ _ _ => cases hx
  | finite nx cx ex =>
  cases y with
  | infinity _ => cases hy
  | nan _ _ _ => cases hy
  | finite ny cy ey =>
    obtain ⟨ax, hax⟩ : ∃ sum, exact.add (finite na ca ea) (finite nx cx ex) = some sum := ⟨_, rfl⟩
    obtain ⟨ay, hay⟩ : ∃ sum, exact.add (finite na ca ea) (finite ny cy ey) = some sum := ⟨_, rfl⟩
    rw [hax, hay, Option.bind_some, Option.bind_some]
    -- everything is compared in units of the smallest exponent
    let least := min (min ea ex) ey
    obtain ⟨haxFinite, haxExponent, haxUnits⟩ := units_add least rfl rfl hax
      (Int.min_le_left _ _)
    obtain ⟨hayFinite, hayExponent, hayUnits⟩ := units_add least rfl rfl hay
      (by simp only [exponent_finite, least]; omega)
    have haxSign := negative_add least hax (Int.min_le_left _ _)
    have haySign := negative_add least hay (by simp only [least]; omega)
    cases ax with
    | infinity _ => cases haxFinite
    | nan _ _ _ => cases haxFinite
    | finite n₁ c₁ e₁ =>
    cases ay with
    | infinity _ => cases hayFinite
    | nan _ _ _ => cases hayFinite
    | finite n₂ c₂ e₂ =>
      simp only [exponent_finite] at haxExponent hayExponent
      subst haxExponent hayExponent
      have hleast : min (min ea ey) ex = least := by simp only [least]; omega
      have hsum : (finite n₁ c₁ (min ea ex)).units least + (finite ny cy ey).units least
          = (finite n₂ c₂ (min ea ey)).units least + (finite nx cx ex).units least := by
        rw [haxUnits, hayUnits]
        omega
      rw [exact_add_finite, exact_add_finite, hleast]
      show some (ofSum _ ((finite n₁ c₁ (min ea ex)).units least + (finite ny cy ey).units least) least)
        = some (ofSum _ _ least)
      rw [hsum]
      congr 1
      unfold ofSum
      split
      · next hzero =>
        rw [negative] at haxSign haySign
        rw [haxSign, haySign]
        rw [hayUnits] at hzero
        congr 1
        refine sign_right_comm negative_eq negative_eq negative_eq ?_
        omega
      · rfl

/-! ## Totals -/

/-- **The total of some values**, added one after the other; a value that is none has no total. -/
def total (context : DecimalContext) (values : List (Option Decimal)) : Option Decimal :=
  values.foldlM (fun sum value => value.bind (context.add sum)) zero

/-- A value that is a number: nothing stands for a NaN as well. -/
def number? (value : Option Decimal) : Option Decimal :=
  value.filter (fun d => !d.isNan)

/-- The exact sum of two values that are numbers, if it is one. -/
def combine (a b : Option Decimal) : Option Decimal :=
  number? (a.bind (fun x => b.bind (exact.add x)))

@[simp] theorem number?_none : number? none = none := rfl

@[simp] theorem number?_finite (negative : Bool) (coefficient : Nat) (exponent : Int) :
    number? (some (finite negative coefficient exponent))
      = some (finite negative coefficient exponent) := rfl

@[simp] theorem number?_infinity (negative : Bool) :
    number? (some (infinity negative)) = some (infinity negative) := rfl

@[simp] theorem number?_nan (negative signaling : Bool) (payload : Nat) :
    number? (some (nan negative signaling payload)) = none := rfl

/-- What is added to a NaN is no number, and neither is a NaN added to anything. -/
theorem number?_add_nan {a b : Decimal} (h : anyNan a b = true) : number? (exact.add a b) = none := by
  cases a with
  | nan n s p =>
    cases s with
    | true => cases b <;> rfl
    | false =>
      cases b with
      | nan n' s' p' => cases s' <;> rfl
      | finite _ _ _ => rfl
      | infinity _ => rfl
  | finite _ _ _ =>
    cases b with
    | nan n' s' p' => cases s' <;> rfl
    | finite _ _ _ => cases h
    | infinity _ => cases h
  | infinity _ =>
    cases b with
    | nan n' s' p' => cases s' <;> rfl
    | finite _ _ _ => cases h
    | infinity _ => cases h

/-- **A sum is a number** where it is the sum of numbers. -/
theorem combine_number? (a b : Option Decimal) : combine a b = combine (number? a) (number? b) := by
  cases a with
  | none => rfl
  | some x =>
    cases b with
    | none => cases x <;> rfl
    | some y =>
      by_cases hnan : anyNan x y = true
      · show number? (exact.add x y) = _
        rw [number?_add_nan hnan]
        cases x with
        | nan _ _ _ => rfl
        | finite _ _ _ => cases y <;> first | rfl | cases hnan
        | infinity _ => cases y <;> first | rfl | cases hnan
      · cases x with
        | nan _ _ _ => exact absurd (by cases y <;> rfl) hnan
        | finite _ _ _ => cases y <;> first | rfl | exact absurd rfl hnan
        | infinity _ => cases y <;> first | rfl | exact absurd rfl hnan

@[simp] theorem combine_none (a : Option Decimal) : combine a none = none := by
  cases a <;> rfl

@[simp] theorem none_combine (a : Option Decimal) : combine none a = none := rfl

/-- **Numbers can be added in either order**, also where some of them are none. -/
theorem combine_right_comm (a x y : Option Decimal) :
    combine (combine a x) y = combine (combine a y) x := by
  have hnumbers : ∀ a x y : Option Decimal, combine (combine a x) y
      = combine (combine (number? a) (number? x)) (number? y) := by
    intro a x y
    rw [combine_number? _ y, ← combine_number? a x]
    show combine (number? (number? _)) _ = combine (number? _) _
    cases (a.bind (fun a => x.bind (exact.add a))) with
    | none => rfl
    | some d => cases d <;> rfl
  rw [hnumbers a x y, hnumbers a y x]
  cases a with
  | none => rfl
  | some a =>
  cases x with
  | none => simp
  | some x =>
  cases y with
  | none => simp
  | some y =>
  cases a with
  | nan _ _ _ => rfl
  | infinity na =>
    -- an infinity stays, unless the other one is added
    cases x with
    | nan _ _ _ => simp
    | finite _ _ _ => cases y with
      | nan _ _ _ => simp
      | finite _ _ _ => rfl
      | infinity ny => cases na <;> cases ny <;> rfl
    | infinity nx => cases y with
      | nan _ _ _ => simp
      | finite _ _ _ => cases na <;> cases nx <;> rfl
      | infinity ny => cases na <;> cases nx <;> cases ny <;> rfl
  | finite na ca ea =>
    cases x with
    | nan _ _ _ => simp
    | infinity nx => cases y with
      | nan _ _ _ => simp
      | finite _ _ _ => rfl
      | infinity ny => cases nx <;> cases ny <;> rfl
    | finite nx cx ex =>
      cases y with
      | nan _ _ _ => simp
      | infinity _ => rfl
      | finite ny cy ey =>
        have hcomm := add_right_comm (a := finite na ca ea) (x := finite nx cx ex)
          (y := finite ny cy ey) rfl rfl rfl
        exact congrArg number? hcomm

/-- The total of values from a sum on, as a number. -/
theorem number?_foldlM_add (values : List (Option Decimal)) (sum : Option Decimal) :
    number? (sum.bind (fun sum => values.foldlM (fun sum value => value.bind (exact.add sum)) sum))
      = values.foldl combine (number? sum) := by
  induction values generalizing sum with
  | nil => cases sum <;> rfl
  | cons value values ih =>
    have hsum : combine (number? sum) value = number? (sum.bind (fun sum => value.bind (exact.add sum))) := by
      rw [combine_number?]
      show _ = combine sum value
      rw [combine_number? sum]
      cases sum with
      | none => rfl
      | some d => cases d <;> rfl
    rw [List.foldl_cons, hsum, ← ih]
    cases sum with
    | none => rfl
    | some sum => rfl

/-- What is no number stays none. -/
@[simp] theorem foldl_combine_none (values : List (Option Decimal)) :
    values.foldl combine none = none := by
  induction values with
  | nil => rfl
  | cons value values ih => rw [List.foldl_cons, none_combine, ih]

/-- **The total as a number**: its values combined from zero on. -/
theorem number?_total_eq (values : List (Option Decimal)) :
    number? (exact.total values) = values.foldl combine (some zero) :=
  number?_foldlM_add values (some zero)

/-- **The total of values is a number that does not depend on their order**, if it is a number. -/
theorem number?_total_of_perm {values values' : List (Option Decimal)} (h : values.Perm values') :
    number? (exact.total values) = number? (exact.total values') := by
  rw [number?_total_eq, number?_total_eq]
  exact h.foldl_eq' (fun x _ y _ z => combine_right_comm z x y) _

/-- Totals that are numbers are reached through numbers only. -/
theorem number?_total_eq_none {values : List (Option Decimal)} {value : Option Decimal}
    (hmem : value ∈ values) (h : number? value = none) : number? (exact.total values) = none := by
  rw [number?_total_of_perm (List.perm_cons_erase hmem), number?_total_eq, List.foldl_cons,
    combine_number?, h, combine_none, foldl_combine_none]

/-! ## Whether there is a total

A sum is refused where a value is none or a signaling NaN, and where the two infinities meet. A quiet NaN
that comes before them keeps them from meeting: only there does the order decide. -/

/-- A value that no sum survives. -/
def raises : Option Decimal → Bool
  | none => true
  | some (nan _ signaling _) => signaling
  | some _ => false

/-- **The order decides** whether there is a total: a quiet NaN and the two infinities are among the
values. -/
def Undecided (values : List (Option Decimal)) : Prop :=
  (∀ value ∈ values, raises value = false) ∧ (∃ value ∈ values, number? value = none)
    ∧ ∀ negative, some (infinity negative) ∈ values

theorem Undecided.of_perm {values values' : List (Option Decimal)} (h : values.Perm values')
    (hundecided : Undecided values) : Undecided values' := by
  obtain ⟨hraises, ⟨value, hvalue, hnan⟩, hinfinities⟩ := hundecided
  exact ⟨fun value hvalue => hraises value (h.mem_iff.mpr hvalue),
    ⟨value, h.mem_iff.mp hvalue, hnan⟩, fun negative => h.mem_iff.mp (hinfinities negative)⟩

/-- The total of some values and then others. -/
theorem total_append (context : DecimalContext) (values more : List (Option Decimal)) :
    context.total (values ++ more) = (context.total values).bind (fun sum =>
      more.foldlM (fun sum value => value.bind (context.add sum)) sum) :=
  List.foldlM_append

/-- The total of some values and one more. -/
theorem total_concat (context : DecimalContext) (values : List (Option Decimal))
    (value : Option Decimal) :
    context.total (values ++ [value])
      = (context.total values).bind (fun sum => value.bind (context.add sum)) := by
  rw [total_append]
  cases context.total values with
  | none => rfl
  | some sum => simp

/-- **What sums keep, totals have.** -/
theorem total_induction {context : DecimalContext} {I : Decimal → Prop}
    (hzero : I zero) (hadd : ∀ {a b sum}, I a → I b → context.add a b = some sum → I sum)
    {values : List (Option Decimal)} (hvalues : ∀ d, some d ∈ values → I d) {sum : Decimal}
    (h : context.total values = some sum) : I sum := by
  induction values using List.reverseRecOn generalizing sum with
  | nil => exact Option.some.inj h ▸ hzero
  | append_singleton values value ih =>
    rw [total_concat, Option.bind_eq_some_iff] at h
    obtain ⟨before, hbefore, h⟩ := h
    obtain ⟨d, rfl, h⟩ := Option.bind_eq_some_iff.mp h
    exact hadd (ih (fun d hd => hvalues d (List.mem_append_left _ hd)) hbefore)
      (hvalues d (List.mem_append_right _ (List.mem_singleton_self _))) h

/-- Where nothing raises, a sum is refused only where the two infinities meet. -/
theorem add_eq_none {a b : Decimal} (ha : raises (some a) = false) (hb : raises (some b) = false)
    (h : exact.add a b = none) : ∃ negative, a = infinity negative ∧ b = infinity (!negative) := by
  have hnan : anyNan a b = false := by
    cases a <;> cases b <;> simp_all [raises, anyNan, add, propagated]
  cases a with
  | nan _ _ _ => cases b <;> cases hnan
  | finite _ _ _ => cases b with
    | nan _ _ _ => cases hnan
    | finite _ _ _ => cases h
    | infinity _ => cases h
  | infinity na => cases b with
    | nan _ _ _ => cases hnan
    | finite _ _ _ => cases h
    | infinity nb =>
      refine ⟨na, rfl, ?_⟩
      cases na <;> cases nb <;> first | rfl | cases h

/-- The NaN that two operands propagate is one of them, and a quiet one. -/
theorem propagated_cases {a b sum : Decimal} (hnan : anyNan a b = true)
    (h : propagated a b = some sum) : raises (some sum) = false ∧ (sum = a ∨ sum = b) := by
  cases a with
  | nan na sa pa =>
    cases sa with
    | true => cases h
    | false => cases b with
      | finite _ _ _ => exact Option.some.inj h ▸ ⟨rfl, .inl rfl⟩
      | infinity _ => exact Option.some.inj h ▸ ⟨rfl, .inl rfl⟩
      | nan nb sb pb => cases sb with
        | true => cases h
        | false => exact Option.some.inj h ▸ ⟨rfl, .inl rfl⟩
  | finite _ _ _ => cases b with
    | finite _ _ _ => cases hnan
    | infinity _ => cases hnan
    | nan nb sb pb => cases sb with
      | true => cases h
      | false => exact Option.some.inj h ▸ ⟨rfl, .inr rfl⟩
  | infinity _ => cases b with
    | finite _ _ _ => cases hnan
    | infinity _ => cases hnan
    | nan nb sb pb => cases sb with
      | true => cases h
      | false => exact Option.some.inj h ▸ ⟨rfl, .inr rfl⟩

/-- **What a sum can be**: a finite number, or one of the two that are added; it does not raise. -/
theorem add_cases {a b sum : Decimal} (h : exact.add a b = some sum) :
    raises (some sum) = false ∧ (sum.isFinite = true ∨ sum = a ∨ sum = b) := by
  unfold add at h
  split at h
  · next hnan =>
    obtain ⟨hraises, hsum⟩ := propagated_cases hnan h
    exact ⟨hraises, .inr hsum⟩
  · split at h
    · split at h
      · exact Option.some.inj h ▸ ⟨rfl, .inr (.inl rfl)⟩
      · cases h
    · exact Option.some.inj h ▸ ⟨rfl, .inr (.inl rfl)⟩
    · exact Option.some.inj h ▸ ⟨rfl, .inr (.inr rfl)⟩
    · exact Option.some.inj h ▸ ⟨rfl, .inl rfl⟩
    · cases h

/-- The total of values among which one raises is refused. -/
theorem total_eq_none_of_raises {values : List (Option Decimal)} {value : Option Decimal}
    (hmem : value ∈ values) (h : raises value = true) : exact.total values = none := by
  cases htotal : exact.total values with
  | none => rfl
  | some sum =>
    obtain ⟨front, rest, rfl⟩ := List.append_of_mem hmem
    rw [List.append_cons, total_append, total_concat] at htotal
    cases hfront : exact.total front with
    | none =>
      rw [hfront] at htotal
      cases htotal
    | some before =>
      rw [hfront, Option.bind_some] at htotal
      -- what raises has no sum with anything before it
      have hnone : value.bind (exact.add before) = none := by
        cases value with
        | none => rfl
        | some d => cases d with
          | finite _ _ _ => cases h
          | infinity _ => cases h
          | nan _ signaling _ =>
            rw [show signaling = true from h]
            cases before with
            | finite _ _ _ => rfl
            | infinity _ => rfl
            | nan _ signaling _ => cases signaling <;> rfl
      rw [hnone] at htotal
      cases htotal

/-- A total that is an infinity has that infinity among its values. -/
theorem mem_of_total_infinity {values : List (Option Decimal)} {negative : Bool}
    (h : exact.total values = some (infinity negative)) : some (infinity negative) ∈ values := by
  by_contra hnot
  refine total_induction (I := (· ≠ infinity negative)) Decimal.noConfusion ?_ ?_ h rfl
  · intro a b sum ha hb hsum
    obtain ⟨-, hfinite | rfl | rfl⟩ := add_cases hsum
    · rintro rfl
      cases hfinite
    · exact ha
    · exact hb
  · rintro d hd rfl
    exact hnot hd

/-- The total of numbers is a number, if there is one. -/
theorem number?_total {values : List (Option Decimal)}
    (h : ∀ d, some d ∈ values → d.isNan = false) :
    number? (exact.total values) = exact.total values := by
  cases htotal : exact.total values with
  | none => rfl
  | some sum =>
    have hsum : sum.isNan = false := by
      refine total_induction (I := fun d => d.isNan = false) rfl ?_ h htotal
      intro a b sum ha hb hsum
      obtain ⟨-, hfinite | rfl | rfl⟩ := add_cases hsum
      · cases sum <;> first | rfl | cases hfinite
      · exact ha
      · exact hb
    rw [number?, Option.filter_some, if_pos (by rw [hsum]; rfl)]

/-- **Where a total is refused** although nothing raises, numbers come first that have the two infinities
among them. -/
theorem exists_prefix_of_total_none {values : List (Option Decimal)}
    (hraises : ∀ value ∈ values, raises value = false) (h : exact.total values = none) :
    ∃ front rest, values = front ++ rest ∧ (∀ d, some d ∈ front → d.isNan = false)
      ∧ ∀ negative, some (infinity negative) ∈ front := by
  induction values using List.reverseRecOn with
  | nil => cases h
  | append_singleton values value ih =>
    cases hbefore : exact.total values with
    | none =>
      obtain ⟨front, rest, rfl, hfront⟩ := ih
        (fun value hvalue => hraises value (List.mem_append_left _ hvalue)) hbefore
      exact ⟨front, rest ++ [value], List.append_assoc .., hfront⟩
    | some before =>
      rw [total_concat, hbefore, Option.bind_some] at h
      have hvalue := hraises value (List.mem_append_right _ (List.mem_singleton_self _))
      cases value with
      | none => cases hvalue
      | some d =>
        have hsum : raises (some before) = false :=
          total_induction (I := fun d => raises (some d) = false) rfl
            (fun _ _ hsum => (add_cases hsum).1)
            (fun d hd => hraises _ (List.mem_append_left _ hd)) hbefore
        obtain ⟨negative, rfl, rfl⟩ := add_eq_none hsum hvalue h
        refine ⟨values ++ [some (infinity (!negative))], [], (List.append_nil _).symm, ?_, ?_⟩
        · intro d hd
          rcases List.mem_append.mp hd with hd | hd
          · -- a NaN among them would have been their total
            by_contra hnan
            have hnone := number?_total_eq_none hd (by
              rw [number?, Option.filter_some, if_neg]
              simpa using hnan)
            rw [hbefore] at hnone
            cases hnone
          · cases Option.some.inj (List.mem_singleton.mp hd)
            rfl
        · intro sign
          by_cases hsign : sign = negative
          · exact List.mem_append_left _ (hsign ▸ mem_of_total_infinity hbefore)
          · rw [show sign = !negative by cases sign <;> cases negative <;> simp_all]
            exact List.mem_append_right _ (List.mem_singleton_self _)

/-- **Numbers that have the two infinities among them have no total**, whatever follows. -/
theorem total_eq_none_of_infinities {front : List (Option Decimal)} (rest : List (Option Decimal))
    (hfront : ∀ d, some d ∈ front → d.isNan = false)
    (h : ∀ negative, some (infinity negative) ∈ front) : exact.total (front ++ rest) = none := by
  have hmeet : number? (exact.total front) = none := by
    have hperm := (List.perm_cons_erase (h false)).trans
      ((List.perm_cons_erase ((List.mem_erase_of_ne (by simp)).mpr (h true))).cons _)
    rw [number?_total_of_perm hperm, number?_total_eq]
    exact foldl_combine_none _
  rw [total_append, ← number?_total hfront, hmeet]
  rfl

/-- A quiet NaN first keeps the infinities from meeting. -/
theorem isSome_total_cons_nan {value : Option Decimal} {values : List (Option Decimal)}
    (hnan : number? value = none)
    (hraises : ∀ other ∈ value :: values, raises other = false) :
    (exact.total (value :: values)).isSome = true := by
  cases htotal : exact.total (value :: values) with
  | some _ => rfl
  | none =>
    obtain ⟨front, rest, hsplit, hfront, hinfinities⟩ := exists_prefix_of_total_none hraises htotal
    cases front with
    | nil => cases hinfinities true
    | cons first front =>
      obtain ⟨rfl, -⟩ := List.cons.inj hsplit
      have hvalue := hraises value List.mem_cons_self
      cases value with
      | none => cases hvalue
      | some d =>
        rw [number?, Option.filter_some, if_pos (by simp [hfront d List.mem_cons_self])] at hnan
        cases hnan

/-- **Whether there is a total does not depend on the order of the values**, unless it is undecided. -/
theorem isSome_total_of_perm {values values' : List (Option Decimal)} (h : values.Perm values')
    (hdecided : ¬ Undecided values) :
    (exact.total values).isSome = (exact.total values').isSome := by
  by_cases hraises : ∀ value ∈ values, raises value = false
  · by_cases hnan : ∃ value ∈ values, number? value = none
    · -- one of the infinities is missing, so nothing is refused
      have hsome : ∀ {values' : List (Option Decimal)}, values.Perm values' →
          (exact.total values').isSome = true := by
        intro values' h
        cases htotal : exact.total values' with
        | some _ => rfl
        | none =>
          obtain ⟨front, rest, rfl, -, hinfinities⟩ := exists_prefix_of_total_none
            (fun value hvalue => hraises value (h.mem_iff.mpr hvalue)) htotal
          exact absurd ⟨hraises, hnan, fun negative =>
            h.mem_iff.mpr (List.mem_append_left _ (hinfinities negative))⟩ hdecided
      rw [hsome (List.Perm.refl _), hsome h]
    · have hnumbers : ∀ d, some d ∈ values → d.isNan = false := by
        intro d hd
        by_contra hisNan
        exact hnan ⟨some d, hd, by rw [number?, Option.filter_some, if_neg (by simpa using hisNan)]⟩
      rw [← number?_total hnumbers, number?_total_of_perm h,
        number?_total (fun d hd => hnumbers d (h.mem_iff.mpr hd))]
  · simp only [not_forall, Bool.not_eq_false] at hraises
    obtain ⟨value, hmem, hvalue⟩ := hraises
    rw [total_eq_none_of_raises hmem hvalue, total_eq_none_of_raises (h.mem_iff.mp hmem) hvalue]

section

variable {context : DecimalContext}

/-- A rounded number is finite. -/
theorem isFinite_round (negative : Bool) (coefficient : Nat) (exponent : Int) :
    (context.round negative coefficient exponent).isFinite = true := by
  unfold round Decimal.rounded
  dsimp only
  split
  · split
    · rfl
    · split <;> rfl
  · rfl

/-- The sum of finite numbers is finite. -/
theorem isFinite_add {a b sum : Decimal} (ha : a.isFinite = true) (hb : b.isFinite = true)
    (h : context.add a b = some sum) : sum.isFinite = true := by
  cases a with
  | infinity _ => cases ha
  | nan _ _ _ => cases ha
  | finite _ _ _ => cases b with
    | infinity _ => cases hb
    | nan _ _ _ => cases hb
    | finite _ _ _ => exact Option.some.inj h ▸ isFinite_round _ _ _

end

end DecimalContext
