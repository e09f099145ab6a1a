import Mathlib.Algebra.Group.Nat.Defs
import FactoryAgent.Lib.Text

/-!
# Decimal numbers

The decimal arithmetic of Python's `decimal` module: numbers as a sign, a coefficient and an
exponent, with the infinities and the NaNs, read from text and written back, added and divided in a
context. A context carries the precision that results are rounded to; without one the arithmetic is
exact. `none` stands for a raised `InvalidOperation`. The bounds that a context puts on exponents, a
million digits away, are left out.
-/

/-- **A decimal number.** -/
inductive Decimal where
  /-- `(-1)^negative · coefficient · 10^exponent` -/
  | finite (negative : Bool) (coefficient : Nat) (exponent : Int)
  | infinity (negative : Bool)
  /-- a NaN, quiet or signaling, with its diagnostic digits -/
  | nan (negative signaling : Bool) (payload : Nat)
  deriving DecidableEq, Repr

namespace Decimal

/-- The number zero. -/
def zero : Decimal := finite false 0 0

/-- The number one hundred. -/
def hundred : Decimal := finite false 100 0

/-- `is_finite`. -/
def isFinite : Decimal → Bool
  | finite .. => true
  | _ => false

/-- The truth value of a decimal, negated. A NaN is not zero. -/
def isZero : Decimal → Bool
  | finite _ coefficient _ => coefficient = 0
  | _ => false

/-- `value < 0` of a finite number. -/
def isNegative : Decimal → Bool
  | finite negative coefficient _ => negative && coefficient ≠ 0
  | infinity negative => negative
  | nan .. => false

/-- The number of digits of a coefficient. -/
def digitCount (coefficient : Nat) : Nat :=
  (Nat.repr coefficient).toList.length

/-! ## Text -/

/-- The value of a list of digits. -/
def digitsValue (cs : List Char) : Nat :=
  cs.foldl (fun n c => 10 * n + (c.toNat - 48)) 0

/-- A character of a number in ASCII: the digits of other scripts become ASCII digits. -/
def asciiChar (c : Char) : Char :=
  match Text.digitValue? c with
  | some n => Char.ofNat (48 + n)
  | none => c.toLower

/-- The exponent `E±n` of a number; nothing is an exponent of zero. -/
def exponent? : List Char → Option Int
  | [] => some 0
  | 'e' :: '+' :: cs => if cs ≠ [] && cs.all Char.isDigit then some (digitsValue cs) else none
  | 'e' :: '-' :: cs => if cs ≠ [] && cs.all Char.isDigit then some (-(digitsValue cs : Int)) else none
  | 'e' :: cs => if cs ≠ [] && cs.all Char.isDigit then some (digitsValue cs) else none
  | _ => none

/-- The fraction of a number and what follows it. -/
def fraction : List Char → List Char × List Char
  | '.' :: cs => (cs.takeWhile Char.isDigit, cs.dropWhile Char.isDigit)
  | cs => ([], cs)

/-- A finite number, without its sign. -/
def finite? (negative : Bool) (cs : List Char) : Option Decimal :=
  let whole := cs.takeWhile Char.isDigit
  let (part, rest) := fraction (cs.dropWhile Char.isDigit)
  if whole ++ part = [] then none
  else (exponent? rest).map (fun exponent =>
    finite negative (digitsValue (whole ++ part)) (exponent - part.length))

/-- The diagnostic digits of a NaN. -/
def nan? (negative signaling : Bool) (cs : List Char) : Option Decimal :=
  if cs.all Char.isDigit then some (nan negative signaling (digitsValue cs)) else none

/-- A number without its sign, in lower case. -/
def unsigned? (negative : Bool) (cs : List Char) : Option Decimal :=
  match cs with
  | ['i', 'n', 'f'] => some (infinity negative)
  | ['i', 'n', 'f', 'i', 'n', 'i', 't', 'y'] => some (infinity negative)
  | 'n' :: 'a' :: 'n' :: cs => nan? negative false cs
  | 's' :: 'n' :: 'a' :: 'n' :: cs => nan? negative true cs
  | cs => finite? negative cs

/-- **Reading a number**, `Decimal(text)`: blanks around it and underscores do not count. -/
def parse (text : String) : Option Decimal :=
  match ((Text.stripped text.toList).filter (· ≠ '_')).map asciiChar with
  | '+' :: cs => unsigned? false cs
  | '-' :: cs => unsigned? true cs
  | cs => unsigned? false cs

/-- The sign of a number in text. -/
def signText (negative : Bool) : String :=
  if negative then "-" else ""

/-- The digits of a coefficient with the point after the first `place` of them. -/
def pointed (digits : List Char) (place : Int) : List Char :=
  if place ≤ 0 then '0' :: '.' :: List.replicate place.natAbs '0' ++ digits
  else if digits.length ≤ place then
    digits ++ List.replicate (place.toNat - digits.length) '0'
  else digits.take place.toNat ++ '.' :: digits.drop place.toNat

/-- The exponent of a number in scientific notation. -/
def exponentText (exponent : Int) : String :=
  if exponent = 0 then "" else "E" ++ (if exponent < 0 then "-" else "+") ++ Nat.repr exponent.natAbs

/-- **Writing a number**, `str(value)`. -/
def toText : Decimal → String
  | finite negative coefficient exponent =>
    let digits := (Nat.repr coefficient).toList
    let left := exponent + digits.length
    let place := if exponent ≤ 0 ∧ -6 < left then left else 1
    signText negative ++ String.ofList (pointed digits place) ++ exponentText (left - place)
  | infinity negative => signText negative ++ "Infinity"
  | nan negative signaling payload =>
    signText negative ++ (if signaling then "sNaN" else "NaN")
      ++ (if payload = 0 then "" else Nat.repr payload)

/-! ## Values -/

/-- The coefficient of a number at a smaller exponent. -/
def coefficientAt (coefficient : Nat) (exponent smaller : Int) : Nat :=
  coefficient * 10 ^ (exponent - smaller).toNat

/-- A coefficient with its sign. -/
def signed (negative : Bool) (coefficient : Nat) : Int :=
  if negative then -(coefficient : Int) else coefficient

/-- Whether two numbers are the same number. A NaN is no number. -/
def eqValue : Decimal → Decimal → Bool
  | finite n₁ c₁ e₁, finite n₂ c₂ e₂ =>
    signed n₁ (coefficientAt c₁ e₁ (min e₁ e₂)) = signed n₂ (coefficientAt c₂ e₂ (min e₁ e₂))
  | infinity n₁, infinity n₂ => n₁ = n₂
  | _, _ => false

/-- Whether a finite number is a whole number: `value == value.to_integral_value()`. -/
def isIntegral : Decimal → Bool
  | finite _ coefficient exponent => 0 ≤ exponent || coefficient % 10 ^ exponent.natAbs = 0
  | _ => false

/-- A coefficient without its last digits, rounded half up. -/
def roundedHalfUp (coefficient dropped : Nat) : Nat :=
  coefficient / 10 ^ dropped
    + if 10 ^ dropped ≤ 2 * (coefficient % 10 ^ dropped) then 1 else 0

/-- A coefficient without its last digits, rounded half to even. -/
def roundedHalfEven (coefficient dropped : Nat) : Nat :=
  let quotient := coefficient / 10 ^ dropped
  let remainder := coefficient % 10 ^ dropped
  quotient + if 10 ^ dropped < 2 * remainder
    || (2 * remainder = 10 ^ dropped && quotient % 2 = 1) then 1 else 0

/-- A finite number rounded to this many digits. -/
def rounded (precision : Nat) (negative : Bool) (coefficient : Nat) (exponent : Int) : Decimal :=
  let dropped := digitCount coefficient - precision
  if dropped = 0 then finite negative coefficient exponent
  else
    let coefficient := roundedHalfEven coefficient dropped
    if digitCount coefficient ≤ precision then finite negative coefficient (exponent + dropped)
    else finite negative (coefficient / 10) (exponent + dropped + 1)

/-- The NaN that two operands propagate: a signaling one raises. -/
def propagated (a b : Decimal) : Option Decimal :=
  match a, b with
  | nan _ true _, _ => none
  | _, nan _ true _ => none
  | nan .., _ => some a
  | _, _ => some b

/-- Whether one of two operands is a NaN. -/
def anyNan : Decimal → Decimal → Bool
  | nan .., _ => true
  | _, nan .. => true
  | _, _ => false

end Decimal

/-- **A context**: the digits that results are rounded to, if they are. -/
structure DecimalContext where
  precision : Option Nat
  deriving DecidableEq, Repr

namespace DecimalContext

open Decimal

/-- The default context. -/
def python : DecimalContext := ⟨some 28⟩

/-- Exact arithmetic. -/
def exact : DecimalContext := ⟨none⟩

/-- A finite result in the context. -/
def round (context : DecimalContext) (negative : Bool) (coefficient : Nat) (exponent : Int) :
    Decimal :=
  match context.precision with
  | some precision => rounded precision negative coefficient exponent
  | none => finite negative coefficient exponent

/-- **The sum of two numbers.** -/
def add (context : DecimalContext) (a b : Decimal) : Option Decimal :=
  if anyNan a b then propagated a b
  else match a, b with
  | infinity n₁, infinity n₂ => if n₁ = n₂ then some a else none
  | infinity _, _ => some a
  | _, infinity _ => some b
  | finite n₁ c₁ e₁, finite n₂ c₂ e₂ =>
    let sum := signed n₁ (coefficientAt c₁ e₁ (min e₁ e₂))
      + signed n₂ (coefficientAt c₂ e₂ (min e₁ e₂))
    let negative := if sum = 0 then n₁ && n₂ else decide (sum < 0)
    some (context.round negative sum.natAbs (min e₁ e₂))
  | _, _ => none

/-- The digits of a quotient, one more than the precision, with a last digit that tells an inexact
quotient from an exact one, and its exponent. -/
def quotientDigits (precision c₁ c₂ : Nat) (ideal : Int) : Nat × Int :=
  let shift : Int := digitCount c₂ + precision + 1 - digitCount c₁
  let dividend := c₁ * 10 ^ shift.toNat
  let divisor := c₂ * 10 ^ (-shift).toNat
  let quotient := dividend / divisor
  if dividend % divisor ≠ 0 then
    (if quotient % 5 = 0 then quotient + 1 else quotient, ideal - shift)
  else trimmed (digitCount quotient) quotient (ideal - shift)
where
  /-- An exact quotient without trailing zeros, down to its ideal exponent. -/
  trimmed : Nat → Nat → Int → Nat × Int
    | 0, quotient, exponent => (quotient, exponent)
    | fuel + 1, quotient, exponent =>
      if exponent < ideal && quotient % 10 = 0 then trimmed fuel (quotient / 10) (exponent + 1)
      else (quotient, exponent)

/-- The quotient of two numbers to this many digits; the divisor is not zero. A quotient by an
infinity is zero. -/
def divide (precision : Nat) (a b : Decimal) : Option Decimal :=
  if anyNan a b then propagated a b
  else match a, b with
  | infinity _, infinity _ => none
  | infinity n₁, finite n₂ _ _ => some (infinity (n₁ != n₂))
  | finite n₁ _ _, infinity n₂ => some (finite (n₁ != n₂) 0 0)
  | finite n₁ c₁ e₁, finite n₂ c₂ e₂ =>
    if c₁ = 0 then some (finite (n₁ != n₂) 0 (e₁ - e₂))
    else
      let (quotient, exponent) := quotientDigits precision c₁ c₂ (e₁ - e₂)
      some (rounded precision (n₁ != n₂) quotient exponent)
  | _, _ => none

/-- A number times one hundred, to this many digits. -/
def timesHundred (precision : Nat) : Decimal → Option Decimal
  | finite negative coefficient exponent =>
    some (rounded precision negative (coefficient * 100) exponent)
  | infinity negative => some (infinity negative)
  | nan _ true _ => none
  | a => some a

/-- `quantize(Decimal("0.01"), rounding=ROUND_HALF_UP)`. -/
def quantizeCents (context : DecimalContext) : Decimal → Option Decimal
  | finite negative coefficient exponent =>
    let cents := if -2 ≤ exponent then coefficientAt coefficient exponent (-2)
      else roundedHalfUp coefficient (-2 - exponent).toNat
    if context.precision.all (fun precision => decide (digitCount cents ≤ precision)) then
      some (finite negative cents (-2))
    else none
  | infinity _ => none
  | nan _ true _ => none
  | a => some a

/-- The half-up rounded cents of a ratio in percent, without rounding in between. -/
def exactCents (c₁ : Nat) (e₁ : Int) (c₂ : Nat) (e₂ : Int) : Nat :=
  let dividend := coefficientAt c₁ e₁ (min e₁ e₂) * 10000
  let divisor := coefficientAt c₂ e₂ (min e₁ e₂)
  dividend / divisor + if divisor ≤ 2 * (dividend % divisor) then 1 else 0

/-- **A ratio in percent**, to two decimals: `numerator / denominator * 100`, and zero where the
denominator is. -/
def percentage (context : DecimalContext) (numerator denominator : Decimal) : Option Decimal :=
  if denominator.isZero then context.quantizeCents zero
  else match context.precision, numerator, denominator with
  | none, finite n₁ c₁ e₁, finite n₂ c₂ e₂ =>
    some (finite (n₁ != n₂) (exactCents c₁ e₁ c₂ e₂) (-2))
  | precision, _, _ => do
    let quotient ← divide (precision.getD 28) numerator denominator
    let ratio ← timesHundred (precision.getD 28) quotient
    context.quantizeCents ratio

end DecimalContext

example : (Decimal.parse " 1_2.50 ").map Decimal.toText = some "12.50" := by decide
example : (Decimal.parse "True") = none := by decide
