import FactoryAgent.Lib.Decimal

/-!
# Decimals as doubles

`float(value)` of a decimal number, and the comparison of two of them within a relative tolerance. The
doubles are those of IEEE 754: the nearest one to a number, an infinity where it is too large. A number is
close to itself (`Decimal.closeAsFloats_self`), also where its double is an infinity: there the difference
is a NaN, and a NaN is not above anything.
-/

/-- **`float(value)`**: the nearest double. -/
def Decimal.toDouble : Decimal → Float.Model
  | finite negative coefficient exponent =>
    let magnitude := Float.Model.ofScientific coefficient exponent
    if negative then -magnitude else magnitude
  | infinity negative => .pack (.infinity (if negative then .negative else .positive))
  | nan .. => .pack .notANumber

/-- **Whether two numbers are close as doubles**: whether their difference is not above the tolerance,
a millionth, relative to the expected one or to one. -/
def Decimal.closeAsFloats (total expected : Decimal) : Bool :=
  let magnitude := expected.toDouble.abs
  let one := Float.Model.ofScientific 1 0
  -- `max(abs(float(expected)), 1.0)`
  let scale := if magnitude < one then one else magnitude
  !decide (Float.Model.ofScientific 1 (-6) * scale < (total.toDouble - expected.toDouble).abs)

namespace Float.Model

open UnpackedFloat

/-- The sign bit of a number; a NaN has none. -/
def UnpackedFloat.signBit : UnpackedFloat → Bool
  | .notANumber => false
  | .zero sign => sign == .negative
  | .infinity sign => sign == .negative
  | .finite sign .. => sign == .negative

/-- The sign of either of two numbers. -/
theorem signBit_dite {p : Prop} [Decidable p] {f : p → UnpackedFloat} {g : ¬p → UnpackedFloat}
    {sign : Bool} (hf : ∀ h, (f h).signBit = sign) (hg : ∀ h, (g h).signBit = sign) :
    (dite p f g).signBit = sign := by
  by_cases h : p
  · rw [dif_pos h, hf]
  · rw [dif_neg h, hg]

/-- The sign of a packed number. -/
@[simp] theorem unpackSign_packComponents {spec : Format} {sign : Sign}
    {exponent : BitVec spec.exponentBits} {mantissa : BitVec spec.mantissaBitsWithoutImplicit} :
    unpackSign (packComponents spec sign exponent mantissa) = sign.toBitVec := by
  ext i hi
  have hzero : i = 0 := by omega
  subst hzero
  show ((BitVec.extractLsb (spec.mantissaBitsWithoutImplicit + spec.exponentBits)
    (spec.mantissaBitsWithoutImplicit + spec.exponentBits) (sign.toBitVec ++ exponent ++ mantissa)).cast
      _)[0] = sign.toBitVec[0]
  simp [BitVec.getLsbD_append, BitVec.getElem_append]

/-- The sign of a number is packed. -/
theorem unpackSign_pack {spec : Format} {f : UnpackedFloat} (h : f.signBit = false) :
    unpackSign (UnpackedFloat.pack spec f) = Sign.positive.toBitVec := by
  have hsign : ∀ sign : Sign, (sign == .negative) = false → sign.toBitVec = Sign.positive.toBitVec := by
    intro sign hsign
    cases sign with
    | negative => cases hsign
    | positive => rfl
  cases f with
  | notANumber => exact unpackSign_packComponents
  | zero sign => exact unpackSign_packComponents.trans (hsign sign h)
  | infinity sign => exact unpackSign_packComponents.trans (hsign sign h)
  | finite sign mantissa exponent hpos =>
    unfold UnpackedFloat.pack
    dsimp only
    split
    · exact unpackSign_packComponents.trans (hsign sign h)
    · split
      · exact unpackSign_packComponents.trans (hsign sign h)
      · exact unpackSign_packComponents.trans (hsign sign h)

/-- What is packed without a sign is unpacked without one. -/
theorem signBit_unpack_pack {f : UnpackedFloat} (h : f.signBit = false) :
    (Float.Model.pack f).unpack.signBit = false := by
  have hbits : (Float.Model.pack f).toBits.toBitVec = UnpackedFloat.pack Format.binary64 f := rfl
  unfold Float.Model.unpack UnpackedFloat.unpack
  rw [hbits, unpackSign_pack h]
  exact signBit_dite (fun _ => signBit_dite (fun _ => rfl) fun _ => rfl) fun _ =>
    signBit_dite (fun _ => signBit_dite (fun _ => rfl) fun _ => rfl) fun _ => rfl

/-- Rounding keeps the sign. -/
theorem signBit_roundWithAccuracy (spec : Format) (sign : Sign) (mantissa : Nat) (exponent : Int)
    (accuracy : Accuracy) :
    (roundWithAccuracy spec sign mantissa exponent accuracy).signBit = (sign == .negative) := by
  exact signBit_dite (fun _ => rfl) fun _ => rfl

/-- A product of numbers without a sign has none. -/
theorem signBit_mul {spec : Format} {f g : UnpackedFloat} (hf : f.signBit = false)
    (hg : g.signBit = false) : (UnpackedFloat.mul spec f g).signBit = false := by
  have hsign : ∀ sign₁ sign₂ : Sign, (sign₁ == .negative) = false → (sign₂ == .negative) = false →
      (sign₁ * sign₂ == .negative) = false := by
    intro sign₁ sign₂ h₁ h₂
    cases sign₁ with
    | negative => exact absurd h₁ (by decide)
    | positive => cases sign₂ with
      | negative => exact absurd h₂ (by decide)
      | positive => rfl
  cases f with
  | notANumber => rfl
  | zero sign₁ => cases g with
    | notANumber => rfl
    | infinity sign₂ => rfl
    | zero sign₂ => exact hsign sign₁ sign₂ hf hg
    | finite sign₂ _ _ _ => exact hsign sign₁ sign₂ hf hg
  | infinity sign₁ => cases g with
    | notANumber => rfl
    | zero sign₂ => rfl
    | infinity sign₂ => exact hsign sign₁ sign₂ hf hg
    | finite sign₂ _ _ _ => exact hsign sign₁ sign₂ hf hg
  | finite sign₁ _ _ _ => cases g with
    | notANumber => rfl
    | zero sign₂ => exact hsign sign₁ sign₂ hf hg
    | infinity sign₂ => exact hsign sign₁ sign₂ hf hg
    | finite sign₂ _ _ _ =>
      exact (signBit_roundWithAccuracy ..).trans (hsign sign₁ sign₂ hf hg)

/-- A number without its sign. -/
theorem signBit_abs (f : UnpackedFloat) : f.abs.signBit = false := by
  cases f <;> rfl

/-- **Nothing without a sign is less than zero**, or than a NaN. -/
theorem not_lt_of_signBit {a b : Float.Model} (ha : a.unpack.signBit = false)
    (hb : b.unpack = .zero .positive ∨ b.unpack = .notANumber) : ¬ a < b := by
  have hlt : a < b ↔ (a.unpack.compare b.unpack == some .lt) = true := Iff.rfl
  rw [hlt]
  rcases hb with hb | hb <;> rw [hb]
  · cases hunpack : a.unpack with
    | notANumber => exact Bool.false_ne_true
    | zero sign => exact Bool.false_ne_true
    | infinity sign =>
      rw [hunpack] at ha
      cases sign with
      | negative => cases ha
      | positive => exact Bool.false_ne_true
    | finite sign mantissa exponent hpos =>
      rw [hunpack] at ha
      cases sign with
      | negative => cases ha
      | positive => exact Bool.false_ne_true
  · cases a.unpack <;> exact Bool.false_ne_true

/-- **The difference of a number and itself** is zero, or no number where it is an infinity. -/
theorem abs_sub_self (f : Float.Model) :
    (f - f).abs.unpack = .zero .positive ∨ (f - f).abs.unpack = .notANumber := by
  have hsub : UnpackedFloat.sub Format.binary64 f.unpack f.unpack = .notANumber
      ∨ UnpackedFloat.sub Format.binary64 f.unpack f.unpack = .zero .positive := by
    cases f.unpack with
    | notANumber => exact .inl rfl
    | infinity sign => cases sign <;> exact .inl rfl
    | zero sign => cases sign <;> exact .inr rfl
    | finite sign mantissa exponent hpos =>
      refine .inr ?_
      unfold UnpackedFloat.sub
      dsimp only
      rw [Int.sub_self]
      rfl
  show (Float.Model.pack (Float.Model.pack (UnpackedFloat.sub _ _ _)).unpack.abs).unpack = _
    ∨ (Float.Model.pack (Float.Model.pack (UnpackedFloat.sub _ _ _)).unpack.abs).unpack = _
  rcases hsub with hsub | hsub
  · rw [hsub]
    exact .inr rfl
  · rw [hsub]
    exact .inl rfl

end Float.Model

open Float.Model in
/-- **A number is close to itself.** -/
theorem Decimal.closeAsFloats_self (d : Decimal) : d.closeAsFloats d = true := by
  have hscale : (if d.toDouble.abs < Float.Model.ofScientific 1 0 then Float.Model.ofScientific 1 0
      else d.toDouble.abs).unpack.signBit = false := by
    split
    · decide +kernel
    · exact signBit_unpack_pack (signBit_abs _)
  have hproduct : (Float.Model.ofScientific 1 (-6) * (if d.toDouble.abs < Float.Model.ofScientific 1 0
      then Float.Model.ofScientific 1 0 else d.toDouble.abs)).unpack.signBit = false :=
    signBit_unpack_pack (signBit_mul (by decide +kernel) hscale)
  have hnot := not_lt_of_signBit hproduct (abs_sub_self d.toDouble)
  unfold closeAsFloats
  dsimp only
  rw [decide_eq_false hnot]
  rfl
