import FactoryAgent.Lib.DecimalText
import FactoryAgent.Lib.Text
import Mathlib.Tactic.SplitIfs

/-!
# Integers and their texts

`str` and `int` of Python between integers and texts. A text with more digits than the interpreter reads at once is
refused. The text of an integer that is not longer is read back (`parse_text`).
-/

namespace IntText

/-- `str(n)` -/
def text (n : Int) : List Char :=
  if n < 0 then '-' :: (Nat.repr n.natAbs).toList else (Nat.repr n.natAbs).toList

/-- `sys.int_info.default_max_str_digits` -/
def maxDigits : Nat :=
  4300

/-- **`int(text)`**; `none` is a raised `ValueError`. -/
def parse (cs : List Char) : Option Int :=
  if maxDigits < cs.countP fun c => (Text.digitValue? c).isSome then none else Text.int? (String.ofList cs)

/-- The value of a digit of ASCII. -/
theorem digitValue?_of_isDigit {c : Char} (h : c.isDigit = true) : Text.digitValue? c = some (c.toNat - 48) := by
  have hall : ['0', '1', '2', '3', '4', '5', '6', '7', '8', '9'].all
      (fun d => Text.digitValue? d == some (d.toNat - 48)) = true := by decide
  exact beq_iff_eq.mp (List.all_eq_true.mp hall c (Decimal.mem_digits_of_isDigit h))

/-- Digits of ASCII are read as a number. -/
theorem digitsValue?_eq {cs : List Char} (h : ∀ c ∈ cs, c.isDigit = true) (read : Nat) :
    Text.digitsValue? read cs = some (Nat.ofDigitChars 10 cs read) := by
  induction cs generalizing read with
  | nil => rfl
  | cons c cs ih =>
    rw [List.forall_mem_cons] at h
    have hne : c ≠ '_' := by
      rintro rfl
      exact absurd h.1 (by decide)
    rw [Text.digitsValue?, digitValue?_of_isDigit h.1, Option.bind_some, ih h.2, Nat.ofDigitChars_cons]
    · rfl
    · exact fun d ds heq => absurd heq hne

/-- A text without blanks is stripped of nothing. -/
theorem stripped_eq_self {cs : List Char} (h : ∀ c ∈ cs, Text.isSpace c = false) : Text.stripped cs = cs := by
  have hkept : ∀ ds : List Char, (∀ c ∈ ds, Text.isSpace c = false) → ds.dropWhile Text.isSpace = ds := by
    intro ds hds
    cases ds with
    | nil => rfl
    | cons d ds => exact List.dropWhile_cons_of_neg (Bool.not_eq_true _ ▸ hds d List.mem_cons_self)
  rw [Text.stripped, hkept cs h, hkept _ fun c hc => h c (List.mem_reverse.mp hc), List.reverse_reverse]

/-- The digits of a number are read. -/
theorem unsigned?_repr (n : Nat) : Text.unsigned? (Nat.repr n).toList = some n := by
  have hdigits : ∀ c ∈ (Nat.repr n).toList, c.isDigit = true := fun _ => Decimal.isDigit_of_mem_repr
  have hvalue := Decimal.digitsValue_repr n
  rw [Decimal.digitsValue_eq] at hvalue
  cases hrepr : (Nat.repr n).toList with
  | nil => exact absurd hrepr (Decimal.repr_ne_nil n)
  | cons c cs =>
    rw [hrepr, List.forall_mem_cons] at hdigits
    rw [hrepr, Nat.ofDigitChars_cons] at hvalue
    rw [Text.unsigned?, digitValue?_of_isDigit hdigits.1, Option.bind_some, digitsValue?_eq hdigits.2, ← hvalue]
    congr 2
    show c.toNat - 48 = 10 * 0 + (c.toNat - '0'.toNat)
    rw [Nat.mul_zero, Nat.zero_add]
    rfl

/-- The characters of an integer. -/
theorem text_chars {n : Int} {c : Char} (h : c ∈ text n) : c = '-' ∨ c.isDigit = true := by
  rw [text] at h
  split_ifs at h
  · exact (List.mem_cons.mp h).imp_right Decimal.isDigit_of_mem_repr
  · exact .inr (Decimal.isDigit_of_mem_repr h)

/-- **The text of an integer is read back**, where it is not too long to be read. -/
theorem parse_text {n : Int} (h : (Nat.repr n.natAbs).length ≤ maxDigits) : parse (text n) = some n := by
  have hblank : ∀ c ∈ text n, Text.isSpace c = false := by
    intro c hc
    rcases text_chars hc with rfl | hdigit
    · decide
    · have hall : ['0', '1', '2', '3', '4', '5', '6', '7', '8', '9'].all (fun d => !Text.isSpace d) = true := by
        decide
      exact (Bool.not_eq_true' _).mp (List.all_eq_true.mp hall c (Decimal.mem_digits_of_isDigit hdigit))
  have hcount : ((text n).countP fun c => (Text.digitValue? c).isSome) ≤ maxDigits := by
    refine Nat.le_trans ?_ h
    rw [text, ← String.length_toList]
    split_ifs
    · rw [List.countP_cons_of_neg (by decide)]
      exact List.countP_le_length
    · exact List.countP_le_length
  rw [parse, if_neg (Nat.not_lt.mpr hcount), Text.int?, String.toList_ofList, stripped_eq_self hblank, text]
  split_ifs with hneg
  · show ((Text.unsigned? (Nat.repr n.natAbs).toList).bind fun a => some (a : Int)).map (fun m => -m) = some n
    rw [unsigned?_repr]
    show some (-(n.natAbs : Int)) = some n
    congr 1
    omega
  · have hdigits : ∀ c ∈ (Nat.repr n.natAbs).toList, c.isDigit = true := fun _ => Decimal.isDigit_of_mem_repr
    have hread := unsigned?_repr n.natAbs
    cases hrepr : (Nat.repr n.natAbs).toList with
    | nil => exact absurd hrepr (Decimal.repr_ne_nil _)
    | cons c cs =>
      rw [hrepr] at hread hdigits
      have hdigit := hdigits c List.mem_cons_self
      split
      · next heq =>
        cases heq
        exact absurd hdigit (by decide)
      · next heq =>
        cases heq
        exact absurd hdigit (by decide)
      · rw [hread]
        show some (n.natAbs : Int) = some n
        congr 1
        omega

end IntText
