import FactoryAgent.Lib.Decimal

/-!
# Reading what was written

A decimal that is written is read back as it was: `parse (toText d) = some d`, with its sign, its
coefficient and its exponent, in plain and in scientific notation. The text of a number is digits, a point
and perhaps an exponent, and reading takes them apart where writing put them together.
-/

namespace Decimal

/-! ## Digits -/

/-- The digits of a coefficient are digits. -/
theorem isDigit_of_mem_repr {n : Nat} {c : Char} (h : c ∈ (Nat.repr n).toList) : c.isDigit = true := by
  rw [Nat.toList_repr] at h
  exact Nat.isDigit_of_mem_toDigits (by decide) (by decide) h

/-- A coefficient has a digit. -/
theorem repr_ne_nil (n : Nat) : (Nat.repr n).toList ≠ [] := by
  rw [Nat.toList_repr]
  exact Nat.toDigits_ne_nil

/-- The value of digits is that of the core library. -/
theorem digitsValue_eq (cs : List Char) : digitsValue cs = Nat.ofDigitChars 10 cs 0 :=
  Nat.ofDigitChars_eq_foldl.symm

/-- The value of the digits of a number. -/
theorem digitsValue_repr (n : Nat) : digitsValue (Nat.repr n).toList = n := by
  rw [digitsValue_eq, Nat.toList_repr, Nat.ofDigitChars_toDigits (by decide) (by decide)]

/-- Leading zeros do not count. -/
theorem digitsValue_zeros (k : Nat) (cs : List Char) :
    digitsValue (List.replicate k '0' ++ cs) = digitsValue cs := by
  rw [digitsValue_eq, digitsValue_eq, Nat.ofDigitChars_append, Nat.ofDigitChars_replicate_zero,
    Nat.mul_zero]

/-- A digit is one of ten. -/
theorem mem_digits_of_isDigit {c : Char} (h : c.isDigit = true) :
    c ∈ ['0', '1', '2', '3', '4', '5', '6', '7', '8', '9'] := by
  have hval : ∀ m : Nat, c.toNat = m → c = Char.ofNat m := by
    rintro m rfl
    exact (Char.ofNat_toNat c).symm
  simp only [Char.isDigit, Bool.and_eq_true, decide_eq_true_eq, UInt32.le_iff_toNat_le] at h
  have hlow : 48 ≤ c.toNat := h.1
  have hhigh : c.toNat ≤ 57 := h.2
  obtain hn | hn | hn | hn | hn | hn | hn | hn | hn | hn :
      c.toNat = 48 ∨ c.toNat = 49 ∨ c.toNat = 50 ∨ c.toNat = 51 ∨ c.toNat = 52 ∨ c.toNat = 53
        ∨ c.toNat = 54 ∨ c.toNat = 55 ∨ c.toNat = 56 ∨ c.toNat = 57 := by omega
  all_goals
    rw [hval _ hn]
    decide

/-- A digit is read as it is. -/
theorem asciiChar_of_isDigit {c : Char} (h : c.isDigit = true) : asciiChar c = c := by
  have hall : ['0', '1', '2', '3', '4', '5', '6', '7', '8', '9'].all (fun d => asciiChar d = d) := by
    decide
  exact of_decide_eq_true (List.all_eq_true.mp hall c (mem_digits_of_isDigit h))

/-- Digits are read as they are. -/
theorem map_asciiChar_of_isDigit {cs : List Char} (h : ∀ c ∈ cs, c.isDigit = true) :
    cs.map asciiChar = cs := by
  rw [List.map_congr_left (fun c hc => asciiChar_of_isDigit (h c hc)), List.map_id']

/-! ## Plain text -/

/-- A character that reading neither strips nor skips. -/
def isPlain (c : Char) : Bool :=
  !Text.isSpace c && c ≠ '_'

/-- A digit is plain. -/
theorem isPlain_of_isDigit {c : Char} (h : c.isDigit = true) : isPlain c = true := by
  have hall : ['0', '1', '2', '3', '4', '5', '6', '7', '8', '9'].all isPlain := by decide
  exact List.all_eq_true.mp hall c (mem_digits_of_isDigit h)

/-- There is nothing to strip from plain characters. -/
theorem dropWhile_isSpace_of_isPlain {cs : List Char} (h : ∀ c ∈ cs, isPlain c = true) :
    cs.dropWhile Text.isSpace = cs := by
  cases cs with
  | nil => rfl
  | cons c cs =>
    have hplain := h c List.mem_cons_self
    rw [isPlain, Bool.and_eq_true, Bool.not_eq_true'] at hplain
    rw [List.dropWhile_cons, hplain.1]
    rfl

/-- **Plain characters are read one by one.** -/
theorem stripped_of_isPlain {cs : List Char} (h : ∀ c ∈ cs, isPlain c = true) :
    (Text.stripped cs).filter (· ≠ '_') = cs := by
  have hstripped : Text.stripped cs = cs := by
    rw [Text.stripped, dropWhile_isSpace_of_isPlain h,
      dropWhile_isSpace_of_isPlain (fun c hc => h c (List.mem_reverse.mp hc)), List.reverse_reverse]
  rw [hstripped, List.filter_eq_self]
  intro c hc
  have hplain := h c hc
  rw [isPlain, Bool.and_eq_true] at hplain
  exact hplain.2

/-! ## Exponents -/

/-- The characters of an exponent, in lower case. -/
def exponentChars (exponent : Int) : List Char :=
  if exponent = 0 then []
  else 'e' :: (if exponent < 0 then '-' else '+') :: (Nat.repr exponent.natAbs).toList

/-- The text of an exponent is plain. -/
theorem isPlain_exponentText (exponent : Int) :
    ∀ c ∈ (exponentText exponent).toList, isPlain c = true := by
  intro c hc
  unfold exponentText at hc
  split at hc
  · cases hc
  · simp only [String.toList_append, List.mem_append] at hc
    rcases hc with (hc | hc) | hc
    · rw [List.mem_singleton.mp hc]
      decide
    · split at hc <;>
        · rw [List.mem_singleton.mp hc]
          decide
    · exact isPlain_of_isDigit (isDigit_of_mem_repr hc)

/-- The text of an exponent in lower case. -/
theorem map_asciiChar_exponentText (exponent : Int) :
    (exponentText exponent).toList.map asciiChar = exponentChars exponent := by
  have hdigits : (Nat.repr exponent.natAbs).toList.map asciiChar = (Nat.repr exponent.natAbs).toList :=
    map_asciiChar_of_isDigit (fun c hc => isDigit_of_mem_repr hc)
  unfold exponentText exponentChars
  split
  · rfl
  · rw [String.toList_append, String.toList_append, List.map_append, List.map_append, hdigits]
    split <;> rfl

/-- **An exponent is read back.** -/
theorem exponent?_exponentChars (exponent : Int) : exponent? (exponentChars exponent) = some exponent := by
  have hread : (decide ((Nat.repr exponent.natAbs).toList ≠ [])
      && (Nat.repr exponent.natAbs).toList.all Char.isDigit) = true := by
    rw [Bool.and_eq_true, decide_eq_true_eq, List.all_eq_true]
    exact ⟨repr_ne_nil _, fun c hc => isDigit_of_mem_repr hc⟩
  unfold exponentChars
  split
  · next hzero => rw [hzero]; rfl
  · split
    · next hnegative =>
      rw [exponent?, if_pos hread, digitsValue_repr]
      congr 1
      omega
    · next hpositive =>
      rw [exponent?, if_pos hread, digitsValue_repr]
      congr 1
      omega

/-- An exponent does not begin with a digit, nor with a point. -/
theorem exponentChars_head (exponent : Int) :
    ∀ c ∈ (exponentChars exponent).head?, c = 'e' := by
  unfold exponentChars
  split <;> simp

/-! ## Numbers -/

/-- The digits before something that does not begin with a digit. -/
theorem span_digits {digits : List Char} (rest : List Char) (hdigits : ∀ c ∈ digits, c.isDigit = true)
    (hrest : ∀ c ∈ rest.head?, c.isDigit = false) :
    (digits ++ rest).takeWhile Char.isDigit = digits
      ∧ (digits ++ rest).dropWhile Char.isDigit = rest := by
  have hnone : rest.takeWhile Char.isDigit = [] ∧ rest.dropWhile Char.isDigit = rest := by
    cases rest with
    | nil => exact ⟨rfl, rfl⟩
    | cons c rest =>
      have hc : c.isDigit = false := hrest c rfl
      simp [hc]
  rw [List.takeWhile_append_of_pos hdigits, List.dropWhile_append_of_pos hdigits, hnone.1, hnone.2,
    List.append_nil]
  exact ⟨rfl, rfl⟩

/-- **A number without a point is read back.** -/
theorem finite?_whole {negative : Bool} {whole : List Char} {exponent : Int} (hne : whole ≠ [])
    (hwhole : ∀ c ∈ whole, c.isDigit = true) :
    finite? negative (whole ++ exponentChars exponent)
      = some (finite negative (digitsValue whole) exponent) := by
  obtain ⟨htake, hdrop⟩ := span_digits (exponentChars exponent) hwhole
    (fun c hc => by rw [exponentChars_head exponent c hc]; decide)
  have hfraction : fraction (exponentChars exponent) = ([], exponentChars exponent) := by
    unfold exponentChars
    split <;> rfl
  unfold finite?
  simp only [htake, hdrop, hfraction, List.append_nil, if_neg hne, exponent?_exponentChars,
    Option.map_some, List.length_nil]
  simp

/-- **A number with a point is read back.** -/
theorem finite?_pointed (negative : Bool) {whole part : List Char} (exponent : Int) (hne : whole ≠ [])
    (hwhole : ∀ c ∈ whole, c.isDigit = true) (hpart : ∀ c ∈ part, c.isDigit = true) :
    finite? negative (whole ++ '.' :: part ++ exponentChars exponent)
      = some (finite negative (digitsValue (whole ++ part)) (exponent - part.length)) := by
  obtain ⟨htake, hdrop⟩ := span_digits ('.' :: (part ++ exponentChars exponent)) hwhole
    (fun c hc => by rw [← Option.some.inj hc]; decide)
  obtain ⟨htake', hdrop'⟩ := span_digits (exponentChars exponent) hpart
    (fun c hc => by rw [exponentChars_head exponent c hc]; decide)
  have hfraction : fraction ('.' :: (part ++ exponentChars exponent)) = (part, exponentChars exponent) := by
    rw [fraction, htake', hdrop']
  have hcons : whole ++ '.' :: part ++ exponentChars exponent
      = whole ++ '.' :: (part ++ exponentChars exponent) := by simp
  unfold finite?
  rw [hcons]
  simp only [htake, hdrop, hfraction, List.append_eq_nil_iff, hne, false_and, if_false,
    exponent?_exponentChars, Option.map_some]

/-- A number that begins with a digit is finite. -/
theorem unsigned?_of_isDigit {negative : Bool} {cs : List Char} (h : ∃ c rest, cs = c :: rest
    ∧ c.isDigit = true) : unsigned? negative cs = finite? negative cs := by
  obtain ⟨c, rest, rfl, hc⟩ := h
  have hne : ∀ letter ∈ ['i', 'n', 's'], c ≠ letter := by
    rintro letter hletter rfl
    simp only [List.mem_cons, List.not_mem_nil, or_false] at hletter
    rcases hletter with rfl | rfl | rfl <;> exact absurd hc (by decide)
  unfold unsigned?
  split
  · next heq => exact absurd (List.cons.inj heq).1 (hne 'i' (by decide))
  · next heq => exact absurd (List.cons.inj heq).1 (hne 'i' (by decide))
  · next heq => exact absurd (List.cons.inj heq).1 (hne 'n' (by decide))
  · next heq => exact absurd (List.cons.inj heq).1 (hne 's' (by decide))
  · rfl

/-- **A signed text is read by its sign**, where the rest of it does not begin with one. -/
theorem parse_signed {negative : Bool} {body : String}
    (hplain : ∀ c ∈ body.toList, isPlain c = true)
    (hhead : ∀ c ∈ (body.toList.map asciiChar).head?, c ≠ '+' ∧ c ≠ '-') :
    parse (signText negative ++ body) = unsigned? negative (body.toList.map asciiChar) := by
  have hsign : ∀ c ∈ (signText negative).toList, isPlain c = true :=
    List.all_eq_true.mp (by cases negative <;> decide)
  have hall : ∀ c ∈ (signText negative ++ body).toList, isPlain c = true := by
    intro c hc
    rw [String.toList_append] at hc
    exact (List.mem_append.mp hc).elim (hsign c) (hplain c)
  unfold parse
  rw [stripped_of_isPlain hall, String.toList_append, List.map_append]
  cases negative with
  | true => rfl
  | false =>
    rw [show (signText false).toList.map asciiChar = [] from rfl, List.nil_append]
    split
    · next cs heq => exact absurd rfl (hhead '+' (by rw [heq]; rfl)).1
    · next cs heq => exact absurd rfl (hhead '-' (by rw [heq]; rfl)).2
    · rfl

/-- The digits of a number, with its point and its exponent, as they are read. -/
theorem parse_digits {negative : Bool} {digits : List Char} {exponent : Int} {c : Char}
    (rest : List Char) (hcons : digits = c :: rest) (hfirst : c.isDigit = true)
    (hdigits : ∀ c ∈ digits, c.isDigit = true ∨ c = '.') :
    parse (signText negative ++ String.ofList digits ++ exponentText exponent)
      = finite? negative (digits ++ exponentChars exponent) := by
  have hplain : ∀ c ∈ (String.ofList digits ++ exponentText exponent).toList, isPlain c = true := by
    intro c hc
    rw [String.toList_append, String.toList_ofList] at hc
    rcases List.mem_append.mp hc with hc | hc
    · rcases hdigits c hc with hdigit | rfl
      · exact isPlain_of_isDigit hdigit
      · decide
    · exact isPlain_exponentText exponent c hc
  have hmap : (String.ofList digits ++ exponentText exponent).toList.map asciiChar
      = digits ++ exponentChars exponent := by
    have hsame : ∀ c ∈ digits, asciiChar c = c := by
      intro c hc
      rcases hdigits c hc with hdigit | rfl
      · exact asciiChar_of_isDigit hdigit
      · decide
    rw [String.toList_append, String.toList_ofList, List.map_append, List.map_congr_left hsame,
      List.map_id', map_asciiChar_exponentText]
  rw [String.append_assoc, parse_signed hplain, hmap]
  · exact unsigned?_of_isDigit ⟨c, rest ++ exponentChars exponent, by rw [hcons]; rfl, hfirst⟩
  · rw [hmap, hcons]
    intro d hd
    rw [← Option.some.inj hd]
    exact ⟨fun hplus => absurd hfirst (by rw [hplus]; decide),
      fun hminus => absurd hfirst (by rw [hminus]; decide)⟩

/-! ## The round trip -/

/-- **A number with its point** after the first `place` digits is read back with the exponent that the
place and the written exponent leave. -/
theorem parse_pointed {negative : Bool} {coefficient : Nat} {place exponent : Int}
    (hplace : place ≤ ((Nat.repr coefficient).toList.length : Int)) :
    parse (signText negative ++ String.ofList (pointed (Nat.repr coefficient).toList place)
        ++ exponentText exponent)
      = some (finite negative coefficient
          (exponent + place - ((Nat.repr coefficient).toList.length : Int))) := by
  have hdigits : ∀ c ∈ (Nat.repr coefficient).toList, c.isDigit = true :=
    fun c hc => isDigit_of_mem_repr hc
  have hvalue := digitsValue_repr coefficient
  have hne := repr_ne_nil coefficient
  generalize (Nat.repr coefficient).toList = digits at *
  unfold pointed
  split
  · -- the number is below one: zeros stand between the point and the digits
    next hsmall =>
    have hpart : ∀ c ∈ List.replicate place.natAbs '0' ++ digits, c.isDigit = true := by
      intro c hc
      rcases List.mem_append.mp hc with hc | hc
      · rw [List.eq_of_mem_replicate hc]
        decide
      · exact hdigits c hc
    rw [List.cons_append, List.cons_append, parse_digits _ rfl (by decide)]
    · have hzero : ∀ c ∈ ['0'], c.isDigit = true := List.all_eq_true.mp (by decide)
      have hread := finite?_pointed negative exponent (List.cons_ne_nil '0' []) hzero hpart
      rw [show '0' :: '.' :: (List.replicate place.natAbs '0' ++ digits) ++ exponentChars exponent
        = ['0'] ++ '.' :: (List.replicate place.natAbs '0' ++ digits) ++ exponentChars exponent from rfl,
        hread]
      have hzeros : digitsValue (['0'] ++ (List.replicate place.natAbs '0' ++ digits))
          = digitsValue digits := by
        rw [show ['0'] = List.replicate 1 '0' from rfl, digitsValue_zeros, digitsValue_zeros]
      rw [hzeros, hvalue, List.length_append, List.length_replicate]
      congr 2
      omega
    · intro c hc
      rcases List.mem_cons.mp hc with rfl | hc
      · exact Or.inl (by decide)
      · rcases List.mem_cons.mp hc with rfl | hc
        · exact Or.inr rfl
        · exact Or.inl (hpart c hc)
  · next hlarge =>
    obtain ⟨c, rest, hcons⟩ := List.exists_cons_of_ne_nil hne
    split
    · -- every digit stands before the point
      next hwhole =>
      have hnone : List.replicate (place.toNat - digits.length) '0' = [] := by
        rw [List.replicate_eq_nil_iff]
        omega
      rw [hnone, List.append_nil, parse_digits rest hcons (hdigits c (hcons ▸ List.mem_cons_self))
        (fun c hc => Or.inl (hdigits c hc)), finite?_whole hne hdigits, hvalue]
      congr 2
      omega
    · next hpart =>
      obtain ⟨n, hn⟩ : ∃ n : Nat, place = n + 1 := ⟨place.toNat - 1, by omega⟩
      have htake : digits.take place.toNat = c :: rest.take n := by
        rw [hcons, hn]
        rfl
      have hbefore : ∀ c ∈ digits.take place.toNat, c.isDigit = true :=
        fun c hc => hdigits c (List.mem_of_mem_take hc)
      have hafter : ∀ c ∈ digits.drop place.toNat, c.isDigit = true :=
        fun c hc => hdigits c (List.mem_of_mem_drop hc)
      have hsplit := finite?_pointed negative exponent (by rw [htake]; simp) hbefore hafter
      rw [parse_digits (rest.take n ++ '.' :: digits.drop place.toNat) (by rw [htake]; rfl) (hdigits c (hcons ▸ List.mem_cons_self)), hsplit, List.take_append_drop,
        hvalue, List.length_drop]
      · congr 2
        omega
      · intro c hc
        rcases List.mem_append.mp hc with hc | hc
        · exact Or.inl (hdigits c (List.mem_of_mem_take hc))
        · rcases List.mem_cons.mp hc with rfl | hc
          · exact Or.inr rfl
          · exact Or.inl (hdigits c (List.mem_of_mem_drop hc))

/-- **What is written is read back.** -/
theorem parse_toText (d : Decimal) : parse d.toText = some d := by
  cases d with
  | finite negative coefficient exponent =>
    have hlength : 0 < (Nat.repr coefficient).toList.length :=
      List.length_pos_iff.mpr (repr_ne_nil coefficient)
    unfold toText
    dsimp only
    rw [parse_pointed]
    · congr 2
      split <;> omega
    · split <;> omega
  | infinity negative =>
    have hplain : ∀ c ∈ "Infinity".toList, isPlain c = true := List.all_eq_true.mp (by decide)
    have hhead : ("Infinity".toList.map asciiChar).head? = some 'i' := by decide
    rw [toText, parse_signed hplain (fun c hc => by
      rw [hhead, Option.mem_some] at hc
      exact hc ▸ ⟨by decide, by decide⟩)]
    cases negative <;> decide
  | nan negative signaling payload =>
    have hread : ∀ text : String, (∀ c ∈ text.toList, c.isDigit = true) →
        digitsValue text.toList = payload →
        parse (signText negative ++ (if signaling then "sNaN" else "NaN") ++ text)
          = some (nan negative signaling payload) := by
      intro text hdigits hvalue
      have hname : ∀ c ∈ (if signaling then "sNaN" else "NaN").toList, isPlain c = true :=
        List.all_eq_true.mp (by cases signaling <;> decide)
      have hmap : (((if signaling then "sNaN" else "NaN") ++ text : String).toList).map asciiChar
          = (if signaling then ['s', 'n', 'a', 'n'] else ['n', 'a', 'n']) ++ text.toList := by
        rw [String.toList_append, List.map_append, map_asciiChar_of_isDigit hdigits]
        cases signaling <;> exact congrArg (· ++ text.toList) (by decide)
      rw [String.append_assoc, parse_signed, hmap]
      · have hall : text.toList.all Char.isDigit = true := List.all_eq_true.mpr hdigits
        cases signaling
        · show nan? negative false text.toList = _
          rw [nan?, if_pos hall, hvalue]
        · show nan? negative true text.toList = _
          rw [nan?, if_pos hall, hvalue]
      · intro c hc
        rw [String.toList_append] at hc
        exact (List.mem_append.mp hc).elim (hname c) (fun h => isPlain_of_isDigit (hdigits c h))
      · rw [hmap]
        cases signaling <;> simp
    dsimp only [toText]
    by_cases hzero : payload = 0
    · rw [if_pos hzero]
      exact hread "" (by simp) (by rw [hzero]; rfl)
    · rw [if_neg hzero]
      exact hread _ (fun c hc => isDigit_of_mem_repr hc) (digitsValue_repr payload)

end Decimal
