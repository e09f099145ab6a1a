import FactoryAgent.Card.Chart

/-!
# Summing up texts

What becomes of the values of a week while they are summed up as texts, one after the other. A value is a finite
number, an infinity, a NaN, or none of these (`rank`). If the first one is no number the text stays it
(`weekText_of_opaque`); otherwise values that are no numbers are passed over, the first of those with the highest
rank is what remains, and finite numbers are added (`weekText_outcome`), exactly where the sums have few enough
digits (`weekText_exact`).
-/

namespace Card

open Decimal

/-! ## What a value is read as -/

/-- Whether a number raises where it is used. -/
def isSignaling : Decimal → Bool
  | .nan _ signaling _ => signaling
  | _ => false

/-- **The number that a value is read as**, if it is one. A signaling NaN counts as none: it raises. -/
def readNumber (value : CardValue) : Option Decimal :=
  (Decimal.parse value.str).filter fun d => !isSignaling d

/-- **The rank of a value**: nothing that is a number, a finite number, an infinity, a NaN. -/
def rank (value : CardValue) : Nat :=
  match readNumber value with
  | none => 0
  | some (.finite ..) => 1
  | some (.infinity _) => 2
  | some (.nan ..) => 3

/-- There are four ranks. -/
theorem rank_le_three (value : CardValue) : rank value ≤ 3 := by
  rw [rank]
  split <;> omega

/-- **The number that a value counts as**: itself where it is finite, and nothing otherwise. -/
def number (value : CardValue) : ℚ :=
  ((readNumber value).map Decimal.value).getD 0

/-- **What a text is that no sum can be made of.** -/
def IsOpaque (text : String) : Prop :=
  Decimal.parse text = none ∨ ∃ negative payload, Decimal.parse text = some (.nan negative true payload)

/-- **A text that shows a finite number.** -/
def ShowsNumber (text : String) : Prop :=
  ∃ shown : Decimal, shown.isFinite = true ∧ text = shown.fixedText

/-- What is shown of a number without a type. -/
theorem decimalStr_none (d : Decimal) : decimalStr d none = d.normalized.map Decimal.fixedText := rfl

/-- A number is written as what its text is read as. -/
theorem numericText_eq (value : CardValue) :
    numericText value = ((Decimal.parse value.str).bind fun d => decimalStr d none).getD value.str := by
  unfold numericText
  split
  · next negative coefficient exponent =>
    rw [CardValue.str, parse_toText, Option.bind_some]
    cases hshown : decimalStr (.finite negative coefficient exponent) none with
    | some shown => rfl
    | none =>
      have hsome := decimalStr_isSome negative coefficient exponent none
      rw [hshown] at hsome
      cases hsome
  · rfl

/-- Rounding leaves a finite number finite. -/
theorem exists_normalized {d : Decimal} (h : d.isFinite = true) :
    ∃ shown, d.normalized = some shown ∧ shown.isFinite = true := by
  cases d with
  | infinity _ => cases h
  | nan _ _ _ => cases h
  | finite negative coefficient exponent =>
    rw [normalized]
    split
    · exact ⟨_, rfl, rfl⟩
    · have hround : (DecimalContext.python.round negative coefficient exponent).isFinite = true :=
        DecimalContext.isFinite_round _ _ _
      cases hrounded : DecimalContext.python.round negative coefficient exponent with
      | infinity _ => rw [hrounded] at hround; cases hround
      | nan _ _ _ => rw [hrounded] at hround; cases hround
      | finite _ _ _ => exact ⟨_, rfl, rfl⟩

/-- The text of a value that is read as a number. -/
theorem numericText_of_readNumber {value : CardValue} {d shown : Decimal} (h : readNumber value = some d)
    (hshown : d.normalized = some shown) : numericText value = shown.fixedText := by
  rw [numericText_eq, (Option.filter_eq_some_iff.mp h).1, Option.bind_some, decimalStr_none, hshown]
  rfl

/-- The text of a finite number shows one. -/
theorem showsNumber_numericText {value : CardValue} (h : rank value = 1) : ShowsNumber (numericText value) := by
  rw [rank] at h
  cases hread : readNumber value with
  | none => rw [hread] at h; cases h
  | some d => cases d with
    | infinity _ => rw [hread] at h; cases h
    | nan _ _ _ => rw [hread] at h; cases h
    | finite negative coefficient exponent =>
      obtain ⟨shown, hshown, hfinite⟩ := exists_normalized (d := .finite negative coefficient exponent) rfl
      exact ⟨shown, hfinite, numericText_of_readNumber hread hshown⟩

/-- **The text of an infinity or a NaN is its own.** -/
theorem numericText_of_special {value : CardValue} (h : 2 ≤ rank value) :
    ∃ d, readNumber value = some d ∧ isSignaling d = false ∧ d.isFinite = false ∧ d.normalized = some d
      ∧ numericText value = d.toText := by
  rw [rank] at h
  cases hread : readNumber value with
  | none => rw [hread] at h; exact absurd h (by decide)
  | some d => cases d with
    | finite _ _ _ => rw [hread] at h; exact absurd h (show ¬2 ≤ 1 by omega)
    | infinity negative =>
      exact ⟨_, rfl, rfl, rfl, rfl, numericText_of_readNumber hread rfl⟩
    | nan negative signaling payload =>
      have hquiet := (Option.filter_eq_some_iff.mp hread).2
      cases signaling with
      | true => exact absurd hquiet Bool.false_ne_true
      | false => exact ⟨_, rfl, rfl, rfl, rfl, numericText_of_readNumber hread rfl⟩

/-- **The text of a value that is no number is its own**, and no sum can be made of it. -/
theorem isOpaque_numericText {value : CardValue} (h : rank value = 0) : IsOpaque (numericText value) := by
  rw [rank] at h
  rw [numericText_eq]
  cases hparse : Decimal.parse value.str with
  | none => exact .inl hparse
  | some d => cases d with
    | finite _ _ _ => rw [readNumber, hparse] at h; cases h
    | infinity _ => rw [readNumber, hparse] at h; cases h
    | nan negative signaling payload =>
      cases signaling with
      | false => rw [readNumber, hparse] at h; cases h
      | true => exact .inr ⟨negative, payload, hparse⟩

/-! ## Adding a value -/

/-- No sum is made with a text that none can be made of. -/
theorem addDecimalText_of_left {text : String} (h : IsOpaque text) (addition : String) :
    addDecimalText (some text) addition = text := by
  rw [addDecimalText]
  rcases h with hparse | ⟨negative, payload, hparse⟩
  · rw [hparse]
    rfl
  · rw [hparse, Option.bind_some]
    cases Decimal.parse addition with
    | none => rfl
    | some b => rfl

/-- What no sum can be made of is passed over. -/
theorem addDecimalText_of_right {addition : String} (h : IsOpaque addition) (text : String) :
    addDecimalText (some text) addition = text := by
  rw [addDecimalText]
  rcases h with hparse | ⟨negative, payload, hparse⟩
  · rw [hparse]
    cases Decimal.parse text with
    | none => rfl
    | some a => rfl
  · rw [hparse]
    cases Decimal.parse text with
    | none => rfl
    | some a =>
      have hraised : DecimalContext.python.add a (.nan negative true payload) = none := by
        cases a with
        | finite _ _ _ => rfl
        | infinity _ => rfl
        | nan n signaling p =>
          cases signaling with
          | false => rfl
          | true => rfl
      rw [Option.bind_some, Option.bind_some, hraised]
      rfl

/-- The sum of texts of two numbers. -/
theorem addDecimalText_eq {text addition : String} {a b : Decimal} (ha : Decimal.parse text = some a)
    (hb : Decimal.parse addition = some b) :
    addDecimalText (some text) addition
      = ((DecimalContext.python.add a b).bind fun sum => decimalStr sum none).getD text := by
  rw [addDecimalText, ha, hb]
  rfl

/-- The text of an infinity or a NaN is read as it. -/
theorem parse_numericText_of_special {value : CardValue} (h : 2 ≤ rank value) :
    ∃ d, readNumber value = some d ∧ Decimal.parse (numericText value) = some d ∧ isSignaling d = false
      ∧ d.normalized = some d ∧ numericText value = d.toText := by
  obtain ⟨d, hread, hquiet, -, hnormalized, htext⟩ := numericText_of_special h
  exact ⟨d, hread, by rw [htext, parse_toText], hquiet, hnormalized, htext⟩

/-- The text of a value that is read as a number is read as one. -/
theorem parse_numericText {value : CardValue} (h : 1 ≤ rank value) :
    ∃ d, Decimal.parse (numericText value) = some d ∧ isSignaling d = false
      ∧ (rank value = 1 → d.isFinite = true) := by
  rcases Nat.eq_or_lt_of_le h with hone | hspecial
  · obtain ⟨shown, hfinite, htext⟩ := showsNumber_numericText hone.symm
    obtain ⟨d, hparse, hread, -, -⟩ := parse_fixedText hfinite
    refine ⟨d, by rw [htext, hparse], ?_, fun _ => hread⟩
    cases d with
    | finite _ _ _ => rfl
    | infinity _ => cases hread
    | nan _ _ _ => cases hread
  · obtain ⟨d, -, hparse, hquiet, -⟩ := parse_numericText_of_special hspecial
    exact ⟨d, hparse, hquiet, fun hone => absurd hone (by omega)⟩

/-- The text of a value that is read as a number is none that no sum can be made of. -/
theorem not_isOpaque_numericText {value : CardValue} (h : 1 ≤ rank value) : ¬IsOpaque (numericText value) := by
  obtain ⟨d, hparse, hquiet, -⟩ := parse_numericText h
  rintro (hnone | ⟨negative, payload, hsignaling⟩)
  · rw [hparse] at hnone
    cases hnone
  · rw [hparse] at hsignaling
    cases hsignaling
    cases hquiet

/-- **An infinity or a NaN remains** where nothing of a higher rank is added. -/
theorem addDecimalText_of_rank_le {value addition : CardValue} (hvalue : 2 ≤ rank value)
    (h : rank addition ≤ rank value) :
    addDecimalText (some (numericText value)) (numericText addition) = numericText value := by
  rcases Nat.eq_zero_or_pos (rank addition) with hzero | hpos
  · exact addDecimalText_of_right (isOpaque_numericText hzero) _
  · obtain ⟨a, haRead, ha, haQuiet, haShown, haText⟩ := parse_numericText_of_special hvalue
    obtain ⟨b, hb, hbQuiet, hbFinite⟩ := parse_numericText hpos
    have hshown : (decimalStr a none).getD (numericText value) = numericText value := by
      rw [decimalStr_none, haShown, haText]
      cases a with
      | finite _ _ _ =>
        rw [rank, haRead] at hvalue
        exact absurd hvalue (show ¬2 ≤ 1 by omega)
      | infinity _ => rfl
      | nan _ _ _ => rfl
    rw [addDecimalText_eq ha hb]
    cases a with
    | finite _ _ _ =>
      rw [rank, haRead] at hvalue
      exact absurd hvalue (show ¬2 ≤ 1 by omega)
    | nan negative signaling payload =>
      cases haQuiet
      cases b with
      | finite _ _ _ => exact hshown
      | infinity _ => exact hshown
      | nan _ _ _ =>
        cases hbQuiet
        exact hshown
    | infinity negative =>
      cases b with
      | finite _ _ _ => exact hshown
      | infinity other =>
        show ((if negative = other then some (Decimal.infinity negative) else none).bind _).getD _ = _
        split
        · exact hshown
        · rfl
      | nan otherNegative signaling payload =>
        -- A NaN has the higher rank.
        exfalso
        have hranks : rank value = 2 := by rw [rank, haRead]
        have haddition : 2 ≤ rank addition := by
          rcases Nat.lt_or_ge 1 (rank addition) with hlt | hge
          · exact hlt
          · cases hbFinite (by omega)
        obtain ⟨d, hdRead, hd, -⟩ := parse_numericText_of_special haddition
        rw [hd] at hb
        cases hb
        rw [rank, hdRead, hranks] at h
        exact absurd h (show ¬3 ≤ 2 by omega)

/-- **A value of a higher rank takes over**, infinity or NaN. -/
theorem addDecimalText_of_rank_lt {text : String} {addition : CardValue} {a : Decimal}
    (ha : Decimal.parse text = some a)
    (hlow : a.isFinite = true ∨ ∃ value, rank value = 2 ∧ text = numericText value ∧ rank addition = 3)
    (h : 2 ≤ rank addition) : addDecimalText (some text) (numericText addition) = numericText addition := by
  obtain ⟨b, hbRead, hb, hbQuiet, hbShown, hbText⟩ := parse_numericText_of_special h
  have hshown : (decimalStr b none).getD text = numericText addition := by
    rw [decimalStr_none, hbShown, hbText]
    cases b with
    | finite _ _ _ =>
      rw [rank, hbRead] at h
      exact absurd h (show ¬2 ≤ 1 by omega)
    | infinity _ => rfl
    | nan _ _ _ => rfl
  rw [addDecimalText_eq ha hb]
  cases b with
  | finite _ _ _ =>
    rw [rank, hbRead] at h
    exact absurd h (show ¬2 ≤ 1 by omega)
  | infinity other =>
    rcases hlow with hfinite | ⟨value, -, -, hnan⟩
    · cases a with
      | finite _ _ _ => exact hshown
      | infinity _ => cases hfinite
      | nan _ _ _ => cases hfinite
    · rw [rank, hbRead] at hnan
      cases hnan
  | nan negative signaling payload =>
    cases hbQuiet
    rcases hlow with hfinite | ⟨value, htwo, htext, -⟩
    · cases a with
      | finite _ _ _ => exact hshown
      | infinity _ => cases hfinite
      | nan _ _ _ => cases hfinite
    · obtain ⟨d, hdRead, hd, -⟩ := parse_numericText_of_special htwo.ge
      rw [htext, hd] at ha
      cases ha
      rw [rank, hdRead] at htwo
      cases a with
      | finite _ _ _ => exact hshown
      | infinity _ => exact hshown
      | nan _ _ _ => cases htwo

/-- The sum of two texts of finite numbers is one. -/
theorem showsNumber_add {text addition : String} (htext : ShowsNumber text) (haddition : ShowsNumber addition) :
    ShowsNumber (addDecimalText (some text) addition) := by
  obtain ⟨shown, hfinite, rfl⟩ := htext
  obtain ⟨shown', hfinite', rfl⟩ := haddition
  obtain ⟨a, ha, haFinite, -⟩ := parse_fixedText hfinite
  obtain ⟨b, hb, hbFinite, -⟩ := parse_fixedText hfinite'
  rw [addDecimalText_eq ha hb]
  cases a with
  | infinity _ => cases haFinite
  | nan _ _ _ => cases haFinite
  | finite n₁ c₁ e₁ => cases b with
    | infinity _ => cases hbFinite
    | nan _ _ _ => cases hbFinite
    | finite n₂ c₂ e₂ =>
      have hsum : ∃ sum, DecimalContext.python.add (.finite n₁ c₁ e₁) (.finite n₂ c₂ e₂) = some sum
          ∧ sum.isFinite = true := ⟨_, rfl, DecimalContext.isFinite_round _ _ _⟩
      obtain ⟨sum, hadd, hsumFinite⟩ := hsum
      obtain ⟨shown, hnormalized, hshown⟩ := exists_normalized hsumFinite
      refine ⟨shown, hshown, ?_⟩
      rw [hadd, Option.bind_some, decimalStr_none, hnormalized]
      rfl

/-! ## The values of a week -/

/-- **The text of the values of a week**, added one after the other. -/
def weekText (values : List CardValue) : Option String :=
  values.foldl (fun current value => some (addDecimalText current (numericText value))) none

/-- One value more. -/
theorem weekText_concat (values : List CardValue) (value : CardValue) :
    weekText (values ++ [value]) = some (addDecimalText (weekText values) (numericText value)) := by
  rw [weekText, List.foldl_append]
  rfl

/-- **A first value that is no number remains.** -/
theorem weekText_of_opaque {first : CardValue} (h : rank first = 0) (rest : List CardValue) :
    weekText (first :: rest) = some (numericText first) := by
  induction rest using List.reverseRecOn with
  | nil => rfl
  | append_singleton rest value ih =>
    rw [← List.cons_append, weekText_concat, ih, addDecimalText_of_left (isOpaque_numericText h)]

/-- **What remains of the values of a week** that begins with a number: of the values of the highest rank the first
one, where these are no finite numbers, and otherwise a finite number. -/
theorem weekText_outcome {first : CardValue} (h : 1 ≤ rank first) (rest : List CardValue) :
    ∃ text, weekText (first :: rest) = some text ∧ ∃ top ∈ first :: rest, 1 ≤ rank top
      ∧ (∀ value ∈ first :: rest, rank value ≤ rank top)
      ∧ (rank top = 1 → ShowsNumber text)
      ∧ (2 ≤ rank top → text = numericText top
        ∧ ((first :: rest).filter fun value => rank value = rank top).head? = some top) := by
  induction rest using List.reverseRecOn with
  | nil =>
    refine ⟨_, rfl, first, List.mem_cons_self, h, ?_, showsNumber_numericText, fun _ => ⟨rfl, ?_⟩⟩
    · intro value hvalue
      rw [List.mem_singleton.mp hvalue]
    · rw [List.filter_cons_of_pos (by simp)]
      rfl
  | append_singleton rest value ih =>
    obtain ⟨text, htext, top, htop, hpos, hmax, hfinite, hspecial⟩ := ih
    rw [← List.cons_append, weekText_concat, htext]
    refine ⟨_, rfl, ?_⟩
    have hsplit : ∀ {top' : CardValue}, rank top ≤ rank top' → rank value ≤ rank top' →
        ∀ other ∈ first :: rest ++ [value], rank other ≤ rank top' := by
      intro top' hle hvalue other hother
      rcases List.mem_append.mp hother with hother | hother
      · exact (hmax other hother).trans hle
      · rw [List.mem_singleton.mp hother]
        exact hvalue
    rcases Nat.lt_or_ge (rank top) (rank value) with hlt | hge
    · -- The value has the highest rank so far, and takes over.
      have htwo : 2 ≤ rank value := by omega
      have htook : addDecimalText (some text) (numericText value) = numericText value := by
        rcases Nat.eq_or_lt_of_le hpos with hone | hhigh
        · obtain ⟨shown, hshown, rfl⟩ := hfinite hone.symm
          obtain ⟨a, ha, haFinite, -⟩ := parse_fixedText hshown
          exact addDecimalText_of_rank_lt ha (.inl haFinite) htwo
        · obtain ⟨rfl, -⟩ := hspecial hhigh
          obtain ⟨d, -, hd, -⟩ := parse_numericText_of_special hhigh
          have hle := rank_le_three value
          exact addDecimalText_of_rank_lt hd (.inr ⟨top, by omega, rfl, by omega⟩) htwo
      refine ⟨value, List.mem_append_right _ (List.mem_singleton_self _), by omega, hsplit hlt.le (Nat.le_refl _),
        fun hone => absurd hone (by omega), fun _ => ⟨htook, ?_⟩⟩
      have hnone : (first :: rest).filter (fun other => rank other = rank value) = [] := by
        rw [List.filter_eq_nil_iff]
        intro other hother
        have := hmax other hother
        rw [decide_eq_true_eq]
        omega
      rw [List.filter_append, hnone, List.nil_append, List.filter_cons_of_pos (by simp)]
      rfl
    · refine ⟨top, List.mem_append_left _ htop, hpos, hsplit (Nat.le_refl _) hge, fun hone => ?_, fun htwo => ?_⟩
      · rcases Nat.eq_zero_or_pos (rank value) with hzero | hvalue
        · rw [addDecimalText_of_right (isOpaque_numericText hzero)]
          exact hfinite hone
        · exact showsNumber_add (hfinite hone) (showsNumber_numericText (by omega))
      · obtain ⟨rfl, hhead⟩ := hspecial htwo
        refine ⟨addDecimalText_of_rank_le htwo hge, ?_⟩
        rw [List.filter_append, List.head?_append, hhead]
        rfl

/-! ## Exact sums -/

/-- **Whether the numbers of a week fit**, and what they add up to on the way. -/
def RunningSumsFit (values : List CardValue) : Prop :=
  (∀ value ∈ values, Fits 28 (number value)) ∧ ∀ before, before <+: values → Fits 28 (before.map number).sum

/-- The sign of a sum: that of the sum, and of the numbers where these are all without value. -/
def sumNegative (values : List CardValue) : Bool :=
  decide ((values.map number).sum < 0) || values.all fun value => (readNumber value).all Decimal.negative

/-- The sign of a sum of two numbers, the first of them a sum. -/
theorem sign_step {x y : ℚ} {xNegative yNegative allNegative : Bool}
    (hx : xNegative = (decide (x < 0) || allNegative)) (hxSign : if xNegative then x ≤ 0 else 0 ≤ x)
    (hySign : if yNegative then y ≤ 0 else 0 ≤ y) :
    (if x + y = 0 then xNegative && yNegative else decide (x + y < 0))
      = (decide (x + y < 0) || (allNegative && yNegative)) := by
  cases allNegative with
  | false =>
    rw [Bool.or_false] at hx
    rw [Bool.false_and, Bool.or_false]
    split
    · next hzero =>
      rw [hzero, hx]
      cases yNegative with
      | false => simp
      | true =>
        have hy : y ≤ 0 := hySign
        have hx' : ¬x < 0 := by linarith
        simp [hx']
    · rfl
  | true =>
    rw [Bool.or_true] at hx
    subst hx
    have hx' : x ≤ 0 := hxSign
    rw [Bool.true_and]
    cases yNegative with
    | false =>
      rw [Bool.or_false]
      split
      · next hzero => simp [hzero]
      · rfl
    | true =>
      have hy : y ≤ 0 := hySign
      rw [Bool.or_true]
      split
      · rfl
      · next hne => exact decide_eq_true (lt_of_le_of_ne (by linarith) hne)

/-- The text of a finite number that fits shows it. -/
theorem numericText_exact {value : CardValue} (h : rank value = 1) (hfits : Fits 28 (number value)) :
    ∃ d shown : Decimal, readNumber value = some d ∧ d.isFinite = true ∧ numericText value = shown.fixedText
      ∧ shown.isFinite = true ∧ shown.IsTrimmed ∧ shown.value = number value ∧ shown.negative = d.negative := by
  rw [rank] at h
  cases hread : readNumber value with
  | none => rw [hread] at h; cases h
  | some d => cases d with
    | infinity _ => rw [hread] at h; cases h
    | nan _ _ _ => rw [hread] at h; cases h
    | finite negative coefficient exponent =>
      rw [number, hread] at hfits
      obtain ⟨shown, hshown, hfinite, htrimmed, hvalue, hnegative⟩ := normalized_finite hfits
      exact ⟨_, shown, rfl, rfl, numericText_of_readNumber hread hshown, hfinite, htrimmed,
        by rw [hvalue, number, hread]; rfl, hnegative⟩

/-- **The text of finite numbers that fit shows their sum.** -/
theorem weekText_exact {first : CardValue} (h : rank first = 1) {rest : List CardValue}
    (hrest : ∀ value ∈ rest, rank value ≤ 1) (hfit : RunningSumsFit (first :: rest)) :
    ∃ shown : Decimal, weekText (first :: rest) = some shown.fixedText ∧ shown.isFinite = true ∧ shown.IsTrimmed
      ∧ shown.value = ((first :: rest).map number).sum ∧ shown.negative = sumNegative (first :: rest) := by
  induction rest using List.reverseRecOn with
  | nil =>
    obtain ⟨d, shown, hread, hd, htext, hfinite, htrimmed, hvalue, hnegative⟩ :=
      numericText_exact h (hfit.1 first List.mem_cons_self)
    refine ⟨shown, congrArg some htext, hfinite, htrimmed, by rw [hvalue]; simp, ?_⟩
    have hsign := value_of_negative hfinite
    rw [sumNegative, List.map_singleton, List.sum_singleton, ← hvalue, List.all_cons, hread]
    show _ = (_ || (d.negative && true))
    rw [Bool.and_true, ← hnegative]
    cases hneg : shown.negative with
    | false =>
      rw [hneg] at hsign
      rw [decide_eq_false (not_lt.mpr hsign)]
      rfl
    | true => exact (Bool.or_true _).symm
  | append_singleton rest value ih =>
    obtain ⟨shown, htext, hfinite, htrimmed, hvalue, hnegative⟩ :=
      ih (fun other hother => hrest other (List.mem_append_left _ hother))
        ⟨fun other hother => hfit.1 other (List.mem_append_left _ hother),
          fun before hbefore => hfit.2 before (hbefore.trans (List.prefix_append _ _))⟩
    have hsum : ((first :: rest ++ [value]).map number).sum = shown.value + number value := by
      rw [List.map_append, List.sum_append, ← hvalue, List.map_singleton, List.sum_singleton]
    have hnegatives : ((first :: rest ++ [value]).all fun other => (readNumber other).all Decimal.negative)
        = (((first :: rest).all fun other => (readNumber other).all Decimal.negative)
          && (readNumber value).all Decimal.negative) := by
      rw [List.all_append, List.all_cons (a := value), List.all_nil, Bool.and_true]
    rw [← List.cons_append, weekText_concat, htext]
    rcases Nat.eq_zero_or_pos (rank value) with hzero | hpos
    · -- What is no number is passed over.
      have hnone : readNumber value = none := by
        rw [rank] at hzero
        cases hread : readNumber value with
        | none => rfl
        | some d => cases d with
          | finite _ _ _ => rw [hread] at hzero; cases hzero
          | infinity _ => rw [hread] at hzero; cases hzero
          | nan _ _ _ => rw [hread] at hzero; cases hzero
      have hnothing : number value = 0 := by rw [number, hnone]; rfl
      refine ⟨shown, by rw [addDecimalText_of_right (isOpaque_numericText hzero)], hfinite, htrimmed, ?_, ?_⟩
      · rw [hsum, hnothing, add_zero]
      · rw [hnegative, sumNegative, sumNegative, hnegatives, hsum, hnothing, add_zero, hvalue, hnone]
        exact congrArg _ (Bool.and_true _).symm
    · have hone : rank value = 1 := Nat.le_antisymm
        (hrest value (List.mem_append_right _ (List.mem_singleton_self _))) hpos
      obtain ⟨d, added, hread, hd, haddedText, haddedFinite, -, haddedValue, haddedNegative⟩ :=
        numericText_exact hone (hfit.1 value (List.mem_cons_of_mem _ (List.mem_append_right _ (List.mem_singleton_self _))))
      obtain ⟨a, ha, haFinite, haValue, haNegative⟩ := parse_fixedText hfinite
      obtain ⟨b, hb, hbFinite, hbValue, hbNegative⟩ := parse_fixedText haddedFinite
      have hfits : Fits 28 (a.value + b.value) := by
        rw [haValue, hbValue, haddedValue, ← hsum]
        exact hfit.2 _ (List.prefix_refl _)
      obtain ⟨sum, hadd, hsumFinite, hsumValue, hsumNegative⟩ := python_add haFinite hbFinite hfits
      have hsumFits : Fits 28 sum.value := hsumValue ▸ hfits
      cases sum with
      | infinity _ => cases hsumFinite
      | nan _ _ _ => cases hsumFinite
      | finite negative coefficient exponent =>
        obtain ⟨final, hfinal, hfinalFinite, hfinalTrimmed, hfinalValue, hfinalNegative⟩ := normalized_finite hsumFits
        have htotal : a.value + b.value = ((first :: rest ++ [value]).map number).sum := by
          rw [haValue, hbValue, haddedValue, hsum]
        refine ⟨final, ?_, hfinalFinite, hfinalTrimmed, by rw [hfinalValue, hsumValue, htotal], ?_⟩
        · rw [haddedText, addDecimalText_eq ha hb, hadd, Option.bind_some, decimalStr_none, hfinal]
          rfl
        · rw [hfinalNegative]
          show (Decimal.finite negative coefficient exponent).negative = _
          have haSign := value_of_negative hfinite
          have hbSign := value_of_negative haddedFinite
          rw [hsumNegative, sumNegative, hnegatives, hsum, haValue, hbValue, haNegative, hbNegative, hread,
            ← haddedValue]
          rw [sumNegative, ← hvalue] at hnegative
          rw [haddedNegative] at hbSign ⊢
          exact sign_step hnegative haSign hbSign

end Card
