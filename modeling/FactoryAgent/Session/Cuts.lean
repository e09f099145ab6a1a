import FactoryAgent.Session.Thinking
import Mathlib.Data.List.Forall2
import Mathlib.Data.List.TakeWhile

/-!
# Where a transcript is cut

`ThinkingCoalescer.commit` cuts a text into pieces and gates each piece together with what was sent. This file compares
what the gate says of a piece with what it says of the whole text. A cut is clean (`CleanCut`) unless it is within a
number or at the end of an identifier that goes on; then the front of what passes also passes (`passes_of_cut`), and
lines pass one by one (`passes_newline_iff`). What was sent differs from what was given where a repeat was dropped: the
`Seam` remembers whether the two have the same last lines. With clean cuts a run of calls whose texts pass releases them
(`good_text_released`).

`_boundary` never cuts within a token, but a separator of thousands is not part of a token: a number of several groups
is cut before its last group, and what is before the cut is no fact (`number_cut_rejected`).
-/

namespace Thinking

/-! ## Numbers over a cut -/

/-- The number that is being read at the end of a text. -/
def readingAfter : Option (List Char) → List Char → Option (List Char)
  | reading, [] => reading
  | none, c :: cs => readingAfter (if isDigit c then some [c] else none) cs
  | some digits, c :: cs =>
    if isDigit c then readingAfter (some (digits ++ [c])) cs
    else if isSeparator c then readingAfter (some digits) cs
    else readingAfter none cs

/-- The numbers that end within a text. -/
def endedFrom : Option (List Char) → List Char → List (List Char)
  | _, [] => []
  | none, c :: cs => endedFrom (if isDigit c then some [c] else none) cs
  | some digits, c :: cs =>
    if isDigit c then endedFrom (some (digits ++ [c])) cs
    else if isSeparator c then endedFrom (some digits) cs
    else digits :: endedFrom none cs

/-- **The numbers of a text in two parts**: what ends within the front, and what is read from there on. -/
theorem numbersFrom_append (reading : Option (List Char)) (front back : List Char) :
    numbersFrom reading (front ++ back) = endedFrom reading front ++ numbersFrom (readingAfter reading front) back := by
  induction front generalizing reading with
  | nil => cases reading <;> rfl
  | cons c cs ih =>
    rw [List.cons_append]
    cases reading with
    | none => rw [numbersFrom, endedFrom, readingAfter, ih]
    | some digits =>
      rw [numbersFrom, endedFrom, readingAfter]
      split_ifs
      · rw [ih]
      · rw [ih]
      · rw [ih, List.cons_append]

/-- The numbers of a text: what ends within it, and what is being read at its end. -/
theorem numbersFrom_eq (reading : Option (List Char)) (text : List Char) :
    numbersFrom reading text = endedFrom reading text ++ (readingAfter reading text).toList := by
  have happend := numbersFrom_append reading text []
  rw [List.append_nil] at happend
  rw [happend]
  cases readingAfter reading text <;> rfl

/-- A separator is no digit. -/
theorem isDigit_of_isSeparator {c : Char} (h : isSeparator c = true) : isDigit c = false := by
  rw [isSeparator, Bool.or_eq_true, Bool.or_eq_true, decide_eq_true_eq, decide_eq_true_eq, decide_eq_true_eq] at h
  rcases h with (rfl | h) | rfl
  · decide
  · rw [← Char.ofNat_toNat c, h]
    decide
  · decide

/-- A number goes on with a text. -/
def goesOn (back : List Char) : Bool :=
  (back.dropWhile isSeparator).head?.any isDigit

/-- A number that does not go on ends as it is. -/
theorem mem_numbersFrom_of_ends {digits back : List Char} (h : goesOn back = false) :
    digits ∈ numbersFrom (some digits) back := by
  induction back with
  | nil => exact List.mem_singleton.mpr rfl
  | cons c cs ih =>
    rw [numbersFrom]
    rw [goesOn] at h
    by_cases hseparator : isSeparator c = true
    · rw [List.dropWhile_cons_of_pos hseparator] at h
      rw [isDigit_of_isSeparator hseparator, if_neg Bool.false_ne_true, if_pos hseparator]
      exact ih h
    · rw [List.dropWhile_cons_of_neg hseparator] at h
      rw [if_neg (by simpa using h), if_neg hseparator]
      exact List.mem_cons_self

/-- What is neither a digit nor a separator ends a number. -/
theorem numbersFrom_break {b : Char} (hdigit : isDigit b = false) (hseparator : isSeparator b = false)
    (reading : Option (List Char)) (front back : List Char) :
    numbersFrom reading (front ++ b :: back) = numbersFrom reading front ++ numbersFrom none back := by
  rw [numbersFrom_append, numbersFrom_eq reading front, List.append_assoc]
  congr 1
  cases readingAfter reading front with
  | none =>
    rw [numbersFrom, hdigit, if_neg Bool.false_ne_true]
    rfl
  | some digits =>
    rw [numbersFrom, hdigit, hseparator, if_neg Bool.false_ne_true, if_neg Bool.false_ne_true]
    rfl

/-- A number that is being read after a break began after it. -/
theorem readingAfter_break {b : Char} (hdigit : isDigit b = false) (hseparator : isSeparator b = false)
    (reading : Option (List Char)) (front back : List Char) :
    readingAfter reading (front ++ b :: back) = readingAfter none back := by
  induction front generalizing reading with
  | nil =>
    rw [List.nil_append]
    cases reading with
    | none => rw [readingAfter, hdigit, if_neg Bool.false_ne_true]
    | some digits =>
      rw [readingAfter, hdigit, hseparator, if_neg Bool.false_ne_true, if_neg Bool.false_ne_true]
  | cons c cs ih =>
    rw [List.cons_append]
    cases reading with
    | none => rw [readingAfter, ih]
    | some digits =>
      rw [readingAfter]
      split_ifs
      · exact ih _
      · exact ih _
      · exact ih _

/-! ## Blanks -/

/-- The characters that are blank. -/
def blanks : List Nat :=
  [9, 10, 11, 12, 13, 28, 29, 30, 31, 32, 0x2000, 0x2001, 0x2002, 0x2003, 0x2004, 0x2005, 0x2006, 0x2007, 0x2008,
    0x2009, 0x200a, 0x85, 0xa0, 0x1680, 0x2028, 0x2029, 0x202f, 0x205f, 0x3000]

/-- **A character that ends a word and a number's digits**: no word character, no underscore, no digit. -/
structure Gap (b : Char) : Prop where
  word : isWord b = false
  underscore : b ≠ '_'
  digit : isDigit b = false

/-- A blank is a gap, and is its own lower case. -/
theorem gap_of_isSpace {b : Char} (h : Text.isSpace b = true) : Gap b ∧ lowerChar b = [b] := by
  have hmem : b.toNat ∈ blanks := by
    rw [Text.isSpace] at h
    simp only [Bool.or_eq_true, Bool.and_eq_true, decide_eq_true_eq] at h
    simp only [blanks, List.mem_cons, List.not_mem_nil, or_false] at h ⊢
    omega
  have hall : blanks.all (fun n => !isWord (Char.ofNat n) && Char.ofNat n != '_' && !isDigit (Char.ofNat n)
      && lowerChar (Char.ofNat n) == [Char.ofNat n]) = true := by decide
  have hb := List.all_eq_true.mp hall _ hmem
  rw [Char.ofNat_toNat] at hb
  simp only [Bool.and_eq_true, Bool.not_eq_true', bne_iff_ne, beq_iff_eq] at hb
  exact ⟨⟨hb.1.1.1, hb.1.1.2, hb.1.2⟩, hb.2⟩

/-- Blanks around a text add no numbers. -/
theorem numbersOf_stripped (text : List Char) : numbersOf (Text.stripped text) = numbersOf text := by
  obtain ⟨lead, trail, hsplit, hlead, htrail⟩ := Text.stripped_split text
  have hfront : ∀ (blank rest : List Char), (∀ c ∈ blank, Text.isSpace c = true) →
      numbersFrom none (blank ++ rest) = numbersFrom none rest := by
    intro blank rest hblank
    induction blank with
    | nil => rfl
    | cons c cs ih =>
      rw [List.forall_mem_cons] at hblank
      rw [List.cons_append, numbersFrom, (gap_of_isSpace hblank.1).1.digit, if_neg Bool.false_ne_true, ih hblank.2]
  have hback : ∀ (reading : Option (List Char)) (blank : List Char), (∀ c ∈ blank, Text.isSpace c = true) →
      numbersFrom reading blank = reading.toList := by
    intro reading blank hblank
    induction blank generalizing reading with
    | nil => cases reading <;> rfl
    | cons c cs ih =>
      rw [List.forall_mem_cons] at hblank
      replace ih := fun reading => ih reading hblank.2
      have hdigit := (gap_of_isSpace hblank.1).1.digit
      cases reading with
      | none =>
        rw [numbersFrom, hdigit, if_neg Bool.false_ne_true]
        exact ih none
      | some digits =>
        rw [numbersFrom, hdigit, if_neg Bool.false_ne_true, ih, ih]
        split_ifs <;> rfl
  rw [numbersOf, numbersOf]
  conv_rhs => rw [hsplit]
  rw [hfront lead _ hlead, numbersFrom_append, hback _ trail htrail, numbersFrom_eq]

/-! ## Identifiers over a cut -/

/-- **What is looked for ends at a gap.** -/
structure Bounded (found : List Char → Bool) : Prop where
  nil : found [] = false
  gap : ∀ front back b, Gap b → found (front ++ b :: back) = found front

/-- An underscore and a word character: what follows the first word of an identifier. -/
def underscored (cs : List Char) : Bool :=
  match cs with
  | '_' :: d :: _ => isWord d
  | _ => false

theorem snakeAt_cons (c : Char) (cs : List Char) :
    snakeAt (c :: cs) = (isLetter c && underscored (cs.dropWhile isWord)) :=
  rfl

/-- Two characters decide. -/
theorem underscored_cons (x y : Char) (cs : List Char) : underscored (x :: y :: cs) = (x == '_' && isWord y) := by
  by_cases h : x = '_'
  · subst h
    rfl
  · rw [beq_eq_false_iff_ne.mpr h, Bool.false_and, underscored]
    exact fun d rest heq => h (List.cons.inj heq).1

/-- An identifier ends at a gap. -/
theorem bounded_snakeAt : Bounded snakeAt where
  nil := rfl
  gap front back b hb := by
    have hrun : ∀ cs : List Char, (cs ++ b :: back).dropWhile isWord = cs.dropWhile isWord ++ b :: back := by
      intro cs
      rw [List.dropWhile_append]
      split_ifs with hempty
      · rw [List.isEmpty_iff.mp hempty, List.dropWhile_cons_of_neg (by rw [hb.word]; exact Bool.false_ne_true)]
        rfl
      · rfl
    cases front with
    | nil =>
      have hword := hb.word
      rw [isWord, Bool.or_eq_false_iff] at hword
      rw [List.nil_append, snakeAt_cons, hword.1, Bool.false_and]
      rfl
    | cons c cs =>
      rw [List.cons_append, snakeAt_cons, snakeAt_cons, hrun]
      congr 1
      rcases cs.dropWhile isWord with - | ⟨x, - | ⟨y, rest⟩⟩
      · cases back with
        | nil => exact (Bool.eq_false_iff.mpr fun h => by simp [underscored] at h)
        | cons d back =>
          rw [List.nil_append, underscored_cons, beq_eq_false_iff_ne.mpr hb.underscore]
          rfl
      · rw [List.singleton_append, underscored_cons, hb.word, Bool.and_false]
        simp [underscored]
      · rw [List.cons_append, List.cons_append, underscored_cons, underscored_cons]

/-- A code that is all of a text. -/
def codeEnds (cs : List Char) : Bool :=
  decide (cs.length = 5) && codeAt cs

/-- Five characters decide, and the one after them. -/
theorem codeAt_cons (f r x y z : Char) (cs : List Char) :
    codeAt (f :: r :: x :: y :: z :: cs)
      = (f == 'f' && r == 'r' && isDigit x && isDigit y && isDigit z && !cs.head?.any isWord) := by
  by_cases hf : f = 'f'
  · by_cases hr : r = 'r'
    · subst hf hr
      rfl
    · rw [beq_eq_false_iff_ne.mpr hr, Bool.and_false, codeAt]
      · rfl
      · exact fun _ _ _ _ heq => hr (List.cons.inj (List.cons.inj heq).2).1
  · rw [beq_eq_false_iff_ne.mpr hf, codeAt]
    · rfl
    · exact fun _ _ _ _ heq => hf (List.cons.inj heq).1

/-- The five characters of a text that is not shorter. -/
theorem exists_five {cs : List Char} (h : ¬ cs.length < 5) :
    ∃ f r x y z rest, cs = f :: r :: x :: y :: z :: rest := by
  rcases cs with - | ⟨f, - | ⟨r, - | ⟨x, - | ⟨y, - | ⟨z, rest⟩⟩⟩⟩⟩
  all_goals simp only [List.length_nil, List.length_cons] at h
  all_goals first | exact ⟨_, _, _, _, _, _, rfl⟩ | omega

/-- Fewer characters are no code. -/
theorem codeAt_of_length {cs : List Char} (h : cs.length < 5) : codeAt cs = false := by
  rw [codeAt]
  rintro x y z rest rfl
  simp only [List.length_cons] at h
  omega

/-- A code ends at a gap. -/
theorem bounded_codeAt : Bounded codeAt where
  nil := rfl
  gap front back b hb := by
    have hword : (b == 'f') = false ∧ (b == 'r') = false := by
      refine ⟨beq_eq_false_iff_ne.mpr ?_, beq_eq_false_iff_ne.mpr ?_⟩
      · rintro rfl
        exact absurd hb.word (by decide)
      · rintro rfl
        exact absurd hb.word (by decide)
    -- where the front has fewer than five characters, the gap is one of the five
    by_cases hlength : front.length < 5
    · rw [codeAt_of_length hlength]
      by_cases hshort : (front ++ b :: back).length < 5
      · exact codeAt_of_length hshort
      · obtain ⟨f, r, x, y, z, rest, heq⟩ := exists_five hshort
        rw [heq, codeAt_cons]
        have hmem : b ∈ [f, r, x, y, z] := by
          have hget : (front ++ b :: back)[front.length]? = some b := by simp
          rw [heq] at hget
          have htake : (f :: r :: x :: y :: z :: rest).take 5 = [f, r, x, y, z] := rfl
          rw [← htake]
          refine List.mem_of_getElem? (i := front.length) ?_
          rw [List.getElem?_take_of_lt hlength, hget]
        simp only [List.mem_cons, List.not_mem_nil, or_false] at hmem
        rcases hmem with rfl | rfl | rfl | rfl | rfl
        · simp [hword.1]
        · simp [hword.2]
        · simp [hb.digit]
        · simp [hb.digit]
        · simp [hb.digit]
    · obtain ⟨f, r, x, y, z, rest, rfl⟩ := exists_five hlength
      simp only [List.cons_append]
      rw [codeAt_cons, codeAt_cons]
      cases rest with
      | nil => simp [hb.word]
      | cons c rest => rfl

/-- **What is looked for on both sides of a gap** is on one of them. -/
theorem search_gap {found : List Char → Bool} (hfound : Bounded found) {b : Char} (hb : Gap b) (afterWord : Bool)
    (front back : List Char) :
    search found afterWord (front ++ b :: back) = (search found afterWord front || search found false back) := by
  induction front generalizing afterWord with
  | nil =>
    have hnone : found (b :: back) = false := by
      have hgap := hfound.gap [] back b hb
      rw [List.nil_append, hfound.nil] at hgap
      exact hgap
    rw [List.nil_append, search, search, hnone, hb.word, Bool.and_false]
  | cons c cs ih =>
    rw [List.cons_append, search, search, ih, ← List.cons_append, hfound.gap (c :: cs) back b hb, Bool.or_assoc]

/-- What is still found when a text goes on. -/
theorem search_append {found : List Char → Bool} (back : List Char)
    (hmono : ∀ cs, found cs = true → found (cs ++ back) = true) {afterWord : Bool} {front : List Char}
    (h : search found afterWord front = true) : search found afterWord (front ++ back) = true := by
  induction front generalizing afterWord with
  | nil => cases h
  | cons c cs ih =>
    rw [search, Bool.or_eq_true, Bool.and_eq_true] at h
    rw [List.cons_append, search, Bool.or_eq_true, Bool.and_eq_true, ← List.cons_append]
    exact h.imp (fun hfound => ⟨hfound.1, hmono _ hfound.2⟩) ih

/-- An identifier is still one when a text goes on. -/
theorem snakeAt_append (back : List Char) {cs : List Char} (h : snakeAt cs = true) : snakeAt (cs ++ back) = true := by
  cases cs with
  | nil => cases h
  | cons c cs =>
    rw [snakeAt_cons, Bool.and_eq_true] at h
    rw [List.cons_append, snakeAt_cons, Bool.and_eq_true]
    refine ⟨h.1, ?_⟩
    rcases hrun : cs.dropWhile isWord with - | ⟨x, - | ⟨y, rest⟩⟩
    · rw [hrun] at h
      cases h.2
    · rw [hrun] at h
      simp [underscored] at h
    · rw [List.dropWhile_append, hrun, if_neg (by simp), List.cons_append, List.cons_append, underscored_cons]
      rw [hrun, underscored_cons] at h
      exact h.2

/-- **A code is still one when a text goes on**, unless it ends the text and a word character comes next. -/
theorem searchCode_append (back : List Char) {afterWord : Bool} {front : List Char}
    (h : search codeAt afterWord front = true) :
    search codeAt afterWord (front ++ back) = true
      ∨ (search codeEnds afterWord front = true ∧ back.head?.any isWord = true) := by
  induction front generalizing afterWord with
  | nil => cases h
  | cons c cs ih =>
    rw [search, Bool.or_eq_true, Bool.and_eq_true] at h
    rw [List.cons_append, search, search, Bool.or_eq_true, Bool.or_eq_true, Bool.and_eq_true, Bool.and_eq_true,
      ← List.cons_append]
    rcases h with ⟨hflag, hcode⟩ | hrest
    · have hlength : ¬ (c :: cs).length < 5 := by
        intro hshort
        rw [codeAt_of_length hshort] at hcode
        cases hcode
      obtain ⟨f, r, x, y, z, rest, heq⟩ := exists_five hlength
      rw [heq] at hcode ⊢
      cases rest with
      | nil =>
        have hcode' := hcode
        rw [codeAt_cons, List.head?_nil] at hcode
        simp only [Option.any_none, Bool.not_false, Bool.and_true] at hcode
        by_cases hword : back.head?.any isWord = true
        · exact .inr ⟨.inl ⟨hflag, by rw [codeEnds, hcode']; rfl⟩, hword⟩
        · refine .inl (.inl ⟨hflag, ?_⟩)
          simp only [List.cons_append, List.nil_append]
          rw [codeAt_cons, hcode, (Bool.not_eq_true _).mp hword]
          rfl
      | cons d rest =>
        refine .inl (.inl ⟨hflag, ?_⟩)
        simp only [List.cons_append]
        rw [codeAt_cons] at hcode ⊢
        exact hcode
    · exact (ih hrest).imp .inr fun hends => ⟨.inr hends.1, hends.2⟩

/-- A code that ends a text is after its last gap. -/
theorem searchEnds_gap {b : Char} (hb : Gap b) (afterWord : Bool) (front back : List Char) :
    search codeEnds afterWord (front ++ b :: back) = search codeEnds false back := by
  have hnone : ∀ cs, codeEnds (cs ++ b :: back) = false := by
    intro cs
    rw [codeEnds, bounded_codeAt.gap cs back b hb]
    by_cases hlength : cs.length < 5
    · rw [codeAt_of_length hlength, Bool.and_false]
    · rw [decide_eq_false (by rw [List.length_append, List.length_cons]; omega), Bool.false_and]
  induction front generalizing afterWord with
  | nil =>
    have hhead := hnone []
    rw [List.nil_append] at hhead
    rw [List.nil_append, search, hhead, hb.word, Bool.and_false, Bool.false_or]
  | cons c cs ih =>
    have hhead := hnone (c :: cs)
    rw [List.cons_append] at hhead
    rw [List.cons_append, search, hhead, Bool.and_false, Bool.false_or, ih]

/-- A line break is a gap, and no part of a number. -/
theorem gap_newline : Gap '\n' ∧ isSeparator '\n' = false ∧ lowerChar '\n' = ['\n'] :=
  ⟨⟨by decide, by decide, by decide⟩, by decide, by decide⟩

theorem lower_append (front back : List Char) : lower (front ++ back) = lower front ++ lower back :=
  List.flatMap_append

/-- A blank stays in lower case. -/
theorem lower_cons_of_isSpace {b : Char} (h : Text.isSpace b = true) (text : List Char) :
    lower (b :: text) = b :: lower text := by
  rw [lower, List.flatMap_cons, (gap_of_isSpace h).2]
  rfl

/-- An identifier on both sides of a gap. -/
theorem hasIdentifier_gap {b : Char} (hb : Gap b) (front back : List Char) :
    hasIdentifier (front ++ b :: back) = (hasIdentifier front || hasIdentifier back) := by
  rw [hasIdentifier, hasIdentifier, hasIdentifier, search_gap bounded_snakeAt hb, search_gap bounded_codeAt hb]
  cases search snakeAt false front <;> cases search codeAt false front <;> simp

/-- Blanks around a text add no identifiers. -/
theorem hasIdentifier_stripped (text : List Char) :
    hasIdentifier (lower (Text.stripped text)) = hasIdentifier (lower text) := by
  obtain ⟨lead, trail, hsplit, hlead, htrail⟩ := Text.stripped_split text
  have hback : ∀ blank : List Char, (∀ c ∈ blank, Text.isSpace c = true) → ∀ rest,
      hasIdentifier (lower rest ++ lower blank) = hasIdentifier (lower rest) := by
    intro blank hblank
    induction blank with
    | nil => exact fun rest => by rw [show lower [] = [] from rfl, List.append_nil]
    | cons c cs ih =>
      rw [List.forall_mem_cons] at hblank
      intro rest
      have hnone : hasIdentifier (lower cs) = false := ih hblank.2 []
      rw [lower_cons_of_isSpace hblank.1, hasIdentifier_gap (gap_of_isSpace hblank.1).1, hnone, Bool.or_false]
  have hfront : ∀ blank : List Char, (∀ c ∈ blank, Text.isSpace c = true) → ∀ rest,
      hasIdentifier (lower blank ++ rest) = hasIdentifier rest := by
    intro blank hblank
    induction blank with
    | nil => exact fun rest => rfl
    | cons c cs ih =>
      rw [List.forall_mem_cons] at hblank
      intro rest
      rw [lower_cons_of_isSpace hblank.1, List.cons_append, ← List.nil_append (c :: _),
        hasIdentifier_gap (gap_of_isSpace hblank.1).1, ih hblank.2]
      rfl
  conv_rhs => rw [hsplit]
  rw [lower_append, lower_append, hfront lead hlead, hback trail htrail]

/-! ## Literals -/

/-- A literal of a part of a text is one of the text. -/
theorem hasLiteral_of_part {part text : List Char} (h : part <:+: text) (hpart : hasLiteral part = true) :
    hasLiteral text = true := by
  obtain ⟨literal, hmem, hinfix⟩ := List.any_eq_true.mp hpart
  exact List.any_eq_true.mpr ⟨literal, hmem, decide_eq_true ((of_decide_eq_true hinfix).trans h)⟩

/-- What has no separator is on one side of it. -/
theorem infix_of_append_cons {α : Type} {part front back : List α} {b : α} (hb : b ∉ part)
    (h : part <:+: front ++ b :: back) : part <:+: front ∨ part <:+: back := by
  obtain ⟨before, after, h⟩ := h
  rw [List.append_assoc] at h
  rcases List.append_eq_append_iff.mp h with ⟨between, rfl, hrest⟩ | ⟨between, rfl, hrest⟩
  · rcases List.append_eq_append_iff.mp hrest with ⟨more, rfl, -⟩ | ⟨more, rfl, hafter⟩
    · exact .inl ⟨before, more, by simp⟩
    · cases more with
      | nil => exact .inl ⟨before, [], by simp⟩
      | cons c more =>
        rw [List.cons_append] at hafter
        obtain ⟨rfl, -⟩ := List.cons.inj hafter
        exact absurd (List.mem_append_right _ List.mem_cons_self) hb
  · cases between with
    | nil =>
      rw [List.nil_append] at hrest
      cases part with
      | nil => exact .inl (List.nil_infix)
      | cons c part =>
        rw [List.cons_append] at hrest
        obtain ⟨rfl, -⟩ := List.cons.inj hrest
        exact absurd List.mem_cons_self hb
    | cons c between =>
      rw [List.cons_append] at hrest
      obtain ⟨rfl, hback⟩ := List.cons.inj hrest
      exact .inr ⟨between, after, by rw [List.append_assoc, hback]⟩

/-- A literal is on one side of a line break. -/
theorem hasLiteral_newline {front back : List Char} (h : hasLiteral (front ++ '\n' :: back) = true) :
    hasLiteral front = true ∨ hasLiteral back = true := by
  obtain ⟨literal, hmem, hinfix⟩ := List.any_eq_true.mp h
  have hfree : forbiddenLiterals.all (fun literal => !literal.toList.contains '\n') = true := by decide
  have hbreak : '\n' ∉ literal.toList := by
    have hnone := List.all_eq_true.mp hfree literal hmem
    rwa [Bool.not_eq_true', List.contains_eq_mem, decide_eq_false_iff_not] at hnone
  rcases infix_of_append_cons hbreak (of_decide_eq_true hinfix) with hfront | hback
  · exact .inl (List.any_eq_true.mpr ⟨literal, hmem, decide_eq_true hfront⟩)
  · exact .inr (List.any_eq_true.mpr ⟨literal, hmem, decide_eq_true hback⟩)

/-! ## The gate -/

variable {facts : Facts}

/-- **What passes the gate**: the identifiers and the numbers do not mind the blanks around a text. -/
theorem rejectionReason_eq_none_iff {text : List Char} :
    rejectionReason text facts = none ↔ Text.stripped text ≠ [] ∧ hasLiteral (lower (Text.stripped text)) = false
      ∧ hasIdentifier (lower text) = false ∧ (numbersOf text).any (unsupported facts) = false := by
  rw [rejectionReason, ← hasIdentifier_stripped text, ← numbersOf_stripped text]
  split_ifs with hblank hliteral hidentifier hnumber
  · simp [hblank]
  · simp [hliteral]
  · simp [hidentifier]
  · simp [hnumber]
  · simp [hblank, hliteral, hidentifier, hnumber]

/-- **What passes still passes with more facts.** -/
theorem rejectionReason_mono {text : List Char} {more : Facts} (hfacts : facts.lines ⊆ more.lines)
    (h : rejectionReason text facts = none) : rejectionReason text more = none := by
  rw [rejectionReason_eq_none_iff] at h ⊢
  refine ⟨h.1, h.2.1, h.2.2.1, List.any_eq_false.mpr fun digits hdigits hunsupported => ?_⟩
  refine List.any_eq_false.mp h.2.2.2 digits hdigits ?_
  rw [unsupported, Bool.and_eq_true, decide_eq_true_eq, decide_eq_true_eq] at hunsupported ⊢
  refine ⟨hunsupported.1, fun hmem => hunsupported.2 ?_⟩
  obtain ⟨line, hline, hnumber⟩ := List.mem_flatMap.mp hmem
  exact List.mem_flatMap.mpr ⟨line, hfacts hline, hnumber⟩

/-- `str.lstrip` -/
def trimFront (text : List Char) : List Char :=
  text.dropWhile Text.isSpace

/-- `str.rstrip` -/
def trimBack (text : List Char) : List Char :=
  (text.reverse.dropWhile Text.isSpace).reverse

theorem stripped_eq (text : List Char) : Text.stripped text = trimBack (trimFront text) :=
  rfl

/-- Nothing is left of blanks. -/
theorem stripped_eq_nil_iff {text : List Char} : Text.stripped text = [] ↔ ∀ c ∈ text, Text.isSpace c = true := by
  constructor
  · intro h
    obtain ⟨lead, trail, hsplit, hlead, htrail⟩ := Text.stripped_split text
    rw [h, List.nil_append] at hsplit
    intro c hc
    rw [hsplit] at hc
    exact (List.mem_append.mp hc).elim (hlead c) (htrail c)
  · intro h
    rw [stripped_eq, trimFront, List.dropWhile_eq_nil_iff.mpr h]
    rfl

/-- Blanks at the front of a text with something else stay there when it goes on. -/
theorem trimFront_append {front : List Char} (h : Text.stripped front ≠ []) (back : List Char) :
    trimFront (front ++ back) = trimFront front ++ back := by
  rw [trimFront, List.dropWhile_append, if_neg]
  · rfl
  · rw [List.isEmpty_iff, List.dropWhile_eq_nil_iff]
    exact fun hblank => h (stripped_eq_nil_iff.mpr hblank)

/-- Blanks at the end of a text with something else stay there when something is put before it. -/
theorem trimBack_append (front : List Char) {back : List Char} (h : Text.stripped back ≠ []) :
    trimBack (front ++ back) = front ++ trimBack back := by
  rw [trimBack, List.reverse_append, List.dropWhile_append, if_neg]
  · rw [List.reverse_append, List.reverse_reverse]
    rfl
  · rw [List.isEmpty_iff, List.dropWhile_eq_nil_iff]
    exact fun hblank => h (stripped_eq_nil_iff.mpr fun c hc => hblank c (List.mem_reverse.mpr hc))

/-- The blanks around a text in two parts. -/
theorem stripped_append {front back : List Char} (hfront : Text.stripped front ≠ []) (hback : Text.stripped back ≠ []) :
    Text.stripped (front ++ back) = trimFront front ++ trimBack back := by
  rw [stripped_eq, trimFront_append hfront, trimBack_append _ hback]

/-- Blanks at the end are no part of what is left. -/
theorem stripped_append_of_blank (front : List Char) {back : List Char} (hback : Text.stripped back = []) :
    Text.stripped (front ++ back) = Text.stripped front := by
  have hblank := stripped_eq_nil_iff.mp hback
  have hreverse : back.reverse.dropWhile Text.isSpace = [] :=
    List.dropWhile_eq_nil_iff.mpr fun c hc => hblank c (List.mem_reverse.mp hc)
  by_cases hfront : Text.stripped front = []
  · rw [hfront]
    refine stripped_eq_nil_iff.mpr fun c hc => ?_
    exact (List.mem_append.mp hc).elim (stripped_eq_nil_iff.mp hfront c) (hblank c)
  · rw [stripped_eq, trimFront_append hfront, trimBack, List.reverse_append, List.dropWhile_append, hreverse,
      if_pos List.isEmpty_nil]
    rfl

/-- Blanks at the front are no part of what is left. -/
theorem stripped_blank_append {front : List Char} (hfront : ∀ c ∈ front, Text.isSpace c = true) (back : List Char) :
    Text.stripped (front ++ back) = Text.stripped back := by
  rw [stripped_eq, stripped_eq, trimFront, List.dropWhile_append, List.dropWhile_eq_nil_iff.mpr hfront,
    if_pos List.isEmpty_nil]
  rfl

/-- A text with something that is not blank. -/
theorem stripped_append_ne_nil {front : List Char} (h : Text.stripped front ≠ []) (back : List Char) :
    Text.stripped (front ++ back) ≠ [] := by
  intro hnil
  exact h (stripped_eq_nil_iff.mpr fun c hc => stripped_eq_nil_iff.mp hnil c (List.mem_append_left _ hc))

theorem stripped_append_ne_nil_right (front : List Char) {back : List Char} (h : Text.stripped back ≠ []) :
    Text.stripped (front ++ back) ≠ [] := by
  intro hnil
  exact h (stripped_eq_nil_iff.mpr fun c hc => stripped_eq_nil_iff.mp hnil c (List.mem_append_right _ hc))

/-- What is left of a text is at the front of it, without the blanks before it. -/
theorem stripped_front (text : List Char) : Text.stripped text <+: trimFront text := by
  obtain ⟨trail, hsplit, -⟩ := Text.dropEnd_split Text.isSpace (trimFront text)
  exact ⟨trail, hsplit.symm⟩

theorem lower_part {part text : List Char} (h : part <:+: text) : lower part <:+: lower text := by
  obtain ⟨front, back, rfl⟩ := h
  exact ⟨lower front, lower back, by rw [lower_append, lower_append]⟩

/-! ## Cuts -/

/-- **A cut that the gate does not see**: the number that it falls into may be sent as far as it goes, and it does not
end a code that goes on. -/
structure CleanCut (facts : Facts) (front back : List Char) : Prop where
  number : ∀ digits, readingAfter none front = some digits → goesOn back = true → unsupported facts digits = false
  code : search codeEnds false (lower front) = true → (lower back).head?.any isWord = false

/-- **The front of what passes also passes**, where the cut is clean. -/
theorem passes_of_cut {front back : List Char} (h : rejectionReason (front ++ back) facts = none)
    (hfront : Text.stripped front ≠ []) (hcut : CleanCut facts front back) : rejectionReason front facts = none := by
  rw [rejectionReason_eq_none_iff] at h ⊢
  obtain ⟨-, hliteral, hidentifier, hnumbers⟩ := h
  refine ⟨hfront, ?_, ?_, ?_⟩
  · rw [← Bool.not_eq_true] at hliteral ⊢
    refine fun hfound => hliteral (hasLiteral_of_part (lower_part ?_) hfound)
    by_cases hback : Text.stripped back = []
    · rw [stripped_append_of_blank front hback]
    · rw [stripped_append hfront hback]
      exact ((stripped_front front).trans (List.prefix_append _ _)).isInfix
  · rw [lower_append] at hidentifier
    rw [hasIdentifier, Bool.or_eq_false_iff] at hidentifier ⊢
    constructor
    · rw [← Bool.not_eq_true]
      intro hfound
      rw [search_append _ (fun _ => snakeAt_append _) hfound] at hidentifier
      cases hidentifier.1
    · rw [← Bool.not_eq_true]
      intro hfound
      rcases searchCode_append (lower back) hfound with hmore | ⟨hends, hword⟩
      · rw [hmore] at hidentifier
        cases hidentifier.2
      · rw [hcut.code hends] at hword
        cases hword
  · rw [List.any_eq_false] at hnumbers ⊢
    rw [numbersOf, numbersFrom_append] at hnumbers
    rw [numbersOf, numbersFrom_eq]
    intro digits hdigits
    rcases List.mem_append.mp hdigits with hended | hreading
    · exact hnumbers digits (List.mem_append_left _ hended)
    · have hlast : readingAfter none front = some digits := Option.mem_toList.mp hreading
      cases hgoes : goesOn back with
      | true => exact Bool.eq_false_iff.mp (hcut.number digits hlast hgoes)
      | false =>
        refine hnumbers digits (List.mem_append_right _ ?_)
        rw [hlast]
        exact mem_numbersFrom_of_ends hgoes

/-- **A text that may be followed by a line.** -/
structure FrontClean (facts : Facts) (front : List Char) : Prop where
  literal : hasLiteral (lower (trimFront front)) = false
  identifier : hasIdentifier (lower front) = false
  numbers : (numbersOf front).any (unsupported facts) = false

/-- **A text that may be put on a new line.** -/
structure BackClean (facts : Facts) (back : List Char) : Prop where
  literal : hasLiteral (lower (trimBack back)) = false
  identifier : hasIdentifier (lower back) = false
  numbers : (numbersOf back).any (unsupported facts) = false

/-- A line break is no part of a line. -/
theorem lower_newline (front back : List Char) : lower (front ++ '\n' :: back) = lower front ++ '\n' :: lower back := by
  rw [lower_append, lower_cons_of_isSpace (by decide)]

/-- **Lines pass one by one.** -/
theorem passes_newline_iff {front back : List Char} (hfront : Text.stripped front ≠ [])
    (hback : Text.stripped back ≠ []) :
    rejectionReason (front ++ '\n' :: back) facts = none ↔ FrontClean facts front ∧ BackClean facts back := by
  have hline : Text.stripped ('\n' :: back) ≠ [] := stripped_append_ne_nil_right ['\n'] hback
  have hstripped : Text.stripped (front ++ '\n' :: back) = trimFront front ++ '\n' :: trimBack back := by
    rw [stripped_append hfront hline, ← List.singleton_append, trimBack_append ['\n'] hback, List.singleton_append]
  have hnumbers : numbersOf (front ++ '\n' :: back) = numbersOf front ++ numbersOf back :=
    numbersFrom_break gap_newline.1.digit gap_newline.2.1 none front back
  rw [rejectionReason_eq_none_iff, hstripped, lower_newline, lower_newline, hasIdentifier_gap gap_newline.1, hnumbers,
    List.any_append, Bool.or_eq_false_iff, Bool.or_eq_false_iff]
  constructor
  · rintro ⟨-, hliteral, ⟨hfrontId, hbackId⟩, hfrontNumbers, hbackNumbers⟩
    rw [← Bool.not_eq_true] at hliteral
    refine ⟨⟨?_, hfrontId, hfrontNumbers⟩, ?_, hbackId, hbackNumbers⟩
    · rw [← Bool.not_eq_true]
      exact fun hfound => hliteral (hasLiteral_of_part (List.prefix_append _ _).isInfix hfound)
    · rw [← Bool.not_eq_true]
      refine fun hfound => hliteral (hasLiteral_of_part ?_ hfound)
      exact ((List.suffix_cons _ _).trans (List.suffix_append _ _)).isInfix
  · rintro ⟨hfrontClean, hbackClean⟩
    refine ⟨?_, ?_, ⟨hfrontClean.identifier, hbackClean.identifier⟩, hfrontClean.numbers, hbackClean.numbers⟩
    · exact List.append_ne_nil_of_right_ne_nil _ (List.cons_ne_nil _ _)
    · rw [← Bool.not_eq_true]
      intro hfound
      rcases hasLiteral_newline hfound with hliteral | hliteral
      · rw [hfrontClean.literal] at hliteral
        cases hliteral
      · rw [hbackClean.literal] at hliteral
        cases hliteral

/-- What passes with something after it may be followed by a line. -/
theorem frontClean_of_passes {front back : List Char} (hfront : rejectionReason front facts = none)
    (h : rejectionReason (front ++ back) facts = none) (hback : Text.stripped back ≠ []) : FrontClean facts front := by
  rw [rejectionReason_eq_none_iff] at hfront h
  refine ⟨?_, hfront.2.2.1, hfront.2.2.2⟩
  rw [← Bool.not_eq_true]
  intro hfound
  refine Bool.eq_false_iff.mp h.2.1 (hasLiteral_of_part (lower_part ?_) hfound)
  rw [stripped_append hfront.1 hback]
  exact (List.prefix_append _ _).isInfix

/-- What may be followed by a line passes. -/
theorem FrontClean.passes {front : List Char} (h : FrontClean facts front) (hfront : Text.stripped front ≠ []) :
    rejectionReason front facts = none := by
  refine rejectionReason_eq_none_iff.mpr ⟨hfront, ?_, h.identifier, h.numbers⟩
  rw [← Bool.not_eq_true]
  intro hfound
  exact Bool.eq_false_iff.mp h.literal (hasLiteral_of_part (lower_part (stripped_front front).isInfix) hfound)

/-! ## What was sent and what was given -/

/-- **How what was sent ends**: as what was given, or where a frame was dropped as a repeat, or after a frame that went
on from there. -/
inductive Seam where
  | joined
  | dropped
  | mixed
  deriving DecidableEq, Repr

/-- The seam after a piece. -/
def Seam.after (seam : Seam) (piece : List Char) (accepted : Bool) : Seam :=
  if accepted then
    if seam = .joined ∨ piece.head? = some '\n' then .joined else .mixed
  else .dropped

/-- **What was sent ends as what was given**: it is all of it without line breaks before it, or the last lines of both
are the same from some line break on. -/
inductive Joined : List Char → List Char → Prop where
  | whole (lead sent : List Char) (hlead : ∀ c ∈ lead, c = '\n') : Joined sent (lead ++ sent)
  | lines (sent given last : List Char) (hsent : Text.stripped sent ≠ []) (hgiven : Text.stripped given ≠ [])
      (hlast : Text.stripped last ≠ []) : Joined (sent ++ '\n' :: last) (given ++ '\n' :: last)

/-- What goes on from a line break is cut as the line is. -/
theorem cleanCut_newline_iff {front line back : List Char} :
    CleanCut facts (front ++ '\n' :: line) back ↔ CleanCut facts line back := by
  have hreading : readingAfter none (front ++ '\n' :: line) = readingAfter none line :=
    readingAfter_break gap_newline.1.digit gap_newline.2.1 none front line
  have hends : search codeEnds false (lower (front ++ '\n' :: line)) = search codeEnds false (lower line) := by
    rw [lower_newline, searchEnds_gap gap_newline.1]
  constructor
  · rintro ⟨hnumber, hcode⟩
    exact ⟨by rwa [hreading] at hnumber, by rwa [hends] at hcode⟩
  · rintro ⟨hnumber, hcode⟩
    exact ⟨by rwa [hreading], by rwa [hends]⟩

/-- Line breaks before a text are no part of its cut. -/
theorem cleanCut_lead {lead line back : List Char} (hlead : ∀ c ∈ lead, c = '\n') :
    CleanCut facts (lead ++ line) back ↔ CleanCut facts line back := by
  induction lead with
  | nil => rfl
  | cons c cs ih =>
    rw [List.forall_mem_cons] at hlead
    rw [hlead.1, List.cons_append, ← List.nil_append ('\n' :: _), cleanCut_newline_iff, ih hlead.2]

/-- **Where what was sent ends as what was given**, a piece is cut from both alike, and passes after the one where it
passes after the other. -/
theorem Joined.passes {sent given piece back : List Char} (h : Joined sent given)
    (hsent : sent ≠ [] → rejectionReason sent facts = none) (hpiece : Text.stripped piece ≠ [])
    (hcut : CleanCut facts (sent ++ piece) back) (hgiven : rejectionReason (given ++ piece ++ back) facts = none) :
    rejectionReason (sent ++ piece) facts = none := by
  cases h with
  | whole lead sent hlead =>
    rw [List.append_assoc] at hgiven
    have hcut' : CleanCut facts (lead ++ (sent ++ piece)) back := (cleanCut_lead hlead).mpr hcut
    have hwhole : rejectionReason ((lead ++ (sent ++ piece)) ++ back) facts = none := by
      simpa only [List.append_assoc] using hgiven
    have hfront : rejectionReason (lead ++ (sent ++ piece)) facts = none :=
      passes_of_cut hwhole (stripped_append_ne_nil_right _ (stripped_append_ne_nil_right _ hpiece)) hcut'
    rw [← hfront]
    refine rejectionReason_congr (stripped_blank_append (fun c hc => ?_) _).symm facts
    rw [hlead c hc]
    rfl
  | lines sent given last hnonblank hgivenNonblank hlast =>
    have hline : Text.stripped (last ++ piece) ≠ [] := stripped_append_ne_nil hlast piece
    rw [List.append_assoc, List.cons_append] at hcut ⊢
    rw [List.append_assoc given, List.cons_append] at hgiven
    have hfront : rejectionReason (given ++ '\n' :: (last ++ piece)) facts = none :=
      passes_of_cut hgiven (stripped_append_ne_nil hgivenNonblank _)
        (cleanCut_newline_iff.mpr (cleanCut_newline_iff.mp hcut))
    have hbefore := hsent (List.append_ne_nil_of_right_ne_nil _ (List.cons_ne_nil _ _))
    exact (passes_newline_iff hnonblank hline).mpr
      ⟨((passes_newline_iff hnonblank hlast).mp hbefore).1, ((passes_newline_iff hgivenNonblank hline).mp hfront).2⟩

/-- A piece that follows goes on in both. -/
theorem Joined.append {sent given : List Char} (h : Joined sent given) (piece : List Char) :
    Joined (sent ++ piece) (given ++ piece) := by
  cases h with
  | whole lead sent hlead =>
    rw [List.append_assoc]
    exact .whole lead (sent ++ piece) hlead
  | lines sent given last hsent hgiven hlast =>
    rw [List.append_assoc, List.append_assoc, List.cons_append]
    exact .lines sent given (last ++ piece) hsent hgiven (stripped_append_ne_nil hlast piece)

/-- **What is known at a seam.** -/
inductive AtSeam (facts : Facts) : Seam → List Char → List Char → Prop where
  | joined {sent given : List Char} (hjoined : Joined sent given)
      (hpasses : sent ≠ [] → rejectionReason sent facts = none) : AtSeam facts .joined sent given
  | dropped {sent given : List Char} (hsent : Text.stripped sent ≠ []) (hgiven : Text.stripped given ≠ [])
      (hclean : FrontClean facts sent) : AtSeam facts .dropped sent given
  | mixed {sent given : List Char} (hgiven : Text.stripped given ≠ [])
      (hpasses : rejectionReason sent facts = none) : AtSeam facts .mixed sent given

/-- More facts spoil nothing. -/
theorem FrontClean.mono {front : List Char} {more : Facts} (hfacts : facts.lines ⊆ more.lines)
    (h : FrontClean facts front) (hfront : Text.stripped front ≠ []) : FrontClean more front :=
  ⟨h.literal, h.identifier, (rejectionReason_eq_none_iff.mp (rejectionReason_mono hfacts (h.passes hfront))).2.2.2⟩

theorem AtSeam.mono {seam : Seam} {sent given : List Char} {more : Facts} (hfacts : facts.lines ⊆ more.lines)
    (h : AtSeam facts seam sent given) : AtSeam more seam sent given := by
  cases h with
  | joined hjoined hpasses => exact .joined hjoined fun hne => rejectionReason_mono hfacts (hpasses hne)
  | dropped hsent hgiven hclean => exact .dropped hsent hgiven (hclean.mono hfacts hsent)
  | mixed hgiven hpasses => exact .mixed hgiven (rejectionReason_mono hfacts hpasses)

/-- What was sent at a seam passes. -/
theorem AtSeam.passes {seam : Seam} {sent given : List Char} (h : AtSeam facts seam sent given) (hsent : sent ≠ []) :
    rejectionReason sent facts = none := by
  cases h with
  | joined _ hpasses => exact hpasses hsent
  | dropped hnonblank _ hclean => exact hclean.passes hnonblank
  | mixed _ hpasses => exact hpasses

/-! ## Turns -/

/-- **A turn of the loop**: the piece that is cut off, and what is left. -/
structure Turn where
  seam : Seam
  state : Coalescer
  piece : List Char
  left : List Char

/-- The frame of a turn, where it is accepted. -/
def Turn.frame? (turn : Turn) : Option (List Char) :=
  (turn.state.accept turn.piece).2

/-- **A turn whose piece is not rejected**: it is not blank, it is cut where the gate does not see it, and where a frame
was dropped before it, it opens a new line or passes with what was sent. -/
structure Turn.Fine (facts : Facts) (turn : Turn) : Prop where
  nonblank : Text.stripped turn.piece ≠ []
  cut : CleanCut facts (turn.state.text ++ turn.piece) turn.left
  seam : turn.seam = .joined ∨ (turn.seam = .dropped ∧ turn.piece.head? = some '\n')
    ∨ rejectionReason (turn.state.text ++ turn.piece) facts = none

/-- The loop of `commit` without the gate: its turns, and the seam and the state after them. -/
def Coalescer.turns (limits : Limits) : Nat → Seam → Coalescer → List Char → List Turn × Seam × Coalescer
  | 0, seam, state, _ => ([], seam, state)
  | fuel + 1, seam, state, rest =>
    if rest = [] then ([], seam, state)
    else if limits.maxTotalChars ≤ state.used then ([], seam, { state with truncated := true })
    else
      let piece := boundary limits (rest.take (min limits.maxFrameChars (limits.maxTotalChars - state.used)))
      if piece = [] then ([], seam, state)
      else
        let (next, accepted) := state.accept piece
        let left := rest.drop piece.length
        let turn : Turn := ⟨seam, state, piece, left⟩
        if limits.maxTotalChars ≤ next.used ∧ left ≠ [] then
          ([turn], seam.after piece accepted.isSome, { next with truncated := true })
        else
          let (turns, last) := Coalescer.turns limits fuel (seam.after piece accepted.isSome) next left
          (turn :: turns, last)

/-- **`commit` without the gate.** -/
def Coalescer.turnsOf (limits : Limits) (seam : Seam) (state : Coalescer) (text : List Char) :
    List Turn × Seam × Coalescer :=
  if state.stopped ∨ state.truncated ∨ Text.stripped text = [] then ([], seam, state)
  else state.turns limits (text.length + 1) seam text

/-- The turns of calls one after the other. -/
def Coalescer.runTurns (limits : Limits) : Seam → Coalescer → List Call → List (List Turn)
  | _, _, [] => []
  | seam, state, call :: calls =>
    let (turns, next, last) := state.turnsOf limits seam call.text
    turns :: Coalescer.runTurns limits next last calls

variable {limits : Limits}

/-- **A fine turn passes the gate**, where all that was given does. -/
theorem Turn.Fine.passes {turn : Turn} {given : List Char} (h : turn.Fine facts)
    (hseam : AtSeam facts turn.seam turn.state.text given)
    (hgiven : rejectionReason (given ++ turn.piece ++ turn.left) facts = none) :
    rejectionReason (turn.state.text ++ turn.piece) facts = none := by
  obtain ⟨seam, state, piece, left⟩ := turn
  have hnonblank := h.nonblank
  have hcut := h.cut
  cases hseam with
  | joined hjoined hpasses => exact hjoined.passes hpasses hnonblank hcut hgiven
  | mixed =>
    rcases h.seam with hjoined | ⟨hdropped, -⟩ | hpasses
    · cases hjoined
    · cases hdropped
    · exact hpasses
  | dropped hsent hgivenNonblank hclean =>
    rcases h.seam with hjoined | ⟨-, hline⟩ | hpasses
    · cases hjoined
    · dsimp only at hline hnonblank hcut hgiven ⊢
      obtain ⟨line, rfl⟩ : ∃ line, piece = '\n' :: line := List.head?_eq_some_iff.mp hline
      have hlineNonblank : Text.stripped line ≠ [] := by
        rwa [← List.singleton_append, stripped_blank_append (by simp; decide)] at hnonblank
      have hfront : rejectionReason (given ++ '\n' :: line) facts = none :=
        passes_of_cut hgiven (stripped_append_ne_nil hgivenNonblank _)
          (cleanCut_newline_iff.mpr (cleanCut_newline_iff.mp hcut))
      exact (passes_newline_iff hsent hlineNonblank).mpr
        ⟨hclean, ((passes_newline_iff hgivenNonblank hlineNonblank).mp hfront).2⟩
    · exact hpasses

/-- Nothing was sent last where nothing was sent. -/
def Coalescer.Remembers (state : Coalescer) : Prop :=
  state.sent = [] → state.lastSent = []

/-- What is accepted is the piece, without the line breaks before the very first one. -/
theorem accept_eq_some {state next : Coalescer} {piece frame : List Char}
    (h : state.accept piece = (next, some frame)) :
    (frame = if state.sent = [] then piece.dropWhile (· = '\n') else piece) ∧ next.Remembers := by
  rw [Coalescer.accept] at h
  split_ifs at h with hfirst hdropped hdropped
  · cases h
  · cases h
    exact ⟨(if_pos hfirst).symm, fun hnil => absurd hnil (List.append_ne_nil_of_right_ne_nil _ (List.cons_ne_nil _ _))⟩
  · cases h
  · cases h
    exact ⟨(if_neg hfirst).symm, fun hnil => absurd hnil (List.append_ne_nil_of_right_ne_nil _ (List.cons_ne_nil _ _))⟩

/-- What is dropped and not blank is a repeat. -/
theorem accept_eq_none {state next : Coalescer} {piece : List Char} (hpiece : Text.stripped piece ≠ [])
    (h : state.accept piece = (next, none)) : next = state ∧ Text.stripped piece = state.lastSent := by
  rw [Coalescer.accept] at h
  split_ifs at h with hfirst hdropped hdropped
  · cases h
    rw [stripped_dropWhile_newline] at hdropped
    exact ⟨rfl, hdropped.resolve_left hpiece⟩
  · cases h
  · cases h
    exact ⟨rfl, hdropped.resolve_left hpiece⟩
  · cases h

/-- **What is known after a turn.** -/
theorem AtSeam.after {seam : Seam} {state : Coalescer} {given piece : List Char}
    (h : AtSeam facts seam state.text given) (hwithin : state.Within limits) (hremembers : state.Remembers)
    (hpiece : Text.stripped piece ≠ []) (hpasses : rejectionReason (state.text ++ piece) facts = none)
    (hroom : state.used + piece.length ≤ limits.maxTotalChars) :
    AtSeam facts (seam.after piece (state.accept piece).2.isSome) (state.accept piece).1.text (given ++ piece)
      ∧ (state.accept piece).1.Within limits ∧ (state.accept piece).1.Remembers
      ∧ (state.accept piece).1.stopped = state.stopped ∧ (state.accept piece).1.truncated = state.truncated := by
  rcases accept_passes hwithin hpasses hroom with
    haccept | ⟨next, frame, haccept, hnext, htext, -, hnextPasses, hstopped, htruncated⟩
  · rw [haccept]
    refine ⟨?_, hwithin, hremembers, rfl, rfl⟩
    have hlast := (accept_eq_none hpiece haccept).2
    have hsent : state.text ≠ [] := by
      intro hnil
      rw [hremembers (hwithin.text_eq_nil.mp hnil)] at hlast
      exact hpiece hlast
    have hbefore := h.passes hsent
    exact .dropped (stripped_ne_nil_of_passes hbefore) (stripped_append_ne_nil_right _ hpiece)
      (frontClean_of_passes hbefore hpasses hpiece)
  · obtain ⟨hframe, hnextRemembers⟩ := accept_eq_some haccept
    rw [haccept]
    refine ⟨?_, hnext, hnextRemembers, hstopped, htruncated⟩
    show AtSeam facts (seam.after piece true) next.text (given ++ piece)
    have hgiven : Text.stripped (given ++ piece) ≠ [] := stripped_append_ne_nil_right _ hpiece
    by_cases hfirst : state.sent = []
    · -- the very first frame: the line breaks before it are given and not sent
      rw [if_pos hfirst] at hframe
      have hnil : state.text = [] := hwithin.text_eq_nil.mpr hfirst
      rw [hnil, List.nil_append] at htext
      rw [hnil] at h
      cases h with
      | joined hjoined =>
        rw [Seam.after, if_pos rfl, if_pos (.inl rfl)]
        refine .joined ?_ fun _ => hnextPasses
        obtain ⟨lead, hlead⟩ : ∃ lead, given = lead ∧ ∀ c ∈ lead, c = '\n' := by
          generalize hempty : ([] : List Char) = sent at hjoined
          cases hjoined with
          | whole lead sent hlead => exact ⟨lead, by rw [← hempty, List.append_nil], hlead⟩
          | lines sent given last =>
            exact absurd hempty.symm (List.append_ne_nil_of_right_ne_nil _ (List.cons_ne_nil _ _))
        have hsplit : given ++ piece = (lead ++ piece.takeWhile (· = '\n')) ++ next.text := by
          rw [hlead.1, htext, hframe, List.append_assoc, List.takeWhile_append_dropWhile]
        rw [hsplit]
        refine .whole _ _ fun c hc => ?_
        rcases List.mem_append.mp hc with hold | hnew
        · exact hlead.2 c hold
        · have hnewline := List.mem_takeWhile_imp hnew
          exact of_decide_eq_true hnewline
      | dropped hsent => exact absurd rfl hsent
      | mixed _ hblank => exact absurd rfl (stripped_ne_nil_of_passes hblank)
    · rw [if_neg hfirst] at hframe
      rw [hframe] at htext
      have hsentNonblank : Text.stripped state.text ≠ [] :=
        stripped_ne_nil_of_passes (h.passes fun hnil => hfirst (hwithin.text_eq_nil.mp hnil))
      rw [htext] at hnextPasses ⊢
      have hopened : ∀ line, piece = '\n' :: line → Text.stripped given ≠ [] →
          AtSeam facts .joined (state.text ++ piece) (given ++ piece) := by
        rintro line rfl hgivenNonblank
        rw [← List.singleton_append, stripped_blank_append (by simp; decide)] at hpiece
        exact .joined (.lines _ _ line hsentNonblank hgivenNonblank hpiece) fun _ => hnextPasses
      have hseam : ∀ other, seam = other → other ≠ .joined → Text.stripped given ≠ [] →
          AtSeam facts (seam.after piece true) (state.text ++ piece) (given ++ piece) := by
        rintro other rfl hother hgivenNonblank
        rw [Seam.after, if_pos rfl]
        split_ifs with hline
        · obtain ⟨line, hline⟩ := List.head?_eq_some_iff.mp (hline.resolve_left hother)
          exact hopened line hline hgivenNonblank
        · exact .mixed hgiven hnextPasses
      cases h with
      | joined hjoined =>
        rw [Seam.after, if_pos rfl, if_pos (.inl rfl)]
        exact .joined (hjoined.append piece) fun _ => hnextPasses
      | dropped _ hgivenNonblank => exact hseam _ rfl (by decide) hgivenNonblank
      | mixed hgivenNonblank => exact hseam _ rfl (by decide) hgivenNonblank

/-- A text that is not empty has a frame. -/
theorem boundary_ne_nil {text : List Char} (htext : text ≠ []) (hframe : 0 < limits.maxFrameChars) :
    boundary limits text ≠ [] := by
  have hwindow : text.take limits.maxFrameChars ≠ [] := by
    rw [ne_eq, List.take_eq_nil_iff, not_or]
    exact ⟨Nat.ne_of_gt hframe, htext⟩
  have hcut : ∀ n, 0 < n → (text.take limits.maxFrameChars).take n ≠ [] := by
    intro n hn
    rw [ne_eq, List.take_eq_nil_iff, not_or]
    exact ⟨Nat.ne_of_gt hn, hwindow⟩
  rw [boundary]
  split_ifs with hbreak hshorter hshorter
  · exact hcut _ hshorter.2
  · exact hwindow
  · exact hcut _ hshorter.2
  · exact hwindow

/-- **The state of a run that nothing was rejected in.** -/
structure Unrejected (limits : Limits) (state : Coalescer) : Prop where
  within : state.Within limits
  remembers : state.Remembers
  going : state.stopped = false
  full : state.truncated = true → limits.maxTotalChars ≤ state.used

/-- **What a call does where nothing is rejected**: its pieces are its text, as far as the budget goes. -/
structure Kept (limits : Limits) (facts : Facts) (given text : List Char) (turns : List Turn) (seam : Seam)
    (last : Coalescer) : Prop where
  unrejected : Unrejected limits last
  front : (turns.map Turn.piece).flatten <+: text
  whole : last.truncated = false → (turns.map Turn.piece).flatten = text ∧ AtSeam facts seam last.text (given ++ text)

/-- **The loop is the one without the gate**, where all that is given passes and the turns are fine. -/
theorem loop_eq_turns (hframe : 0 < limits.maxFrameChars) {fuel : Nat} {seam : Seam} {state : Coalescer}
    {given rest : List Char} (frames : List (List Char)) (hstate : Unrejected limits state)
    (htruncated : state.truncated = false) (hseam : AtSeam facts seam state.text given)
    (hgiven : rest ≠ [] → rejectionReason (given ++ rest) facts = none) (hfuel : rest.length < fuel)
    (hfine : ∀ turn ∈ (state.turns limits fuel seam rest).1, turn.Fine facts) :
    state.loop limits facts fuel rest frames = some ((state.turns limits fuel seam rest).2.2,
        frames ++ (state.turns limits fuel seam rest).1.filterMap Turn.frame?)
      ∧ Kept limits facts given rest (state.turns limits fuel seam rest).1 (state.turns limits fuel seam rest).2.1
          (state.turns limits fuel seam rest).2.2 := by
  induction fuel generalizing seam state given rest frames with
  | zero => omega
  | succ fuel ih =>
    rw [Coalescer.turns] at hfine
    rw [Coalescer.loop, Coalescer.turns]
    by_cases hrest : rest = []
    · subst hrest
      simp only [if_true]
      refine ⟨by rw [List.filterMap_nil, List.append_nil], hstate, List.nil_prefix, fun _ => ⟨rfl, ?_⟩⟩
      rwa [List.append_nil]
    simp only [if_neg hrest] at hfine ⊢
    by_cases hfull : limits.maxTotalChars ≤ state.used
    · simp only [if_pos hfull]
      refine ⟨by rw [List.filterMap_nil, List.append_nil], ⟨⟨hstate.within.used, hstate.within.bounded,
        hstate.within.nonblank⟩, hstate.remembers, hstate.going, fun _ => hfull⟩, List.nil_prefix, ?_⟩
      intro h
      cases h
    simp only [if_neg hfull] at hfine ⊢
    generalize hpieceEq :
      boundary limits (rest.take (min limits.maxFrameChars (limits.maxTotalChars - state.used))) = piece at hfine ⊢
    have hfront : piece <+: rest.take (min limits.maxFrameChars (limits.maxTotalChars - state.used)) :=
      hpieceEq ▸ boundary_prefix _
    have hlength : piece.length ≤ min limits.maxFrameChars (limits.maxTotalChars - state.used) :=
      le_trans hfront.length_le (List.length_take_le _ _)
    have hroom : state.used + piece.length ≤ limits.maxTotalChars := by omega
    have hpiece : piece ≠ [] := by
      rw [← hpieceEq]
      refine boundary_ne_nil ?_ hframe
      rw [ne_eq, List.take_eq_nil_iff, not_or]
      exact ⟨by omega, hrest⟩
    have hsplit : rest = piece ++ rest.drop piece.length := by
      obtain ⟨left, hleft⟩ := hfront.trans (List.take_prefix _ _)
      rw [← hleft, List.drop_left]
    simp only [if_neg hpiece] at hfine ⊢
    have hgivenRest := hgiven hrest
    -- the first turn is fine, so the gate lets it through
    have hturn : (⟨seam, state, piece, rest.drop piece.length⟩ : Turn).Fine facts := by
      refine hfine _ ?_
      split_ifs
      · exact List.mem_cons_self
      · exact List.mem_cons_self
    have hpasses : rejectionReason (state.text ++ piece) facts = none := by
      refine hturn.passes hseam ?_
      rwa [List.append_assoc, ← hsplit]
    obtain ⟨hseam', hwithin', hremembers', hstopped', htruncated'⟩ :=
      hseam.after hstate.within hstate.remembers hturn.nonblank hpasses hroom
    rw [hpasses, Option.isSome_none, if_neg Bool.false_ne_true]
    have hstate' : Unrejected limits (state.accept piece).1 :=
      ⟨hwithin', hremembers', hstopped'.trans hstate.going, fun h => by
        rw [htruncated', htruncated] at h
        cases h⟩
    by_cases hover : limits.maxTotalChars ≤ (state.accept piece).1.used ∧ rest.drop piece.length ≠ []
    · simp only [if_pos hover]
      refine ⟨?_, ⟨⟨hwithin'.used, hwithin'.bounded, hwithin'.nonblank⟩, hremembers', hstate'.going, fun _ => hover.1⟩,
        ?_, ?_⟩
      · congr 2
      · rw [List.map_singleton, List.flatten_singleton]
        exact hfront.trans (List.take_prefix _ _)
      · intro h
        cases h
    · simp only [if_neg hover] at hfine ⊢
      have hleft : (rest.drop piece.length).length < fuel := by
        have hpos := List.length_pos_of_ne_nil hpiece
        have hall := List.length_pos_of_ne_nil hrest
        rw [List.length_drop]
        omega
      have hgiven' : rest.drop piece.length ≠ [] →
          rejectionReason (given ++ piece ++ rest.drop piece.length) facts = none := by
        intro _
        rwa [List.append_assoc, ← hsplit]
      obtain ⟨hloop, hkept⟩ := ih (frames ++ (state.accept piece).2.toList) hstate'
        (htruncated'.trans htruncated) hseam'
        hgiven' hleft fun turn hmem => hfine turn (List.mem_cons_of_mem _ hmem)
      refine ⟨?_, hkept.unrejected, ?_, fun h => ?_⟩
      · rw [hloop, List.append_assoc]
        congr 3
        rw [List.filterMap_cons, Turn.frame?]
        cases (state.accept piece).2 <;> rfl
      · rw [List.map_cons, List.flatten_cons]
        conv_rhs => rw [hsplit]
        exact (List.prefix_append_right_inj _).mpr hkept.front
      · obtain ⟨hpieces, hlast⟩ := hkept.whole h
        rw [List.map_cons, List.flatten_cons, hpieces, ← hsplit]
        rw [List.append_assoc, ← hsplit] at hlast
        exact ⟨rfl, hlast⟩

/-! ## Calls -/

/-- A call that nothing is rejected in. -/
theorem commit_eq_turns (hframe : 0 < limits.maxFrameChars) {seam : Seam} {state : Coalescer} {given : List Char}
    {call : Call} (hstate : Unrejected limits state) (htruncated : state.truncated = false)
    (hseam : AtSeam call.facts seam state.text given) (htext : Text.stripped call.text ≠ [])
    (hgiven : rejectionReason (given ++ call.text) call.facts = none)
    (hfine : ∀ turn ∈ (state.turnsOf limits seam call.text).1, turn.Fine call.facts) :
    state.commit limits call.facts call.text = some ((state.turnsOf limits seam call.text).2.2,
        (state.turnsOf limits seam call.text).1.filterMap Turn.frame?)
      ∧ Kept limits call.facts given call.text (state.turnsOf limits seam call.text).1
          (state.turnsOf limits seam call.text).2.1 (state.turnsOf limits seam call.text).2.2 := by
  have hgoing : ¬ (state.stopped = true ∨ state.truncated = true ∨ Text.stripped call.text = []) := by
    rw [hstate.going, htruncated]
    simpa using htext
  rw [Coalescer.turnsOf, if_neg hgoing] at hfine ⊢
  rw [Coalescer.commit, if_neg hgoing]
  have hloop := loop_eq_turns hframe [] hstate htruncated hseam (fun _ => hgiven)
    (Nat.lt_succ_self call.text.length) hfine
  simpa only [List.nil_append] using hloop

/-- After the end of the budget there are no turns. -/
theorem runTurns_of_truncated {seam : Seam} {state : Coalescer} (h : state.truncated = true) (calls : List Call) :
    Coalescer.runTurns limits seam state calls = calls.map fun _ => [] := by
  induction calls with
  | nil => rfl
  | cons call calls ih =>
    have hnone : state.turnsOf limits seam call.text = ([], seam, state) := by
      rw [Coalescer.turnsOf, if_pos (.inr (.inl h))]
    rw [Coalescer.runTurns, hnone]
    dsimp only
    rw [ih]
    rfl

/-- **A piece is released** as it is, the very first one without the line breaks before it, unless it repeats what was
sent last. -/
def Turn.Released (turn : Turn) : Prop :=
  turn.frame? = some (if turn.state.sent = [] then turn.piece.dropWhile (· = '\n') else turn.piece)
    ∨ (turn.frame? = none ∧ Text.stripped turn.piece = turn.state.lastSent)

/-- A piece that is not blank is released. -/
theorem Turn.released {turn : Turn} (h : Text.stripped turn.piece ≠ []) : turn.Released := by
  rw [Turn.Released, Turn.frame?]
  rcases hresult : turn.state.accept turn.piece with ⟨next, - | frame⟩
  · exact .inr ⟨rfl, (accept_eq_none h hresult).2⟩
  · exact .inl (congrArg some (accept_eq_some hresult).1)

/-- **A call releases its text**: piece by piece a front of it, and all of it as long as the budget is not used up. -/
structure Releases (last : Coalescer) (call : Call) (turns : List Turn) : Prop where
  front : (turns.map Turn.piece).flatten <+: call.text
  whole : last.truncated = false → (turns.map Turn.piece).flatten = call.text
  released : ∀ turn ∈ turns, turn.Released

/-- **A run is the one without the gate.** The texts that were given before pass with those of the calls, and the turns
are fine. -/
theorem run_eq_turns (hframe : 0 < limits.maxFrameChars) {calls : List Call} {seam : Seam} {state : Coalescer}
    {given : List Char} (hstate : Unrejected limits state)
    (hseam : state.truncated = false → ∀ call ∈ calls, AtSeam call.facts seam state.text given)
    (hgrow : calls.Pairwise fun earlier later => earlier.facts.lines ⊆ later.facts.lines)
    (hgood : ∀ front call back, calls = front ++ call :: back → Text.stripped call.text ≠ []
      ∧ rejectionReason (given ++ (front.map Call.text).flatten ++ call.text) call.facts = none)
    (hfine : List.Forall₂ (fun call turns => ∀ turn ∈ turns, turn.Fine call.facts) calls
      (Coalescer.runTurns limits seam state calls)) :
    ∃ last, state.run limits calls
          = some (last, (Coalescer.runTurns limits seam state calls).map (·.filterMap Turn.frame?))
      ∧ Unrejected limits last
      ∧ List.Forall₂ (Releases last) calls (Coalescer.runTurns limits seam state calls) := by
  induction calls generalizing seam state given with
  | nil => exact ⟨state, rfl, hstate, .nil⟩
  | cons call calls ih =>
    by_cases htruncated : state.truncated = true
    · refine ⟨state, ?_, hstate, ?_⟩
      · rw [run_of_ended (.inr htruncated), runTurns_of_truncated htruncated, List.map_map]
        rfl
      · rw [runTurns_of_truncated htruncated, List.forall₂_map_right_iff]
        refine List.forall₂_same.mpr fun call _ => ⟨List.nil_prefix, fun h => ?_, List.forall_mem_nil _⟩
        rw [htruncated] at h
        cases h
    rw [Bool.not_eq_true] at htruncated
    obtain ⟨htext, hpasses⟩ := hgood [] call calls rfl
    rw [List.map_nil, List.flatten_nil, List.append_nil] at hpasses
    have hcall := commit_eq_turns hframe hstate htruncated (hseam htruncated call List.mem_cons_self) htext hpasses
    rw [Coalescer.runTurns] at hfine ⊢
    rw [List.pairwise_cons] at hgrow
    generalize state.turnsOf limits seam call.text = taken at hcall hfine ⊢
    obtain ⟨turns, next, after⟩ := taken
    obtain ⟨hfineCall, hfineRest⟩ := List.forall₂_cons.mp hfine
    obtain ⟨hcommit, hkept⟩ := hcall hfineCall
    have hseam' : after.truncated = false → ∀ later ∈ calls, AtSeam later.facts next after.text (given ++ call.text) :=
      fun h later hlater => (hkept.whole h).2.mono (hgrow.1 later hlater)
    obtain ⟨last, hrun, hlast, hreleases⟩ := ih hkept.unrejected hseam' hgrow.2 (fun front later back heq => by
      obtain ⟨hlaterText, hlaterPasses⟩ := hgood (call :: front) later back (by rw [heq, List.cons_append])
      refine ⟨hlaterText, ?_⟩
      simpa only [List.map_cons, List.flatten_cons, List.append_assoc] using hlaterPasses) hfineRest
    refine ⟨last, ?_, hlast, .cons ⟨hkept.front, fun h => (hkept.whole ?_).1, fun turn hturn =>
      Turn.released (hfineCall turn hturn).nonblank⟩ hreleases⟩
    · rw [Coalescer.run, hcommit]
      simp only [Option.bind_eq_bind, Option.bind_some]
      rw [hrun]
      rfl
    · -- the end of the budget stays
      rw [← Bool.not_eq_true]
      intro hended
      rw [run_of_ended (.inr hended)] at hrun
      rw [← (Prod.mk.inj (Option.some.inj hrun)).1, hended] at h
      cases h

/-- **Good text is released** where its pieces are fine. The facts grow, no text is blank and all texts so far pass with
the facts of each call: then nothing is rejected, and every call releases its pieces, without the line breaks before
the very first one and without the repeats; they make up its text until the budget is used up. -/
theorem good_text_released {limits : Limits} (hframe : 0 < limits.maxFrameChars) {calls : List Call}
    (hgrow : calls.Pairwise fun earlier later => earlier.facts.lines ⊆ later.facts.lines)
    (hgood : ∀ front call back, calls = front ++ call :: back → Text.stripped call.text ≠ []
      ∧ rejectionReason ((front.map Call.text).flatten ++ call.text) call.facts = none)
    (hfine : List.Forall₂ (fun call turns => ∀ turn ∈ turns, turn.Fine call.facts) calls
      (Coalescer.runTurns limits .joined .new calls)) :
    ∃ last, Coalescer.new.run limits calls
          = some (last, (Coalescer.runTurns limits .joined .new calls).map (·.filterMap Turn.frame?))
      ∧ last.stopped = false ∧ (last.truncated = true → limits.maxTotalChars ≤ last.used)
      ∧ List.Forall₂ (Releases last) calls (Coalescer.runTurns limits .joined .new calls) := by
  have hnew : Unrejected limits .new := ⟨within_new, fun _ => rfl, rfl, fun h => by cases h⟩
  have hstart : Coalescer.new.truncated = false → ∀ call ∈ calls, AtSeam call.facts .joined Coalescer.new.text [] :=
    fun _ call _ => .joined (.whole [] [] fun c hc => absurd hc List.not_mem_nil) fun h => absurd rfl h
  obtain ⟨last, hrun, hlast, hreleases⟩ := run_eq_turns hframe hnew hstart hgrow hgood hfine
  exact ⟨last, hrun, hlast.going, hlast.full, hreleases⟩

/-- Two lines, the first of which is cut before its number. -/
theorem good_text_released_lines :
    ∃ last, Coalescer.new.run ⟨200, 8000⟩ [⟨⟨"", []⟩, "\n共 12".toList⟩, ⟨⟨"", ["12".toList]⟩, "\n完成。".toList⟩]
          = some (last, [["共 ".toList, "12".toList], ["\n完成。".toList]])
      ∧ last.stopped = false := by
  have hturns : Coalescer.runTurns ⟨200, 8000⟩ .joined .new
        [⟨⟨"", []⟩, "\n共 12".toList⟩, ⟨⟨"", ["12".toList]⟩, "\n完成。".toList⟩]
      = [[⟨.joined, .new, "\n共 ".toList, "12".toList⟩,
          ⟨.joined, ⟨["共 ".toList], "共".toList, 2, false, false⟩, "12".toList, []⟩],
        [⟨.joined, ⟨["共 ".toList, "12".toList], "12".toList, 4, false, false⟩, "\n完成。".toList, []⟩]] := rfl
  have hwhole : ∀ (facts : Facts) (front : List Char), CleanCut facts front [] := fun facts front =>
    { number := fun _ _ hgoes => absurd hgoes Bool.false_ne_true
      code := fun _ => rfl }
  have hfirst : CleanCut ⟨"", []⟩ (Coalescer.new.text ++ "\n共 ".toList) "12".toList :=
    { number := fun digits hreading => absurd hreading (Option.some_ne_none digits).symm
      code := fun hcode => absurd hcode (by decide) }
  have hgood : ∀ front call back,
      [(⟨⟨"", []⟩, "\n共 12".toList⟩ : Call), ⟨⟨"", ["12".toList]⟩, "\n完成。".toList⟩] = front ++ call :: back →
        Text.stripped call.text ≠ []
          ∧ rejectionReason ((front.map Call.text).flatten ++ call.text) call.facts = none := by
    intro front call back heq
    rcases front with - | ⟨first, - | ⟨second, front⟩⟩
    · rw [← (List.cons.inj heq).1]
      decide
    · obtain ⟨hfirst, heq⟩ := List.cons.inj heq
      rw [← (List.cons.inj heq).1, ← hfirst]
      decide
    · have hrest := (List.cons.inj (List.cons.inj heq).2).2
      exact absurd hrest (List.append_ne_nil_of_right_ne_nil front (List.cons_ne_nil call back)).symm
  have hfine : List.Forall₂ (fun (call : Call) turns => ∀ turn ∈ turns, turn.Fine call.facts)
      [⟨⟨"", []⟩, "\n共 12".toList⟩, ⟨⟨"", ["12".toList]⟩, "\n完成。".toList⟩]
      (Coalescer.runTurns ⟨200, 8000⟩ .joined .new
        [⟨⟨"", []⟩, "\n共 12".toList⟩, ⟨⟨"", ["12".toList]⟩, "\n完成。".toList⟩]) := by
    rw [hturns]
    refine .cons (fun turn hturn => ?_) (.cons (fun turn hturn => ?_) .nil)
    · rcases List.mem_cons.mp hturn with rfl | hturn
      · exact ⟨by decide, hfirst, .inl rfl⟩
      · rw [List.mem_singleton.mp hturn]
        exact ⟨by decide, hwhole _ _, .inl rfl⟩
    · rw [List.mem_singleton.mp hturn]
      exact ⟨by decide, hwhole _ _, .inl rfl⟩
  obtain ⟨last, hrun, hgoing, -⟩ := good_text_released (by decide) (by simp) hgood hfine
  exact ⟨last, hrun, hgoing⟩

/-- A text that ends with a number of several groups is cut within it, and what is before the cut is rejected. -/
theorem number_cut_rejected :
    rejectionReason "\n合计 1,234,567".toList ⟨"", ["1,234,567".toList]⟩ = none
      ∧ ∃ last, Coalescer.new.run ⟨200, 8000⟩ [⟨⟨"", ["1,234,567".toList]⟩, "\n合计 1,234,567".toList⟩]
          = some (last, [[]])
        ∧ last.stopped = true := by
  have hrun : (Coalescer.new.run ⟨200, 8000⟩ [⟨⟨"", ["1,234,567".toList]⟩, "\n合计 1,234,567".toList⟩]).map
      (fun result => (result.1.stopped, result.2)) = some (true, [[]]) := by decide
  obtain ⟨⟨last, released⟩, hresult, heq⟩ := Option.map_eq_some_iff.mp hrun
  obtain ⟨hstopped, hreleased⟩ := Prod.mk.inj heq
  refine ⟨by decide, last, ?_, hstopped⟩
  rw [hresult]
  exact congrArg (fun frames => some (last, frames)) hreleased

end Thinking
