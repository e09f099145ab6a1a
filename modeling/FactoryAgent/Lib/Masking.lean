import Mathlib.Data.List.Basic

/-!
# Masking what matches

`re.sub` with a pattern that is tried at each position from the left: a match is replaced, what follows it is searched
on, and other characters stay. A matcher says how many characters match at a position, from the character before it and
the text from it on. What holds at each position of a text (`Everywhere`) holds of the masked text where the characters
that stay keep it, and the masks have it (`Everywhere.mask`). Texts that begin with characters of some classes begin so
in the masked text only where they did before (`startsWith_of_mask`).
-/

namespace Masking

/-- **A matcher**: the number of characters that match at a position, `0` for none. -/
abbrev Matcher : Type :=
  Option Char → List Char → Nat

/-- The masked rest of a text, after the characters of a match that are still to be dropped. -/
def maskFrom (m : Matcher) (mark : List Char → List Char) : Nat → Option Char → List Char → List Char
  | _, _, [] => []
  | skip + 1, _, c :: cs => maskFrom m mark skip (some c) cs
  | 0, before, c :: cs =>
    if m before (c :: cs) = 0 then c :: maskFrom m mark 0 (some c) cs
    else mark ((c :: cs).take (m before (c :: cs))) ++ maskFrom m mark (m before (c :: cs) - 1) (some c) cs

/-- **The masked text**: each match from the left is replaced by its mark. -/
def mask (m : Matcher) (mark : List Char → List Char) (before : Option Char) (cs : List Char) : List Char :=
  maskFrom m mark 0 before cs

variable {m : Matcher} {mark : List Char → List Char}

@[simp] theorem mask_nil (before : Option Char) : mask m mark before [] = [] :=
  rfl

/-- Dropped characters are gone. -/
theorem exists_maskFrom (skip : Nat) (before : Option Char) (cs : List Char) :
    ∃ before', maskFrom m mark skip before cs = mask m mark before' (cs.drop skip) := by
  induction skip generalizing before cs with
  | zero => exact ⟨before, rfl⟩
  | succ skip ih =>
    cases cs with
    | nil => exact ⟨before, rfl⟩
    | cons c cs => exact ih (some c) cs

/-- **A character where nothing matches stays.** -/
theorem mask_cons {before : Option Char} {c : Char} {cs : List Char} (h : m before (c :: cs) = 0) :
    mask m mark before (c :: cs) = c :: mask m mark (some c) cs :=
  if_pos h

/-- **A match is replaced by its mark.** -/
theorem exists_mask_match {before : Option Char} {c : Char} {cs : List Char} (h : m before (c :: cs) ≠ 0) :
    ∃ before', mask m mark before (c :: cs)
      = mark ((c :: cs).take (m before (c :: cs))) ++ mask m mark before' ((c :: cs).drop (m before (c :: cs))) := by
  obtain ⟨before', hrest⟩ := @exists_maskFrom m mark (m before (c :: cs) - 1) (some c) cs
  refine ⟨before', ?_⟩
  have hdrop : (c :: cs).drop (m before (c :: cs)) = cs.drop (m before (c :: cs) - 1) := by
    obtain ⟨n, hn⟩ := Nat.exists_eq_succ_of_ne_zero h
    rw [hn]
    rfl
  rw [hdrop, ← hrest]
  exact if_neg h

/-! ## What holds at each position -/

/-- **What holds at each position of a text**, of the character before it and the text from it on. -/
def Everywhere (ok : Option Char → List Char → Prop) : Option Char → List Char → Prop
  | _, [] => True
  | before, c :: cs => ok before (c :: cs) ∧ Everywhere ok (some c) cs

/-- What holds at each position of a text holds at each position of its rest. -/
theorem Everywhere.drop {ok : Option Char → List Char → Prop} {before : Option Char} {cs : List Char}
    (h : Everywhere ok before cs) (n : Nat) : ∃ before', Everywhere ok before' (cs.drop n) := by
  induction n generalizing before cs with
  | zero => exact ⟨before, h⟩
  | succ n ih =>
    cases cs with
    | nil => exact ⟨before, trivial⟩
    | cons c cs => exact ih h.2

/-- A text with nothing after it, or a blank: where a match that takes all but blanks ends. -/
def Ends (blank : Char → Bool) (cs : List Char) : Prop :=
  ∀ c ∈ cs.head?, blank c = true

/-- **What holds of a masked text**: `ok` holds at each position, where a character that stays keeps it, where it holds
in a mark and after it, and where a match takes all up to a blank, at which nothing matches and `ok` holds. -/
theorem Everywhere.mask {base ok : Option Char → List Char → Prop} {blank : Char → Bool}
    (hkeep : ∀ before c cs, m before (c :: cs) = 0 → base before (c :: cs) →
      ok before (c :: Masking.mask m mark (some c) cs))
    (hmark : ∀ before part rest, Ends blank rest → (∀ before, Everywhere ok before rest) →
      Everywhere ok before (mark part ++ rest))
    (hends : ∀ before cs, m before cs ≠ 0 → Ends blank (cs.drop (m before cs)))
    (hnone : ∀ before c cs, blank c = true → m before (c :: cs) = 0)
    (hblank : ∀ before c cs, blank c = true → ok before (c :: cs))
    {before : Option Char} {cs : List Char} (h : Everywhere base before cs) :
    Everywhere ok before (Masking.mask m mark before cs) := by
  induction hlength : cs.length using Nat.strongRecOn generalizing before cs with
  | ind length ih =>
    cases cs with
    | nil => exact trivial
    | cons c cs =>
      by_cases hmatch : m before (c :: cs) = 0
      · rw [mask_cons hmatch]
        exact ⟨hkeep before c cs hmatch h.1, ih cs.length (hlength ▸ Nat.lt_succ_self _) h.2 rfl⟩
      · obtain ⟨after, heq⟩ := @exists_mask_match m mark before c cs hmatch
        rw [heq]
        have hrest := hends before (c :: cs) hmatch
        have hshort : ((c :: cs).drop (m before (c :: cs))).length < length := by
          rw [← hlength, List.length_drop]
          exact Nat.sub_lt (Nat.succ_pos _) (Nat.pos_of_ne_zero hmatch)
        obtain ⟨start, hbase⟩ := h.drop (m before (c :: cs))
        cases htail : (c :: cs).drop (m before (c :: cs)) with
        | nil => exact hmark before _ _ (by simp [Ends]) fun _ => trivial
        | cons d ds =>
          rw [htail] at hrest hshort hbase
          have hd : blank d = true := hrest d rfl
          rw [mask_cons (hnone after d ds hd)]
          have hds : Everywhere ok (some d) (Masking.mask m mark (some d) ds) :=
            ih ds.length (Nat.lt_of_succ_lt hshort) hbase.2 rfl
          exact hmark before _ _ (fun e he => by cases he; exact hd) fun _ => ⟨hblank _ d _ hd, hds⟩

/-! ## What is replaced -/

/-- A part of a text that matches somewhere. -/
def Matches (m : Matcher) (part : List Char) : Prop :=
  ∃ before text, m before text ≠ 0 ∧ part = text.take (m before text)

/-- **A text in which some parts are replaced**: cut into pieces, each of which stays or is such a part and becomes its
mark. -/
def Replaces (part : List Char → Prop) (mark : List Char → List Char) (cs out : List Char) : Prop :=
  ∃ pieces : List (List Char × List Char), pieces.flatMap Prod.fst = cs ∧ pieces.flatMap Prod.snd = out
    ∧ ∀ piece ∈ pieces, piece.2 = piece.1 ∨ part piece.1 ∧ piece.2 = mark piece.1

/-- **Masking replaces matches only.** -/
theorem replaces_mask (before : Option Char) (cs : List Char) :
    Replaces (Matches m) mark cs (mask m mark before cs) := by
  induction hlength : cs.length using Nat.strongRecOn generalizing before cs with
  | ind length ih =>
    cases cs with
    | nil => exact ⟨[], rfl, rfl, fun _ h => absurd h List.not_mem_nil⟩
    | cons c cs =>
      by_cases hmatch : m before (c :: cs) = 0
      · obtain ⟨pieces, hfirst, hsecond, hpieces⟩ := ih cs.length (hlength ▸ Nat.lt_succ_self _) (some c) cs rfl
        refine ⟨([c], [c]) :: pieces, ?_, ?_, List.forall_mem_cons.mpr ⟨.inl rfl, hpieces⟩⟩
        · rw [List.flatMap_cons, hfirst]
          rfl
        · rw [List.flatMap_cons, hsecond, mask_cons hmatch]
          rfl
      · obtain ⟨after, heq⟩ := @exists_mask_match m mark before c cs hmatch
        have hshort : ((c :: cs).drop (m before (c :: cs))).length < length := by
          rw [← hlength, List.length_drop]
          exact Nat.sub_lt (Nat.succ_pos _) (Nat.pos_of_ne_zero hmatch)
        obtain ⟨pieces, hfirst, hsecond, hpieces⟩ := ih _ hshort after _ rfl
        refine ⟨((c :: cs).take (m before (c :: cs)), mark ((c :: cs).take (m before (c :: cs)))) :: pieces, ?_, ?_,
          List.forall_mem_cons.mpr ⟨.inr ⟨⟨before, c :: cs, hmatch, rfl⟩, rfl⟩, hpieces⟩⟩
        · rw [List.flatMap_cons, hfirst, List.take_append_drop]
        · rw [List.flatMap_cons, hsecond, heq]

/-! ## Characters of classes -/

/-- The text begins with a character of each of these classes. -/
def startsWith : List (Char → Bool) → List Char → Bool
  | [], _ => true
  | _ :: _, [] => false
  | p :: ps, c :: cs => p c && startsWith ps cs

/-- **What a masked text begins with, the text begins with**, where the first character of a mark is of none of the
classes but the last one, and the first character of a match is of the last one. -/
theorem startsWith_of_mask {ps : List (Char → Bool)} {p : Char → Bool}
    (hmark : ∀ part, ∀ q ∈ ps, ∀ rest, startsWith [q] (mark part ++ rest) = false)
    (hfirst : ∀ before c cs, m before (c :: cs) ≠ 0 → p c = true)
    {before : Option Char} {cs : List Char} (h : startsWith (ps ++ [p]) (mask m mark before cs) = true) :
    startsWith (ps ++ [p]) cs = true := by
  induction ps generalizing before cs with
  | nil =>
    cases cs with
    | nil => exact h
    | cons c cs =>
      by_cases hmatch : m before (c :: cs) = 0
      · rw [mask_cons hmatch] at h
        exact h
      · simp only [List.nil_append, startsWith, hfirst before c cs hmatch, Bool.and_self]
  | cons q ps ih =>
    cases cs with
    | nil => exact h
    | cons c cs =>
      by_cases hmatch : m before (c :: cs) = 0
      · rw [mask_cons hmatch, List.cons_append, startsWith, Bool.and_eq_true] at h
        rw [List.cons_append, startsWith, Bool.and_eq_true]
        exact ⟨h.1, ih (fun part q' hq' => hmark part q' (List.mem_cons_of_mem q hq')) h.2⟩
      · obtain ⟨after, heq⟩ := @exists_mask_match m mark before c cs hmatch
        rw [heq] at h
        have hnot := hmark ((c :: cs).take (m before (c :: cs))) q List.mem_cons_self
          (mask m mark after ((c :: cs).drop (m before (c :: cs))))
        generalize mark ((c :: cs).take (m before (c :: cs)))
          ++ mask m mark after ((c :: cs).drop (m before (c :: cs))) = masked at h hnot
        cases masked with
        | nil => exact absurd h (by simp [startsWith])
        | cons d ds =>
          simp only [List.cons_append, startsWith, Bool.and_true, Bool.and_eq_true] at h hnot
          exact absurd h.1 (Bool.eq_false_iff.mp hnot)

/-- A text begins with characters of some classes and then of others. -/
theorem startsWith_append (ps qs : List (Char → Bool)) (cs : List Char) :
    startsWith (ps ++ qs) cs = (startsWith ps cs && startsWith qs (cs.drop ps.length)) := by
  induction ps generalizing cs with
  | nil => rfl
  | cons p ps ih =>
    cases cs with
    | nil => rfl
    | cons c cs => simp only [List.cons_append, startsWith, ih, Bool.and_assoc, List.length_cons, List.drop_succ_cons]

/-- What begins at a character that stays began there before. -/
theorem startsWith_cons_of_mask {q p : Char → Bool} {ps : List (Char → Bool)}
    (hmark : ∀ part, ∀ q ∈ ps, ∀ rest, startsWith [q] (mark part ++ rest) = false)
    (hfirst : ∀ before c cs, m before (c :: cs) ≠ 0 → p c = true)
    {c : Char} {cs : List Char} (h : startsWith (q :: ps ++ [p]) (c :: mask m mark (some c) cs) = true) :
    startsWith (q :: ps ++ [p]) (c :: cs) = true := by
  rw [List.cons_append, startsWith, Bool.and_eq_true] at h ⊢
  exact ⟨h.1, startsWith_of_mask hmark hfirst h.2⟩

/-- **A run of characters and then another one**, by classes. -/
theorem startsWith_replicate (p : Char → Bool) (cs : List Char) :
    (∃ n, startsWith (List.replicate (n + 1) p ++ [fun c => !p c]) cs = true)
      ↔ cs.takeWhile p ≠ [] ∧ (cs.dropWhile p).takeWhile (fun c => !p c) ≠ [] := by
  induction cs with
  | nil => simp [startsWith, List.replicate_succ]
  | cons c cs ih =>
    cases hc : p c with
    | false => simp [startsWith, List.replicate_succ, hc]
    | true =>
      simp only [List.replicate_succ, List.cons_append, startsWith, hc, Bool.true_and, List.takeWhile_cons_of_pos,
        List.dropWhile_cons_of_pos, ne_eq, reduceCtorEq, not_false_eq_true, true_and]
      constructor
      · rintro ⟨n, hn⟩
        cases n with
        | zero =>
          cases cs with
          | nil => exact absurd hn (by simp [startsWith])
          | cons d ds =>
            have hd : p d = false := by simpa [startsWith] using hn
            simp [hd]
        | succ n => exact (ih.mp ⟨n, by simpa [List.replicate_succ] using hn⟩).2
      · intro hrest
        by_cases hrun : cs.takeWhile p = []
        · cases cs with
          | nil => exact absurd rfl hrest
          | cons d ds =>
            have hd : p d = false := by
              cases hd : p d with
              | false => rfl
              | true => simp [hd] at hrun
            exact ⟨0, by simp [startsWith, hd]⟩
        · obtain ⟨n, hn⟩ := ih.mpr ⟨hrun, hrest⟩
          exact ⟨n + 1, by simpa [List.replicate_succ] using hn⟩

/-- After a run there is nothing, or a character that does not belong to it. -/
theorem ends_dropWhile (p : Char → Bool) (cs : List Char) : Ends (fun c => !p c) (cs.dropWhile p) := fun c hc => by
  have h := List.head?_dropWhile_not p cs
  rw [hc] at h
  simpa using h

end Masking
