import FactoryAgent.Lib.Masking
import FactoryAgent.Lib.Text

/-!
# Secrets in texts

`observability/redaction.py`: the patterns for what may stand in a text whatever its key is, the address of a database
and a bearer token, and the query of an address. `redact_value` masks the first two; what it returns has neither of them
(`clean_redactValue`): a mask begins with a character that occurs in neither pattern, so no match runs into one.
-/

namespace Redaction

open Masking

/-! ## Patterns -/

/-- `REDACTED` -/
def redacted : List Char :=
  "[REDACTED]".toList

/-- A character as `re.IGNORECASE` compares it with an ASCII letter. -/
def foldCase (c : Char) : Char :=
  if c = 'ſ' then 's' else if c = '\u212a' then 'k' else if c = 'İ' ∨ c = 'ı' then 'i' else c.toLower

/-- The classes of the characters of a text in a pattern. -/
def literal (text : String) : List (Char → Bool) :=
  text.toList.map fun p c => foldCase c == p

/-- `\S` -/
def nonspace (c : Char) : Bool :=
  !Text.isSpace c

/-- What `\w` matches. -/
structure Words where
  isWord : Char → Bool

variable (words : Words)

/-- `\b` before a letter. -/
def boundary (before : Option Char) : Bool :=
  before.all fun c => !words.isWord c

/-- The schemes of `_DSN_PATTERN`. -/
def schemes : List String :=
  ["postgresql", "postgres", "redis", "mysql"]

/-- What a database address with this scheme begins with. -/
def dsnClasses (scheme : String) : List (Char → Bool) :=
  literal (scheme ++ "://") ++ [nonspace]

/-- **`_DSN_PATTERN`**: a scheme and all up to a blank. -/
def dsn : Matcher := fun before cs =>
  if boundary words before then
    match schemes.find? fun scheme => startsWith (dsnClasses scheme) cs with
    | some _ => (cs.takeWhile nonspace).length
    | none => 0
  else 0

/-- **The bearer token** of a text that begins with `bearer`, blanks and other characters. -/
def bearerToken? (before : Option Char) (cs : List Char) : Option (List Char) :=
  if boundary words before && startsWith (literal "bearer") cs then
    let token := ((cs.drop 6).dropWhile Text.isSpace).takeWhile nonspace
    if (cs.drop 6).takeWhile Text.isSpace ≠ [] ∧ token ≠ [] then some token else none
  else none

/-- **`_BEARER_PATTERN`** -/
def bearer : Matcher := fun before cs =>
  match bearerToken? words before cs with
  | some token => 6 + ((cs.drop 6).takeWhile Text.isSpace).length + token.length
  | none => 0

/-- **`redact_value`** of a text. -/
def redactValue (text : String) : String :=
  String.ofList (mask (bearer words) (fun _ => "Bearer ".toList ++ redacted) none
    (mask (dsn words) (fun _ => redacted) none text.toList))

/-! ## Clean texts -/

/-- No secret begins here: no database address, and no bearer token but a mask. -/
def NoSecret (before : Option Char) (cs : List Char) : Prop :=
  dsn words before cs = 0 ∧ ∀ token ∈ bearerToken? words before cs, token = redacted

/-- **A text without secrets.** -/
def Clean (text : String) : Prop :=
  Everywhere (NoSecret words) none text.toList

/-! ## Classes and blanks -/

/-- A blank has no case. -/
theorem foldCase_of_isSpace {c : Char} (h : Text.isSpace c = true) : foldCase c = c := by
  have hlower : c.toLower = c := by
    refine dif_neg fun hupper => ?_
    have hlow : 65 ≤ c.toNat := UInt32.le_iff_toNat_le.mp hupper.1
    have hhigh : c.toNat ≤ 90 := UInt32.le_iff_toNat_le.mp hupper.2
    simp only [Text.isSpace, Bool.or_eq_true, Bool.and_eq_true, decide_eq_true_eq, List.mem_cons, List.not_mem_nil,
      or_false] at h
    omega
  rw [foldCase, if_neg, if_neg, if_neg, hlower]
  · rintro (rfl | rfl) <;> exact absurd h (by decide)
  · rintro rfl
    exact absurd h (by decide)
  · rintro rfl
    exact absurd h (by decide)

/-- No class of a text without blanks has a blank. -/
theorem literal_of_isSpace {text : String} (htext : text.toList.all nonspace = true) {c : Char}
    (h : Text.isSpace c = true) : ∀ q ∈ literal text, q c = false := by
  intro q hq
  obtain ⟨p, hp, rfl⟩ := List.mem_map.mp hq
  refine beq_false_of_ne fun heq => ?_
  have hnonspace := List.all_eq_true.mp htext p hp
  rw [nonspace, ← heq, foldCase_of_isSpace h, h] at hnonspace
  exact Bool.false_ne_true hnonspace

/-- A text that begins with characters of the classes of a text without blanks begins with no blank. -/
theorem takeWhile_of_startsWith {text : String} (htext : text.toList.all nonspace = true)
    (hne : text.toList ≠ []) {ps : List (Char → Bool)} {cs : List Char}
    (h : startsWith (literal text ++ ps) cs = true) : cs.takeWhile nonspace ≠ [] := by
  obtain ⟨p, rest, htoList⟩ := List.exists_cons_of_ne_nil hne
  have hclasses : literal text = (fun d => foldCase d == p) :: rest.map fun p d => foldCase d == p := by
    rw [literal, htoList, List.map_cons]
  rw [hclasses, List.cons_append] at h
  cases cs with
  | nil => exact absurd h Bool.false_ne_true
  | cons c cs =>
    rw [startsWith, Bool.and_eq_true] at h
    have hc : nonspace c = true := by
      rw [nonspace, Bool.not_eq_true']
      refine Bool.eq_false_iff.mpr fun hspace => ?_
      have hclass := literal_of_isSpace htext hspace (fun d => foldCase d == p) (hclasses ▸ List.mem_cons_self)
      exact Bool.false_ne_true (hclass.symm.trans h.1)
    rw [List.takeWhile_cons_of_pos hc]
    exact List.cons_ne_nil _ _

variable {words}

/-! ## Database addresses -/

theorem scheme_nonspace : ∀ scheme ∈ schemes, (scheme ++ "://").toList.all nonspace = true := by
  decide

theorem scheme_ne_nil : ∀ scheme ∈ schemes, (scheme ++ "://").toList ≠ [] := by
  decide

/-- **A database address begins with a scheme.** -/
theorem dsn_ne_zero {before : Option Char} {cs : List Char} :
    dsn words before cs ≠ 0
      ↔ boundary words before = true ∧ ∃ scheme ∈ schemes, startsWith (dsnClasses scheme) cs = true := by
  rw [dsn]
  cases hboundary : boundary words before with
  | false => simp
  | true =>
    rw [if_pos rfl]
    cases hfind : schemes.find? fun scheme => startsWith (dsnClasses scheme) cs with
    | none =>
      have hnone := List.find?_eq_none.mp hfind
      simpa using hnone
    | some scheme =>
      have hmem := List.mem_of_find?_eq_some hfind
      have hstarts := List.find?_some hfind
      have hrun := takeWhile_of_startsWith (scheme_nonspace scheme hmem) (scheme_ne_nil scheme hmem) hstarts
      exact iff_of_true (fun hlength => hrun (List.eq_nil_of_length_eq_zero hlength)) ⟨rfl, scheme, hmem, hstarts⟩

/-- The first character of a database address is no blank. -/
theorem nonspace_of_dsn {before : Option Char} {c : Char} {cs : List Char} (h : dsn words before (c :: cs) ≠ 0) :
    nonspace c = true := by
  obtain ⟨-, scheme, hmem, hstarts⟩ := dsn_ne_zero.mp h
  have hrun := takeWhile_of_startsWith (scheme_nonspace scheme hmem) (scheme_ne_nil scheme hmem) hstarts
  cases hc : nonspace c with
  | true => rfl
  | false => exact absurd (List.takeWhile_cons_of_neg (by simp [hc])) hrun

/-- What follows a run. -/
theorem drop_takeWhile (p : Char → Bool) (cs : List Char) : cs.drop (cs.takeWhile p).length = cs.dropWhile p :=
  calc cs.drop (cs.takeWhile p).length
      = (cs.takeWhile p ++ cs.dropWhile p).drop (cs.takeWhile p).length := by rw [List.takeWhile_append_dropWhile]
    _ = cs.dropWhile p := List.drop_left

/-- A database address goes up to a blank. -/
theorem ends_of_dsn {before : Option Char} {cs : List Char} (h : dsn words before cs ≠ 0) :
    Ends Text.isSpace (cs.drop (dsn words before cs)) := by
  obtain ⟨hboundary, scheme, hmem, hstarts⟩ := dsn_ne_zero.mp h
  have hlength : dsn words before cs = (cs.takeWhile nonspace).length := by
    rw [dsn, if_pos hboundary]
    cases hfind : schemes.find? fun scheme => startsWith (dsnClasses scheme) cs with
    | none => exact absurd hstarts (List.find?_eq_none.mp hfind scheme hmem)
    | some _ => rfl
  rw [hlength, drop_takeWhile]
  intro c hc
  simpa [nonspace] using ends_dropWhile nonspace cs c hc

/-- **A masked text has an address only where the text has one**, where a mark begins with a character that is in none
of the schemes. -/
theorem dsn_of_mask {m : Matcher} {mark : List Char → List Char}
    (hmark : ∀ part, ∀ scheme ∈ schemes, ∀ q ∈ (literal (scheme ++ "://")).tail, ∀ rest,
      startsWith [q] (mark part ++ rest) = false)
    (hfirst : ∀ before c cs, m before (c :: cs) ≠ 0 → nonspace c = true)
    {before : Option Char} {c : Char} {cs : List Char} (h : dsn words before (c :: cs) = 0) :
    dsn words before (c :: mask m mark (some c) cs) = 0 := by
  by_contra hne
  obtain ⟨hboundary, scheme, hmem, hstarts⟩ := dsn_ne_zero.mp hne
  refine dsn_ne_zero.mpr ⟨hboundary, scheme, hmem, ?_⟩ h
  obtain ⟨p, rest, htoList⟩ := List.exists_cons_of_ne_nil (scheme_ne_nil scheme hmem)
  have hclasses : literal (scheme ++ "://") = (fun d => foldCase d == p) :: rest.map fun p d => foldCase d == p := by
    rw [literal, htoList, List.map_cons]
  rw [dsnClasses, hclasses] at hstarts ⊢
  exact startsWith_cons_of_mask (fun part q hq => hmark part scheme hmem q (hclasses ▸ hq)) hfirst hstarts

/-- At a blank no address begins. -/
theorem dsn_of_isSpace {before : Option Char} {c : Char} {cs : List Char} (h : Text.isSpace c = true) :
    dsn words before (c :: cs) = 0 := by
  by_contra hne
  have hnonspace := nonspace_of_dsn hne
  rw [nonspace, h] at hnonspace
  exact Bool.false_ne_true hnonspace

/-! ## Bearer tokens -/

/-- The classes of a bearer token with some blanks before it. -/
def bearerClasses (blanks : Nat) : List (Char → Bool) :=
  literal "bearer" ++ (List.replicate (blanks + 1) Text.isSpace ++ [nonspace])

/-- **A bearer token begins with `bearer` and blanks.** -/
theorem bearerToken?_isSome {before : Option Char} {cs : List Char} :
    (bearerToken? words before cs).isSome = true
      ↔ boundary words before = true ∧ ∃ blanks, startsWith (bearerClasses blanks) cs = true := by
  have hlength : (literal "bearer").length = 6 := rfl
  simp only [bearerClasses, startsWith_append (literal "bearer"), hlength, Bool.and_eq_true, exists_and_left]
  rw [bearerToken?, show nonspace = fun c => !Text.isSpace c from rfl, startsWith_replicate]
  by_cases hboth : boundary words before = true ∧ startsWith (literal "bearer") cs = true
  · rw [if_pos (by simpa using hboth)]
    simp only [hboth.1, hboth.2, true_and]
    split <;> simp_all
  · rw [if_neg (by simpa using hboth)]
    simp only [Option.isSome_none, Bool.false_eq_true, false_iff]
    exact fun h => hboth ⟨h.1, h.2.1⟩

/-- The token is what follows the blanks, up to the next blank. -/
theorem eq_of_mem_bearerToken? {before : Option Char} {cs token : List Char} (h : token ∈ bearerToken? words before cs) :
    token = ((cs.drop 6).dropWhile Text.isSpace).takeWhile nonspace := by
  rw [bearerToken?, Option.mem_def] at h
  split at h
  · dsimp only at h
    split at h
    · exact (Option.some.inj h).symm
    · exact absurd h (Option.some_ne_none _).symm
  · exact absurd h (Option.some_ne_none _).symm

/-- A match of the bearer pattern has a token. -/
theorem bearer_ne_zero {before : Option Char} {cs : List Char} :
    bearer words before cs ≠ 0 ↔ (bearerToken? words before cs).isSome = true := by
  rw [bearer]
  cases bearerToken? words before cs with
  | none => simp
  | some token => simp

/-- The first character of a match is no blank. -/
theorem nonspace_of_bearer {before : Option Char} {c : Char} {cs : List Char} (h : bearer words before (c :: cs) ≠ 0) :
    nonspace c = true := by
  obtain ⟨-, blanks, hstarts⟩ := bearerToken?_isSome.mp (bearer_ne_zero.mp h)
  have hrun := takeWhile_of_startsWith (by decide) (by decide) hstarts
  cases hc : nonspace c with
  | true => rfl
  | false => exact absurd (List.takeWhile_cons_of_neg (by simp [hc])) hrun

/-- A match goes up to a blank. -/
theorem ends_of_bearer {before : Option Char} {cs : List Char} (h : bearer words before cs ≠ 0) :
    Ends Text.isSpace (cs.drop (bearer words before cs)) := by
  obtain ⟨token, htoken⟩ := Option.isSome_iff_exists.mp (bearer_ne_zero.mp h)
  have hlength : bearer words before cs = 6 + ((cs.drop 6).takeWhile Text.isSpace).length + token.length := by
    rw [bearer, htoken]
  rw [hlength, ← List.drop_drop, ← List.drop_drop, drop_takeWhile, eq_of_mem_bearerToken? htoken, drop_takeWhile]
  intro c hc
  simpa [nonspace] using ends_dropWhile nonspace _ c hc

/-- At a blank no match begins. -/
theorem bearer_of_isSpace {before : Option Char} {c : Char} {cs : List Char} (h : Text.isSpace c = true) :
    bearer words before (c :: cs) = 0 := by
  by_contra hne
  have hnonspace := nonspace_of_bearer hne
  rw [nonspace, h] at hnonspace
  exact Bool.false_ne_true hnonspace

/-! ## What `redact_value` returns -/

/-- No secret begins with these characters. -/
theorem noSecret_of_classes {cs : List Char}
    (hdsn : (schemes.any fun scheme => startsWith (dsnClasses scheme) cs) = false)
    (hbearer : startsWith (literal "bearer") cs = false) (before : Option Char) : NoSecret words before cs := by
  constructor
  · by_contra hne
    obtain ⟨-, scheme, hmem, hstarts⟩ := dsn_ne_zero.mp hne
    exact absurd hstarts (List.any_eq_false.mp hdsn scheme hmem)
  · intro token htoken
    have hsome : (bearerToken? words before cs).isSome = true := Option.isSome_iff_exists.mpr ⟨token, htoken⟩
    obtain ⟨-, blanks, hstarts⟩ := bearerToken?_isSome.mp hsome
    rw [bearerClasses, startsWith_append, hbearer, Bool.false_and] at hstarts
    exact absurd hstarts Bool.false_ne_true

/-- No secret begins at a blank. -/
theorem noSecret_of_isSpace {before : Option Char} {c : Char} {cs : List Char} (h : Text.isSpace c = true) :
    NoSecret words before (c :: cs) := by
  refine ⟨dsn_of_isSpace h, fun token htoken => ?_⟩
  have hne := bearer_ne_zero.mpr (Option.isSome_iff_exists.mpr ⟨token, htoken⟩)
  exact absurd (bearer_of_isSpace h) hne

/-- **The mask of a database address begins no secret**, and neither does the rest of it. -/
theorem everywhere_redacted {ok : Option Char → List Char → Prop}
    (hok : ∀ before cs, (schemes.any fun scheme => startsWith (dsnClasses scheme) cs) = false →
      startsWith (literal "bearer") cs = false → ok before cs)
    {before : Option Char} {rest : List Char} (h : ∀ before, Everywhere ok before rest) :
    Everywhere ok before (redacted ++ rest) :=
  ⟨hok _ _ rfl rfl, hok _ _ rfl rfl, hok _ _ rfl rfl, hok _ _ rfl rfl, hok _ _ rfl rfl, hok _ _ rfl rfl,
    hok _ _ rfl rfl, hok _ _ rfl rfl, hok _ _ rfl rfl, hok _ _ rfl rfl, h _⟩

/-- The mask of a bearer token. -/
def bearerMark : List Char :=
  "Bearer ".toList ++ redacted

/-- **The mask of a bearer token has no secret**, before a blank: the token in it is the mask. -/
theorem everywhere_bearerMark {before : Option Char} {rest : List Char} (hends : Ends Text.isSpace rest)
    (h : ∀ before, Everywhere (NoSecret words) before rest) :
    Everywhere (NoSecret words) before (bearerMark ++ rest) := by
  have hfirst : NoSecret words before (bearerMark ++ rest) := by
    constructor
    · by_contra hne
      obtain ⟨-, scheme, hmem, hstarts⟩ := dsn_ne_zero.mp hne
      have hnone : (schemes.any fun scheme => startsWith (dsnClasses scheme) (bearerMark ++ rest)) = false := rfl
      exact absurd hstarts (List.any_eq_false.mp hnone scheme hmem)
    · intro token htoken
      have hrun : (redacted ++ rest).takeWhile nonspace = redacted := by
        rw [List.takeWhile_append_of_pos (List.all_eq_true.mp (by decide))]
        cases rest with
        | nil => rfl
        | cons c cs => rw [List.takeWhile_cons_of_neg (by simp [nonspace, hends c rfl]), List.append_nil]
      exact (eq_of_mem_bearerToken? htoken).trans hrun
  exact ⟨hfirst, noSecret_of_classes rfl rfl _, noSecret_of_classes rfl rfl _, noSecret_of_classes rfl rfl _,
    noSecret_of_classes rfl rfl _, noSecret_of_classes rfl rfl _, noSecret_of_isSpace rfl,
    everywhere_redacted (fun before _ hdsn hbearer => noSecret_of_classes hdsn hbearer before) h⟩

theorem everywhere_true (before : Option Char) (cs : List Char) : Everywhere (fun _ _ => True) before cs := by
  induction cs generalizing before with
  | nil => trivial
  | cons c cs ih => exact ⟨trivial, ih _⟩

/-- No scheme has a character that a mask begins with. -/
theorem scheme_of_mark : ∀ scheme ∈ schemes, ∀ q ∈ (literal (scheme ++ "://")).tail, q '[' = false ∧ q 'B' = false := by
  decide

/-- With the addresses masked there is none. -/
theorem everywhere_dsn_mask (cs : List Char) :
    Everywhere (fun before cs => dsn words before cs = 0) none (mask (dsn words) (fun _ => redacted) none cs) := by
  refine Everywhere.mask (fun before c cs h _ => ?_) (fun before part rest hends h => ?_)
    (fun before cs h => ends_of_dsn h) (fun before c cs h => dsn_of_isSpace h) (fun before c cs h => dsn_of_isSpace h)
    (everywhere_true none cs)
  · refine dsn_of_mask (fun part scheme hscheme q hq rest => ?_) (fun before c cs h => nonspace_of_dsn h) h
    exact (Bool.and_true _).trans (scheme_of_mark scheme hscheme q hq).1
  · exact everywhere_redacted (fun before cs hdsn hbearer => (noSecret_of_classes hdsn hbearer before).1) h

/-- **What `redact_value` returns has no secret.** -/
theorem clean_redactValue (text : String) : Clean words (redactValue words text) := by
  rw [Clean, redactValue, String.toList_ofList]
  refine Everywhere.mask (fun before c cs hnone hdsn => ?_)
    (fun before part rest hends h => everywhere_bearerMark hends h)
    (fun before cs h => ends_of_bearer h) (fun before c cs h => bearer_of_isSpace h)
    (fun before c cs h => noSecret_of_isSpace h) (everywhere_dsn_mask text.toList)
  constructor
  · refine dsn_of_mask (fun part scheme hscheme q hq rest => ?_) (fun before c cs h => nonspace_of_bearer h) hdsn
    exact (Bool.and_true _).trans (scheme_of_mark scheme hscheme q hq).2
  · intro token htoken
    -- A token after a character that stays was one before.
    obtain ⟨hboundary, blanks, hstarts⟩ := bearerToken?_isSome.mp (Option.isSome_iff_exists.mpr ⟨token, htoken⟩)
    have hclasses : bearerClasses blanks = (fun d => foldCase d == 'b')
        :: ((literal "earer" ++ List.replicate (blanks + 1) Text.isSpace)) ++ [nonspace] := by
      rw [bearerClasses, ← List.append_assoc]
      rfl
    rw [hclasses] at hstarts
    have hbefore := startsWith_cons_of_mask (fun part q hq rest => ?_)
      (fun before c cs h => nonspace_of_bearer h) hstarts
    · rw [← hclasses] at hbefore
      exact absurd hnone (bearer_ne_zero.mpr (bearerToken?_isSome.mpr ⟨hboundary, blanks, hbefore⟩))
    · refine (Bool.and_true _).trans ?_
      rcases List.mem_append.mp hq with hletter | hblank
      · have hnone : ∀ q ∈ literal "earer", q 'B' = false := by decide
        exact hnone q hletter
      · rw [List.eq_of_mem_replicate hblank]
        rfl

/-- The mask itself has no secret. -/
theorem clean_redacted : Clean words (String.ofList redacted) := by
  rw [Clean, String.toList_ofList]
  have h : Everywhere (NoSecret words) none (redacted ++ []) :=
    everywhere_redacted (fun before _ hdsn hbearer => noSecret_of_classes hdsn hbearer before) fun _ => trivial
  rwa [List.append_nil] at h

end Redaction
