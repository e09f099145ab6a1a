import FactoryAgent.Lib.Text
import Mathlib.Data.List.Infix

/-!
# The gate of the transcript

`application/session/thinking.py`: what a transcript may say, and how the sentences of a round become frames. A sentence
is cut into frames that do not end within a word, and a frame is let through where all that was sent so far passes the
gate with it; the first that does not ends the transcript, and so does the budget of the round.

The gate is run on the text before the frame is stored, and stored is the frame without the line breaks in front of the
first one. As the gate does not see the blanks around a text, what is stored is what passed (`accept_passes`). So after
any calls what was released passes the gate with the facts of the last call that released something, is within the
budget, in frames within their limit, and nothing follows a rejection or the end of the budget (`narration_safe`).

Texts are lists of characters. Lower case is taken as far as the words and identifiers that the gate looks for can tell.
-/

namespace Thinking

/-! ## The gate -/

/-- `[a-z]` -/
def isLetter (c : Char) : Bool :=
  'a' ≤ c && c ≤ 'z'

/-- `[a-z0-9]` -/
def isWord (c : Char) : Bool :=
  isLetter c || c.isDigit

/-- `\d`, of any script. -/
def isDigit (c : Char) : Bool :=
  (Text.digitValue? c).isSome

/-- `str.lower`: beside the capitals of ASCII, two characters become letters of ASCII. -/
def lowerChar (c : Char) : List Char :=
  if c.toNat = 0x130 then ['i', Char.ofNat 0x307] else if c.toNat = 0x212a then ['k'] else [c.toLower]

/-- `text.lower()` -/
def lower (text : List Char) : List Char :=
  text.flatMap lowerChar

/-- `_FORBIDDEN_LITERALS` -/
def forbiddenLiterals : List String :=
  ["select ", " from ", " where ", "join ", "group by", "order by", "insert ", "update ", "delete ", "drop ", "http://",
    "https://", "app_key", "appkey", "access_token", "accesstoken", "x-factory", "duckdb", "litellm", "sqlite",
    "prompt", "系统提示", "提示词", "字段名", "表名", "recipe", "data_api", ".yaml", ".json", "result.total", "code=", "message="]

/-- `[a-z][a-z0-9]*(?:_[a-z0-9]+)+(?![a-z0-9])` at the front of a text. The longest run of word characters after the
underscore is followed by none, so one of them is enough. -/
def snakeAt : List Char → Bool
  | [] => false
  | c :: cs =>
    isLetter c && match cs.dropWhile isWord with
      | '_' :: d :: _ => isWord d
      | _ => false

/-- `fr\d{3}(?![a-z0-9])` at the front of a text. -/
def codeAt : List Char → Bool
  | 'f' :: 'r' :: a :: b :: c :: cs => isDigit a && isDigit b && isDigit c && !cs.head?.any isWord
  | _ => false

/-- `(?<![a-z0-9])…`: what is looked for, at a place with no word character before it. -/
def search (found : List Char → Bool) : Bool → List Char → Bool
  | _, [] => false
  | afterWord, c :: cs => (!afterWord && found (c :: cs)) || search found (isWord c) cs

/-- The characters between the digits of a number, `[,\u00a0 ]`. -/
def isSeparator (c : Char) : Bool :=
  c = ',' || c.toNat = 0xa0 || c = ' '

/-- The digits of the numbers of a text, `_digits(match.group())` for each match of `\d[\d,\u00a0 ]*\d|\d`, given the
digits of the number that is being read: a number goes on over separators, and ends with another character. -/
def numbersFrom : Option (List Char) → List Char → List (List Char)
  | reading, [] => reading.toList
  | none, c :: cs => numbersFrom (if isDigit c then some [c] else none) cs
  | some digits, c :: cs =>
    if isDigit c then numbersFrom (some (digits ++ [c])) cs
    else if isSeparator c then numbersFrom (some digits) cs
    else digits :: numbersFrom none cs

/-- The digits of the numbers of a text. -/
def numbersOf (text : List Char) : List (List Char) :=
  numbersFrom none text

/-- `ThinkingFacts` -/
structure Facts where
  stage : String
  lines : List (List Char)

/-- `ThinkingFacts.numbers` -/
def Facts.numbers (facts : Facts) : List (List Char) :=
  facts.lines.flatMap numbersOf

/-- `ThinkingFacts.widened` -/
def Facts.widened (facts : Facts) (sentence : List Char) : Facts :=
  if Text.stripped sentence ∈ facts.lines then facts
  else { facts with lines := facts.lines ++ [Text.stripped sentence] }

/-- `ThinkingFacts.merged_with` -/
def Facts.mergedWith (facts other : Facts) : Facts where
  stage := other.stage
  lines := other.lines.foldl (fun lines line => if line ∈ lines then lines else lines ++ [line]) facts.lines

/-- `_LONG_NUMBER_DIGITS` -/
def longNumberDigits : Nat :=
  4

/-- Why a text must not be sent. -/
inductive Rejection where
  | empty
  | internalArtifact
  | internalIdentifier
  | unsupportedNumber
  deriving DecidableEq, Repr

/-- A text in lower case has one of the forbidden literals. -/
def hasLiteral (lowered : List Char) : Bool :=
  forbiddenLiterals.any fun literal => decide (literal.toList <:+: lowered)

/-- A text in lower case has an internal identifier. -/
def hasIdentifier (lowered : List Char) : Bool :=
  search snakeAt false lowered || search codeAt false lowered

/-- A long number that is none of the facts'. -/
def unsupported (facts : Facts) (digits : List Char) : Bool :=
  decide (longNumberDigits ≤ digits.length) && decide (digits ∉ facts.numbers)

/-- **`rejection_reason`** -/
def rejectionReason (text : List Char) (facts : Facts) : Option Rejection :=
  let stripped := Text.stripped text
  if stripped = [] then some .empty
  else if hasLiteral (lower stripped) then some .internalArtifact
  else if hasIdentifier (lower stripped) then some .internalIdentifier
  else if (numbersOf stripped).any (unsupported facts) then some .unsupportedNumber
  else none

/-! ## Frames -/

/-- The limits of a round, `MAX_FRAME_CHARS` and `MAX_TOTAL_CHARS`. -/
structure Limits where
  maxFrameChars : Nat
  maxTotalChars : Nat

/-- `ThinkingCoalescer` -/
structure Coalescer where
  sent : List (List Char)
  lastSent : List Char
  used : Nat
  truncated : Bool
  stopped : Bool

/-- `ThinkingCoalescer()` -/
def Coalescer.new : Coalescer :=
  ⟨[], [], 0, false, false⟩

/-- `ThinkingCoalescer.text` -/
def Coalescer.text (state : Coalescer) : List Char :=
  state.sent.flatten

/-- `[A-Za-z0-9_.]` -/
def isToken (c : Char) : Bool :=
  c.isAlphanum || c = '_' || c = '.'

/-- A text without the token at its end. -/
def withoutToken (text : List Char) : List Char :=
  (text.reverse.dropWhile isToken).reverse

/-- `_boundary`: the window, or what is before the token at its end. A line break at the end of the window does not
count, as `$` matches before it. -/
def boundary (limits : Limits) (text : List Char) : List Char :=
  let window := text.take limits.maxFrameChars
  let body := if window.getLast? = some '\n' then window.dropLast else window
  if (withoutToken body).length < body.length ∧ 0 < (withoutToken body).length then
    window.take (withoutToken body).length
  else window

/-- `_accept` -/
def Coalescer.accept (state : Coalescer) (piece : List Char) : Coalescer × Option (List Char) :=
  let frame := if state.sent = [] then piece.dropWhile (· = '\n') else piece
  let stripped := Text.stripped frame
  if stripped = [] ∨ stripped = state.lastSent then (state, none)
  else
    ({ state with sent := state.sent ++ [frame], lastSent := stripped, used := state.used + frame.length }, some frame)

variable (limits : Limits) (facts : Facts)

/-- The loop of `commit`, with the rest of the text and the frames so far; `none` is out of fuel. -/
def Coalescer.loop : Nat → Coalescer → List Char → List (List Char) → Option (Coalescer × List (List Char))
  | 0, _, _, _ => none
  | fuel + 1, state, rest, frames =>
    if rest = [] then some (state, frames)
    else if limits.maxTotalChars ≤ state.used then some ({ state with truncated := true }, frames)
    else
      let piece := boundary limits (rest.take (min limits.maxFrameChars (limits.maxTotalChars - state.used)))
      if piece = [] then some (state, frames)
      else if (rejectionReason (state.text ++ piece) facts).isSome then some ({ state with stopped := true }, frames)
      else
        let (next, accepted) := state.accept piece
        let left := rest.drop piece.length
        if limits.maxTotalChars ≤ next.used ∧ left ≠ [] then
          some ({ next with truncated := true }, frames ++ accepted.toList)
        else Coalescer.loop fuel next left (frames ++ accepted.toList)

/-- **`commit`**; `none` stands for a loop that is not at its end after one turn for each character, and one more. -/
def Coalescer.commit (state : Coalescer) (text : List Char) : Option (Coalescer × List (List Char)) :=
  if state.stopped ∨ state.truncated ∨ Text.stripped text = [] then some (state, [])
  else state.loop limits facts (text.length + 1) text []

/-- A call of `commit`. -/
structure Call where
  facts : Facts
  text : List Char

/-- **Calls one after the other**, with the frames that each releases. -/
def Coalescer.run (state : Coalescer) : List Call → Option (Coalescer × List (List (List Char)))
  | [] => some (state, [])
  | call :: calls => do
    let (next, frames) ← state.commit limits call.facts call.text
    let (last, released) ← next.run calls
    pure (last, frames :: released)

/-! ## A frame -/

variable {limits facts}

/-- A boundary is a prefix. -/
theorem boundary_prefix (text : List Char) : boundary limits text <+: text := by
  rw [boundary]
  split_ifs
  · exact (List.take_prefix _ _).trans (List.take_prefix _ _)
  · exact List.take_prefix _ _
  · exact (List.take_prefix _ _).trans (List.take_prefix _ _)
  · exact List.take_prefix _ _

/-- A frame is within its limit. -/
theorem length_boundary_le (text : List Char) : (boundary limits text).length ≤ limits.maxFrameChars := by
  have hwindow : boundary limits text <+: text.take limits.maxFrameChars := by
    rw [boundary]
    split_ifs
    · exact List.take_prefix _ _
    · exact List.prefix_rfl
    · exact List.take_prefix _ _
    · exact List.prefix_rfl
  exact le_trans hwindow.length_le (List.length_take_le _ _)

/-- Blanks in front do not count. -/
theorem stripped_dropWhile_newline (text : List Char) :
    Text.stripped (text.dropWhile (· = '\n')) = Text.stripped text := by
  induction text with
  | nil => rfl
  | cons c cs ih =>
    by_cases h : c = '\n'
    · subst h
      rw [List.dropWhile_cons_of_pos (by decide), ih, Text.stripped, Text.stripped,
        List.dropWhile_cons_of_pos (a := '\n') (by decide)]
    · rw [List.dropWhile_cons_of_neg (by simpa using h)]

/-- The gate does not see the blanks around a text. -/
theorem rejectionReason_congr {text other : List Char} (h : Text.stripped text = Text.stripped other) (facts : Facts) :
    rejectionReason text facts = rejectionReason other facts := by
  rw [rejectionReason, rejectionReason, h]

/-- A blank text is rejected. -/
theorem stripped_ne_nil_of_passes {text : List Char} (h : rejectionReason text facts = none) :
    Text.stripped text ≠ [] := by
  intro hblank
  rw [rejectionReason] at h
  rw [if_pos hblank] at h
  cases h

/-- **What was sent is within the budget**, in frames that are not blank. -/
structure Coalescer.Within (limits : Limits) (state : Coalescer) : Prop where
  used : state.used = state.text.length
  bounded : state.used ≤ limits.maxTotalChars
  nonblank : ∀ frame ∈ state.sent, Text.stripped frame ≠ []

theorem within_new : Coalescer.new.Within limits :=
  ⟨rfl, Nat.zero_le _, fun _ h => by cases h⟩

/-- Something was sent where the text is not empty. -/
theorem Coalescer.Within.text_eq_nil {state : Coalescer} (h : state.Within limits) :
    state.text = [] ↔ state.sent = [] := by
  rw [Coalescer.text, List.flatten_eq_nil_iff]
  constructor
  · intro hall
    refine List.eq_nil_iff_forall_not_mem.mpr fun frame hframe => h.nonblank frame hframe ?_
    rw [hall frame hframe]
    rfl
  · intro hnil frame hframe
    rw [hnil] at hframe
    cases hframe

/-- **What is stored passes**, as the text did with the frame before its line breaks were taken off. -/
theorem accept_passes {state : Coalescer} (h : state.Within limits) {piece : List Char}
    (hpasses : rejectionReason (state.text ++ piece) facts = none)
    (hroom : state.used + piece.length ≤ limits.maxTotalChars) :
    state.accept piece = (state, none)
      ∨ ∃ next frame, state.accept piece = (next, some frame) ∧ next.Within limits
          ∧ next.text = state.text ++ frame ∧ frame.length ≤ piece.length
          ∧ rejectionReason next.text facts = none ∧ next.stopped = state.stopped
          ∧ next.truncated = state.truncated := by
  rw [Coalescer.accept]
  split_ifs with hfirst hdropped hdropped
  · exact .inl rfl
  · have htext : state.text = [] := h.text_eq_nil.mpr hfirst
    rw [not_or] at hdropped
    have hframe : (piece.dropWhile (· = '\n')).length ≤ piece.length := (List.dropWhile_sublist _).length_le
    refine .inr ⟨_, _, rfl, ⟨?_, ?_, ?_⟩, ?_, hframe, ?_, rfl, rfl⟩
    · show state.used + _ = (state.sent ++ [_]).flatten.length
      rw [hfirst, h.used, htext]
      simp
    · exact le_trans (Nat.add_le_add_left hframe _) hroom
    · intro frame hmem
      rw [hfirst] at hmem
      rw [List.mem_singleton.mp hmem]
      exact hdropped.1
    · show (state.sent ++ [_]).flatten = state.text ++ _
      rw [List.flatten_append, Coalescer.text]
      simp
    · rw [htext, List.nil_append] at hpasses
      rw [← hpasses]
      refine rejectionReason_congr ?_ facts
      show Text.stripped (state.sent ++ [_]).flatten = _
      rw [hfirst]
      simpa using stripped_dropWhile_newline piece
  · exact .inl rfl
  · rw [not_or] at hdropped
    refine .inr ⟨_, _, rfl, ⟨?_, hroom, ?_⟩, ?_, le_refl _, ?_, rfl, rfl⟩
    · show state.used + _ = (state.sent ++ [_]).flatten.length
      rw [h.used, Coalescer.text]
      simp
    · intro frame hmem
      rcases List.mem_append.mp hmem with hold | hnew
      · exact h.nonblank frame hold
      · rw [List.mem_singleton.mp hnew]
        exact hdropped.1
    · show (state.sent ++ [_]).flatten = state.text ++ _
      rw [List.flatten_append, Coalescer.text]
      simp
    · rw [← hpasses]
      refine rejectionReason_congr ?_ facts
      show Text.stripped (state.sent ++ [_]).flatten = _
      rw [List.flatten_append, Coalescer.text]
      simp

/-! ## A call -/

/-- **What a call releases**: frames within their limit that continue the text, which passes where there are any. -/
structure Coalescer.Releases (limits : Limits) (facts : Facts) (state last : Coalescer)
    (released : List (List Char)) : Prop where
  within : last.Within limits
  text : last.text = state.text ++ released.flatten
  short : ∀ frame ∈ released, frame.length ≤ limits.maxFrameChars
  passes : released ≠ [] → rejectionReason last.text facts = none

/-- Nothing is released. -/
theorem Coalescer.Within.releases_nil (state : Coalescer) {last : Coalescer} (h : last.Within limits)
    (htext : last.text = state.text) : state.Releases limits facts last [] :=
  ⟨h, by rw [htext, List.flatten_nil, List.append_nil], fun _ hmem => absurd hmem List.not_mem_nil,
    fun hne => absurd rfl hne⟩

/-- A frame, and what is released after it. -/
theorem Coalescer.Releases.cons {state next last : Coalescer} {frame : List Char} {released : List (List Char)}
    (h : next.Releases limits facts last released) (htext : next.text = state.text ++ frame)
    (hshort : frame.length ≤ limits.maxFrameChars) (hpasses : rejectionReason next.text facts = none) :
    state.Releases limits facts last (frame :: released) := by
  refine ⟨h.within, ?_, ?_, fun _ => ?_⟩
  · rw [h.text, htext, List.flatten_cons, List.append_assoc]
  · exact List.forall_mem_cons.mpr ⟨hshort, h.short⟩
  · cases released with
    | nil =>
      have hsame := h.text
      rw [List.flatten_nil, List.append_nil] at hsame
      rw [hsame]
      exact hpasses
    | cons other others => exact h.passes (List.cons_ne_nil _ _)

/-- **The loop ends**, as every turn takes a piece off the text. -/
theorem loop_releases {fuel : Nat} {state : Coalescer} {rest : List Char} (frames : List (List Char))
    (h : state.Within limits) (hfuel : rest.length < fuel) :
    ∃ last released, state.loop limits facts fuel rest frames = some (last, frames ++ released)
      ∧ state.Releases limits facts last released := by
  induction fuel generalizing state rest frames with
  | zero => omega
  | succ fuel ih =>
    rw [Coalescer.loop]
    dsimp only
    generalize hpiece :
      boundary limits (rest.take (min limits.maxFrameChars (limits.maxTotalChars - state.used))) = piece
    have hfront : piece <+: rest.take (min limits.maxFrameChars (limits.maxTotalChars - state.used)) :=
      hpiece ▸ boundary_prefix _
    have hlength : piece.length ≤ min limits.maxFrameChars (limits.maxTotalChars - state.used) :=
      le_trans hfront.length_le (List.length_take_le _ _)
    split_ifs with hrest hroom hnone hrejected hfull
    · exact ⟨state, [], by rw [List.append_nil], h.releases_nil _ rfl⟩
    · exact ⟨{ state with truncated := true }, [], by rw [List.append_nil],
        Coalescer.Within.releases_nil _ ⟨h.used, h.bounded, h.nonblank⟩ rfl⟩
    · exact ⟨state, [], by rw [List.append_nil], h.releases_nil _ rfl⟩
    · exact ⟨{ state with stopped := true }, [], by rw [List.append_nil],
        Coalescer.Within.releases_nil _ ⟨h.used, h.bounded, h.nonblank⟩ rfl⟩
    · rw [Bool.not_eq_true, Option.isSome_eq_false_iff, Option.isNone_iff_eq_none] at hrejected
      rcases accept_passes h hrejected (by omega) with
        haccept | ⟨next, frame, haccept, hnext, htext, hle, hpasses, -, -⟩
      · rw [haccept]
        refine ⟨_, [], rfl, ?_⟩
        exact Coalescer.Within.releases_nil _ ⟨h.used, h.bounded, h.nonblank⟩ rfl
      · rw [haccept]
        refine ⟨_, [frame], rfl, ?_⟩
        have hlast : ({ next with truncated := true } : Coalescer).Within limits :=
          ⟨hnext.used, hnext.bounded, hnext.nonblank⟩
        exact (hlast.releases_nil { next with truncated := true } rfl).cons htext (by omega) hpasses
    · rw [Bool.not_eq_true, Option.isSome_eq_false_iff, Option.isNone_iff_eq_none] at hrejected
      have hleft : (rest.drop piece.length).length < fuel := by
        have hpos := List.length_pos_of_ne_nil hnone
        have hall := List.length_pos_of_ne_nil hrest
        rw [List.length_drop]
        omega
      rcases accept_passes h hrejected (by omega) with
        haccept | ⟨next, frame, haccept, hnext, htext, hle, hpasses, -, -⟩
      · rw [haccept]
        obtain ⟨last, released, hloop, hreleases⟩ := ih (frames ++ Option.toList none) h hleft
        refine ⟨last, released, hloop.trans ?_, hreleases⟩
        rw [Option.toList_none, List.append_nil]
      · rw [haccept]
        obtain ⟨last, released, hloop, hreleases⟩ := ih (frames ++ Option.toList (some frame)) hnext hleft
        refine ⟨last, frame :: released, hloop.trans ?_, hreleases.cons htext (by omega) hpasses⟩
        rw [Option.toList_some, List.append_assoc, List.singleton_append]

/-- **A call ends, and releases frames as it should.** -/
theorem commit_releases {state : Coalescer} (h : state.Within limits) (call : Call) :
    ∃ last released, state.commit limits call.facts call.text = some (last, released)
      ∧ state.Releases limits call.facts last released := by
  rw [Coalescer.commit]
  split_ifs with hidle
  · exact ⟨state, [], rfl, h.releases_nil _ rfl⟩
  · obtain ⟨last, released, hloop, hreleases⟩ := loop_releases [] h (Nat.lt_succ_self call.text.length)
    exact ⟨last, released, hloop, hreleases⟩

/-- **Nothing follows** a rejection or the end of the budget. -/
theorem commit_of_ended {state : Coalescer} (h : state.stopped = true ∨ state.truncated = true) (call : Call) :
    state.commit limits call.facts call.text = some (state, []) := by
  rw [Coalescer.commit, if_pos]
  exact h.imp_right .inl

/-! ## All calls -/

/-- The last call that released something. -/
def lastAccepting (calls : List Call) (released : List (List (List Char))) : Option Call :=
  ((calls.zip released).filter fun turn => !turn.2.isEmpty).getLast?.map Prod.fst

/-- Calls and one more. -/
theorem run_concat (state : Coalescer) (calls : List Call) (call : Call) :
    state.run limits (calls ++ [call]) = (do
      let (next, released) ← state.run limits calls
      let (last, frames) ← next.commit limits call.facts call.text
      pure (last, released ++ [frames])) := by
  induction calls generalizing state with
  | nil =>
    rw [List.nil_append, Coalescer.run, Coalescer.run]
    rfl
  | cons first calls ih =>
    rw [List.cons_append, Coalescer.run, Coalescer.run]
    simp only [ih, bind_assoc, pure_bind]
    rfl

/-- After a rejection or the end of the budget, every call is without effect. -/
theorem run_of_ended {state : Coalescer} (h : state.stopped = true ∨ state.truncated = true) (calls : List Call) :
    state.run limits calls = some (state, calls.map fun _ => []) := by
  induction calls with
  | nil => rfl
  | cons call calls ih =>
    rw [Coalescer.run, commit_of_ended h call]
    simp only [Option.bind_eq_bind, Option.bind_some]
    rw [ih]
    rfl

/-- **What is released is safe.** Every call ends. After any calls, what was released makes up the text, which passes
the gate with the facts of the last call that released something, and which is within the budget, in frames within
their limit; and after a rejection or the end of the budget, nothing more is released. -/
theorem narration_safe (limits : Limits) (calls : List Call) :
    ∃ last released, Coalescer.new.run limits calls = some (last, released)
      ∧ last.text = released.flatten.flatten
      ∧ (last.text ≠ [] → ∃ call, lastAccepting calls released = some call
          ∧ rejectionReason last.text call.facts = none)
      ∧ last.text.length ≤ limits.maxTotalChars
      ∧ (∀ frames ∈ released, ∀ frame ∈ frames, frame.length ≤ limits.maxFrameChars)
      ∧ ((last.stopped = true ∨ last.truncated = true) →
          ∀ more, last.run limits more = some (last, more.map fun _ => [])) := by
  suffices hrun : ∃ last released, Coalescer.new.run limits calls = some (last, released)
      ∧ last.Within limits ∧ released.length = calls.length ∧ last.text = released.flatten.flatten
      ∧ (last.text ≠ [] → ∃ call, lastAccepting calls released = some call
          ∧ rejectionReason last.text call.facts = none)
      ∧ (∀ frames ∈ released, ∀ frame ∈ frames, frame.length ≤ limits.maxFrameChars) by
    obtain ⟨last, released, hrun, hwithin, -, htext, hpasses, hshort⟩ := hrun
    exact ⟨last, released, hrun, htext, hpasses, hwithin.used ▸ hwithin.bounded, hshort, run_of_ended⟩
  induction calls using List.reverseRecOn with
  | nil =>
    exact ⟨.new, [], rfl, within_new, rfl, rfl, fun h => absurd rfl h, fun frames h => absurd h List.not_mem_nil⟩
  | append_singleton calls call ih =>
    obtain ⟨state, released, hrun, hwithin, hlength, htext, hpasses, hshort⟩ := ih
    obtain ⟨last, frames, hcommit, hreleases⟩ := commit_releases hwithin call
    have hzip : (calls ++ [call]).zip (released ++ [frames]) = calls.zip released ++ [(call, frames)] :=
      List.zip_append hlength.symm
    refine ⟨last, released ++ [frames], ?_, hreleases.within, ?_, ?_, fun hne => ?_, ?_⟩
    · rw [run_concat, hrun]
      simp only [Option.bind_eq_bind, Option.bind_some]
      rw [hcommit]
      rfl
    · rw [List.length_append, List.length_append, hlength]
      rfl
    · rw [hreleases.text, htext]
      simp
    · rw [lastAccepting, hzip, List.filter_append]
      by_cases hframes : frames = []
      · -- a call without frames leaves the text and the last call that had some
        subst hframes
        have hsame := hreleases.text
        rw [List.flatten_nil, List.append_nil] at hsame
        rw [hsame] at hne ⊢
        simpa [lastAccepting] using hpasses hne
      · refine ⟨call, ?_, hreleases.passes hframes⟩
        simp [hframes]
    · intro others hothers
      rcases List.mem_append.mp hothers with hold | hnew
      · exact hshort others hold
      · rw [List.mem_singleton.mp hnew]
        exact hreleases.short

end Thinking
