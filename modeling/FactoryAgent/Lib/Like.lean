import Mathlib.Data.List.Infix

/-!
# Patterns of SQL

`LIKE` of SQL: `%` stands for any characters and `_` for one, and what is behind a backslash stands for itself. A text
between two `%` is looked for as it is where it has none of these characters (`like_contains_iff`).
-/

namespace Like

/-- A part of a pattern. -/
inductive Part where
  | any
  | one
  | char (c : Char)
  deriving DecidableEq, Repr

/-- What a character stands for. -/
def part (c : Char) : Part :=
  if c = '%' then .any else if c = '_' then .one else .char c

/-- **The parts of a pattern.** -/
def parts : List Char → List Part
  | [] => []
  | [c] => [part c]
  | c :: d :: pattern => if c = '\\' then .char d :: parts pattern else part c :: parts (d :: pattern)

/-- **Whether a text is like some parts.** -/
def matching : List Part → List Char → Bool
  | [], text => text.isEmpty
  | .any :: rest, text => text.tails.any (matching rest)
  | .one :: rest, text => !text.isEmpty && matching rest text.tail
  | .char c :: rest, text => text.head? == some c && matching rest text.tail

/-- **Whether a text is like a pattern.** -/
def like (pattern text : List Char) : Bool :=
  matching (parts pattern) text

/-- The pattern that looks for a text. -/
def contains (fragment : List Char) : List Char :=
  '%' :: (fragment ++ ['%'])

/-- A character that a pattern gives no meaning. -/
def IsPlain (c : Char) : Prop :=
  c ≠ '%' ∧ c ≠ '_' ∧ c ≠ '\\'

/-- Plain characters stand for themselves. -/
theorem parts_plain {fragment : List Char} (h : ∀ c ∈ fragment, IsPlain c) :
    parts (fragment ++ ['%']) = fragment.map Part.char ++ [.any] := by
  induction fragment with
  | nil => rfl
  | cons c fragment ih =>
    obtain ⟨hany, hone, hescape⟩ := h c List.mem_cons_self
    have hrest := ih fun c hc => h c (List.mem_cons_of_mem _ hc)
    obtain ⟨d, rest, hcons⟩ := List.exists_cons_of_ne_nil (show fragment ++ ['%'] ≠ [] by simp)
    rw [List.cons_append, hcons, parts, if_neg hescape, part, if_neg hany, if_neg hone, ← hcons, hrest]
    rfl

/-- Any text is like `%`. -/
theorem matching_any (text : List Char) : matching [.any] text = true := by
  rw [matching, List.any_eq_true]
  exact ⟨[], (List.mem_tails _ _).mpr List.nil_suffix, rfl⟩

/-- Characters before `%` are what a text begins with. -/
theorem matching_beginning_iff (fragment text : List Char) :
    matching (fragment.map Part.char ++ [.any]) text = true ↔ fragment <+: text := by
  induction fragment generalizing text with
  | nil => exact iff_of_true (matching_any text) List.nil_prefix
  | cons c fragment ih =>
    rw [List.map_cons, List.cons_append, matching, Bool.and_eq_true, ih]
    cases text with
    | nil => simp
    | cons d text =>
      rw [List.cons_prefix_cons, List.head?_cons, beq_iff_eq, Option.some.injEq, List.tail_cons, eq_comm]

/-- **Plain characters between two `%` are what a text contains.** -/
theorem like_contains_iff {fragment : List Char} (h : ∀ c ∈ fragment, IsPlain c) (text : List Char) :
    like (contains fragment) text = true ↔ fragment <:+: text := by
  have hparts : parts (contains fragment) = .any :: (fragment.map Part.char ++ [.any]) := by
    obtain ⟨d, rest, hcons⟩ := List.exists_cons_of_ne_nil (show fragment ++ ['%'] ≠ [] by simp)
    rw [contains, hcons, parts, if_neg (by decide), ← hcons, parts_plain h]
    rfl
  rw [like, hparts, matching, List.any_eq_true, List.infix_iff_prefix_suffix]
  constructor
  · rintro ⟨tail, htail, hmatching⟩
    exact ⟨tail, (matching_beginning_iff fragment tail).mp hmatching, (List.mem_tails _ _).mp htail⟩
  · rintro ⟨tail, hbegins, htail⟩
    exact ⟨tail, (List.mem_tails _ _).mpr htail, (matching_beginning_iff fragment tail).mpr hbegins⟩

end Like
