import FactoryAgent.Domain.Session

/-!
# Frame identifiers

The `id` line of a frame is the event's number in decimal (`encode_event`), and a client sends the
text of the last `id` it received as `Last-Event-ID`. `parse_last_event_id` reads it with `int`: blanks
around the text, a sign and single underscores between digits are accepted, anything else restarts
from the beginning, and a negative number counts as 0. (Digits are the ASCII digits here.)
-/

/-- The text of the `id` line of a frame. -/
def frameId (sequence : Nat) : String := toString sequence

/-- The value of digits with single underscores between them, after the digits read so far. -/
def digitsValue (read : Nat) : List Char → Option Nat
  | [] => some read
  | '_' :: c :: rest =>
    if c.isDigit then digitsValue (10 * read + (c.toNat - '0'.toNat)) rest else none
  | c :: rest =>
    if c.isDigit then digitsValue (10 * read + (c.toNat - '0'.toNat)) rest else none

/-- An unsigned literal starts with a digit. -/
def unsignedLiteral : List Char → Option Nat
  | [] => none
  | c :: rest => if c.isDigit then digitsValue 0 (c :: rest) else none

/-- `int(raw.strip())`. -/
def intLiteral (raw : String) : Option Int :=
  let stripped := ((raw.toList.dropWhile Char.isWhitespace).reverse.dropWhile
    Char.isWhitespace).reverse
  match stripped with
  | '-' :: rest => (unsignedLiteral rest).map (fun value => -(value : Int))
  | '+' :: rest => (unsignedLiteral rest).map (fun value => (value : Int))
  | rest => (unsignedLiteral rest).map (fun value => (value : Int))

/-- `parse_last_event_id`. -/
def parseLastEventId : Option String → Nat
  | none => 0
  | some raw =>
    match intLiteral raw with
    | some value => (max 0 value).toNat
    | none => 0

/-! ## The round trip -/

/-- A run of digits is read as `Nat.ofDigitChars` reads it. -/
theorem digitsValue_of_digits {chars : List Char} (h : ∀ c ∈ chars, c.isDigit = true)
    (read : Nat) : digitsValue read chars = some (Nat.ofDigitChars 10 chars read) := by
  induction chars generalizing read with
  | nil => rfl
  | cons c rest ih =>
    have hc := h c List.mem_cons_self
    have hne : c ≠ '_' := fun hunderscore => by simp [hunderscore] at hc
    rw [digitsValue, if_pos hc, ih (fun d hd => h d (List.mem_cons_of_mem c hd)),
      Nat.ofDigitChars_cons]
    exact fun d rest' hunderscore => absurd hunderscore hne

/-- There is nothing to strip from digits. -/
theorem dropWhile_of_digits {chars : List Char} (h : ∀ c ∈ chars, c.isDigit = true) :
    chars.dropWhile Char.isWhitespace = chars := by
  cases chars with
  | nil => rfl
  | cons c rest =>
    have hc := h c List.mem_cons_self
    have hblank : c.isWhitespace = false := by
      cases hw : c.isWhitespace with
      | false => rfl
      | true =>
        simp only [Char.isWhitespace, Bool.or_eq_true, decide_eq_true_eq] at hw
        rcases hw with ((rfl | rfl) | rfl) | rfl <;> simp at hc
    rw [List.dropWhile_cons, hblank]
    rfl

/-- **The identifier of a frame is parsed back.** -/
theorem parseLastEventId_frameId (n : Nat) : parseLastEventId (some (frameId n)) = n := by
  have hdigits : ∀ c ∈ Nat.toDigits 10 n, c.isDigit = true :=
    fun c hc => Nat.isDigit_of_mem_toDigits (by decide) (by decide) hc
  have hlist : (frameId n).toList = Nat.toDigits 10 n := Nat.toList_repr
  have hstripped : (((frameId n).toList.dropWhile Char.isWhitespace).reverse.dropWhile
      Char.isWhitespace).reverse = Nat.toDigits 10 n := by
    rw [hlist, dropWhile_of_digits hdigits,
      dropWhile_of_digits (fun c hc => hdigits c (List.mem_reverse.mp hc)), List.reverse_reverse]
  have hvalue : unsignedLiteral (Nat.toDigits 10 n) = some n := by
    cases hchars : Nat.toDigits 10 n with
    | nil => exact absurd hchars Nat.toDigits_ne_nil
    | cons c rest =>
      rw [unsignedLiteral, if_pos (hdigits c (hchars ▸ List.mem_cons_self)), ← hchars,
        digitsValue_of_digits hdigits, Nat.ofDigitChars_toDigits (by decide) (by decide)]
  have hliteral : intLiteral (frameId n) = some (n : Int) := by
    unfold intLiteral
    dsimp only
    rw [hstripped]
    split
    · rename_i rest hminus
      exact absurd (hdigits '-' (hminus ▸ List.mem_cons_self)) (by decide)
    · rename_i rest hplus
      exact absurd (hdigits '+' (hplus ▸ List.mem_cons_self)) (by decide)
    · rw [hvalue]
      rfl
  show (match intLiteral (frameId n) with
    | some value => (max 0 value).toNat
    | none => 0) = n
  rw [hliteral]
  show (max 0 (n : Int)).toNat = n
  omega
