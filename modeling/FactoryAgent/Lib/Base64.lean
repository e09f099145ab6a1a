/-!
# Base64

The URL-safe Base64 of Python's `base64` module. Encoding takes three bytes to four characters and pads the
last group. Decoding is lenient, as `binascii.a2b_base64` is: a character outside the alphabet is passed
over, whatever it is, and the text ends where enough padding has been seen. What was encoded is decoded to
the same bytes (`Base64.urlsafeDecode_urlsafeEncode`).
-/

namespace Base64

/-- The URL-safe alphabet. -/
def alphabet : List Char :=
  "ABCDEFGHIJKLMNOPQRSTUVWXYZabcdefghijklmnopqrstuvwxyz0123456789-_".toList

/-- The character of six bits. -/
def digit (n : Nat) : Char :=
  alphabet.getD n '='

/-- The six bits of a character. The two characters that the URL-safe alphabet replaces are still read. -/
def value? (c : Char) : Option Nat :=
  if c = '+' then some 62
  else if c = '/' then some 63
  else alphabet.findIdx? (· = c)

/-- The characters of bytes, three at a time. -/
def encodeBytes : List UInt8 → List Char
  | [] => []
  | [a] => [digit (a.toNat / 4), digit (a.toNat % 4 * 16), '=', '=']
  | [a, b] =>
    [digit (a.toNat / 4), digit (a.toNat % 4 * 16 + b.toNat / 16), digit (b.toNat % 16 * 4), '=']
  | a :: b :: c :: bytes =>
    digit (a.toNat / 4) :: digit (a.toNat % 4 * 16 + b.toNat / 16)
      :: digit (b.toNat % 16 * 4 + c.toNat / 64) :: digit (c.toNat % 64) :: encodeBytes bytes

/-- **The bytes of characters**: `position` digits of a group have been read and leave `left` bits, and
`pads` padding characters have been seen since the last digit. -/
def decodeChars (position left pads : Nat) : List Char → Option (List UInt8)
  | [] => if position = 0 then some [] else none
  | c :: cs =>
    if c = '=' then
      if position < 2 then decodeChars position left pads cs
      -- enough padding: the rest of the text is not read
      else if 4 ≤ position + (pads + 1) then some []
      else decodeChars position left (pads + 1) cs
    else
      match value? c with
      | none => decodeChars position left pads cs
      | some n =>
        match position with
        | 0 => decodeChars 1 n 0 cs
        | 1 => (decodeChars 2 (n % 16) 0 cs).map (UInt8.ofNat (left * 4 + n / 16) :: ·)
        | 2 => (decodeChars 3 (n % 4) 0 cs).map (UInt8.ofNat (left * 16 + n / 4) :: ·)
        | _ => (decodeChars 0 0 0 cs).map (UInt8.ofNat (left * 64 + n) :: ·)

/-- **`base64.urlsafe_b64encode`** -/
def urlsafeEncode (bytes : ByteArray) : String :=
  String.ofList (encodeBytes bytes.data.toList)

/-- **`base64.urlsafe_b64decode`**; `none` is a raised `binascii.Error`. -/
def urlsafeDecode (text : String) : Option ByteArray :=
  (decodeChars 0 0 0 text.toList).map fun bytes => ⟨bytes.toArray⟩

/-! ## What was encoded -/

/-- A digit is no padding. -/
theorem digit_ne_pad {n : Nat} (h : n < 64) : digit n ≠ '=' := by
  have hall : ∀ n < 64, digit n ≠ '=' := by decide +kernel
  exact hall n h

/-- A digit is read back. -/
theorem value?_digit {n : Nat} (h : n < 64) : value? (digit n) = some n := by
  have hall : ∀ n < 64, value? (digit n) = some n := by decide +kernel
  exact hall n h

/-- The first digit of a group. -/
theorem decodeChars_first {left pads n : Nat} {cs : List Char} (h : n < 64) :
    decodeChars 0 left pads (digit n :: cs) = decodeChars 1 n 0 cs := by
  rw [decodeChars, if_neg (digit_ne_pad h), value?_digit h]
  rfl

/-- The second digit of a group gives its first byte. -/
theorem decodeChars_second {left pads n : Nat} {cs : List Char} (h : n < 64) :
    decodeChars 1 left pads (digit n :: cs)
      = (decodeChars 2 (n % 16) 0 cs).map (UInt8.ofNat (left * 4 + n / 16) :: ·) := by
  rw [decodeChars, if_neg (digit_ne_pad h), value?_digit h]
  rfl

/-- The third digit of a group gives its second byte. -/
theorem decodeChars_third {left pads n : Nat} {cs : List Char} (h : n < 64) :
    decodeChars 2 left pads (digit n :: cs)
      = (decodeChars 3 (n % 4) 0 cs).map (UInt8.ofNat (left * 16 + n / 4) :: ·) := by
  rw [decodeChars, if_neg (digit_ne_pad h), value?_digit h]
  rfl

/-- The last digit of a group gives its third byte. -/
theorem decodeChars_last {left pads n : Nat} {cs : List Char} (h : n < 64) :
    decodeChars 3 left pads (digit n :: cs)
      = (decodeChars 0 0 0 cs).map (UInt8.ofNat (left * 64 + n) :: ·) := by
  rw [decodeChars, if_neg (digit_ne_pad h), value?_digit h]
  rfl

/-- A byte is the number it is given as. -/
theorem ofNat_eq {n : Nat} {a : UInt8} (h : n = a.toNat) : UInt8.ofNat n = a := by
  rw [h, UInt8.ofNat_toNat]

/-- **Bytes that were encoded are decoded.** -/
theorem decodeChars_encodeBytes (bytes : List UInt8) :
    decodeChars 0 0 0 (encodeBytes bytes) = some bytes := by
  fun_induction encodeBytes bytes with
  | case1 => rfl
  | case2 a =>
    have ha := a.toNat_lt
    rw [decodeChars_first (by omega), decodeChars_second (by omega), ofNat_eq (a := a) (by omega)]
    rfl
  | case3 a b =>
    have ha := a.toNat_lt
    have hb := b.toNat_lt
    rw [decodeChars_first (by omega), decodeChars_second (by omega), decodeChars_third (by omega),
      ofNat_eq (a := a) (by omega), ofNat_eq (a := b) (by omega)]
    rfl
  | case4 a b c bytes ih =>
    have ha := a.toNat_lt
    have hb := b.toNat_lt
    have hc := c.toNat_lt
    rw [decodeChars_first (by omega), decodeChars_second (by omega), decodeChars_third (by omega),
      decodeChars_last (by omega), ih, ofNat_eq (a := a) (by omega), ofNat_eq (a := b) (by omega),
      ofNat_eq (a := c) (by omega)]
    rfl

/-- **What was encoded is decoded to the same bytes.** -/
theorem urlsafeDecode_urlsafeEncode (bytes : ByteArray) :
    urlsafeDecode (urlsafeEncode bytes) = some bytes := by
  rw [urlsafeDecode, urlsafeEncode, String.toList_ofList, decodeChars_encodeBytes, Option.map_some,
    Array.toArray_toList]

/-- Only no bytes at all are written as an empty text. -/
theorem urlsafeEncode_ne_empty {bytes : ByteArray} (h : bytes.data.toList ≠ []) :
    urlsafeEncode bytes ≠ "" := by
  intro hempty
  have hdecoded := congrArg urlsafeDecode hempty
  rw [urlsafeDecode_urlsafeEncode] at hdecoded
  have hbytes : bytes = ⟨#[]⟩ := Option.some.inj hdecoded
  rw [hbytes] at h
  exact h rfl

/-! ## Without padding -/

/-- `text.rstrip("=")` -/
def dropPadding (cs : List Char) : List Char :=
  (cs.reverse.dropWhile (· = '=')).reverse

/-- `text + "=" * (-len(text) % 4)` -/
def addPadding (cs : List Char) : List Char :=
  cs ++ List.replicate ((4 - cs.length % 4) % 4) '='

/-- A digit is in the alphabet. -/
theorem digit_mem {n : Nat} (h : n < 64) : digit n ∈ alphabet := by
  have hall : ∀ n < 64, digit n ∈ alphabet := by decide +kernel
  exact hall n h

/-- The characters of bytes are digits and the padding of the last group. -/
theorem encodeBytes_split (bytes : List UInt8) :
    ∃ digits pads, encodeBytes bytes = digits ++ List.replicate pads '=' ∧ (∀ c ∈ digits, c ∈ alphabet)
      ∧ pads < 4 ∧ (digits.length + pads) % 4 = 0 := by
  fun_induction encodeBytes bytes with
  | case1 => exact ⟨[], 0, rfl, fun c h => absurd h List.not_mem_nil, by decide, rfl⟩
  | case2 a =>
    have ha := a.toNat_lt
    refine ⟨[digit (a.toNat / 4), digit (a.toNat % 4 * 16)], 2, rfl, ?_, by decide, by simp⟩
    simp only [List.forall_mem_cons, List.not_mem_nil, false_imp_iff, implies_true, and_true]
    exact ⟨digit_mem (by omega), digit_mem (by omega)⟩
  | case3 a b =>
    have ha := a.toNat_lt
    have hb := b.toNat_lt
    refine ⟨[digit (a.toNat / 4), digit (a.toNat % 4 * 16 + b.toNat / 16), digit (b.toNat % 16 * 4)], 1, rfl, ?_,
      by decide, by simp⟩
    simp only [List.forall_mem_cons, List.not_mem_nil, false_imp_iff, implies_true, and_true]
    exact ⟨digit_mem (by omega), digit_mem (by omega), digit_mem (by omega)⟩
  | case4 a b c bytes ih =>
    have ha := a.toNat_lt
    have hb := b.toNat_lt
    have hc := c.toNat_lt
    obtain ⟨digits, pads, hsplit, hdigits, hpads, hlength⟩ := ih
    refine ⟨digit (a.toNat / 4) :: digit (a.toNat % 4 * 16 + b.toNat / 16)
      :: digit (b.toNat % 16 * 4 + c.toNat / 64) :: digit (c.toNat % 64) :: digits, pads, ?_, ?_, hpads, ?_⟩
    · rw [hsplit]
      rfl
    · simp only [List.forall_mem_cons]
      exact ⟨digit_mem (by omega), digit_mem (by omega), digit_mem (by omega), digit_mem (by omega), hdigits⟩
    · simp only [List.length_cons]
      omega

/-- Without the padding, the digits are left. -/
theorem dropPadding_digits {digits : List Char} (h : ∀ c ∈ digits, c ∈ alphabet) (pads : Nat) :
    dropPadding (digits ++ List.replicate pads '=') = digits := by
  have hpads : (List.replicate pads '=').dropWhile (· = '=') = [] := by
    rw [List.dropWhile_replicate, if_pos (by decide)]
  have hdigits : digits.reverse.dropWhile (· = '=') = digits.reverse := by
    cases hreverse : digits.reverse with
    | nil => rfl
    | cons c cs =>
      have hc : c ∈ alphabet := h c (List.mem_reverse.mp (hreverse ▸ List.mem_cons_self))
      refine List.dropWhile_cons_of_neg fun heq => ?_
      rw [of_decide_eq_true heq] at hc
      exact absurd hc (by decide)
  rw [dropPadding, List.reverse_append, List.reverse_replicate, List.dropWhile_append, hpads, List.isEmpty_nil,
    if_pos rfl, hdigits, List.reverse_reverse]

/-- **The padding that was taken off is put back.** -/
theorem addPadding_dropPadding (bytes : List UInt8) :
    addPadding (dropPadding (encodeBytes bytes)) = encodeBytes bytes := by
  obtain ⟨digits, pads, hsplit, hdigits, hpads, hlength⟩ := encodeBytes_split bytes
  have hcount : (4 - digits.length % 4) % 4 = pads := by omega
  rw [hsplit, dropPadding_digits hdigits, addPadding, hcount]

/-- What is left without the padding is digits. -/
theorem dropPadding_mem {bytes : List UInt8} {c : Char} (h : c ∈ dropPadding (encodeBytes bytes)) : c ∈ alphabet := by
  obtain ⟨digits, pads, hsplit, hdigits, -⟩ := encodeBytes_split bytes
  rw [hsplit, dropPadding_digits hdigits] at h
  exact hdigits c h

example : urlsafeEncode "a?>".toUTF8 = "YT8-" := by decide +kernel
example : urlsafeDecode "YT 8-" = some "a?>".toUTF8 := by decide +kernel

end Base64
