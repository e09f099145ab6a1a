/-!
# Text

The text operations that a Python program relies on: what counts as a blank and as a decimal digit
in Unicode, stripping, slicing off a prefix or a suffix, and lower and upper case as far as a comparison
with an ASCII word can tell them.
-/

namespace Text

/-- `str.isspace` of one character. -/
def isSpace (c : Char) : Bool :=
  (9 ≤ c.toNat && c.toNat ≤ 13) || (28 ≤ c.toNat && c.toNat ≤ 32)
    || (0x2000 ≤ c.toNat && c.toNat ≤ 0x200a)
    || decide (c.toNat ∈ [0x85, 0xa0, 0x1680, 0x2028, 0x2029, 0x202f, 0x205f, 0x3000])

/-- The characters of a text without the blanks around them. -/
def stripped (cs : List Char) : List Char :=
  ((cs.dropWhile isSpace).reverse.dropWhile isSpace).reverse

/-- `str.strip`. -/
def strip (text : String) : String :=
  String.ofList (stripped text.toList)

/-- The zeros of the decimal digit blocks of Unicode, each of ten consecutive characters. -/
def digitZeros : List Nat :=
  [0x30, 0x660, 0x6f0, 0x7c0, 0x966, 0x9e6, 0xa66, 0xae6, 0xb66, 0xbe6, 0xc66, 0xce6, 0xd66, 0xde6,
    0xe50, 0xed0, 0xf20, 0x1040, 0x1090, 0x17e0, 0x1810, 0x1946, 0x19d0, 0x1a80, 0x1a90, 0x1b50,
    0x1bb0, 0x1c40, 0x1c50, 0xa620, 0xa8d0, 0xa900, 0xa9d0, 0xa9f0, 0xaa50, 0xabf0, 0xff10, 0x104a0,
    0x10d30, 0x11066, 0x110f0, 0x11136, 0x111d0, 0x112f0, 0x11450, 0x114d0, 0x11650, 0x116c0,
    0x11730, 0x118e0, 0x11950, 0x11c50, 0x11d50, 0x11da0, 0x11f50, 0x16a60, 0x16ac0, 0x16b50,
    0x1d7ce, 0x1d7d8, 0x1d7e2, 0x1d7ec, 0x1d7f6, 0x1e140, 0x1e2f0, 0x1e4f0, 0x1e950, 0x1fbf0]

/-- The value of a decimal digit, of any script. -/
def digitValue? (c : Char) : Option Nat :=
  (digitZeros.find? (fun first => first ≤ c.toNat && c.toNat < first + 10)).map (c.toNat - ·)

/-- The value of digits with single underscores between them, after the digits read so far. -/
def digitsValue? (read : Nat) : List Char → Option Nat
  | [] => some read
  | '_' :: c :: cs => (digitValue? c).bind fun n => digitsValue? (10 * read + n) cs
  | c :: cs => (digitValue? c).bind fun n => digitsValue? (10 * read + n) cs

/-- A number without its sign. -/
def unsigned? : List Char → Option Nat
  | [] => none
  | c :: cs => (digitValue? c).bind fun n => digitsValue? n cs

/-- `int(text)`; `none` is a raised `ValueError`. -/
def int? (text : String) : Option Int :=
  match stripped text.toList with
  | '-' :: cs => (unsigned? cs).map fun n => -(n : Int)
  | '+' :: cs => (unsigned? cs).map fun n => (n : Int)
  | cs => (unsigned? cs).map fun n => (n : Int)

/-- The first characters of a text, `text[:n]`. -/
def prefixOf (n : Nat) (text : String) : String :=
  String.ofList (text.toList.take n)

/-- A text without this suffix, where it ends with it. -/
def dropSuffix? (suffix text : String) : Option String :=
  if suffix.toList.isSuffixOf text.toList then
    some (String.ofList (text.toList.take (text.toList.length - suffix.toList.length)))
  else none

/-- **What is left without a suffix** is what the suffix is appended to. -/
theorem dropSuffix?_eq_some {suffix text rest : String} :
    dropSuffix? suffix text = some rest ↔ text = rest ++ suffix := by
  rw [dropSuffix?]
  by_cases h : suffix.toList.isSuffixOf text.toList = true
  · obtain ⟨front, hfront⟩ := List.isSuffixOf_iff_suffix.mp h
    have htext : text = String.ofList front ++ suffix := String.toList_inj.mp (by simp [← hfront])
    rw [if_pos h, Option.some.injEq, ← hfront]
    simp only [List.length_append, Nat.add_sub_cancel, List.take_left]
    rw [htext]
    exact ⟨fun h => h ▸ rfl, fun h => String.append_left_inj suffix |>.mp h⟩
  · rw [if_neg h]
    constructor
    · intro h
      cases h
    rintro rfl
    exact absurd (List.isSuffixOf_iff_suffix.mpr ⟨rest.toList, by simp⟩) h

/-- `str.lower`, as far as a comparison with an ASCII text can tell: beside the ASCII capitals, only
the Kelvin sign becomes an ASCII letter. -/
def lower (text : String) : String :=
  String.ofList (text.toList.map (fun c => if c.toNat = 0x212a then 'k' else c.toLower))

/-- The characters beyond ASCII whose capitals have ASCII letters among them, with those capitals. -/
def mixedCapitals : List (Nat × List Nat) :=
  [(0xdf, [0x53, 0x53]), (0x131, [0x49]), (0x149, [0x2bc, 0x4e]), (0x17f, [0x53]), (0x1f0, [0x4a, 0x30c]),
    (0x1e96, [0x48, 0x331]), (0x1e97, [0x54, 0x308]), (0x1e98, [0x57, 0x30a]), (0x1e99, [0x59, 0x30a]),
    (0x1e9a, [0x41, 0x2be]), (0xfb00, [0x46, 0x46]), (0xfb01, [0x46, 0x49]), (0xfb02, [0x46, 0x4c]),
    (0xfb03, [0x46, 0x46, 0x49]), (0xfb04, [0x46, 0x46, 0x4c]), (0xfb05, [0x53, 0x54]),
    (0xfb06, [0x53, 0x54])]

/-- `str.upper`, as far as a comparison with an ASCII text can tell. -/
def upperChars (cs : List Char) : List Char :=
  cs.flatMap fun c =>
    match mixedCapitals.lookup c.toNat with
    | some capitals => capitals.map Char.ofNat
    | none => [c.toUpper]

/-- The capital of an ASCII letter is 32 before it; other characters stay. -/
theorem toUpper_cases (c : Char) :
    (97 ≤ c.toNat ∧ c.toNat ≤ 122 ∧ c.toUpper.toNat = c.toNat - 32) ∨ c.toUpper = c := by
  by_cases h : 'a'.val ≤ c.val ∧ c.val ≤ 'z'.val
  · left
    have hfirst : 97 ≤ c.toNat := h.1
    have hlast : c.toNat ≤ 122 := h.2
    refine ⟨hfirst, hlast, ?_⟩
    have hupper : c.toUpper = ⟨c.val + ('A'.val - 'a'.val), _⟩ := dif_pos h
    rw [hupper]
    show (c.val + ('A'.val - 'a'.val)).toNat = _
    rw [UInt32.toNat_add]
    show (c.toNat + 4294967264) % 4294967296 = _
    omega
  · right
    exact dif_neg h

/-- The entries of the table of capitals are beyond ASCII, and there is no blank among them. -/
theorem mixedCapitals_entries : mixedCapitals.all (fun entry => 127 < entry.1 && !entry.2.isEmpty
    && !isSpace (Char.ofNat entry.1) && entry.2.all (fun n => !isSpace (Char.ofNat n))) = true := by
  decide

/-- The capitals of a character are those of its entry, or the one capital. -/
theorem upperChars_single (c : Char) :
    (∃ capitals, (c.toNat, capitals) ∈ mixedCapitals ∧ upperChars [c] = capitals.map Char.ofNat)
      ∨ upperChars [c] = [c.toUpper] := by
  cases h : mixedCapitals.lookup c.toNat with
  | none => exact .inr (by rw [upperChars, List.flatMap_singleton, h])
  | some capitals =>
    obtain ⟨before, after, heq, -⟩ := List.lookup_eq_some_iff.mp h
    refine .inl ⟨capitals, heq ▸ List.mem_append_right _ List.mem_cons_self, ?_⟩
    rw [upperChars, List.flatMap_singleton, h]

/-- The capitals of an ASCII character are its one capital. -/
theorem upperChars_ascii {c : Char} (h : c.toNat < 128) : upperChars [c] = [c.toUpper] := by
  rcases upperChars_single c with ⟨capitals, hmem, -⟩ | heq
  · have hentry := List.all_eq_true.mp mixedCapitals_entries _ hmem
    simp only [Bool.and_eq_true, decide_eq_true_eq] at hentry
    omega
  · exact heq

/-- The capitals of a text are those of its characters. -/
theorem upperChars_cons (c : Char) (cs : List Char) : upperChars (c :: cs) = upperChars [c] ++ upperChars cs := by
  rw [upperChars, List.flatMap_cons, upperChars, List.flatMap_singleton]
  rfl

/-- Every character has capitals. -/
theorem upperChars_single_ne_nil (c : Char) : upperChars [c] ≠ [] := by
  rcases upperChars_single c with ⟨capitals, hmem, heq⟩ | heq
  · have hentry := List.all_eq_true.mp mixedCapitals_entries _ hmem
    simp only [Bool.and_eq_true, Bool.not_eq_true', List.isEmpty_eq_false_iff] at hentry
    rw [heq, ne_eq, List.map_eq_nil_iff]
    exact hentry.1.1.2
  · rw [heq]
    exact List.cons_ne_nil _ _

/-- **Capitals are blanks where their character is one.** -/
theorem isSpace_upper {c u : Char} (h : u ∈ upperChars [c]) : isSpace u = isSpace c := by
  rcases upperChars_single c with ⟨capitals, hmem, heq⟩ | heq
  · have hentry := List.all_eq_true.mp mixedCapitals_entries _ hmem
    simp only [Bool.and_eq_true, Bool.not_eq_true', List.all_eq_true, Char.ofNat_toNat] at hentry
    rw [heq, List.mem_map] at h
    obtain ⟨n, hn, rfl⟩ := h
    rw [hentry.2 n hn, hentry.1.2]
  · rw [heq, List.mem_singleton] at h
    subst h
    rcases toUpper_cases c with ⟨hfirst, hlast, hupper⟩ | hsame
    · rw [Bool.eq_iff_iff]
      simp only [isSpace, hupper, List.mem_cons, List.not_mem_nil, Bool.or_eq_true, Bool.and_eq_true,
        decide_eq_true_eq, or_false]
      omega
    · rw [hsame]

/-- A text whose characters have ASCII capitals is in ASCII, and its capitals are those. -/
theorem upperChars_of_map_toUpper {cs : List Char} (h : ∀ u ∈ cs.map Char.toUpper, u.toNat < 128) :
    upperChars cs = cs.map Char.toUpper := by
  induction cs with
  | nil => rfl
  | cons c cs ih =>
    rw [List.map_cons, List.forall_mem_cons] at h
    have hascii : c.toNat < 128 := by
      rcases toUpper_cases c with ⟨-, hlast, -⟩ | hsame
      · omega
      · exact hsame ▸ h.1
    rw [upperChars_cons, upperChars_ascii hascii, ih h.2, List.map_cons]
    rfl

/-- What is left of a text without some characters at its end. -/
theorem dropEnd_split (p : Char → Bool) (cs : List Char) :
    ∃ trail, cs = (cs.reverse.dropWhile p).reverse ++ trail ∧ ∀ c ∈ trail, p c = true := by
  refine ⟨(cs.reverse.takeWhile p).reverse, ?_, fun c hc =>
    List.all_eq_true.mp List.all_takeWhile c (List.mem_reverse.mp hc)⟩
  rw [← List.reverse_append, List.takeWhile_append_dropWhile, List.reverse_reverse]

/-- A text is what is left of it between the blanks around it. -/
theorem stripped_split (cs : List Char) :
    ∃ lead trail, cs = lead ++ (stripped cs ++ trail) ∧ (∀ c ∈ lead, isSpace c = true)
      ∧ ∀ c ∈ trail, isSpace c = true := by
  obtain ⟨trail, hsplit, htrail⟩ := dropEnd_split isSpace (cs.dropWhile isSpace)
  refine ⟨cs.takeWhile isSpace, trail, ?_, List.all_eq_true.mp List.all_takeWhile, htrail⟩
  rw [stripped, ← hsplit, List.takeWhile_append_dropWhile]

end Text
