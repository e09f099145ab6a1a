import FactoryAgent.Lib.DecimalText
import FactoryAgent.Lib.FirstFree
import FactoryAgent.Lib.Text

/-!
# The titles of the sheets of a workbook

`_valid_sheet_title` and `_unique_sheet_title` of `export/xlsx.py`. The title of a table is cleaned, cut to 31
characters, and numbered where a sheet before it has that title in any case.

Cleaning marks the reserved title "history" before the cut, and the cut takes the apostrophes off the end. So a title
that is "history" up to its 31st character but for apostrophes, and goes on, is not marked and becomes "history"
(`CutToHistory`). Without one, every list of titles gets titles that a workbook accepts (`sheetTitles_iff`): the search
for a free number ends within one try more than there are tables, and neither a shorter front nor its number puts an
apostrophe at an end.
-/

namespace Export

/-! ## Case folding -/

/-- `str.casefold`: what each character becomes. Capitals of ASCII become its small letters, and its other characters
stay. -/
structure CaseFolding where
  /-- What a character becomes. -/
  fold : Char → List Char
  fold_ascii : ∀ c, c.toNat < 128 → fold c = [c.toLower]
  fold_ne_nil : ∀ c, fold c ≠ []

/-- `text.casefold()` -/
def CaseFolding.casefold (folding : CaseFolding) (text : List Char) : List Char :=
  text.flatMap folding.fold

/-- The case folding of ASCII. -/
def CaseFolding.ascii : CaseFolding where
  fold c := [c.toLower]
  fold_ascii _ _ := rfl
  fold_ne_nil _ := List.cons_ne_nil _ _

/-- The reserved title, folded. -/
def history : List Char :=
  "history".toList

namespace CaseFolding

variable (folding : CaseFolding)

theorem casefold_append (front back : List Char) :
    folding.casefold (front ++ back) = folding.casefold front ++ folding.casefold back :=
  List.flatMap_append

/-- Folding takes no character away. -/
theorem length_le_casefold (text : List Char) : text.length ≤ (folding.casefold text).length := by
  induction text with
  | nil => exact Nat.zero_le _
  | cons c cs ih =>
    have hpos : 0 < (folding.fold c).length := List.length_pos_of_ne_nil (folding.fold_ne_nil c)
    rw [casefold, List.flatMap_cons, List.length_append, List.length_cons]
    rw [casefold] at ih
    omega

/-- A text in ASCII folds to its small letters. -/
theorem casefold_ascii {text : List Char} (h : text.all (·.toNat < 128) = true) :
    folding.casefold text = text.map Char.toLower := by
  induction text with
  | nil => rfl
  | cons c cs ih =>
    rw [List.all_cons, Bool.and_eq_true, decide_eq_true_eq] at h
    rw [casefold, List.flatMap_cons, folding.fold_ascii c h.1, List.map_cons]
    exact congrArg (c.toLower :: ·) (ih h.2)

/-- What folds to the reserved title has at most seven characters. -/
theorem length_of_history {text : List Char} (h : folding.casefold text = history) : text.length ≤ 7 := by
  have hle := folding.length_le_casefold text
  rw [h] at hle
  exact hle

end CaseFolding

/-! ## Cleaning -/

/-- `[\[\]:*?/\\\x00-\x1f]`, the characters that a title must not have. -/
def forbidden (c : Char) : Bool :=
  c.toNat < 32 || c ∈ ['[', ']', ':', '*', '?', '/', '\\']

/-- The characters around a title that are stripped. -/
def isEdge (c : Char) : Bool :=
  c = ' ' || c = '\''

/-- `re.sub(…, "_", title).strip(" '")` -/
def cleaned (title : List Char) : List Char :=
  (((title.map fun c => if forbidden c then '_' else c).dropWhile isEdge).reverse.dropWhile isEdge).reverse

/-- `text.rstrip("'")` -/
def withoutQuotes (text : List Char) : List Char :=
  (text.reverse.dropWhile (· = '\'')).reverse

/-- `text[:stop]`, where a negative bound counts from the end. -/
def sliceTo (stop : Int) (text : List Char) : List Char :=
  if 0 ≤ stop then text.take stop.toNat else text.take (text.length - stop.natAbs)

/-- **A cleaned title has no forbidden characters.** -/
theorem cleaned_allowed {title : List Char} {c : Char} (h : c ∈ cleaned title) : forbidden c = false := by
  have hmapped := (List.dropWhile_sublist _).subset
    (List.mem_reverse.mp ((List.dropWhile_sublist _).subset (List.mem_reverse.mp h)))
  obtain ⟨d, -, rfl⟩ := List.mem_map.mp hmapped
  split_ifs with hforbidden
  · decide
  · exact Bool.eq_false_iff.mpr hforbidden

/-- A cleaned title does not begin with an apostrophe. -/
theorem cleaned_head (title : List Char) : (cleaned title).head? ≠ some '\'' := by
  intro h
  obtain ⟨trail, hsplit, -⟩ := Text.dropEnd_split isEdge
    ((title.map fun c => if forbidden c then '_' else c).dropWhile isEdge)
  have hhead : (((title.map fun c => if forbidden c then '_' else c).dropWhile isEdge)).head? = some '\'' := by
    rw [hsplit, List.head?_append_of_ne_nil]
    · exact h
    · intro hnil
      rw [cleaned, hnil] at h
      cases h
  have hedge := List.head?_dropWhile_not isEdge (title.map fun c => if forbidden c then '_' else c)
  rw [hhead] at hedge
  exact absurd hedge (by decide)

/-- A cleaned title does not end with an apostrophe. -/
theorem cleaned_last (title : List Char) : (cleaned title).getLast? ≠ some '\'' := by
  intro h
  rw [cleaned, List.getLast?_reverse] at h
  have hedge := List.head?_dropWhile_not isEdge
    ((title.map fun c => if forbidden c then '_' else c).dropWhile isEdge).reverse
  rw [h] at hedge
  exact absurd hedge (by decide)

/-- A text is what is left of it and the apostrophes at its end. -/
theorem withoutQuotes_split (text : List Char) :
    ∃ count, text = withoutQuotes text ++ List.replicate count '\'' := by
  obtain ⟨trail, hsplit, htrail⟩ := Text.dropEnd_split (· = '\'') text
  refine ⟨trail.length, ?_⟩
  rw [← List.eq_replicate_of_mem fun c hc => of_decide_eq_true (htrail c hc)]
  exact hsplit

/-- A text that does not end with an apostrophe is left, whatever number of them follows. -/
theorem withoutQuotes_append_replicate {text : List Char} (h : text.getLast? ≠ some '\'') (count : Nat) :
    withoutQuotes (text ++ List.replicate count '\'') = text := by
  have hquotes : (List.replicate count '\'').dropWhile (· = '\'') = [] := by
    rw [List.dropWhile_replicate, if_pos (by decide)]
  rw [withoutQuotes, List.reverse_append, List.reverse_replicate, List.dropWhile_append, hquotes, List.isEmpty_nil,
    if_pos rfl]
  have hkept : text.reverse.dropWhile (· = '\'') = text.reverse := by
    cases hreverse : text.reverse with
    | nil => rfl
    | cons c cs =>
      rw [List.getLast?_eq_head?_reverse, hreverse] at h
      exact List.dropWhile_cons_of_neg fun hc => h (congrArg some (of_decide_eq_true hc))
  rw [hkept, List.reverse_reverse]

/-- What is left does not end with an apostrophe. -/
theorem withoutQuotes_last (text : List Char) : (withoutQuotes text).getLast? ≠ some '\'' := by
  intro h
  rw [withoutQuotes, List.getLast?_reverse] at h
  have hquote := List.head?_dropWhile_not (· = '\'') text.reverse
  rw [h] at hquote
  exact absurd hquote (by decide)

variable (folding : CaseFolding)

/-- A cleaned title, marked where it is the reserved one. -/
def marked (title : List Char) : List Char :=
  if folding.casefold (cleaned title) = history then cleaned title ++ ['_'] else cleaned title

/-- **`_valid_sheet_title`** -/
def validSheetTitle (title : List Char) : List Char :=
  if marked folding title = [] then "Sheet".toList else withoutQuotes ((marked folding title).take 31)

/-! ## Numbering -/

/-- `f" ({sequence})"` -/
def suffix (sequence : Nat) : List Char :=
  " (".toList ++ (Nat.repr sequence).toList ++ [')']

/-- A title with a number, `f"{base[: 31 - len(suffix)]}{suffix}"`. -/
def numbered (base : List Char) (sequence : Nat) : List Char :=
  sliceTo (31 - (suffix sequence).length) base ++ suffix sequence

/-- The titles that are tried in turn: the valid title, then with the numbers from 2 on. -/
def candidate (base : List Char) : Nat → List Char
  | 0 => base
  | k + 1 => numbered base (k + 2)

/-- **`_unique_sheet_title`**, with as many tries as there is fuel. -/
def uniqueSheetTitle (fuel : Nat) (title : List Char) (used : List (List Char)) : Option (List Char) :=
  (FirstFree.search used (fun k => folding.casefold (candidate (validSheetTitle folding title) k)) fuel 0).map
    (candidate (validSheetTitle folding title))

/-- The titles of the sheets of tables, one after the other. -/
def uniqueSheetTitles (fuel : Nat) : List (List Char) → List (List Char) → Option (List (List Char))
  | [], _ => some []
  | title :: titles, used => do
    let name ← uniqueSheetTitle folding fuel title used
    let names ← uniqueSheetTitles fuel titles (folding.casefold name :: used)
    pure (name :: names)

/-! ## Acceptable titles -/

/-- A title that a workbook accepts for a sheet. -/
structure SheetTitled (name : List Char) : Prop where
  nonempty : 1 ≤ name.length
  short : name.length ≤ 31
  allowed : ∀ c ∈ name, forbidden c = false
  head : name.head? ≠ some '\''
  last : name.getLast? ≠ some '\''
  unreserved : folding.casefold name ≠ history

/-- A title whose cut is the reserved one: a spelling of it with apostrophes up to the 31st character. -/
def CutToHistory (title : List Char) : Prop :=
  ∃ word, folding.casefold word = history ∧ word ++ List.replicate (31 - word.length) '\'' <+: cleaned title

/-- A title that a workbook accepts but for the reserved one. -/
structure Plain (name : List Char) : Prop where
  nonempty : name ≠ []
  short : name.length ≤ 31
  allowed : ∀ c ∈ name, forbidden c = false
  head : name.head? ≠ some '\''
  last : name.getLast? ≠ some '\''

variable {folding}

/-- The mark keeps the front of a title. -/
theorem marked_cases (folding : CaseFolding) (title : List Char) :
    (folding.casefold (cleaned title) = history ∧ marked folding title = cleaned title ++ ['_'])
      ∨ (folding.casefold (cleaned title) ≠ history ∧ marked folding title = cleaned title) := by
  rw [marked]
  split_ifs with h
  · exact .inl ⟨h, rfl⟩
  · exact .inr ⟨h, rfl⟩

theorem marked_allowed {title : List Char} {c : Char} (h : c ∈ marked folding title) : forbidden c = false := by
  rcases marked_cases folding title with ⟨-, heq⟩ | ⟨-, heq⟩
  · rw [heq, List.mem_append, List.mem_singleton] at h
    rcases h with h | rfl
    · exact cleaned_allowed h
    · decide
  · exact cleaned_allowed (heq ▸ h)

theorem marked_head (title : List Char) : (marked folding title).head? ≠ some '\'' := by
  rcases marked_cases folding title with ⟨-, heq⟩ | ⟨-, heq⟩
  · rw [heq, List.head?_append]
    have hhead := cleaned_head title
    cases hclean : (cleaned title).head? with
    | none => decide
    | some c => exact fun h => hhead (hclean.trans h)
  · rw [heq]
    exact cleaned_head title

/-- **A valid title is plain.** -/
theorem validSheetTitle_plain (title : List Char) : Plain (validSheetTitle folding title) := by
  rw [validSheetTitle]
  split_ifs with hempty
  · have hallowed : "Sheet".toList.all (fun c => !forbidden c) = true := by decide
    refine ⟨by decide, by decide, fun c hc => ?_, by decide, by decide⟩
    exact (Bool.not_eq_true' _).mp (List.all_eq_true.mp hallowed c hc)
  · obtain ⟨count, hsplit⟩ := withoutQuotes_split ((marked folding title).take 31)
    have hhead : ((marked folding title).take 31).head? ≠ some '\'' := by
      rw [List.head?_take]
      exact marked_head title
    have hcut : (marked folding title).take 31 ≠ [] := by
      rw [ne_eq, List.take_eq_nil_iff]
      exact not_or.mpr ⟨by decide, hempty⟩
    have hne : withoutQuotes ((marked folding title).take 31) ≠ [] := by
      intro hnil
      rw [hnil, List.nil_append] at hsplit
      cases count with
      | zero => exact hcut hsplit
      | succ count => exact hhead (by rw [hsplit]; rfl)
    have hfront : withoutQuotes ((marked folding title).take 31) <+: (marked folding title).take 31 :=
      ⟨_, hsplit.symm⟩
    refine ⟨hne, ?_, fun c hc => ?_, ?_, withoutQuotes_last _⟩
    · exact le_trans hfront.length_le (List.length_take_le _ _)
    · exact marked_allowed (List.mem_of_mem_take (hfront.subset hc))
    · intro hquote
      rw [hsplit, List.head?_append_of_ne_nil _ hne] at hhead
      exact hhead hquote

/-- A text that folds to the reserved title does not end with an apostrophe. -/
theorem last_of_history {word : List Char} (h : folding.casefold word = history) : word.getLast? ≠ some '\'' := by
  intro hlast
  obtain ⟨front, rfl⟩ := List.getLast?_eq_some_iff.mp hlast
  have hquote : folding.casefold ['\''] = ['\''] := folding.casefold_ascii (by decide)
  rw [folding.casefold_append, hquote] at h
  have hlasts := congrArg List.getLast? h
  rw [List.getLast?_append_of_ne_nil _ (by decide)] at hlasts
  exact absurd hlasts (by decide)

/-- **The valid title is the reserved one exactly where the cut makes it so.** -/
theorem casefold_validSheetTitle_iff {title : List Char} :
    folding.casefold (validSheetTitle folding title) = history ↔ CutToHistory folding title := by
  constructor
  · intro h
    rw [validSheetTitle] at h
    split_ifs at h with hempty
    · rw [folding.casefold_ascii (by decide)] at h
      exact absurd h (by decide)
    rcases marked_cases folding title with ⟨hreserved, heq⟩ | ⟨hfree, heq⟩
    · -- a marked title is short, and keeps its mark
      have hshort := folding.length_of_history hreserved
      have hmarked : (cleaned title ++ ['_']).getLast? ≠ some '\'' := by simp
      have hkept := withoutQuotes_append_replicate hmarked 0
      rw [List.replicate_zero, List.append_nil] at hkept
      rw [heq, List.take_of_length_le (by rw [List.length_append, List.length_singleton]; omega), hkept,
        folding.casefold_append, hreserved] at h
      have hmark := folding.length_le_casefold ['_']
      have hlength := congrArg List.length h
      rw [List.length_append] at hlength
      rw [List.length_singleton] at hmark
      omega
    · rw [heq] at h
      obtain ⟨count, hsplit⟩ := withoutQuotes_split ((cleaned title).take 31)
      rcases Nat.lt_or_ge (cleaned title).length 32 with hshort | hlong
      · have hkept := withoutQuotes_append_replicate (cleaned_last title) 0
        rw [List.replicate_zero, List.append_nil] at hkept
        rw [List.take_of_length_le (by omega), hkept] at h
        exact absurd h hfree
      · refine ⟨_, h, ?_⟩
        have hlength := congrArg List.length hsplit
        rw [List.length_take_of_le (by omega), List.length_append, List.length_replicate] at hlength
        have hcount : 31 - (withoutQuotes ((cleaned title).take 31)).length = count := by omega
        rw [hcount, ← hsplit]
        exact List.take_prefix _ _
  · rintro ⟨word, hword, hprefix⟩
    have hshort := folding.length_of_history hword
    have hlength : (word ++ List.replicate (31 - word.length) '\'').length = 31 := by
      rw [List.length_append, List.length_replicate]
      omega
    have hcut : (cleaned title).take 31 = word ++ List.replicate (31 - word.length) '\'' :=
      calc (cleaned title).take 31
          = (cleaned title).take (word ++ List.replicate (31 - word.length) '\'').length := by rw [hlength]
        _ = word ++ List.replicate (31 - word.length) '\'' := (List.prefix_iff_eq_take.mp hprefix).symm
    have hmarked : marked folding title = cleaned title := by
      rw [marked, if_neg]
      intro hreserved
      have hle := hprefix.length_le
      have hclean := folding.length_of_history hreserved
      omega
    have hne : cleaned title ≠ [] := by
      intro hnil
      have hle := hprefix.length_le
      rw [hnil, hlength] at hle
      exact absurd hle (by decide)
    rw [validSheetTitle, hmarked, if_neg hne, hcut, withoutQuotes_append_replicate (last_of_history hword)]
    exact hword

instance : DecidablePred (CutToHistory folding) := fun _ => decidable_of_iff _ casefold_validSheetTitle_iff

/-! ## Numbered titles -/

/-- A character of ASCII that is allowed in a title and folds to itself. -/
def unchanged (c : Char) : Bool :=
  c.toNat < 128 && !forbidden c && c.toLower = c

/-- The characters of a suffix are such. -/
theorem suffix_unchanged {sequence : Nat} {c : Char} (h : c ∈ suffix sequence) :
    c.toNat < 128 ∧ forbidden c = false ∧ c.toLower = c := by
  have hdigits : ['0', '1', '2', '3', '4', '5', '6', '7', '8', '9'].all unchanged = true := by decide
  have hsigns : (" (".toList ++ [')']).all unchanged = true := by decide
  have hchar : unchanged c = true := by
    rw [suffix, List.mem_append, List.mem_append] at h
    rcases h with (h | h) | h
    · exact List.all_eq_true.mp hsigns c (List.mem_append_left _ h)
    · exact List.all_eq_true.mp hdigits c (Decimal.mem_digits_of_isDigit (Decimal.isDigit_of_mem_repr h))
    · exact List.all_eq_true.mp hsigns c (List.mem_append_right _ h)
  rw [unchanged, Bool.and_eq_true, Bool.and_eq_true, decide_eq_true_eq, Bool.not_eq_true', decide_eq_true_eq] at hchar
  exact ⟨hchar.1.1, hchar.1.2, hchar.2⟩

theorem casefold_suffix (sequence : Nat) : folding.casefold (suffix sequence) = suffix sequence := by
  rw [folding.casefold_ascii (List.all_eq_true.mpr fun c hc => decide_eq_true (suffix_unchanged hc).1)]
  exact (List.map_congr_left fun c hc => (suffix_unchanged hc).2.2).trans (List.map_id _)

/-- The digits before the last character of a text. -/
def lastDigits (text : List Char) : List Char :=
  ((text.reverse.drop 1).takeWhile Char.isDigit).reverse

theorem lastDigits_suffix (front : List Char) (sequence : Nat) :
    lastDigits (front ++ suffix sequence) = (Nat.repr sequence).toList := by
  have hreverse : (front ++ suffix sequence).reverse.drop 1
      = (Nat.repr sequence).toList.reverse ++ '(' :: (front ++ [' ']).reverse := by
    simp [suffix]
  rw [lastDigits, hreverse, List.takeWhile_append_of_pos
    fun c hc => Decimal.isDigit_of_mem_repr (List.mem_reverse.mp hc)]
  rw [List.takeWhile_cons_of_neg (by decide), List.append_nil, List.reverse_reverse]

/-- **Titles with different numbers differ**, in any case. -/
theorem casefold_numbered_inj {base : List Char} {i j : Nat}
    (h : folding.casefold (numbered base i) = folding.casefold (numbered base j)) : i = j := by
  rw [numbered, numbered, folding.casefold_append, folding.casefold_append, casefold_suffix, casefold_suffix] at h
  have hdigits := congrArg lastDigits h
  rw [lastDigits_suffix, lastDigits_suffix] at hdigits
  have hvalue := congrArg Decimal.digitsValue hdigits
  rwa [Decimal.digitsValue_repr, Decimal.digitsValue_repr] at hvalue

/-- The suffix of a number of at most 20 digits. -/
theorem length_suffix {sequence : Nat} (h : sequence < 10 ^ 20) : (suffix sequence).length ≤ 23 := by
  have hdigits := (Nat.length_repr_le_iff (k := 20) (by decide)).mpr h
  have hopen : " (".length = 2 := rfl
  simp only [suffix, List.length_append, String.length_toList, List.length_singleton]
  omega

/-- **A plain title with a number is accepted.** -/
theorem numbered_titled {base : List Char} (hbase : Plain base) {sequence : Nat} (h : sequence < 10 ^ 20) :
    SheetTitled folding (numbered base sequence) := by
  have hshort := length_suffix h
  have hslice : sliceTo (31 - (suffix sequence).length) base = base.take (31 - (suffix sequence).length) := by
    rw [sliceTo, if_pos (by omega)]
    congr 1
    omega
  have hfront : base.take (31 - (suffix sequence).length) ≠ [] := by
    rw [ne_eq, List.take_eq_nil_iff]
    exact not_or.mpr ⟨by omega, hbase.nonempty⟩
  have hlast : (suffix sequence).getLast? = some ')' := by
    rw [suffix, List.getLast?_append_of_ne_nil _ (by decide)]
    rfl
  have hsuffix : suffix sequence ≠ [] := by
    intro hnil
    rw [hnil] at hlast
    cases hlast
  rw [numbered, hslice]
  constructor
  · rw [List.length_append]
    have hpos := List.length_pos_of_ne_nil hfront
    omega
  · rw [List.length_append]
    have htake := List.length_take_le (31 - (suffix sequence).length) base
    omega
  · intro c hc
    rcases List.mem_append.mp hc with hc | hc
    · exact hbase.allowed c (List.mem_of_mem_take hc)
    · exact (suffix_unchanged hc).2.1
  · rw [List.head?_append_of_ne_nil _ hfront, List.head?_take, if_neg (by omega)]
    exact hbase.head
  · rw [List.getLast?_append_of_ne_nil _ hsuffix, hlast]
    decide
  · intro hreserved
    rw [folding.casefold_append, casefold_suffix] at hreserved
    have hlasts := congrArg List.getLast? hreserved
    rw [List.getLast?_append_of_ne_nil _ hsuffix, hlast] at hlasts
    exact absurd hlasts (by decide)

/-- A plain title is accepted unless it is the reserved one. -/
theorem Plain.titled {name : List Char} (h : Plain name) (hfree : folding.casefold name ≠ history) :
    SheetTitled folding name :=
  ⟨List.length_pos_of_ne_nil h.nonempty, h.short, h.allowed, h.head, h.last, hfree⟩

/-! ## The titles of all sheets -/

/-- **A title is found within two tries more than there are sheets.** It is new, and is the valid title or accepted. -/
theorem exists_uniqueSheetTitle (folding : CaseFolding) (title : List Char) {used : List (List Char)} (hused : used.length < 2 ^ 63) :
    ∃ name, (∀ fuel, used.length + 1 < fuel → uniqueSheetTitle folding fuel title used = some name)
      ∧ folding.casefold name ∉ used ∧ (name = validSheetTitle folding title ∨ SheetTitled folding name) := by
  have hnames : ∀ i j, 1 ≤ i → 1 ≤ j →
      folding.casefold (candidate (validSheetTitle folding title) i)
        = folding.casefold (candidate (validSheetTitle folding title) j) → i = j := by
    intro i j hi hj heq
    obtain ⟨i, rfl⟩ := Nat.exists_eq_add_of_le' hi
    obtain ⟨j, rfl⟩ := Nat.exists_eq_add_of_le' hj
    have hnumber : i + 2 = j + 2 := casefold_numbered_inj heq
    omega
  obtain ⟨k, hk, hfree, hsearch⟩ := FirstFree.exists_search used hnames (Nat.zero_le 1)
  refine ⟨candidate (validSheetTitle folding title) k, fun fuel hfuel => ?_, hfree, ?_⟩
  · rw [uniqueSheetTitle, hsearch fuel (by omega), Option.map_some]
  · cases k with
    | zero => exact .inl rfl
    | succ k => exact .inr (numbered_titled (validSheetTitle_plain title) (by omega))

/-- The reserved title is taken as it is where no sheet has it. -/
theorem uniqueSheetTitle_of_free {title : List Char} {used : List (List Char)}
    (h : folding.casefold (validSheetTitle folding title) ∉ used) {fuel : Nat} {name : List Char}
    (hname : uniqueSheetTitle folding fuel title used = some name) : name = validSheetTitle folding title := by
  obtain ⟨k, hsearch, rfl⟩ := Option.map_eq_some_iff.mp hname
  obtain ⟨-, -, -, hbefore⟩ := FirstFree.search_eq_some_iff.mp hsearch
  cases k with
  | zero => rfl
  | succ k => exact absurd (hbefore 0 (le_refl _) (Nat.succ_pos k)) h

/-- **Titles that are not cut to the reserved one get titles that a workbook accepts**, all different. -/
theorem exists_uniqueSheetTitles {titles : List (List Char)} (used : List (List Char)) (hlength : used.length + titles.length < 2 ^ 63)
    (h : ∀ title ∈ titles, ¬ CutToHistory folding title) :
    ∃ names, (∀ fuel, used.length + titles.length < fuel → uniqueSheetTitles folding fuel titles used = some names)
      ∧ names.Pairwise (fun a b => folding.casefold a ≠ folding.casefold b)
      ∧ (∀ name ∈ names, folding.casefold name ∉ used) ∧ ∀ name ∈ names, SheetTitled folding name := by
  induction titles generalizing used with
  | nil => exact ⟨[], fun fuel hfuel => rfl, List.Pairwise.nil, by simp, by simp⟩
  | cons title titles ih =>
    rw [List.forall_mem_cons] at h
    rw [List.length_cons] at hlength
    obtain ⟨name, hname, hnew, htitled⟩ := exists_uniqueSheetTitle folding title
      (by omega : used.length < 2 ^ 63)
    obtain ⟨names, hnames, hdistinct, hfree, hall⟩ := ih (folding.casefold name :: used)
      (by rw [List.length_cons]; omega) h.2
    have haccepted : SheetTitled folding name := by
      rcases htitled with rfl | htitled
      · exact (validSheetTitle_plain title).titled fun hreserved => h.1 (casefold_validSheetTitle_iff.mp hreserved)
      · exact htitled
    refine ⟨name :: names, fun fuel hfuel => ?_, ?_, ?_, ?_⟩
    · rw [List.length_cons] at hfuel
      rw [uniqueSheetTitles, hname fuel (by omega), Option.bind_eq_bind, Option.bind_some,
        hnames fuel (by rw [List.length_cons]; omega)]
      rfl
    · refine List.pairwise_cons.mpr ⟨fun other hother heq => ?_, hdistinct⟩
      exact hfree other hother (heq ▸ List.mem_cons_self)
    · rintro other hother
      rcases List.mem_cons.mp hother with rfl | hother
      · exact hnew
      · exact fun hused => hfree other hother (List.mem_cons_of_mem _ hused)
    · exact List.forall_mem_cons.mpr ⟨haccepted, hall⟩

/-- Every title gets one. -/
theorem length_uniqueSheetTitles {fuel : Nat} {titles used names : List (List Char)}
    (h : uniqueSheetTitles folding fuel titles used = some names) : names.length = titles.length := by
  induction titles generalizing used names with
  | nil =>
    cases h
    rfl
  | cons title titles ih =>
    obtain ⟨name, -, h⟩ := Option.bind_eq_some_iff.mp h
    obtain ⟨others, hothers, h⟩ := Option.bind_eq_some_iff.mp h
    cases h
    rw [List.length_cons, ih hothers, List.length_cons]

/-- **A title that is cut to the reserved one puts it among the titles.** -/
theorem exists_reserved {titles used names : List (List Char)} {fuel : Nat}
    (hnames : uniqueSheetTitles folding fuel titles used = some names) (hused : history ∉ used)
    (h : ∃ title ∈ titles, CutToHistory folding title) : ∃ name ∈ names, folding.casefold name = history := by
  induction titles generalizing used names with
  | nil =>
    obtain ⟨title, htitle, -⟩ := h
    cases htitle
  | cons title titles ih =>
    rw [uniqueSheetTitles, Option.bind_eq_bind, Option.bind_eq_some_iff] at hnames
    obtain ⟨name, hname, hnames⟩ := hnames
    rw [Option.bind_eq_bind, Option.bind_eq_some_iff] at hnames
    obtain ⟨others, hothers, hnames⟩ := hnames
    cases hnames
    by_cases hreserved : folding.casefold name = history
    · exact ⟨name, List.mem_cons_self, hreserved⟩
    · have hrest : ∃ title ∈ titles, CutToHistory folding title := by
        obtain ⟨cut, hcut, hcutTo⟩ := h
        rcases List.mem_cons.mp hcut with rfl | hcut
        · have hvalid := casefold_validSheetTitle_iff.mpr hcutTo
          have heq := uniqueSheetTitle_of_free (by rwa [hvalid]) hname
          exact absurd (heq ▸ hvalid) hreserved
        · exact ⟨cut, hcut, hcutTo⟩
      obtain ⟨other, hother, heq⟩ := ih hothers
        (fun hmem => (List.mem_cons.mp hmem).elim (fun heq => hreserved heq.symm) hused) hrest
      exact ⟨other, List.mem_cons_of_mem _ hother, heq⟩

variable (folding)

/-- The titles of tables become titles of sheets: the search ends for each of them, within one try more than there are
tables, and the titles differ in any case and are accepted. -/
def TitlesAccepted (titles : List (List Char)) : Prop :=
  ∃ names, (∀ fuel, titles.length < fuel → uniqueSheetTitles folding fuel titles [] = some names)
    ∧ names.Pairwise (fun a b => folding.casefold a ≠ folding.casefold b) ∧ ∀ name ∈ names, SheetTitled folding name

/-- **The titles of tables become titles of sheets exactly where none is cut to the reserved one.** A list has fewer
than 2 ^ 63 entries. -/
theorem titlesAccepted_iff (titles : List (List Char)) (hlength : titles.length < 2 ^ 63) :
    TitlesAccepted folding titles ↔ ∀ title ∈ titles, ¬ CutToHistory folding title := by
  constructor
  · rintro ⟨names, hnames, -, hall⟩ title htitle hcut
    obtain ⟨name, hname, hreserved⟩ := exists_reserved (hnames _ (Nat.lt_succ_self _)) List.not_mem_nil
      ⟨title, htitle, hcut⟩
    exact (hall name hname).unreserved hreserved
  · intro h
    obtain ⟨names, hnames, hdistinct, -, hall⟩ := exists_uniqueSheetTitles [] (by simpa using hlength) h
    exact ⟨names, fun fuel hfuel => hnames fuel (by simpa using hfuel), hdistinct, hall⟩

/-- Tables with one title, and with a title longer than a sheet's. -/
theorem titlesAccepted_repeated :
    TitlesAccepted .ascii ["Orders".toList, "orders".toList, ("History".toList ++ List.replicate 31 'x')] :=
  (titlesAccepted_iff .ascii _ (by decide)).mpr (by decide)

/-- The title of a table that is "history", 24 apostrophes and a letter. -/
def quotedHistory : List Char :=
  history ++ List.replicate 24 '\'' ++ ['x']

/-- **A title is cut to the reserved one.** -/
theorem history_after_cut :
    ¬ TitlesAccepted .ascii [quotedHistory] ∧ uniqueSheetTitles .ascii 2 [quotedHistory] [] = some [history] := by
  refine ⟨fun h => ?_, by decide⟩
  obtain ⟨names, hnames, -, hall⟩ := h
  have hrun : uniqueSheetTitles .ascii 2 [quotedHistory] [] = some [history] := by decide
  have hsome := (hnames 2 (by decide)).symm.trans hrun
  cases hsome
  exact (hall history List.mem_cons_self).unreserved (by decide)

end Export
