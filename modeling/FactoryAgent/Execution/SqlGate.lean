import FactoryAgent.Execution.ReadOnly
import FactoryAgent.Lib.Sql

/-!
# The read-only gate and the statements

What `_assert_read_only` says about the statements that the engine executes for a text. The gate looks at the
first word of the text, and that is the first token of the first statement
(`first_statement_of_accepted`), whatever blanks, comments and literals come later. So a first statement whose
first word is its verb is a query. The gate says nothing about the statement under an `EXPLAIN` or behind the
tables of a `WITH`, nor about the statements behind the first semicolon: there the words that it forbids are
looked for at the beginning of the text only.
-/

/-! ## The first word -/

/-- A character whose capitals are ASCII capitals is one of a word, where it is no blank. -/
theorem isWordChar_of_upper {c : Char} (hblank : Text.isSpace c = false)
    (hcapitals : ∀ u ∈ Text.upperChars [c], 65 ≤ u.toNat ∧ u.toNat ≤ 90) : Sql.isWordChar c = true := by
  simp only [Sql.isWordChar, hblank, Bool.or_eq_true, Bool.and_eq_true, decide_eq_true_eq, beq_iff_eq,
    Bool.not_false, and_true]
  by_cases hascii : c.toNat < 128
  · have hcapital := hcapitals c.toUpper (by rw [Text.upperChars_ascii hascii]; exact List.mem_singleton_self _)
    rcases Text.toUpper_cases c with ⟨hfirst, hlast, -⟩ | hsame
    · exact .inl (.inl (.inr ⟨hfirst, hlast⟩))
    · rw [hsame] at hcapital
      exact .inl (.inl (.inl (.inr hcapital)))
  · exact .inr (by omega)

/-- Dropping the blanks before a text commutes with its capitals. -/
theorem dropWhile_upperChars (cs : List Char) :
    (Text.upperChars cs).dropWhile Text.isSpace = Text.upperChars (cs.dropWhile Text.isSpace) := by
  induction cs with
  | nil => rfl
  | cons c cs ih =>
    obtain ⟨u, us, hu⟩ := List.exists_cons_of_ne_nil (Text.upperChars_single_ne_nil c)
    have hblanks : ∀ u ∈ Text.upperChars [c], Text.isSpace u = Text.isSpace c := fun u => Text.isSpace_upper
    rw [Text.upperChars_cons]
    cases hc : Text.isSpace c with
    | true =>
      rw [List.dropWhile_append_of_pos (fun u hmem => (hblanks u hmem).trans hc), List.dropWhile_cons_of_pos hc, ih]
    | false =>
      have hfirst := hblanks u (hu ▸ List.mem_cons_self)
      rw [List.dropWhile_cons_of_neg (by simp [hc]), Text.upperChars_cons c cs, hu, List.cons_append,
        List.dropWhile_cons_of_neg (by simp [hfirst, hc])]

/-- Taking the first word of a text commutes with its capitals. -/
theorem takeWhile_upperChars (cs : List Char) :
    (Text.upperChars cs).takeWhile (fun c => !Text.isSpace c)
      = Text.upperChars (cs.takeWhile fun c => !Text.isSpace c) := by
  induction cs with
  | nil => rfl
  | cons c cs ih =>
    obtain ⟨u, us, hu⟩ := List.exists_cons_of_ne_nil (Text.upperChars_single_ne_nil c)
    have hblanks : ∀ u ∈ Text.upperChars [c], Text.isSpace u = Text.isSpace c := fun u => Text.isSpace_upper
    rw [Text.upperChars_cons]
    cases hc : Text.isSpace c with
    | true =>
      have hfirst := hblanks u (hu ▸ List.mem_cons_self)
      rw [List.takeWhile_cons_of_neg (by simp [hc]), hu, List.cons_append,
        List.takeWhile_cons_of_neg (by simp [hfirst, hc])]
      rfl
    | false =>
      rw [List.takeWhile_append_of_pos (fun u hmem => by rw [hblanks u hmem, hc]; rfl),
        List.takeWhile_cons_of_pos (by rw [hc]; rfl), ih, ← Text.upperChars_cons]

/-- **The first word of the capitals** is in the capitals of the first word. -/
theorem firstWord_upperChars (text : List Char) :
    firstWord (Text.upperChars text) = Text.upperChars (firstWord text) := by
  rw [firstWord, dropWhile_upperChars, takeWhile_upperChars, firstWord]

/-- The words that a text may begin with are in capitals. -/
theorem readOnlyWords_capitals : readOnlyWords.all (fun word => !word.toList.isEmpty
    && word.toList.all (fun u => 65 ≤ u.toNat && u.toNat ≤ 90)) = true := by
  decide +kernel

/-- A word whose capitals are among those that a text may begin with. -/
theorem letters_of_readOnlyWords {letters : List Char}
    (hblank : ∀ c ∈ letters, Text.isSpace c = false)
    (h : String.ofList (Text.upperChars letters) ∈ readOnlyWords) :
    letters ≠ [] ∧ ∀ c ∈ letters, Sql.isWordChar c = true := by
  have hword := List.all_eq_true.mp readOnlyWords_capitals _ h
  simp only [String.toList_ofList, Bool.and_eq_true, Bool.not_eq_true', List.isEmpty_eq_false_iff,
    List.all_eq_true, decide_eq_true_eq] at hword
  refine ⟨fun hnil => hword.1 (by rw [hnil]; rfl), fun c hc => isWordChar_of_upper (hblank c hc) fun u hu => hword.2 u ?_⟩
  rw [Text.upperChars, List.flatMap_singleton] at hu
  exact List.mem_flatMap.mpr ⟨c, hc, hu⟩

/-- What is left of a text by `sql.strip().rstrip(";").strip()`: blanks before it and blanks and semicolons
behind it are gone. -/
theorem strippedStatement_split (sql : List Char) :
    ∃ lead trail, sql = lead ++ (strippedStatement sql ++ trail) ∧ (∀ c ∈ lead, Text.isSpace c = true)
      ∧ ∀ c ∈ trail, Text.isSpace c = true ∨ c = ';' := by
  obtain ⟨lead, trail, houter, hlead, htrail⟩ := Text.stripped_split sql
  obtain ⟨semicolons, hmiddle, hsemicolons⟩ := Text.dropEnd_split (· == ';') (Text.stripped sql)
  obtain ⟨lead', trail', hinner, hlead', htrail'⟩ :=
    Text.stripped_split ((Text.stripped sql).reverse.dropWhile (· == ';')).reverse
  refine ⟨lead ++ lead', trail' ++ (semicolons ++ trail), ?_, ?_, ?_⟩
  · calc sql = lead ++ (Text.stripped sql ++ trail) := houter
      _ = lead ++ (((lead' ++ (strippedStatement sql ++ trail')) ++ semicolons) ++ trail) := by
        rw [strippedStatement, ← hinner, ← hmiddle]
      _ = _ := by simp only [List.append_assoc]
  · simp only [List.mem_append]
    rintro c (hc | hc)
    · exact hlead c hc
    · exact hlead' c hc
  · simp only [List.mem_append]
    rintro c (hc | hc | hc)
    · exact .inl (htrail' c hc)
    · exact .inr (beq_iff_eq.mp (hsemicolons c hc))
    · exact .inl (htrail c hc)

/-- **The first statement of a text that passes begins with the word that the gate has looked at.** -/
theorem first_statement_of_accepted {sql : List Char} (h : assertReadOnly sql = .ok ()) :
    ∃ letters tokens later, Sql.statements sql = (.word letters :: tokens) :: later
      ∧ String.ofList (Text.upperChars letters) ∈ readOnlyWords := by
  simp only [assertReadOnly, Checks.then_eq_ok, Checks.require_eq_ok, Checks.each_eq_ok,
    firstWord_upperChars] at h
  obtain ⟨lead, trail, hsql, hlead, htrail⟩ := strippedStatement_split sql
  have hsplit : strippedStatement sql = (strippedStatement sql).takeWhile Text.isSpace
      ++ (firstWord (strippedStatement sql) ++ ((strippedStatement sql).dropWhile Text.isSpace).dropWhile
        (fun c => !Text.isSpace c)) := by
    rw [firstWord, List.takeWhile_append_dropWhile, List.takeWhile_append_dropWhile]
  obtain ⟨hne, hletters⟩ := letters_of_readOnlyWords
    (fun c hc => by simpa using List.all_eq_true.mp List.all_takeWhile c hc) h.1
  obtain ⟨rest, hrest⟩ : ∃ rest, ((strippedStatement sql).dropWhile Text.isSpace).dropWhile
    (fun c => !Text.isSpace c) = rest := ⟨_, rfl⟩
  rw [hrest] at hsplit
  have hends : Sql.EndsWord (rest ++ trail) := by
    rintro c hc
    cases hcases : rest with
    | nil =>
      rw [hcases, List.nil_append] at hc
      exact htrail c (List.mem_of_mem_head? hc)
    | cons d ds =>
      rw [hcases, List.cons_append, List.head?_cons, Option.mem_some_iff] at hc
      subst hc
      have hhead := List.head?_dropWhile_not (fun c => !Text.isSpace c)
        ((strippedStatement sql).dropWhile Text.isSpace)
      rw [hrest, hcases] at hhead
      exact .inl (by simpa using hhead)
  have hblanks : ∀ c ∈ lead ++ (strippedStatement sql).takeWhile Text.isSpace, Text.isSpace c = true := by
    simp only [List.mem_append]
    rintro c (hc | hc)
    · exact hlead c hc
    · exact List.all_eq_true.mp List.all_takeWhile c hc
  obtain ⟨tokens, later, hstatements⟩ := Sql.statements_word hblanks hne hletters hends
  refine ⟨_, tokens, later, ?_, h.1⟩
  rw [← hstatements]
  congr 1
  calc sql = lead ++ (strippedStatement sql ++ trail) := hsql
    _ = lead ++ (((strippedStatement sql).takeWhile Text.isSpace
        ++ (firstWord (strippedStatement sql) ++ rest)) ++ trail) := by rw [← hsplit]
    _ = _ := by simp only [List.append_assoc]

/-! ## What the gate does not look at -/

/-- **A statement whose first word is not its verb**: an `EXPLAIN` or a `WITH`. -/
def wrapsStatement : List Sql.Token → Bool
  | .word w :: _ => Sql.keyword w == "EXPLAIN" || Sql.keyword w == "WITH"
  | _ => false

/-- **The statements that the first word of a text says nothing about**: the first one where it is under an
`EXPLAIN` or behind a `WITH`, and all that follow it. -/
def uncheckedStatements : List (List Sql.Token) → List (List Sql.Token)
  | [] => []
  | first :: later => if wrapsStatement first then first :: later else later

/-- No word that a text may begin with changes anything, and the verbs that do are in ASCII. -/
theorem changingVerbs_ascii : Sql.changingVerbs.all (fun v => !readOnlyWords.contains v
    && v.toList.all (fun u => u.toNat < 128)) = true := by
  decide +kernel

/-- **A statement that begins with one of the words the gate lets through is a query**, unless it wraps
another. -/
theorem not_changes_of_readOnlyWords {letters : List Char} {tokens : List Sql.Token}
    (h : String.ofList (Text.upperChars letters) ∈ readOnlyWords)
    (hwraps : wrapsStatement (.word letters :: tokens) = false) : ¬ Sql.Changes (.word letters :: tokens) := by
  rintro ⟨v, hverb, hchanges⟩
  rw [wrapsStatement, Bool.or_eq_false_iff, beq_eq_false_iff_ne, beq_eq_false_iff_ne] at hwraps
  rw [Sql.verb, if_neg hwraps.1, if_neg hwraps.2, Option.mem_some_iff] at hverb
  subst hverb
  have hv := List.all_eq_true.mp changingVerbs_ascii _ hchanges
  simp only [Bool.and_eq_true, Bool.not_eq_true', List.all_eq_true, decide_eq_true_eq, Sql.keyword,
    String.toList_ofList] at hv
  rw [← Text.upperChars_of_map_toUpper hv.2] at hv
  exact absurd (List.contains_iff_mem.mpr h) (by rw [hv.1]; exact Bool.false_ne_true)
