import FactoryAgent.Lib.Text

/-!
# SQL texts

How an SQL engine of the PostgreSQL family takes a text apart: into tokens, into the statements between the
semicolons, and what each statement does.

A semicolon ends a statement unless it stands in a literal, in a quoted name or in a comment. Literals are in
single quotes (with backslash escapes after an `E`) or between dollar tags, names in double quotes; a comment
goes to the end of the line, or is closed and may be nested. A quote that is doubled within quotes ends one
literal and begins the next, which makes no difference to what is inside.
-/

namespace Sql

/-- **A token of a statement.** What a literal says is of no interest here. -/
inductive Token
  | word (letters : List Char)
  | literal
  | quoted
  | symbol (c : Char)
deriving DecidableEq, Repr

/-- **What the scanner is in the middle of.** -/
inductive ScanMode
  | plain
  /-- A word, with the letters read so far in reverse. -/
  | word (read : List Char)
  | literal
  | quoted
  /-- A literal with backslash escapes. -/
  | escapes
  /-- Behind the backslash in such a literal. -/
  | escaped
  /-- Behind a quote in such a literal, which the next character may double. -/
  | escapesQuote
  | dash
  | slash
  | lineComment
  /-- A closed comment, with the comments it is nested in and the character before. -/
  | blockComment (outer : Nat) (before : Char)
  /-- The tag behind a dollar, with the letters read so far in reverse. -/
  | dollar (tag : List Char)
  /-- A literal between dollar tags, with the text read so far in reverse. -/
  | dollarBody (tag read : List Char)

/-- The characters that a word may begin with; beyond ASCII all are letters. -/
def isWordChar (c : Char) : Bool :=
  (48 ≤ c.toNat && c.toNat ≤ 57) || (65 ≤ c.toNat && c.toNat ≤ 90) || (97 ≤ c.toNat && c.toNat ≤ 122)
    || c.toNat == 95 || (127 < c.toNat && !Text.isSpace c)

/-- **What a character begins**, where nothing is begun: the tokens that it ends, and what it begins. -/
def start (c : Char) : List Token × ScanMode :=
  if Text.isSpace c then ([], .plain)
  else if c = '\'' then ([], .literal)
  else if c = '"' then ([], .quoted)
  else if c = '-' then ([], .dash)
  else if c = '/' then ([], .slash)
  else if c = '$' then ([], .dollar [])
  else if isWordChar c then ([], .word [c])
  else ([.symbol c], .plain)

/-- What a character begins behind a token. -/
def startBehind (token : Token) (c : Char) : List Token × ScanMode :=
  (token :: (start c).1, (start c).2)

/-- **One step of the scanner**: the tokens that a character ends, and what the scanner is in then. -/
def step : ScanMode → Char → List Token × ScanMode
  | .plain, c => start c
  | .word read, c =>
    if isWordChar c || c == '$' then ([], .word (c :: read))
    else if c = '\'' ∧ (read = ['e'] ∨ read = ['E']) then ([], .escapes)
    else startBehind (.word read.reverse) c
  | .literal, c => if c = '\'' then ([.literal], .plain) else ([], .literal)
  | .quoted, c => if c = '"' then ([.quoted], .plain) else ([], .quoted)
  | .escapes, c =>
    if c = '\\' then ([], .escaped) else if c = '\'' then ([], .escapesQuote) else ([], .escapes)
  | .escaped, _ => ([], .escapes)
  | .escapesQuote, c => if c = '\'' then ([], .escapes) else startBehind .literal c
  | .dash, c => if c = '-' then ([], .lineComment) else startBehind (.symbol '-') c
  | .slash, c => if c = '*' then ([], .blockComment 0 ' ') else startBehind (.symbol '/') c
  | .lineComment, c => if c = '\n' ∨ c = '\r' then ([], .plain) else ([], .lineComment)
  | .blockComment outer before, c =>
    if before = '*' ∧ c = '/' then
      match outer with
      | 0 => ([], .plain)
      | outer + 1 => ([], .blockComment outer ' ')
    else if before = '/' ∧ c = '*' then ([], .blockComment (outer + 1) ' ')
    else ([], .blockComment outer c)
  | .dollar tag, c =>
    if c = '$' then ([], .dollarBody tag [])
    else if isWordChar c && !(tag.isEmpty && c.isDigit) then ([], .dollar (c :: tag))
    else (.symbol '$' :: (if tag.isEmpty then [] else [.word tag.reverse]) ++ (start c).1, (start c).2)
  | .dollarBody tag read, c =>
    if ('$' :: (tag ++ ['$'])).isPrefixOf (c :: read) then ([.literal], .plain)
    else ([], .dollarBody tag (c :: read))

/-- The tokens that the end of the text ends. -/
def finish : ScanMode → List Token
  | .plain | .lineComment | .blockComment _ _ => []
  | .word read => [.word read.reverse]
  | .literal | .escapes | .escaped | .escapesQuote | .dollarBody _ _ => [.literal]
  | .quoted => [.quoted]
  | .dash => [.symbol '-']
  | .slash => [.symbol '/']
  | .dollar tag => .symbol '$' :: if tag.isEmpty then [] else [.word tag.reverse]

/-- **The tokens of a text.** -/
def scan : ScanMode → List Char → List Token
  | mode, [] => finish mode
  | mode, c :: cs => (step mode c).1 ++ scan (step mode c).2 cs

/-- The token that ends a statement. -/
def endsStatement (token : Token) : Bool :=
  token == .symbol ';'

/-- **The statements that an engine executes** for a text. Nothing between two semicolons is no statement. -/
def statements (sql : List Char) : List (List Token) :=
  ((scan .plain sql).splitOnP endsStatement).filter (fun statement => !statement.isEmpty)

/-! ### The first word -/

/-- A blank begins nothing. -/
theorem start_of_isSpace {c : Char} (h : Text.isSpace c = true) : start c = ([], .plain) :=
  if_pos h

/-- A character of a word is no blank. -/
theorem isSpace_of_isWordChar {c : Char} (h : isWordChar c = true) : Text.isSpace c = false := by
  rw [← Bool.not_eq_true]
  intro hc
  rw [isWordChar, hc] at h
  simp only [Text.isSpace, List.mem_cons, List.not_mem_nil, Bool.or_eq_true, Bool.and_eq_true,
    decide_eq_true_eq, Bool.not_true, Bool.and_false, Bool.or_false, beq_iff_eq, or_false] at h hc
  omega

/-- A character of a word is none that stands for something else. -/
theorem ne_of_isWordChar {c d : Char} (h : isWordChar c = true) (hd : isWordChar d = false) : c ≠ d := by
  rintro rfl
  rw [h] at hd
  cases hd

/-- A character of a word begins one. -/
theorem start_of_isWordChar {c : Char} (h : isWordChar c = true) : start c = ([], .word [c]) := by
  rw [start, isSpace_of_isWordChar h, if_neg Bool.false_ne_true, if_neg (ne_of_isWordChar h (by decide)),
    if_neg (ne_of_isWordChar h (by decide)), if_neg (ne_of_isWordChar h (by decide)),
    if_neg (ne_of_isWordChar h (by decide)), if_neg (ne_of_isWordChar h (by decide)), if_pos h]

/-- **Blanks before a text** make no difference. -/
theorem scan_blanks {blanks : List Char} (h : ∀ c ∈ blanks, Text.isSpace c = true) (cs : List Char) :
    scan .plain (blanks ++ cs) = scan .plain cs := by
  induction blanks with
  | nil => rfl
  | cons c blanks ih =>
    rw [List.forall_mem_cons] at h
    show (start c).1 ++ scan (start c).2 (blanks ++ cs) = _
    rw [start_of_isSpace h.1, List.nil_append, ih h.2]

/-- **What ends a word**: the end of the text, a blank or a semicolon. -/
def EndsWord (rest : List Char) : Prop :=
  ∀ c ∈ rest.head?, Text.isSpace c = true ∨ c = ';'

/-- A word ends where it is ended. -/
theorem scan_word_end (read : List Char) {rest : List Char} (hrest : EndsWord rest) :
    scan (.word read) rest = .word read.reverse :: scan .plain rest := by
  cases rest with
  | nil => rfl
  | cons c rest =>
    have hword : isWordChar c = false := by
      rw [← Bool.not_eq_true]
      intro hc
      rcases hrest c rfl with hblank | rfl
      · rw [isSpace_of_isWordChar hc] at hblank
        cases hblank
      · exact absurd hc (by decide)
    have hother : ∀ d, Text.isSpace d = false → d ≠ ';' → c ≠ d := by
      rintro d hd hsemicolon rfl
      rcases hrest c rfl with hblank | h
      · rw [hd] at hblank
        cases hblank
      · exact hsemicolon h
    have hstep : step (.word read) c = startBehind (.word read.reverse) c := by
      have hdollar : (c == '$') = false := beq_false_of_ne (hother '$' (by decide) (by decide))
      simp only [step, hword, hdollar, Bool.or_self, Bool.false_eq_true, if_false]
      exact if_neg fun h => hother '\'' (by decide) (by decide) h.1
    show (step (.word read) c).1 ++ scan (step (.word read) c).2 rest = _
    rw [hstep]
    rfl

/-- The rest of a word is read into it. -/
theorem scan_word_rest (read : List Char) {letters rest : List Char} (h : ∀ c ∈ letters, isWordChar c = true)
    (hrest : EndsWord rest) :
    scan (.word read) (letters ++ rest) = .word (read.reverse ++ letters) :: scan .plain rest := by
  induction letters generalizing read with
  | nil => rw [List.nil_append, List.append_nil, scan_word_end read hrest]
  | cons c letters ih =>
    rw [List.forall_mem_cons] at h
    have hstep : step (.word read) c = ([], .word (c :: read)) := if_pos (by rw [h.1, Bool.true_or])
    show (step (.word read) c).1 ++ scan (step (.word read) c).2 (letters ++ rest) = _
    rw [hstep, List.nil_append, ih (c :: read) h.2, List.reverse_cons, List.append_assoc]
    rfl

/-- **The first word of a text is its first token.** -/
theorem scan_word {letters rest : List Char} (hne : letters ≠ []) (h : ∀ c ∈ letters, isWordChar c = true)
    (hrest : EndsWord rest) : scan .plain (letters ++ rest) = .word letters :: scan .plain rest := by
  obtain ⟨c, letters, rfl⟩ := List.exists_cons_of_ne_nil hne
  rw [List.forall_mem_cons] at h
  show (start c).1 ++ scan (start c).2 (letters ++ rest) = _
  rw [start_of_isWordChar h.1, List.nil_append, scan_word_rest [c] h.2 hrest]
  rfl

/-- **The first statement of a text begins with its first word.** -/
theorem statements_word {blanks letters rest : List Char} (hblanks : ∀ c ∈ blanks, Text.isSpace c = true)
    (hne : letters ≠ []) (h : ∀ c ∈ letters, isWordChar c = true) (hrest : EndsWord rest) :
    ∃ tokens later, statements (blanks ++ (letters ++ rest)) = (.word letters :: tokens) :: later := by
  obtain ⟨first, others, hsplit⟩ :=
    List.exists_cons_of_ne_nil (List.splitOnP_ne_nil endsStatement (scan .plain rest))
  refine ⟨first, others.filter (fun statement => !statement.isEmpty), ?_⟩
  have hword : endsStatement (.word letters) = false := rfl
  rw [statements, scan_blanks hblanks, scan_word hne h hrest, List.splitOnP_cons_eq_if_modifyHead, hsplit, hword]
  rfl

example : (statements "SELECT ';', E'\\';', $a$;$a$ -- ;\n/* /* ; */ ; */ FROM \";\" ; ; SHOW x".toList).map List.length
    = [8, 2] := by
  decide +kernel

/-! ## What a statement does -/

/-- Where the verb of a statement is looked for. -/
inductive VerbMode
  | start
  /-- Behind `EXPLAIN`. -/
  | explain
  /-- Within the options of `EXPLAIN`, with the parentheses that are open. -/
  | options (openings : Nat)
  /-- Within the common table expressions of `WITH`, with the parentheses that are open and whether one was
  closed since the last comma or `AS`. -/
  | tables (openings : Nat) (closed : Bool)

/-- The letters of a keyword. -/
def keyword (letters : List Char) : String :=
  String.ofList (letters.map Char.toUpper)

/-- **The verb of a statement**, which says what it does: its first keyword, but for `EXPLAIN` that of the
statement it explains, and for `WITH` that of the statement behind the common table expressions. -/
def verb : VerbMode → List Token → Option String
  | _, [] => none
  | .start, .word w :: tokens =>
    if keyword w = "EXPLAIN" then verb .explain tokens
    else if keyword w = "WITH" then verb (.tables 0 false) tokens
    else some (keyword w)
  | .start, .symbol '(' :: tokens => verb .start tokens
  | .start, _ :: _ => none
  | .explain, .word w :: tokens =>
    if keyword w = "ANALYZE" ∨ keyword w = "VERBOSE" then verb .explain tokens
    else if keyword w = "WITH" then verb (.tables 0 false) tokens
    else some (keyword w)
  | .explain, .symbol '(' :: tokens => verb (.options 0) tokens
  | .explain, _ :: _ => none
  | .options openings, token :: tokens =>
    if token = .symbol '(' then verb (.options (openings + 1)) tokens
    else if token = .symbol ')' then
      match openings with
      | 0 => verb .start tokens
      | openings + 1 => verb (.options openings) tokens
    else verb (.options openings) tokens
  | .tables openings closed, .word w :: tokens =>
    if openings = 0 ∧ closed then
      if keyword w = "AS" ∨ keyword w = "USING" then verb (.tables 0 false) tokens else some (keyword w)
    else verb (.tables openings closed) tokens
  | .tables openings closed, token :: tokens =>
    if token = .symbol '(' then verb (.tables (openings + 1) closed) tokens
    else if token = .symbol ')' then verb (.tables (openings - 1) (openings == 1)) tokens
    else if token = .symbol ',' ∧ openings = 0 then verb (.tables 0 false) tokens
    else verb (.tables openings closed) tokens

/-- The verbs of the statements that are no queries. -/
def changingVerbs : List String :=
  ["INSERT", "UPDATE", "DELETE", "MERGE", "TRUNCATE", "CREATE", "DROP", "ALTER", "COMMENT", "ATTACH", "DETACH",
    "COPY", "EXPORT", "IMPORT", "INSTALL", "FORCE", "LOAD", "SET", "RESET", "PRAGMA", "USE", "CALL", "PREPARE",
    "EXECUTE", "DEALLOCATE", "BEGIN", "START", "COMMIT", "END", "ROLLBACK", "ABORT", "CHECKPOINT", "VACUUM",
    "ANALYZE"]

/-- **A statement that is no query.** -/
def Changes (statement : List Token) : Prop :=
  ∃ v ∈ verb .start statement, v ∈ changingVerbs

instance (statement : List Token) : Decidable (Changes statement) :=
  inferInstanceAs (Decidable (∃ v ∈ verb .start statement, v ∈ changingVerbs))

end Sql
