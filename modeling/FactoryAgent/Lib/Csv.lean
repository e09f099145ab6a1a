import Mathlib.Data.List.Basic
import Mathlib.Tactic.SplitIfs

/-!
# Comma-separated values

The writer of Python's `csv` in its default dialect, with rows that end at a line feed: a field is quoted where it
has to be, and a quote within it is doubled. The reader follows the same dialect, character by character, and gives
the rows that were written (`read_write`), whatever characters the fields have.
-/

namespace Csv

/-! ## Writing -/

/-- Whether a character of a field asks for quotes. -/
def special (c : Char) : Bool :=
  c == ',' || c == '"' || c == '\n' || c == '\r'

/-- A field with its quotes doubled. -/
def doubled (field : List Char) : List Char :=
  field.flatMap fun c => if c = '"' then ['"', '"'] else [c]

/-- **A field as it is written**: in quotes where it has a special character, or is empty and alone in its row. -/
def writeField (alone : Bool) (field : List Char) : List Char :=
  if field.any special || (alone && field.isEmpty) then '"' :: doubled field ++ ['"'] else field

/-- The fields after the first, each after a comma, and the end of the row. -/
def writeRest : List (List Char) → List Char
  | [] => ['\n']
  | field :: fields => ',' :: writeField false field ++ writeRest fields

/-- **`writer.writerow`** -/
def writeRow : List (List Char) → List Char
  | [] => ['\n']
  | field :: fields => writeField fields.isEmpty field ++ writeRest fields

/-- The rows, one after the other. -/
def write (rows : List (List (List Char))) : List Char :=
  rows.flatMap writeRow

/-! ## Reading -/

/-- **Where a reader is**: before a row, before a field, in a field, within quotes, or after a quote within them. -/
inductive Mode where
  | row
  | field
  | plain
  | quoted
  | closed
  deriving DecidableEq, Repr

/-- **The reader**, with the field and the row that it has read so far. A row without a field is an empty line. -/
def readFrom : Mode → List Char → List (List Char) → List Char → List (List (List Char))
  | .row, _, _, [] => []
  | _, field, row, [] => [row ++ [field]]
  | mode, field, row, c :: cs =>
    match mode with
    | .quoted => if c = '"' then readFrom .closed field row cs else readFrom .quoted (field ++ [c]) row cs
    | _ =>
      if c = '\n' then (if mode = .row then [] else row ++ [field]) :: readFrom .row [] [] cs
      else if c = ',' then readFrom .field [] (row ++ [field]) cs
      else if c = '"' ∧ mode ≠ .plain then
        (if mode = .closed then readFrom .quoted (field ++ [c]) row cs else readFrom .quoted field row cs)
      else readFrom .plain (field ++ [c]) row cs

/-- The rows of a text. -/
def read (text : List Char) : List (List (List Char)) :=
  readFrom .row [] [] text

/-! ## What is read of a field -/

/-- What a character does outside of quotes. -/
theorem readFrom_cons {mode : Mode} (hmode : mode ≠ .quoted) (field : List Char) (row : List (List Char)) (c : Char)
    (cs : List Char) :
    readFrom mode field row (c :: cs)
      = if c = '\n' then (if mode = .row then [] else row ++ [field]) :: readFrom .row [] [] cs
        else if c = ',' then readFrom .field [] (row ++ [field]) cs
        else if c = '"' ∧ mode ≠ .plain then
          (if mode = .closed then readFrom .quoted (field ++ [c]) row cs else readFrom .quoted field row cs)
        else readFrom .plain (field ++ [c]) row cs := by
  cases mode with
  | quoted => exact absurd rfl hmode
  | row => rfl
  | field => rfl
  | plain => rfl
  | closed => rfl

/-- Within quotes, a doubled text is read as it is. -/
theorem readFrom_doubled (text field : List Char) (row : List (List Char)) (cs : List Char) :
    readFrom .quoted field row (doubled text ++ '"' :: cs) = readFrom .closed (field ++ text) row cs := by
  induction text generalizing field with
  | nil =>
    rw [List.append_nil]
    simp [doubled, readFrom]
  | cons c text ih =>
    have hcons : doubled (c :: text) = (if c = '"' then ['"', '"'] else [c]) ++ doubled text := by
      rw [doubled, List.flatMap_cons, ← doubled]
    rw [hcons]
    by_cases hquote : c = '"'
    · rw [if_pos hquote, hquote]
      have hpair : readFrom .quoted field row ('"' :: '"' :: (doubled text ++ '"' :: cs))
          = readFrom .quoted (field ++ ['"']) row (doubled text ++ '"' :: cs) := rfl
      rw [List.append_assoc, List.cons_append, List.cons_append, List.nil_append, hpair, ih, List.append_assoc]
      rfl
    · rw [if_neg hquote]
      simp only [List.cons_append, List.nil_append, readFrom, if_neg hquote]
      rw [ih, List.append_assoc]
      rfl

/-- Outside of quotes, a text without special characters is read as it is. -/
theorem readFrom_plain {text : List Char} (h : text.any special = false) (field : List Char)
    (row : List (List Char)) (cs : List Char) :
    readFrom .plain field row (text ++ cs) = readFrom .plain (field ++ text) row cs := by
  induction text generalizing field with
  | nil => rw [List.append_nil, List.nil_append]
  | cons c text ih =>
    rw [List.any_cons, Bool.or_eq_false_iff] at h
    obtain ⟨hc, htext⟩ := h
    simp only [special, Bool.or_eq_false_iff, beq_eq_false_iff_ne, ne_eq] at hc
    obtain ⟨⟨⟨hcomma, -⟩, hline⟩, -⟩ := hc
    rw [List.cons_append, readFrom_cons (by decide), if_neg hline, if_neg hcomma,
      if_neg fun hquote => hquote.2 rfl, ih htext, List.append_assoc]
    rfl

/-- The characters that end a field. -/
def ends (c : Char) : Prop := c = ',' ∨ c = '\n'

/-- After a field, in whatever way it was read, its end is read alike. -/
theorem readFrom_end {c : Char} (h : ends c) {mode : Mode} (hmode : mode ≠ .quoted ∧ mode ≠ .row) (field : List Char)
    (row : List (List Char)) (cs : List Char) :
    readFrom mode field row (c :: cs) = readFrom .field field row (c :: cs) := by
  obtain ⟨hquoted, hrow⟩ := hmode
  rcases h with rfl | rfl
  · cases mode with
    | row => exact absurd rfl hrow
    | quoted => exact absurd rfl hquoted
    | field => rfl
    | plain => rfl
    | closed => rfl
  · cases mode with
    | row => exact absurd rfl hrow
    | quoted => exact absurd rfl hquoted
    | field => rfl
    | plain => rfl
    | closed => rfl

/-- **A written field is read as it was**, before a row where it is not empty text, and before a field. -/
theorem readFrom_writeField {mode : Mode} {alone : Bool} (field : List Char) {c : Char} (hend : ends c)
    (row : List (List Char)) (cs : List Char)
    (hmode : mode = .field ∨ (mode = .row ∧ (alone = false → c = ',') ∧ (alone = true → c = '\n'))) :
    readFrom mode [] row (writeField alone field ++ c :: cs) = readFrom .field field row (c :: cs) := by
  unfold writeField
  split_ifs with hquotes
  · -- in quotes: the quote is read before a row as before a field
    have hopen : readFrom mode [] row ('"' :: (doubled field ++ ('"' :: c :: cs)))
        = readFrom .quoted [] row (doubled field ++ ('"' :: c :: cs)) := by
      rcases hmode with rfl | ⟨rfl, -⟩ <;> rfl
    have hshape : '"' :: doubled field ++ ['"'] ++ c :: cs = '"' :: (doubled field ++ ('"' :: c :: cs)) := by simp
    rw [hshape, hopen, readFrom_doubled, List.nil_append]
    exact readFrom_end hend ⟨by decide, by decide⟩ field row cs
  · rw [Bool.not_eq_true, Bool.or_eq_false_iff] at hquotes
    obtain ⟨hplain, halone⟩ := hquotes
    cases field with
    | nil =>
      -- an empty field before a row is not alone, so a comma follows
      rcases hmode with rfl | ⟨rfl, hcomma, -⟩
      · rfl
      · have hfalse : alone = false := by simpa using halone
        rw [hcomma hfalse]
        rfl
    | cons d field =>
      have hfirst := hplain
      rw [List.any_cons, Bool.or_eq_false_iff] at hfirst
      obtain ⟨hd, hrest⟩ := hfirst
      simp only [special, Bool.or_eq_false_iff, beq_eq_false_iff_ne, ne_eq] at hd
      obtain ⟨⟨⟨hdcomma, hdquote⟩, hdline⟩, -⟩ := hd
      have hstart : readFrom mode [] row (d :: (field ++ c :: cs)) = readFrom .plain [d] row (field ++ c :: cs) := by
        rcases hmode with rfl | ⟨rfl, -⟩
        · simp [readFrom, hdcomma, hdquote, hdline]
        · simp [readFrom, hdcomma, hdquote, hdline]
      rw [List.cons_append, hstart, readFrom_plain hrest]
      exact readFrom_end hend ⟨by decide, by decide⟩ _ row cs

/-- The fields after the first are read as they were, and then the rows that follow. -/
theorem readFrom_writeRest (fields : List (List Char)) (field : List Char) (row : List (List Char)) (cs : List Char) :
    readFrom .field field row (writeRest fields ++ cs) = (row ++ field :: fields) :: readFrom .row [] [] cs := by
  induction fields generalizing field row with
  | nil => simp [writeRest, readFrom]
  | cons next fields ih =>
    obtain ⟨c, rest, hrest, hend⟩ : ∃ c rest, writeRest fields ++ cs = c :: rest ∧ ends c := by
      cases fields with
      | nil => exact ⟨'\n', cs, rfl, .inr rfl⟩
      | cons f fs => exact ⟨',', _, rfl, .inl rfl⟩
    have hcomma : readFrom .field field row (writeRest (next :: fields) ++ cs)
        = readFrom .field [] (row ++ [field]) (writeField false next ++ (writeRest fields ++ cs)) := by
      rw [writeRest, List.append_assoc, List.cons_append, readFrom_cons (by decide)]
      rfl
    rw [hcomma, hrest, readFrom_writeField next hend (row ++ [field]) rest (.inl rfl), ← hrest, ih,
      List.append_assoc]
    rfl

/-- **A written row is read as it was**, and then the rows that follow. -/
theorem readFrom_writeRow (fields : List (List Char)) (cs : List Char) :
    readFrom .row [] [] (writeRow fields ++ cs) = fields :: readFrom .row [] [] cs := by
  cases fields with
  | nil => rfl
  | cons field fields =>
    obtain ⟨c, rest, hrest, hend, hcomma, hline⟩ : ∃ c rest, writeRest fields ++ cs = c :: rest ∧ ends c
        ∧ (fields.isEmpty = false → c = ',') ∧ (fields.isEmpty = true → c = '\n') := by
      cases fields with
      | nil => exact ⟨'\n', cs, rfl, .inr rfl, fun h => absurd h Bool.noConfusion, fun _ => rfl⟩
      | cons f fs => exact ⟨',', _, rfl, .inl rfl, fun _ => rfl, fun h => absurd h Bool.noConfusion⟩
    rw [writeRow, List.append_assoc, hrest, readFrom_writeField field hend [] rest (.inr ⟨rfl, hcomma, hline⟩),
      ← hrest, readFrom_writeRest]
    rfl

/-- **What was written is read back.** -/
theorem read_write (rows : List (List (List Char))) : read (write rows) = rows := by
  unfold read
  induction rows with
  | nil => rfl
  | cons row rows ih => rw [write, List.flatMap_cons, readFrom_writeRow, ← write, ih]

end Csv
