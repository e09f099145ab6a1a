import FactoryAgent.Lib.Json
import FactoryAgent.Lib.Replace

/-!
# The trace report

`application/trace_report.py`: a trace document is written as JSON, two sequences that HTML gives a meaning are
replaced by escapes, and the text is put at the placeholder of the page. The two replacements, one after the other,
spell some characters in another way: a `/` after a `<`, and a `<` before `!--` (`embed_eq_spelled`). Each spelling
stands for its character, so what is embedded reads as the document, and neither sequence is left in it
(`trace_report_embeds`).
-/

namespace TraceReport

open Json (unescape? escapeLetter? unicodeEscape renderWith Spells)

/-! ## The page -/

/-- One character of a text, escaped as `json.dumps` with `ensure_ascii=False` does. -/
def escapeChar (c : Char) : List Char :=
  match escapeLetter? c with
  | some letter => ['\\', letter]
  | none => if c.toNat < 32 then unicodeEscape c.toNat else [c]

/-- The characters of a text between its quotes. -/
def body (text : String) : List Char :=
  text.toList.flatMap escapeChar

/-- `json.dumps(document, ensure_ascii=False)` -/
def dumps (document : Json) : List Char :=
  renderWith body document

/-- `_JSON_ESCAPES` -/
def jsonEscapes : List (List Char × List Char) :=
  [(['<', '/'], ['<', '\\', '/']), (['<', '!', '-', '-'], ['\\', 'u', '0', '0', '3', 'c', '!', '-', '-'])]

/-- **`_embed_json`** -/
def embedJson (document : Json) : List Char :=
  jsonEscapes.foldl (fun text escape => Replace.replace escape.1 escape.2 text) (dumps document)

/-- The placeholder of the page. -/
def placeholder : List Char :=
  "__TRACE_DATA__".toList

/-- **A page with one placeholder**, such as `_TEMPLATE`: what is before it, and what is after it. -/
structure Template where
  before : List Char
  after : List Char
  unique : ∀ front back, before ++ placeholder ++ after = front ++ placeholder ++ back → front = before

/-- The page with its placeholder. -/
def Template.text (template : Template) : List Char :=
  template.before ++ placeholder ++ template.after

/-- **`render_trace_report`** -/
def renderTraceReport (template : Template) (document : Json) : List Char :=
  Replace.replace placeholder (embedJson document) template.text

/-! ## Spellings -/

/-- How a character is spelled, after a `<` or not, and before some characters: a `/` after a `<` gets a backslash, and a
`<` before `!--` becomes its escape. -/
def spell (opened : Bool) (c : Char) (cs : List Char) : List Char :=
  if c = '/' ∧ opened = true then ['\\', '/']
  else if c = '<' ∧ ['!', '-', '-'] <+: cs then ['\\', 'u', '0', '0', '3', 'c']
  else [c]

/-- **What the two replacements make of a text**, read after a `<` or not. -/
def spelled : Bool → List Char → List Char
  | _, [] => []
  | opened, c :: cs => spell opened c cs ++ spelled (decide (c = '<')) cs

/-- A character that is no `<`, and no `/` after one, is spelled as it is. -/
theorem spelled_cons {c : Char} {opened : Bool} (hslash : ¬(c = '/' ∧ opened = true)) (hopen : c ≠ '<') (cs : List Char) :
    spelled opened (c :: cs) = c :: spelled false cs := by
  rw [spelled, spell, if_neg hslash, if_neg (fun h => hopen h.1), decide_eq_false hopen]
  rfl

/-- A `<` that is not before `!--`. -/
theorem spelled_open {cs : List Char} (h : ¬['!', '-', '-'] <+: cs) (opened : Bool) :
    spelled opened ('<' :: cs) = '<' :: spelled true cs := by
  rw [spelled, spell, if_neg (fun hslash => absurd hslash.1 (by decide)), if_neg (fun hprefix => h hprefix.2)]
  rfl

/-- Only a `/` is spelled in another way after a `<`. -/
theorem spelled_opened {cs : List Char} (h : ∀ c ∈ cs.head?, c ≠ '/') : spelled true cs = spelled false cs := by
  cases cs with
  | nil => rfl
  | cons c cs =>
    have hslash : ∀ opened : Bool, ¬(c = '/' ∧ opened = true) := fun _ hslash => h c rfl hslash.1
    rw [spelled, spelled, spell, spell, if_neg (hslash true), if_neg (hslash false)]

/-! ## The replacements -/

/-- The first replacement. -/
def closed (cs : List Char) : List Char :=
  Replace.replace ['<', '/'] ['<', '\\', '/'] cs

/-- The second replacement. -/
def uncommented (cs : List Char) : List Char :=
  Replace.replace ['<', '!', '-', '-'] ['\\', 'u', '0', '0', '3', 'c', '!', '-', '-'] cs

/-- Only a `<` begins an occurrence. -/
theorem not_prefix_cons {c d : Char} (h : d ≠ c) (ds cs : List Char) : ¬d :: ds <+: c :: cs := by
  rintro ⟨back, hback⟩
  exact h (List.cons.inj hback).1

/-- What is no `<` stays in the first replacement. -/
theorem closed_cons {c : Char} (h : c ≠ '<') (cs : List Char) : closed (c :: cs) = c :: closed cs :=
  Replace.replace_cons (not_prefix_cons h.symm _ _)

/-- What is no `<` stays in the second replacement. -/
theorem uncommented_cons {c : Char} (h : c ≠ '<') (cs : List Char) : uncommented (c :: cs) = c :: uncommented cs :=
  Replace.replace_cons (not_prefix_cons h.symm _ _)

/-- A `<` before no `/` stays in the first replacement. -/
theorem closed_open {d : Char} (h : d ≠ '/') (cs : List Char) : closed ('<' :: d :: cs) = '<' :: closed (d :: cs) := by
  refine Replace.replace_cons fun hprefix => ?_
  rw [List.cons_prefix_cons] at hprefix
  exact not_prefix_cons h.symm [] cs hprefix.2

/-- The first replacement keeps the first character. -/
theorem head?_closed (cs : List Char) : (closed cs).head? = cs.head? := by
  cases cs with
  | nil => rfl
  | cons c cs =>
    by_cases hprefix : ['<', '/'] <+: c :: cs
    · obtain ⟨back, hback⟩ := hprefix
      rw [← hback, closed, Replace.replace_append (List.cons_ne_nil _ _)]
      rfl
    · rw [closed, Replace.replace_cons hprefix]
      rfl

/-- The first replacement makes no character before which there is none. -/
theorem prefix_of_closed {d : Char} {ds cs : List Char} (hne : d ≠ '<') (h : d :: ds <+: closed cs) :
    ∃ rest, cs = d :: rest ∧ ds <+: closed rest := by
  cases cs with
  | nil => exact absurd (List.prefix_nil.mp h) (List.cons_ne_nil _ _)
  | cons c cs =>
    obtain ⟨back, hback⟩ := h
    have hhead : c = d := by
      have hfirst := head?_closed (c :: cs)
      rw [← hback] at hfirst
      exact (Option.some.inj hfirst).symm
    subst hhead
    rw [closed_cons hne] at hback
    exact ⟨cs, rfl, ⟨back, (List.cons.inj hback).2⟩⟩

/-- The first replacement makes no `!--`. -/
theorem comment_of_closed {cs : List Char} (h : ['!', '-', '-'] <+: closed cs) : ['!', '-', '-'] <+: cs := by
  obtain ⟨cs₁, rfl, h₁⟩ := prefix_of_closed (by decide) h
  obtain ⟨cs₂, rfl, h₂⟩ := prefix_of_closed (by decide) h₁
  obtain ⟨cs₃, rfl, -⟩ := prefix_of_closed (by decide) h₂
  exact ⟨cs₃, rfl⟩

/-- **The two replacements, one after the other, spell the text.** -/
theorem replaced_eq_spelled (cs : List Char) : uncommented (closed cs) = spelled false cs := by
  match cs with
  | [] => rfl
  | c :: cs =>
    by_cases hopen : c = '<'
    · subst hopen
      match cs with
      | [] => rfl
      | d :: cs =>
        by_cases hslash : d = '/'
        · subst hslash
          have hclosed : closed ('<' :: '/' :: cs) = '<' :: '\\' :: '/' :: closed cs :=
            Replace.replace_append (List.cons_ne_nil _ _) cs
          have hstays : uncommented ('<' :: '\\' :: '/' :: closed cs) = '<' :: uncommented ('\\' :: '/' :: closed cs) :=
            Replace.replace_cons fun hprefix =>
              not_prefix_cons (by decide) _ _ (List.cons_prefix_cons.mp hprefix).2
          rw [hclosed, hstays, uncommented_cons (by decide), uncommented_cons (by decide), replaced_eq_spelled cs,
            spelled_open (not_prefix_cons (by decide) _ _)]
          rfl
        · by_cases hcomment : ['!', '-', '-'] <+: d :: cs
          · obtain ⟨back, hback⟩ := hcomment
            obtain ⟨rfl, hrest⟩ := List.cons.inj hback
            have hshorter : back.length < cs.length + 1 + 1 := by
              rw [← hrest, List.append_eq, List.length_append]
              omega
            have hclosed : closed ('<' :: '!' :: '-' :: '-' :: back) = ['<', '!', '-', '-'] ++ closed back := by
              rw [closed_open hslash, closed_cons (by decide), closed_cons (by decide), closed_cons (by decide)]
              rfl
            rw [← hrest]
            show uncommented (closed ('<' :: '!' :: '-' :: '-' :: back)) = _
            rw [hclosed, uncommented, Replace.replace_append (List.cons_ne_nil _ _)]
            show _ ++ uncommented (closed back) = _
            rw [replaced_eq_spelled back]
            rfl
          · have hstays : uncommented ('<' :: closed (d :: cs)) = '<' :: uncommented (closed (d :: cs)) :=
              Replace.replace_cons fun hprefix =>
                hcomment (comment_of_closed (List.cons_prefix_cons.mp hprefix).2)
            rw [closed_open hslash, hstays, replaced_eq_spelled (d :: cs), spelled_open hcomment, spelled_opened]
            intro c hc
            cases hc
            exact hslash
    · rw [closed_cons hopen, uncommented_cons hopen, replaced_eq_spelled cs,
        spelled_cons (fun h => absurd h.2 Bool.false_ne_true) hopen]
termination_by cs.length
decreasing_by all_goals (simp only [List.length_cons]; omega)

/-- What is embedded is what is dumped, with some characters spelled in another way. -/
theorem embed_eq_spelled (document : Json) : embedJson document = spelled false (dumps document) :=
  replaced_eq_spelled (dumps document)

/-! ## The sequences are gone -/

/-- A character of a spelled text that no escape begins with is one of the text. -/
theorem prefix_of_spelled {d : Char} {ds cs : List Char} {opened : Bool} (hescape : d ≠ '\\') (hopen : d ≠ '<')
    (h : d :: ds <+: spelled opened cs) :
    ¬(d = '/' ∧ opened = true) ∧ ∃ rest, cs = d :: rest ∧ ds <+: spelled false rest := by
  cases cs with
  | nil => exact absurd (List.prefix_nil.mp h) (List.cons_ne_nil _ _)
  | cons c cs =>
    rw [spelled, spell] at h
    split at h
    · exact absurd h (not_prefix_cons hescape _ _)
    · next hslash =>
      split at h
      · exact absurd h (not_prefix_cons hescape _ _)
      · obtain ⟨rfl, hrest⟩ := List.cons_prefix_cons.mp h
        change ds <+: spelled (decide (d = '<')) cs at hrest
        rw [decide_eq_false hopen] at hrest
        exact ⟨hslash, cs, rfl, hrest⟩

/-- Spelling makes no `!--`. -/
theorem comment_of_spelled {cs : List Char} {opened : Bool} (h : ['!', '-', '-'] <+: spelled opened cs) :
    ['!', '-', '-'] <+: cs := by
  obtain ⟨-, cs₁, rfl, h₁⟩ := prefix_of_spelled (by decide) (by decide) h
  obtain ⟨-, cs₂, rfl, h₂⟩ := prefix_of_spelled (by decide) (by decide) h₁
  obtain ⟨-, cs₃, rfl, -⟩ := prefix_of_spelled (by decide) (by decide) h₂
  exact ⟨cs₃, rfl⟩

/-- What begins with no `<` is in a text after a character only if it is in the text. -/
theorem not_infix_cons {c : Char} {ds cs : List Char} (h : c ≠ '<') (hrest : ¬ '<' :: ds <:+: cs) :
    ¬ '<' :: ds <:+: c :: cs := by
  rw [List.infix_cons_iff, not_or]
  exact ⟨not_prefix_cons h.symm ds cs, hrest⟩

/-- **Neither sequence is left in a spelled text.** -/
theorem not_infix_spelled (cs : List Char) (opened : Bool) :
    ¬['<', '/'] <:+: spelled opened cs ∧ ¬['<', '!', '-', '-'] <:+: spelled opened cs := by
  induction cs generalizing opened with
  | nil =>
    exact ⟨fun h => absurd (List.infix_nil.mp h) (List.cons_ne_nil _ _),
      fun h => absurd (List.infix_nil.mp h) (List.cons_ne_nil _ _)⟩
  | cons c cs ih =>
    obtain ⟨hclose, hcomment⟩ := ih (decide (c = '<'))
    rw [spelled, spell]
    split
    · exact ⟨not_infix_cons (by decide) (not_infix_cons (by decide) hclose),
        not_infix_cons (by decide) (not_infix_cons (by decide) hcomment)⟩
    · split
      · exact ⟨not_infix_cons (by decide) (not_infix_cons (by decide) (not_infix_cons (by decide) (not_infix_cons (by decide)
            (not_infix_cons (by decide) (not_infix_cons (by decide) hclose))))),
          not_infix_cons (by decide) (not_infix_cons (by decide) (not_infix_cons (by decide) (not_infix_cons (by decide)
            (not_infix_cons (by decide) (not_infix_cons (by decide) hcomment)))))⟩
      · next hplain =>
        by_cases hopen : c = '<'
        · subst hopen
          simp only [List.cons_append, List.nil_append, List.infix_cons_iff, not_or]
          refine ⟨⟨fun h => ?_, hclose⟩, fun h => ?_, hcomment⟩
          · have hslash := (List.cons_prefix_cons.mp h).2
            exact (prefix_of_spelled (by decide) (by decide) hslash).1 ⟨rfl, rfl⟩
          · exact hplain ⟨rfl, comment_of_spelled (List.cons_prefix_cons.mp h).2⟩
        · exact ⟨not_infix_cons hopen hclose, not_infix_cons hopen hcomment⟩

/-! ## The document is read back -/

/-- Characters without a `<` are spelled as they are. -/
theorem spelled_append {cs : List Char} (h : '<' ∉ cs) (rest : List Char) :
    spelled false (cs ++ rest) = cs ++ spelled false rest := by
  induction cs with
  | nil => rfl
  | cons c cs ih =>
    rw [List.mem_cons, not_or] at h
    rw [List.cons_append, spelled_cons (fun hslash => absurd hslash.2 Bool.false_ne_true) (Ne.symm h.1), ih h.2]
    rfl

/-- What is before a quote begins as it does without it. -/
theorem prefix_append_quote {ds : List Char} (h : '"' ∉ ds) (cs rest : List Char) :
    ds <+: cs ++ '"' :: rest ↔ ds <+: cs := by
  induction ds generalizing cs with
  | nil => exact ⟨fun _ => List.nil_prefix, fun _ => List.nil_prefix⟩
  | cons d ds ih =>
    rw [List.mem_cons, not_or] at h
    cases cs with
    | nil => exact ⟨fun hprefix => absurd hprefix (not_prefix_cons (Ne.symm h.1) _ _),
        fun hprefix => absurd (List.prefix_nil.mp hprefix) (List.cons_ne_nil _ _)⟩
    | cons c cs => rw [List.cons_append, List.cons_prefix_cons, List.cons_prefix_cons, ih h.2]

/-- **A quote ends what is spelled before it.** -/
theorem spelled_quote (opened : Bool) (cs rest : List Char) :
    spelled opened (cs ++ '"' :: rest) = spelled opened cs ++ '"' :: spelled false rest := by
  induction cs generalizing opened with
  | nil => exact spelled_cons (fun h => absurd h.1 (by decide)) (by decide) rest
  | cons c cs ih =>
    have hspell : spell opened c (cs ++ '"' :: rest) = spell opened c cs := by
      unfold spell
      simp only [prefix_append_quote (show '"' ∉ ['!', '-', '-'] by decide)]
    rw [List.cons_append, spelled, hspell, ih, spelled, List.append_assoc]

/-- The characters of a text between its quotes, spelled. -/
def spelledBody (text : String) : List Char :=
  spelled false (body text)

/-- A text in quotes is spelled between its quotes. -/
theorem spelled_text (text : String) (rest : List Char) :
    spelled false ('"' :: (body text ++ '"' :: rest)) = '"' :: (spelledBody text ++ '"' :: spelled false rest) := by
  rw [spelled_cons (fun h => absurd h.1 (by decide)) (by decide), spelled_quote]
  rfl

/-- The characters of a number have no `<` among them. -/
theorem not_mem_digits {cs : List Char} (h : ∀ c ∈ cs, c.isDigit = true) : '<' ∉ cs := fun hmem =>
  absurd (h _ hmem) (by decide)

/-- The digits of a number have no `<` among them. -/
theorem not_mem_repr (n : Nat) : '<' ∉ (Nat.repr n).toList :=
  not_mem_digits fun _ => Decimal.isDigit_of_mem_repr

/-- An integer has no `<`. -/
theorem not_mem_intChars (n : Int) : '<' ∉ Json.intChars n := by
  have hrepr := not_mem_repr n.natAbs
  unfold Json.intChars
  split
  · rw [List.mem_cons, not_or]
    exact ⟨by decide, hrepr⟩
  · exact hrepr

/-- A fraction has no `<`. -/
theorem not_mem_fraction {cs : List Char} (h : Json.IsFraction cs) : '<' ∉ cs := by
  rcases h with rfl | ⟨digits, rfl, -, hdigits⟩
  · exact List.not_mem_nil
  · rw [List.mem_cons, not_or]
    exact ⟨by decide, not_mem_digits hdigits⟩

/-- An exponent has no `<`. -/
theorem not_mem_exponent {cs : List Char} (h : Json.IsExponent cs) : '<' ∉ cs := by
  rcases h with rfl | ⟨e, sign, digits, rfl, he, hsign, -, hdigits⟩
  · exact List.not_mem_nil
  · rw [List.mem_cons, List.mem_append, not_or, not_or]
    refine ⟨?_, ?_, not_mem_digits hdigits⟩
    · rcases he with rfl | rfl <;> decide
    · rcases hsign with rfl | rfl | rfl <;> decide

/-- The literal of a floating point number has no `<`. -/
theorem not_mem_float {literal : String} (h : Json.IsFloatLiteral literal) : '<' ∉ literal.toList := by
  obtain ⟨sign, n, fraction, exponent, hchars, hsign, hfraction, hexponent, -⟩ := h
  rw [hchars, List.mem_append, List.mem_append, List.mem_append, not_or, not_or, not_or]
  refine ⟨?_, not_mem_repr n, not_mem_fraction hfraction, not_mem_exponent hexponent⟩
  rcases hsign with rfl | rfl <;> decide

/-- A separator between values is spelled as it is. -/
theorem spelled_separator (last : Bool) (rest : List Char) :
    spelled false ((if last then [] else [',', ' ']) ++ rest) = (if last then [] else [',', ' ']) ++ spelled false rest :=
  spelled_append (by cases last <;> decide) rest

/-- Values are spelled one after the other. -/
theorem spelled_elements {values : List Json}
    (h : ∀ value ∈ values, ∀ rest,
      spelled false (renderWith body value ++ rest) = renderWith spelledBody value ++ spelled false rest)
    (rest : List Char) :
    spelled false (Json.renderElementsWith body values ++ rest)
      = Json.renderElementsWith spelledBody values ++ spelled false rest := by
  induction values with
  | nil => rfl
  | cons value values ih =>
    rw [Json.renderElementsWith, Json.renderElementsWith, List.append_assoc, List.append_assoc,
      h value List.mem_cons_self, spelled_separator, ih fun v hv => h v (List.mem_cons_of_mem _ hv)]
    simp only [List.append_assoc]

/-- Fields are spelled one after the other. -/
theorem spelled_members {fields : List (String × Json)}
    (h : ∀ field ∈ fields, ∀ rest,
      spelled false (renderWith body field.2 ++ rest) = renderWith spelledBody field.2 ++ spelled false rest)
    (rest : List Char) :
    spelled false (Json.renderMembersWith body fields ++ rest)
      = Json.renderMembersWith spelledBody fields ++ spelled false rest := by
  induction fields with
  | nil => rfl
  | cons field fields ih =>
    obtain ⟨key, value⟩ := field
    have hkey : ∀ rest, spelled false ('"' :: body key ++ ['"', ':', ' '] ++ rest)
        = '"' :: spelledBody key ++ ['"', ':', ' '] ++ spelled false rest := by
      intro rest
      have htext := spelled_text key ([':', ' '] ++ rest)
      rw [spelled_append (show '<' ∉ [':', ' '] by decide)] at htext
      simpa only [List.cons_append, List.append_assoc, List.nil_append] using htext
    rw [Json.renderMembersWith, Json.renderMembersWith, Json.renderMemberWith, Json.renderMemberWith, List.append_assoc,
      List.append_assoc, List.append_assoc, hkey, h (key, value) List.mem_cons_self, spelled_separator,
      ih fun f hf => h f (List.mem_cons_of_mem _ hf)]
    simp only [List.append_assoc]

/-- **Only the texts of a value are spelled in another way.** -/
theorem spelled_renderWith {value : Json} (h : Json.Exact value) (rest : List Char) :
    spelled false (renderWith body value ++ rest) = renderWith spelledBody value ++ spelled false rest := by
  induction h generalizing rest with
  | null => exact spelled_append (by decide) rest
  | bool value => cases value <;> exact spelled_append (by decide) rest
  | int n => exact spelled_append (not_mem_intChars n) rest
  | float hliteral => exact spelled_append (not_mem_float hliteral) rest
  | str text =>
    have htext := spelled_text text rest
    simpa only [renderWith, List.cons_append, List.append_assoc, List.nil_append] using htext
  | arr _ ih =>
    show spelled false ('[' :: (Json.renderElementsWith body _ ++ [']'] ++ rest)) = _
    rw [spelled_cons (fun h => absurd h.1 (by decide)) (by decide), List.append_assoc, spelled_elements ih,
      spelled_append (by decide)]
    simp only [renderWith, List.cons_append, List.append_assoc]
  | obj _ ih =>
    show spelled false ('\x7b' :: (Json.renderMembersWith body _ ++ ['\x7d'] ++ rest)) = _
    rw [spelled_cons (fun h => absurd h.1 (by decide)) (by decide), List.append_assoc, spelled_members ih,
      spelled_append (by decide)]
    simp only [renderWith, List.cons_append, List.append_assoc]

/-- A hexadecimal digit is no `<`. -/
theorem hexDigit_ne (n : Nat) : Json.hexDigit n ≠ '<' := by
  intro h
  have hmem : Json.hexDigit n ∈ ['0', '1', '2', '3', '4', '5', '6', '7', '8', '9', 'a', 'b', 'c', 'd', 'e', 'f'] := by
    unfold Json.hexDigit
    rw [List.getD_eq_getElem?_getD]
    cases hget : (['0', '1', '2', '3', '4', '5', '6', '7', '8', '9', 'a', 'b', 'c', 'd', 'e', 'f'] : List Char)[n]? with
    | none => exact List.mem_cons_self
    | some c => exact List.mem_of_getElem? hget
  rw [h] at hmem
  exact absurd hmem (by decide)

/-- The letter of an escape is no `<`. -/
theorem letter_ne {c letter : Char} (h : escapeLetter? c = some letter) : letter ≠ '<' := by
  obtain ⟨escape, hfind, rfl⟩ := Option.map_eq_some_iff.mp h
  have hall : ∀ escape ∈ Json.escapes, escape.2 ≠ '<' := by decide
  exact hall escape (List.mem_of_find?_eq_some hfind)

/-- An escape is spelled as it is. -/
theorem spelled_escape {cs : List Char} (h : '<' ∉ cs) (opened : Bool) (rest : List Char) :
    spelled opened ('\\' :: cs ++ rest) = '\\' :: cs ++ spelled false rest := by
  rw [List.cons_append, spelled_cons (fun h => absurd h.1 (by decide)) (by decide), spelled_append h]
  rfl

/-- A character that is spelled in its place. -/
theorem unescape?_spell {c : Char} (hletter : escapeLetter? c = none) (hprintable : 32 ≤ c.toNat) (opened : Bool)
    (next : List Char) :
    ∃ d ds, spell opened c next = d :: ds ∧ d ≠ '"' ∧ ∀ rest, unescape? (d :: ds ++ rest) = some (c, rest) := by
  have hplain := Json.ne_of_escapeLetter? hletter
  unfold spell
  split
  · next hslash =>
    exact ⟨_, _, rfl, by decide, fun rest => by rw [hslash.1]; rfl⟩
  · split
    · next hopen =>
      refine ⟨_, _, rfl, by decide, fun rest => ?_⟩
      rw [hopen.1]
      exact Json.unescape?_unicodeEscape (c := '<') (by decide) rest
    · exact ⟨c, [], rfl, hplain.1, Json.unescape?_plain hplain.2 hprintable⟩

/-- **What is embedded of a text spells the text.** -/
theorem spells_spelled (cs : List Char) (opened : Bool) : Spells cs (spelled opened (cs.flatMap escapeChar)) := by
  induction cs generalizing opened with
  | nil => exact .nil
  | cons c cs ih =>
    rw [List.flatMap_cons]
    cases hletter : escapeLetter? c with
    | some letter =>
      have hchars : escapeChar c = '\\' :: [letter] := by
        unfold escapeChar
        rw [hletter]
      have hread : ∀ rest, unescape? ('\\' :: [letter] ++ rest) = some (c, rest) := by
        intro rest
        have h := Json.unescape?_escapeChar c rest
        unfold Json.escapeChar at h
        rw [hletter] at h
        exact h
      rw [hchars, spelled_escape (by rw [List.mem_singleton]; exact (letter_ne hletter).symm)]
      exact .cons hread (by decide) (ih false)
    | none =>
      by_cases hcontrol : c.toNat < 32
      · have hchars : escapeChar c = unicodeEscape c.toNat := by
          unfold escapeChar
          rw [hletter]
          exact if_pos hcontrol
        rw [hchars]
        unfold unicodeEscape
        rw [spelled_escape]
        · exact .cons (Json.unescape?_unicodeEscape (by omega)) (by decide) (ih false)
        · simp only [List.mem_cons, List.not_mem_nil, or_false, not_or]
          exact ⟨by decide, (hexDigit_ne _).symm, (hexDigit_ne _).symm, (hexDigit_ne _).symm, (hexDigit_ne _).symm⟩
      · have hchars : escapeChar c = [c] := by
          unfold escapeChar
          rw [hletter]
          exact if_neg hcontrol
        obtain ⟨d, ds, hspell, hquote, hread⟩ :=
          unescape?_spell hletter (by omega) opened (cs.flatMap escapeChar)
        rw [hchars, List.singleton_append, spelled, hspell]
        exact .cons hread hquote (ih _)

/-- **The trace report embeds its document.** What is embedded contains neither `</` nor `<!--`, reads as the document,
and stands at the one placeholder of the page. -/
theorem trace_report_embeds (template : Template) {document : Json} (h : Json.Exact document) :
    ¬['<', '/'] <:+: embedJson document ∧ ¬['<', '!', '-', '-'] <:+: embedJson document ∧
      Json.loads (String.ofList (embedJson document)) = some document ∧
      renderTraceReport template document = template.before ++ embedJson document ++ template.after := by
  have hspelled : embedJson document = renderWith spelledBody document := by
    have hrender := spelled_renderWith h []
    rw [embed_eq_spelled, dumps]
    simpa only [List.append_nil, spelled] using hrender
  have habsent := not_infix_spelled (dumps document) false
  rw [← embed_eq_spelled] at habsent
  refine ⟨habsent.1, habsent.2, ?_, Replace.replace_of_unique (by decide) template.unique⟩
  rw [hspelled]
  exact Json.loads_renderWith (fun text rest => (spells_spelled text.toList false).string? rest) h

/-- A placeholder between characters that are no underscores is the only one. -/
theorem unique_of_not_mem {before after : List Char} (hbefore : '_' ∉ before) (hafter : '_' ∉ after)
    (front back : List Char) (h : before ++ placeholder ++ after = front ++ placeholder ++ back) : front = before := by
  rw [List.append_assoc, List.append_assoc, List.append_eq_append_iff] at h
  rcases h with ⟨between, rfl, h⟩ | ⟨between, rfl, h⟩
  · have hcount := congrArg (List.count '_') h
    simp only [List.count_append, List.count_eq_zero.mpr hafter] at hcount
    cases between with
    | nil => rw [List.append_nil]
    | cons c between =>
      have hfirst : '_' = c := (List.cons.inj h).1
      rw [← hfirst, List.count_cons_self] at hcount
      omega
  · cases between with
    | nil => rw [List.append_nil]
    | cons c between =>
      have hfirst : '_' = c := (List.cons.inj h).1
      rw [List.mem_append, ← hfirst] at hbefore
      exact absurd (.inr List.mem_cons_self) hbefore

/-- The element of the page that the document is put into. -/
def dataElement : Template where
  before := "<script type=\"application/json\" id=\"trace-data\">".toList
  after := "</script>".toList
  unique := unique_of_not_mem (by decide) (by decide)

/-- A document with the end of an element, the beginning of a comment and the placeholder in it is embedded. -/
theorem trace_report_embeds_markup :
    ¬['<', '/'] <:+: embedJson (.obj [("prompt", .str "</script><!--__TRACE_DATA__"), ("seconds", .float "0.5")]) ∧
      ¬['<', '!', '-', '-'] <:+:
        embedJson (.obj [("prompt", .str "</script><!--__TRACE_DATA__"), ("seconds", .float "0.5")]) ∧
      Json.loads (String.ofList
          (embedJson (.obj [("prompt", .str "</script><!--__TRACE_DATA__"), ("seconds", .float "0.5")])))
        = some (.obj [("prompt", .str "</script><!--__TRACE_DATA__"), ("seconds", .float "0.5")]) ∧
      renderTraceReport dataElement
          (.obj [("prompt", .str "</script><!--__TRACE_DATA__"), ("seconds", .float "0.5")])
        = dataElement.before
          ++ embedJson (.obj [("prompt", .str "</script><!--__TRACE_DATA__"), ("seconds", .float "0.5")])
          ++ dataElement.after := by
  refine trace_report_embeds dataElement (.obj fun field hfield => ?_)
  rw [List.mem_cons, List.mem_singleton] at hfield
  rcases hfield with rfl | rfl
  · exact .str _
  · have hdigits : ∀ c ∈ ['5'], c.isDigit = true := fun c hc => by
      rw [List.mem_singleton.mp hc]
      rfl
    exact .float ⟨[], 0, ['.', '5'], [], by decide, .inl rfl, .inr ⟨['5'], rfl, by decide, hdigits⟩, .inl rfl, by decide⟩

end TraceReport
