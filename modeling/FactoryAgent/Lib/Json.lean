import FactoryAgent.Lib.DecimalText
import FactoryAgent.Lib.Keys

/-!
# JSON

The JSON texts of Python's `json` module: `json.dumps` with its default separators and its escapes, which
leave nothing but printable ASCII in a text, and the scanner behind `json.loads`. A value is read back as it was
written (`Json.loads_dumps`), in whatever way its texts are escaped, as long as each of them is read back
(`Json.loads_renderWith`). A floating point number is the literal that spells it; how a double is spelled is not
modelled.

A text is a sequence of Unicode scalar values here. A lone surrogate, which Python's scanner lets through as a
character of its own, is an error. The limits of the interpreter on the depth of a value and on the digits
of an integer are left out.
-/

/-- **A JSON value.** The fields of an object are those of the text, in its order, repetitions included. -/
inductive Json where
  | null
  | bool (value : Bool)
  | int (value : Int)
  /-- a number with a fraction or an exponent, or one of the constants that are no number, as spelled -/
  | float (literal : String)
  | str (value : String)
  | arr (values : List Json)
  | obj (fields : List (String × Json))
  deriving Repr

namespace Json

/-- `dict.get` of a decoded object: of a repeated key, the last field counts. -/
def get? (fields : List (String × Json)) (key : String) : Option Json :=
  (fields.reverse.find? (fun field => field.1 == key)).map (·.2)

/-- A field that is found is one of the object. -/
theorem mem_of_get? {fields : List (String × Json)} {key : String} {value : Json} (h : get? fields key = some value) :
    (key, value) ∈ fields := by
  obtain ⟨field, hfind, rfl⟩ := Option.map_eq_some_iff.mp h
  have hkey : field.1 = key := by simpa using List.find?_some hfind
  rw [← hkey]
  exact List.mem_reverse.mp (List.mem_of_find?_eq_some hfind)

/-- **A field is found by its key**, where the keys are distinct. -/
theorem get?_of_mem {fields : List (String × Json)} (hnodup : (fields.map Prod.fst).Nodup) {key : String} {value : Json}
    (h : (key, value) ∈ fields) : get? fields key = some value := by
  rw [← List.nodup_reverse, ← List.map_reverse] at hnodup
  have hfind := Keys.find?_eq_some hnodup (List.mem_reverse.mpr h)
  rw [get?, show fields.reverse.find? (fun field => field.1 == key) = some (key, value) from hfind]
  rfl

/-! ## Writing -/

/-- A hexadecimal digit. -/
def hexDigit (n : Nat) : Char :=
  ['0', '1', '2', '3', '4', '5', '6', '7', '8', '9', 'a', 'b', 'c', 'd', 'e', 'f'].getD n '0'

/-- An escape `\uXXXX`. -/
def unicodeEscape (n : Nat) : List Char :=
  ['\\', 'u', hexDigit (n / 4096), hexDigit (n / 256 % 16), hexDigit (n / 16 % 16), hexDigit (n % 16)]

/-- The characters with an escape of one letter, and the letter. -/
def escapes : List (Char × Char) :=
  [('"', '"'), ('\\', '\\'), ('\n', 'n'), ('\r', 'r'), ('\t', 't'), (Char.ofNat 12, 'f'),
    (Char.ofNat 8, 'b')]

/-- The letter of the escape of a character. -/
def escapeLetter? (c : Char) : Option Char :=
  (escapes.find? (fun escape => escape.1 = c)).map (·.2)

/-- **One character of a text**, escaped unless it is printable ASCII. A character above the basic plane is
a pair of surrogates. -/
def escapeChar (c : Char) : List Char :=
  match escapeLetter? c with
  | some letter => ['\\', letter]
  | none =>
    if 32 ≤ c.toNat ∧ c.toNat ≤ 126 then [c]
    else if c.toNat < 0x10000 then unicodeEscape c.toNat
    else unicodeEscape (0xd800 + (c.toNat - 0x10000) / 1024)
      ++ unicodeEscape (0xdc00 + (c.toNat - 0x10000) % 1024)

/-- A text in quotes. -/
def quoted (text : String) : List Char :=
  '"' :: text.toList.flatMap escapeChar ++ ['"']

/-- An integer. -/
def intChars (n : Int) : List Char :=
  if n < 0 then '-' :: (Nat.repr n.natAbs).toList else (Nat.repr n.natAbs).toList

mutual

/-- The characters of a value. -/
def render : Json → List Char
  | null => ['n', 'u', 'l', 'l']
  | bool true => ['t', 'r', 'u', 'e']
  | bool false => ['f', 'a', 'l', 's', 'e']
  | int n => intChars n
  | float literal => literal.toList
  | str text => quoted text
  | arr values => '[' :: renderElements values ++ [']']
  | obj fields => '{' :: renderMembers fields ++ ['}']
termination_by structural value => value

/-- The characters of values, with their separators. -/
def renderElements : List Json → List Char
  | [] => []
  | value :: values =>
    render value ++ (if values.isEmpty then [] else [',', ' ']) ++ renderElements values
termination_by structural values => values

/-- The characters of fields, with their separators. -/
def renderMembers : List (String × Json) → List Char
  | [] => []
  | field :: fields =>
    renderMember field ++ (if fields.isEmpty then [] else [',', ' ']) ++ renderMembers fields
termination_by structural fields => fields

/-- The characters of a field. -/
def renderMember : String × Json → List Char
  | (key, value) => quoted key ++ [':', ' '] ++ render value
termination_by structural field => field

end

/-- **`json.dumps`** -/
def dumps (value : Json) : String :=
  String.ofList (render value)

section Spelling

variable (body : String → List Char)

mutual

/-- The characters of a value whose texts are spelled in some way between their quotes. -/
def renderWith : Json → List Char
  | null => ['n', 'u', 'l', 'l']
  | bool true => ['t', 'r', 'u', 'e']
  | bool false => ['f', 'a', 'l', 's', 'e']
  | int n => intChars n
  | float literal => literal.toList
  | str text => '"' :: body text ++ ['"']
  | arr values => '[' :: renderElementsWith values ++ [']']
  | obj fields => '{' :: renderMembersWith fields ++ ['}']
termination_by structural value => value

/-- The characters of values, with their separators. -/
def renderElementsWith : List Json → List Char
  | [] => []
  | value :: values =>
    renderWith value ++ (if values.isEmpty then [] else [',', ' ']) ++ renderElementsWith values
termination_by structural values => values

/-- The characters of fields, with their separators. -/
def renderMembersWith : List (String × Json) → List Char
  | [] => []
  | field :: fields =>
    renderMemberWith field ++ (if fields.isEmpty then [] else [',', ' ']) ++ renderMembersWith fields
termination_by structural fields => fields

/-- The characters of a field. -/
def renderMemberWith : String × Json → List Char
  | (key, value) => '"' :: body key ++ ['"', ':', ' '] ++ renderWith value
termination_by structural field => field

end

mutual

/-- The characters of a value whose texts are spelled in some way between their quotes, with a gap after each comma
and each colon. -/
def renderSeparated (gap : List Char) : Json → List Char
  | null => ['n', 'u', 'l', 'l']
  | bool true => ['t', 'r', 'u', 'e']
  | bool false => ['f', 'a', 'l', 's', 'e']
  | int n => intChars n
  | float literal => literal.toList
  | str text => '"' :: body text ++ ['"']
  | arr values => '[' :: renderElementsSeparated gap values ++ [']']
  | obj fields => '{' :: renderMembersSeparated gap fields ++ ['}']
termination_by structural value => value

/-- The characters of values, with their separators. -/
def renderElementsSeparated (gap : List Char) : List Json → List Char
  | [] => []
  | value :: values =>
    renderSeparated gap value ++ (if values.isEmpty then [] else ',' :: gap) ++ renderElementsSeparated gap values
termination_by structural values => values

/-- The characters of fields, with their separators. -/
def renderMembersSeparated (gap : List Char) : List (String × Json) → List Char
  | [] => []
  | field :: fields =>
    renderMemberSeparated gap field ++ (if fields.isEmpty then [] else ',' :: gap)
      ++ renderMembersSeparated gap fields
termination_by structural fields => fields

/-- The characters of a field. -/
def renderMemberSeparated (gap : List Char) : String × Json → List Char
  | (key, value) => '"' :: body key ++ ('"' :: ':' :: gap) ++ renderSeparated gap value
termination_by structural field => field

end

mutual

/-- The default separators have a blank for their gap. -/
theorem renderSeparated_blank : ∀ value, renderSeparated body [' '] value = renderWith body value
  | null => rfl
  | bool true => rfl
  | bool false => rfl
  | int _ => rfl
  | float _ => rfl
  | str _ => rfl
  | arr values => by rw [renderSeparated, renderWith, renderElementsSeparated_blank values]
  | obj fields => by rw [renderSeparated, renderWith, renderMembersSeparated_blank fields]
termination_by structural value => value

/-- The elements with the default separators. -/
theorem renderElementsSeparated_blank :
    ∀ values, renderElementsSeparated body [' '] values = renderElementsWith body values
  | [] => rfl
  | value :: values => by
    rw [renderElementsSeparated, renderElementsWith, renderSeparated_blank value,
      renderElementsSeparated_blank values]
termination_by structural values => values

/-- The fields with the default separators. -/
theorem renderMembersSeparated_blank :
    ∀ fields, renderMembersSeparated body [' '] fields = renderMembersWith body fields
  | [] => rfl
  | field :: fields => by
    rw [renderMembersSeparated, renderMembersWith, renderMemberSeparated_blank field,
      renderMembersSeparated_blank fields]
termination_by structural fields => fields

/-- A field with the default separators. -/
theorem renderMemberSeparated_blank :
    ∀ field, renderMemberSeparated body [' '] field = renderMemberWith body field
  | (key, value) => by rw [renderMemberSeparated, renderMemberWith, renderSeparated_blank value]
termination_by structural field => field

end

end Spelling

/-- The texts of `json.dumps` between their quotes. -/
def escaped (text : String) : List Char :=
  text.toList.flatMap escapeChar

/-- One character of a text, escaped as `json.dumps` with `ensure_ascii=False` does. -/
def plainChar (c : Char) : List Char :=
  match escapeLetter? c with
  | some letter => ['\\', letter]
  | none => if c.toNat < 32 then unicodeEscape c.toNat else [c]

/-- The texts of `json.dumps` with `ensure_ascii=False` between their quotes. -/
def plain (text : String) : List Char :=
  text.toList.flatMap plainChar

/-- **`json.dumps` with `ensure_ascii=False`** and separators without blanks. -/
def dumpsCompact (value : Json) : String :=
  String.ofList (renderSeparated plain [] value)

mutual

/-- `json.dumps` escapes texts one character after the other. -/
theorem renderWith_escaped : ∀ value, renderWith escaped value = render value
  | null => rfl
  | bool true => rfl
  | bool false => rfl
  | int _ => rfl
  | float _ => rfl
  | str _ => rfl
  | arr values => by rw [renderWith, render, renderElementsWith_escaped values]
  | obj fields => by rw [renderWith, render, renderMembersWith_escaped fields]
termination_by structural value => value

/-- The elements of `json.dumps`. -/
theorem renderElementsWith_escaped : ∀ values, renderElementsWith escaped values = renderElements values
  | [] => rfl
  | value :: values => by
    rw [renderElementsWith, renderElements, renderWith_escaped value, renderElementsWith_escaped values]
termination_by structural values => values

/-- The fields of `json.dumps`. -/
theorem renderMembersWith_escaped : ∀ fields, renderMembersWith escaped fields = renderMembers fields
  | [] => rfl
  | field :: fields => by
    rw [renderMembersWith, renderMembers, renderMemberWith_escaped field, renderMembersWith_escaped fields]
termination_by structural fields => fields

/-- A field of `json.dumps`. -/
theorem renderMemberWith_escaped : ∀ field, renderMemberWith escaped field = renderMember field
  | (key, value) => by
    rw [renderMemberWith, renderMember, renderWith_escaped value, quoted, escaped]
    simp only [List.cons_append, List.append_assoc, List.nil_append]
termination_by structural field => field

end

/-! ## Reading -/

/-- The blanks of JSON. -/
def isBlank (c : Char) : Bool :=
  c = ' ' || c = '\t' || c = '\n' || c = '\r'

/-- What follows the blanks. -/
def skipBlanks (cs : List Char) : List Char :=
  cs.dropWhile isBlank

/-- The value of a hexadecimal digit. -/
def hexValue? (c : Char) : Option Nat :=
  if '0' ≤ c ∧ c ≤ '9' then some (c.toNat - 48)
  else if 'a' ≤ c ∧ c ≤ 'f' then some (c.toNat - 87)
  else if 'A' ≤ c ∧ c ≤ 'F' then some (c.toNat - 55)
  else none

/-- The number of four hexadecimal digits, and what follows them. -/
def hex? : List Char → Option (Nat × List Char)
  | a :: b :: c :: d :: rest =>
    match hexValue? a, hexValue? b, hexValue? c, hexValue? d with
    | some a, some b, some c, some d => some (a * 4096 + b * 256 + c * 16 + d, rest)
    | _, _, _, _ => none
  | _ => none

/-- The character of an escape after its `\u`: one number, or a pair of surrogates. -/
def unicode? (cs : List Char) : Option (Char × List Char) :=
  (hex? cs).bind fun (n, rest) =>
    if 0xd800 ≤ n ∧ n < 0xdc00 then
      if rest.take 2 = ['\\', 'u'] then
        (hex? (rest.drop 2)).bind fun (m, rest) =>
          if 0xdc00 ≤ m ∧ m < 0xe000 then
            some (Char.ofNat (0x10000 + (n - 0xd800) * 1024 + (m - 0xdc00)), rest)
          else none
      else none
    else if 0xdc00 ≤ n ∧ n < 0xe000 then none
    else some (Char.ofNat n, rest)

/-- The character that an escape of one letter stands for. -/
def escaped? (letter : Char) : Option Char :=
  if letter = '/' then some '/'
  else (escapes.find? (fun escape => escape.2 = letter)).map (·.1)

/-- **The first character of the rest of a quoted text**, unescaped. A control character has to be
escaped. -/
def unescape? : List Char → Option (Char × List Char)
  | [] => none
  | c :: cs =>
    if c = '\\' then
      match cs with
      | [] => none
      | e :: cs => if e = 'u' then unicode? cs else (escaped? e).map fun c => (c, cs)
    else if c.toNat < 32 then none
    else some (c, cs)

/-- The characters up to the closing quote. Every one takes a character of the text at least, so the length
of the text bounds the steps. -/
def stringChars : Nat → List Char → Option (List Char × List Char)
  | 0, _ => none
  | steps + 1, cs =>
    if cs.head? = some '"' then some ([], cs.tail)
    else (unescape? cs).bind fun (c, rest) =>
      (stringChars steps rest).map fun (text, rest) => (c :: text, rest)

/-- A text after its opening quote, and what follows it. -/
def string? (cs : List Char) : Option (String × List Char) :=
  (stringChars cs.length cs).map fun (text, rest) => (String.ofList text, rest)

/-- The fraction of a number: a point and digits, or nothing. -/
def fractionChars : List Char → List Char
  | '.' :: cs => if cs.takeWhile Char.isDigit = [] then [] else '.' :: cs.takeWhile Char.isDigit
  | _ => []

/-- The exponent of a number, or nothing. -/
def exponentChars : List Char → List Char
  | e :: cs =>
    let sign := if cs.head? = some '+' ∨ cs.head? = some '-' then cs.take 1 else []
    let digits := (cs.drop sign.length).takeWhile Char.isDigit
    if (e = 'e' ∨ e = 'E') ∧ digits ≠ [] then e :: sign ++ digits else []
  | [] => []

/-- A number and what follows it: an integer unless it has a fraction or an exponent. -/
def number? (cs : List Char) : Option (Json × List Char) :=
  let sign := if cs.head? = some '-' then ['-'] else []
  let body := cs.drop sign.length
  let whole := if body.head? = some '0' then ['0'] else body.takeWhile Char.isDigit
  let rest := body.drop whole.length
  let fraction := fractionChars rest
  let exponent := exponentChars (rest.drop fraction.length)
  if whole = [] then none
  else if fraction = [] ∧ exponent = [] then
    let value : Int := Decimal.digitsValue whole
    some (int (if sign = [] then value else -value), rest)
  else
    some (float (String.ofList (sign ++ whole ++ fraction ++ exponent)),
      rest.drop (fraction ++ exponent).length)

/-- A word and what follows it. -/
def word? (word : List Char) (value : Json) (cs : List Char) : Option (Json × List Char) :=
  if word.isPrefixOf cs then some (value, cs.drop word.length) else none

/-- A constant or a number. -/
def atom? (cs : List Char) : Option (Json × List Char) :=
  word? ['n', 'u', 'l', 'l'] null cs <|> word? ['t', 'r', 'u', 'e'] (bool true) cs
    <|> word? ['f', 'a', 'l', 's', 'e'] (bool false) cs <|> word? ['N', 'a', 'N'] (float "NaN") cs
    <|> word? ['I', 'n', 'f', 'i', 'n', 'i', 't', 'y'] (float "Infinity") cs
    <|> word? ['-', 'I', 'n', 'f', 'i', 'n', 'i', 't', 'y'] (float "-Infinity") cs <|> number? cs

mutual

/-- **A value and what follows it.** Every step into a value takes a character of the text at least, so its
length bounds the depth. -/
def value? : Nat → List Char → Option (Json × List Char)
  | 0, _ => none
  | depth + 1, cs =>
    match cs with
    | '"' :: cs => (string? cs).map fun (text, rest) => (str text, rest)
    | '[' :: cs =>
      if (skipBlanks cs).head? = some ']' then some (arr [], (skipBlanks cs).tail)
      else (elements? depth (skipBlanks cs)).map fun (values, rest) => (arr values, rest)
    | '{' :: cs =>
      if (skipBlanks cs).head? = some '}' then some (obj [], (skipBlanks cs).tail)
      else (members? depth (skipBlanks cs)).map fun (fields, rest) => (obj fields, rest)
    | cs => atom? cs

/-- The elements of an array up to its closing bracket, one at least. -/
def elements? : Nat → List Char → Option (List Json × List Char)
  | 0, _ => none
  | depth + 1, cs =>
    (value? depth cs).bind fun (value, rest) =>
      match skipBlanks rest with
      | ']' :: rest => some ([value], rest)
      | ',' :: rest =>
        (elements? depth (skipBlanks rest)).map fun (values, rest) => (value :: values, rest)
      | _ => none

/-- The fields of an object up to its closing brace, one at least. -/
def members? : Nat → List Char → Option (List (String × Json) × List Char)
  | 0, _ => none
  | depth + 1, cs =>
    (member? depth cs).bind fun (field, rest) =>
      match skipBlanks rest with
      | '}' :: rest => some ([field], rest)
      | ',' :: rest =>
        (members? depth (skipBlanks rest)).map fun (fields, rest) => (field :: fields, rest)
      | _ => none

/-- A field of an object. -/
def member? : Nat → List Char → Option ((String × Json) × List Char)
  | 0, _ => none
  | depth + 1, cs =>
    match cs with
    | '"' :: cs =>
      (string? cs).bind fun (key, rest) =>
        match skipBlanks rest with
        | ':' :: rest =>
          (value? depth (skipBlanks rest)).map fun (value, rest) => ((key, value), rest)
        | _ => none
    | _ => none

end

/-- **`json.loads`**; `none` is a raised `ValueError`. -/
def loads (text : String) : Option Json :=
  let cs := skipBlanks text.toList
  (value? (cs.length + 1) cs).bind fun (value, rest) =>
    if skipBlanks rest = [] then some value else none

/-! ## Characters -/

/-- A hexadecimal digit is read back. -/
theorem hexValue?_hexDigit {n : Nat} (h : n < 16) : hexValue? (hexDigit n) = some n := by
  have hall : ∀ n < 16, hexValue? (hexDigit n) = some n := by decide +kernel
  exact hall n h

/-- Four hexadecimal digits are read back. -/
theorem hex?_digits {n : Nat} (h : n < 0x10000) (rest : List Char) :
    hex? (hexDigit (n / 4096) :: hexDigit (n / 256 % 16) :: hexDigit (n / 16 % 16)
      :: hexDigit (n % 16) :: rest) = some (n, rest) := by
  have hvalue : n / 4096 * 4096 + n / 256 % 16 * 256 + n / 16 % 16 * 16 + n % 16 = n := by omega
  rw [hex?, hexValue?_hexDigit (by omega), hexValue?_hexDigit (by omega),
    hexValue?_hexDigit (by omega), hexValue?_hexDigit (by omega)]
  exact congrArg (fun value => some (value, rest)) hvalue

/-- A character of the basic plane is read back. -/
theorem unescape?_unicodeEscape {c : Char} (h : c.toNat < 0x10000) (rest : List Char) :
    unescape? (unicodeEscape c.toNat ++ rest) = some (c, rest) := by
  have hvalid : c.toNat < 0xd800 ∨ 0xdfff < c.toNat ∧ c.toNat < 0x110000 := c.valid
  show unicode? (hexDigit (c.toNat / 4096) :: hexDigit (c.toNat / 256 % 16)
    :: hexDigit (c.toNat / 16 % 16) :: hexDigit (c.toNat % 16) :: rest) = some (c, rest)
  rw [unicode?, hex?_digits h, Option.bind_some]
  dsimp only
  rw [if_neg (by omega), if_neg (by omega), Char.ofNat_toNat]

/-- A pair of surrogates is read back. -/
theorem unescape?_surrogates {c : Char} (h : ¬c.toNat < 0x10000) (rest : List Char) :
    unescape? (unicodeEscape (0xd800 + (c.toNat - 0x10000) / 1024)
      ++ unicodeEscape (0xdc00 + (c.toNat - 0x10000) % 1024) ++ rest) = some (c, rest) := by
  have hvalid : c.toNat < 0xd800 ∨ 0xdfff < c.toNat ∧ c.toNat < 0x110000 := c.valid
  have hvalue : 0x10000 + (0xd800 + (c.toNat - 0x10000) / 1024 - 0xd800) * 1024
      + (0xdc00 + (c.toNat - 0x10000) % 1024 - 0xdc00) = c.toNat := by omega
  generalize hhigh : 0xd800 + (c.toNat - 0x10000) / 1024 = high at *
  generalize hlow : 0xdc00 + (c.toNat - 0x10000) % 1024 = low at *
  show unicode? (hexDigit (high / 4096) :: hexDigit (high / 256 % 16) :: hexDigit (high / 16 % 16)
    :: hexDigit (high % 16) :: '\\' :: 'u' :: hexDigit (low / 4096) :: hexDigit (low / 256 % 16)
      :: hexDigit (low / 16 % 16) :: hexDigit (low % 16) :: rest) = some (c, rest)
  rw [unicode?, hex?_digits (by omega), Option.bind_some]
  dsimp only
  rw [if_pos (by omega), if_pos (by rfl), List.drop_succ_cons, List.drop_succ_cons, List.drop_zero,
    hex?_digits (by omega), Option.bind_some]
  dsimp only
  rw [if_pos (by omega), hvalue, Char.ofNat_toNat]

/-- A character that needs no escape is read as it is. -/
theorem unescape?_plain {c : Char} (hslash : c ≠ '\\') (h : 32 ≤ c.toNat) (rest : List Char) :
    unescape? (c :: rest) = some (c, rest) := by
  show (if c = '\\' then _ else if c.toNat < 32 then none else some (c, rest)) = _
  rw [if_neg hslash, if_neg (by omega)]

/-- An escape of one letter is read back. -/
theorem escaped?_of_escapeLetter? {c letter : Char} (h : escapeLetter? c = some letter) :
    letter ≠ 'u' ∧ escaped? letter = some c := by
  have hall : escapes.all (fun escape => escape.2 ≠ 'u' ∧ escaped? escape.2 = some escape.1) = true := by
    decide
  obtain ⟨escape, hfind, rfl⟩ := Option.map_eq_some_iff.mp h
  have hfound := List.find?_some hfind
  have hchar : escape.1 = c := of_decide_eq_true hfound
  have hread := of_decide_eq_true (List.all_eq_true.mp hall escape (List.mem_of_find?_eq_some hfind))
  rw [← hchar]
  exact hread

/-- A character without an escape of one letter is neither a quote nor a backslash. -/
theorem ne_of_escapeLetter? {c : Char} (h : escapeLetter? c = none) : c ≠ '"' ∧ c ≠ '\\' := by
  constructor
  · rintro rfl
    cases h
  · rintro rfl
    cases h

/-- **A character that was written is read back.** -/
theorem unescape?_escapeChar (c : Char) (rest : List Char) :
    unescape? (escapeChar c ++ rest) = some (c, rest) := by
  unfold escapeChar
  cases hletter : escapeLetter? c with
  | some letter =>
    obtain ⟨hu, hread⟩ := escaped?_of_escapeLetter? hletter
    show (if letter = 'u' then unicode? rest else (escaped? letter).map fun c => (c, rest)) = _
    rw [if_neg hu, hread]
    rfl
  | none =>
    dsimp only
    by_cases hplain : 32 ≤ c.toNat ∧ c.toNat ≤ 126
    · rw [if_pos hplain]
      exact unescape?_plain (ne_of_escapeLetter? hletter).2 hplain.1 rest
    · rw [if_neg hplain]
      by_cases hbasic : c.toNat < 0x10000
      · rw [if_pos hbasic]
        exact unescape?_unicodeEscape hbasic rest
      · rw [if_neg hbasic]
        exact unescape?_surrogates hbasic rest

/-- No character is written as a closing quote, nor as nothing. -/
theorem escapeChar_eq_cons (c : Char) : ∃ d ds, escapeChar c = d :: ds ∧ d ≠ '"' := by
  unfold escapeChar
  cases hletter : escapeLetter? c with
  | some letter => exact ⟨_, _, rfl, by decide⟩
  | none =>
    dsimp only
    by_cases hplain : 32 ≤ c.toNat ∧ c.toNat ≤ 126
    · rw [if_pos hplain]
      exact ⟨_, _, rfl, (ne_of_escapeLetter? hletter).1⟩
    · rw [if_neg hplain]
      by_cases hbasic : c.toNat < 0x10000
      · rw [if_pos hbasic]
        exact ⟨_, _, rfl, by decide⟩
      · rw [if_neg hbasic]
        exact ⟨_, _, rfl, by decide⟩

/-! ## Texts -/

/-- **A spelling of a text**: every character is spelled by characters that are read back as it, and that do not
begin with a closing quote. -/
inductive Spells : List Char → List Char → Prop
  | nil : Spells [] []
  | cons {c d : Char} {ds cs chars : List Char} (hread : ∀ rest, unescape? (d :: ds ++ rest) = some (c, rest))
      (hquote : d ≠ '"') (h : Spells cs chars) : Spells (c :: cs) (d :: ds ++ chars)

/-- A spelling is not shorter than its text. -/
theorem Spells.length_le {cs chars : List Char} (h : Spells cs chars) : cs.length ≤ chars.length := by
  induction h with
  | nil => exact Nat.le_refl _
  | cons _ _ _ ih =>
    simp only [List.length_cons, List.length_append]
    omega

/-- **The characters of a text are read back**, up to the closing quote. -/
theorem Spells.stringChars {cs chars : List Char} (h : Spells cs chars) (rest : List Char) {steps : Nat}
    (hsteps : cs.length < steps) : Json.stringChars steps (chars ++ '"' :: rest) = some (cs, rest) := by
  induction h generalizing steps with
  | nil =>
    cases steps with
    | zero => exact absurd hsteps (Nat.not_lt_zero _)
    | succ steps => rfl
  | @cons c d ds cs chars hread hquote _ ih =>
    cases steps with
    | zero => exact absurd hsteps (Nat.not_lt_zero _)
    | succ steps =>
      have hhead : (d :: ds ++ (chars ++ '"' :: rest)).head? ≠ some '"' := fun heq => hquote (Option.some.inj heq)
      rw [List.append_assoc, Json.stringChars, if_neg hhead, hread, Option.bind_some]
      dsimp only
      rw [ih (Nat.lt_of_succ_lt_succ hsteps)]
      rfl

/-- **A spelling of a text is read back.** -/
theorem Spells.string? {text : String} {chars : List Char} (h : Spells text.toList chars) (rest : List Char) :
    Json.string? (chars ++ '"' :: rest) = some (text, rest) := by
  have hlength := h.length_le
  rw [Json.string?, h.stringChars rest (by simp only [List.length_append, List.length_cons]; omega), Option.map_some]
  exact congrArg (fun text => some (text, rest)) String.ofList_toList

/-- The escapes of `json.dumps` spell a text. -/
theorem spells_flatMap (cs : List Char) : Spells cs (cs.flatMap escapeChar) := by
  induction cs with
  | nil => exact .nil
  | cons c cs ih =>
    obtain ⟨d, ds, hd, hquote⟩ := escapeChar_eq_cons c
    rw [List.flatMap_cons, hd]
    exact .cons (hd ▸ unescape?_escapeChar c) hquote ih

/-- **A text spells itself** with `ensure_ascii=False`. -/
theorem spells_plain (cs : List Char) : Spells cs (cs.flatMap plainChar) := by
  induction cs with
  | nil => exact .nil
  | cons c cs ih =>
    rw [List.flatMap_cons]
    cases hletter : escapeLetter? c with
    | some letter =>
      have hchars : plainChar c = escapeChar c := by
        unfold plainChar escapeChar
        rw [hletter]
      obtain ⟨d, ds, hd, hquote⟩ := escapeChar_eq_cons c
      rw [hchars, hd]
      exact .cons (hd ▸ unescape?_escapeChar c) hquote ih
    | none =>
      have hplain := ne_of_escapeLetter? hletter
      by_cases hcontrol : c.toNat < 32
      · have hchars : plainChar c = unicodeEscape c.toNat := by
          unfold plainChar
          rw [hletter]
          exact if_pos hcontrol
        rw [hchars]
        exact .cons (unescape?_unicodeEscape (by omega)) (by decide) ih
      · have hchars : plainChar c = [c] := by
          unfold plainChar
          rw [hletter]
          exact if_neg hcontrol
        rw [hchars]
        exact .cons (unescape?_plain hplain.2 (by omega)) hplain.1 ih

/-- **A text in quotes is read back.** -/
theorem string?_quoted (text : String) (rest : List Char) :
    string? (text.toList.flatMap escapeChar ++ '"' :: rest) = some (text, rest) :=
  (spells_flatMap text.toList).string? rest

/-! ## Numbers -/

/-- What a value is followed by: nothing, a separator or a closing bracket. -/
def Ends (rest : List Char) : Prop :=
  ∀ c ∈ rest.head?, c = ',' ∨ c = ']' ∨ c = '}'

/-- A separator or a closing bracket ends a value. -/
theorem ends_cons {c : Char} (h : c = ',' ∨ c = ']' ∨ c = '}') (rest : List Char) : Ends (c :: rest) := by
  intro d hd
  cases hd
  exact h

/-- No digit ends a value. -/
theorem Ends.not_isDigit {rest : List Char} (h : Ends rest) :
    ∀ c ∈ rest.head?, c.isDigit = false := by
  intro c hc
  rcases h c hc with rfl | rfl | rfl <;> rfl

/-- No fraction follows a value. -/
theorem Ends.fractionChars {rest : List Char} (h : Ends rest) : Json.fractionChars rest = [] := by
  cases rest with
  | nil => rfl
  | cons c rest => rcases h c rfl with rfl | rfl | rfl <;> rfl

/-- No exponent follows a value. -/
theorem Ends.exponentChars {rest : List Char} (h : Ends rest) : Json.exponentChars rest = [] := by
  cases rest with
  | nil => rfl
  | cons c rest =>
    rw [Json.exponentChars]
    rcases h c rfl with rfl | rfl | rfl <;> exact if_neg (fun h => absurd h.1 (by decide))

/-- The head of a list with something in front. -/
theorem head?_append {cs rest : List Char} (h : cs ≠ []) : (cs ++ rest).head? = cs.head? := by
  cases cs with
  | nil => exact absurd rfl h
  | cons c cs => rfl

/-- Only zero is written with a leading zero. -/
theorem head_repr {n : Nat} (h : n ≠ 0) : (Nat.repr n).toList.head? ≠ some '0' := by
  rw [Nat.toList_repr]
  induction n using Nat.strongRecOn with
  | ind n ih =>
    rcases Nat.lt_or_ge n 10 with hlt | hge
    · rw [Nat.toDigits_of_lt_base hlt]
      exact fun hzero => h (Nat.digitChar_eq_zero.mp (Option.some.inj hzero))
    · rw [Nat.toDigits_of_base_le (by decide) hge, head?_append Nat.toDigits_ne_nil]
      exact ih (n / 10) (by omega) (by omega)

/-- The whole part of a number is its digits. -/
theorem whole_repr (n : Nat) {rest : List Char} (h : ∀ c ∈ rest.head?, c.isDigit = false) :
    (if ((Nat.repr n).toList ++ rest).head? = some '0' then ['0']
      else ((Nat.repr n).toList ++ rest).takeWhile Char.isDigit) = (Nat.repr n).toList := by
  by_cases hzero : n = 0
  · subst hzero
    rfl
  · rw [if_neg, (Decimal.span_digits rest (fun c => Decimal.isDigit_of_mem_repr) h).1]
    rw [head?_append (Decimal.repr_ne_nil n)]
    exact head_repr hzero

/-- A sign is read before digits. -/
theorem sign_repr {sign : List Char} (n : Nat) (rest : List Char) (hsign : sign = [] ∨ sign = ['-']) :
    (if (sign ++ ((Nat.repr n).toList ++ rest)).head? = some '-' then ['-'] else []) = sign := by
  have hhead : ((Nat.repr n).toList ++ rest).head? ≠ some '-' := by
    rw [head?_append (Decimal.repr_ne_nil n)]
    intro hminus
    exact absurd (Decimal.isDigit_of_mem_repr (List.mem_of_head? hminus)) (by decide)
  rcases hsign with rfl | rfl
  · exact if_neg hhead
  · rfl

/-- The digits of a number after its sign. -/
theorem number?_digits {sign : List Char} (n : Nat) {rest : List Char} (h : Ends rest)
    (hsign : sign = [] ∨ sign = ['-']) :
    number? (sign ++ ((Nat.repr n).toList ++ rest))
      = some (int (if sign = [] then (n : Int) else -(n : Int)), rest) := by
  unfold number?
  rw [sign_repr n rest hsign]
  dsimp only
  rw [List.drop_left, whole_repr n h.not_isDigit, List.drop_left, h.fractionChars, List.length_nil, List.drop_zero,
    h.exponentChars, if_neg (Decimal.repr_ne_nil n), if_pos ⟨rfl, rfl⟩, Decimal.digitsValue_repr]

/-- An integer is read back as a number. -/
theorem number?_intChars (n : Int) {rest : List Char} (h : Ends rest) :
    number? (intChars n ++ rest) = some (int n, rest) := by
  unfold intChars
  split
  · next hneg =>
    have hvalue : -(n.natAbs : Int) = n := by omega
    have hread := number?_digits n.natAbs h (Or.inr rfl)
    rw [if_neg (List.cons_ne_nil _ _), hvalue] at hread
    exact hread
  · next hnonneg =>
    have hvalue : (n.natAbs : Int) = n := by omega
    have hread := number?_digits n.natAbs h (Or.inl rfl)
    rw [if_pos rfl, hvalue] at hread
    exact hread

/-- A fraction as it is spelled: a point and digits, or nothing. -/
def IsFraction (cs : List Char) : Prop :=
  cs = [] ∨ ∃ digits, cs = '.' :: digits ∧ digits ≠ [] ∧ ∀ c ∈ digits, c.isDigit = true

/-- An exponent as it is spelled, or nothing. -/
def IsExponent (cs : List Char) : Prop :=
  cs = [] ∨ ∃ e sign digits, cs = e :: (sign ++ digits) ∧ (e = 'e' ∨ e = 'E') ∧ (sign = [] ∨ sign = ['+'] ∨ sign = ['-']) ∧
    digits ≠ [] ∧ ∀ c ∈ digits, c.isDigit = true

/-- **A literal of a floating point number**: an integer with a fraction or an exponent, or with both. -/
def IsFloatLiteral (literal : String) : Prop :=
  ∃ sign n fraction exponent, literal.toList = sign ++ ((Nat.repr n).toList ++ (fraction ++ exponent)) ∧
    (sign = [] ∨ sign = ['-']) ∧ IsFraction fraction ∧ IsExponent exponent ∧ fraction ++ exponent ≠ []

/-- Digits and what follows them. -/
theorem takeWhile_digits {digits rest : List Char} (hdigits : ∀ c ∈ digits, c.isDigit = true)
    (hrest : ∀ c ∈ rest.head?, c.isDigit = false) : (digits ++ rest).takeWhile Char.isDigit = digits :=
  (Decimal.span_digits rest hdigits hrest).1

/-- A digit does not begin an exponent, nor what ends a value. -/
theorem IsExponent.not_isDigit {exponent rest : List Char} (h : IsExponent exponent) (hrest : Ends rest) :
    ∀ c ∈ (exponent ++ rest).head?, c.isDigit = false := by
  rcases h with rfl | ⟨e, sign, digits, rfl, he, -⟩
  · exact hrest.not_isDigit
  · intro c hc
    cases hc
    rcases he with rfl | rfl <;> rfl

/-- A digit does not begin a fraction, nor what may follow one. -/
theorem IsFraction.not_isDigit {fraction rest : List Char} (h : IsFraction fraction)
    (hrest : ∀ c ∈ rest.head?, c.isDigit = false) : ∀ c ∈ (fraction ++ rest).head?, c.isDigit = false := by
  rcases h with rfl | ⟨digits, rfl, -⟩
  · exact hrest
  · intro c hc
    cases hc
    rfl

/-- A fraction is read back. -/
theorem IsFraction.fractionChars {fraction exponent rest : List Char} (h : IsFraction fraction)
    (hexponent : IsExponent exponent) (hrest : Ends rest) :
    Json.fractionChars (fraction ++ (exponent ++ rest)) = fraction := by
  rcases h with rfl | ⟨digits, rfl, hne, hdigits⟩
  · rcases hexponent with rfl | ⟨e, sign, digits, rfl, rfl | rfl, -⟩
    · exact hrest.fractionChars
    · rfl
    · rfl
  · show (if (digits ++ (exponent ++ rest)).takeWhile Char.isDigit = [] then []
      else '.' :: (digits ++ (exponent ++ rest)).takeWhile Char.isDigit) = _
    rw [takeWhile_digits hdigits (hexponent.not_isDigit hrest), if_neg hne]

/-- An exponent is read back. -/
theorem IsExponent.exponentChars {exponent rest : List Char} (h : IsExponent exponent) (hrest : Ends rest) :
    Json.exponentChars (exponent ++ rest) = exponent := by
  rcases h with rfl | ⟨e, sign, digits, rfl, he, hsign, hne, hdigits⟩
  · exact hrest.exponentChars
  · have hdigit : ∀ c ∈ (digits ++ rest).head?, c.isDigit = true := by
      intro c hc
      rw [head?_append hne] at hc
      exact hdigits c (List.mem_of_head? hc)
    have hread : (if (sign ++ digits ++ rest).head? = some '+' ∨ (sign ++ digits ++ rest).head? = some '-' then
        (sign ++ digits ++ rest).take 1 else []) = sign := by
      rcases hsign with rfl | rfl | rfl
      · refine if_neg ?_
        rintro (h | h)
        · exact absurd (hdigit _ h) (by decide)
        · exact absurd (hdigit _ h) (by decide)
      · rfl
      · rfl
    show Json.exponentChars (e :: (sign ++ digits ++ rest)) = _
    rw [Json.exponentChars, hread, List.append_assoc, List.drop_left, takeWhile_digits hdigits hrest.not_isDigit, if_pos ⟨he, hne⟩]
    rfl

/-- **The literal of a floating point number is read back.** -/
theorem number?_float {literal : String} (h : IsFloatLiteral literal) {rest : List Char} (hrest : Ends rest) :
    number? (literal.toList ++ rest) = some (float literal, rest) := by
  obtain ⟨sign, n, fraction, exponent, hchars, hsign, hfraction, hexponent, hne⟩ := h
  have hsplit : literal.toList ++ rest = sign ++ ((Nat.repr n).toList ++ (fraction ++ (exponent ++ rest))) := by
    rw [hchars]
    simp only [List.append_assoc]
  have hliteral : String.ofList (sign ++ (Nat.repr n).toList ++ fraction ++ exponent) = literal := by
    rw [← String.ofList_toList (s := literal), hchars]
    simp only [List.append_assoc]
  have hdrop : (fraction ++ (exponent ++ rest)).drop (fraction ++ exponent).length = rest := by
    rw [← List.append_assoc, List.drop_left]
  unfold number?
  rw [hsplit, sign_repr n _ hsign]
  dsimp only
  rw [List.drop_left, whole_repr n (hfraction.not_isDigit (hexponent.not_isDigit hrest)), List.drop_left,
    hfraction.fractionChars hexponent hrest, List.drop_left, hexponent.exponentChars hrest,
    if_neg (Decimal.repr_ne_nil n), if_neg (fun h => hne (by rw [h.1, h.2]; rfl)), hliteral, hdrop]

/-! ## Values -/

/-- **A value of JSON**: its floating point numbers are spelled as numbers, which the constants that are no number
are not. -/
inductive Exact : Json → Prop
  | null : Exact null
  | bool (value : Bool) : Exact (bool value)
  | int (value : Int) : Exact (int value)
  | float {literal : String} (h : IsFloatLiteral literal) : Exact (float literal)
  | str (value : String) : Exact (str value)
  | arr {values : List Json} (h : ∀ value ∈ values, Exact value) : Exact (arr values)
  | obj {fields : List (String × Json)} (h : ∀ field ∈ fields, Exact field.2) : Exact (obj fields)

/-- A word that begins with another character is not there. -/
theorem word?_eq_none {c d : Char} (h : d ≠ c) (ds cs : List Char) (value : Json) :
    word? (d :: ds) value (c :: cs) = none := by
  refine if_neg ?_
  rw [List.isPrefixOf_cons_cons, beq_false_of_ne h, Bool.false_and]
  exact Bool.false_ne_true

/-- A digit is no letter. -/
theorem ne_of_isDigit {c d : Char} (h : c.isDigit = true) (hd : d.isDigit = false) : d ≠ c := by
  rintro rfl
  rw [h] at hd
  cases hd

/-- A value that begins with a digit is a number. -/
theorem atom?_of_isDigit {c : Char} (h : c.isDigit = true) (cs : List Char) :
    atom? (c :: cs) = number? (c :: cs) := by
  rw [atom?, word?_eq_none (ne_of_isDigit h rfl), word?_eq_none (ne_of_isDigit h rfl),
    word?_eq_none (ne_of_isDigit h rfl), word?_eq_none (ne_of_isDigit h rfl),
    word?_eq_none (ne_of_isDigit h rfl), word?_eq_none (ne_of_isDigit h rfl)]
  rfl

/-- A value that begins with a minus and a digit is a number. -/
theorem atom?_minus {c : Char} (h : c.isDigit = true) (cs : List Char) :
    atom? ('-' :: c :: cs) = number? ('-' :: c :: cs) := by
  have hinfinity : word? ['-', 'I', 'n', 'f', 'i', 'n', 'i', 't', 'y'] (float "-Infinity")
      ('-' :: c :: cs) = none := by
    refine if_neg ?_
    rw [List.isPrefixOf_cons_cons, List.isPrefixOf_cons_cons, beq_false_of_ne (ne_of_isDigit h rfl),
      Bool.false_and, Bool.and_false]
    exact Bool.false_ne_true
  rw [atom?, word?_eq_none (by decide), word?_eq_none (by decide), word?_eq_none (by decide),
    word?_eq_none (by decide), word?_eq_none (by decide), hinfinity]
  rfl

/-- What is no text, array or object is a constant or a number. -/
theorem value?_eq_atom? {c : Char} (hquote : c ≠ '"') (hbracket : c ≠ '[') (hbrace : c ≠ '{')
    (depth : Nat) (cs : List Char) : value? (depth + 1) (c :: cs) = atom? (c :: cs) := by
  unfold value?
  split
  · next heq => exact absurd (List.cons.inj heq).1 hquote
  · next heq => exact absurd (List.cons.inj heq).1 hbracket
  · next heq => exact absurd (List.cons.inj heq).1 hbrace
  · rfl

/-- **A number is read as a number**, whatever follows its first digits. -/
theorem value?_eq_number? {sign : List Char} (hsign : sign = [] ∨ sign = ['-']) (depth n : Nat) (rest : List Char) :
    value? (depth + 1) (sign ++ ((Nat.repr n).toList ++ rest)) = number? (sign ++ ((Nat.repr n).toList ++ rest)) := by
  obtain ⟨c, cs, hdigits⟩ := List.exists_cons_of_ne_nil (Decimal.repr_ne_nil n)
  have hdigit : c.isDigit = true := Decimal.isDigit_of_mem_repr (hdigits ▸ List.mem_cons_self)
  rw [hdigits]
  rcases hsign with rfl | rfl
  · refine (value?_eq_atom? ?_ ?_ ?_ depth _).trans (atom?_of_isDigit hdigit _) <;>
      · rintro rfl
        exact absurd hdigit (by decide)
  · exact (value?_eq_atom? (by decide) (by decide) (by decide) depth _).trans (atom?_minus hdigit _)

/-- **An integer is read back.** -/
theorem value?_intChars (depth : Nat) (n : Int) {rest : List Char} (h : Ends rest) :
    value? (depth + 1) (intChars n ++ rest) = some (int n, rest) := by
  rw [← number?_intChars n h]
  unfold intChars
  split
  · exact value?_eq_number? (.inr rfl) depth n.natAbs rest
  · exact value?_eq_number? (.inl rfl) depth n.natAbs rest

/-- **A floating point number is read back.** -/
theorem value?_float (depth : Nat) {literal : String} (hliteral : IsFloatLiteral literal) {rest : List Char}
    (h : Ends rest) : value? (depth + 1) (literal.toList ++ rest) = some (float literal, rest) := by
  rw [← number?_float hliteral h]
  obtain ⟨sign, n, fraction, exponent, hchars, hsign, -⟩ := hliteral
  rw [hchars, List.append_assoc, List.append_assoc]
  exact value?_eq_number? hsign depth n _

/-- What a number begins with: neither a blank nor the end of an array. -/
theorem number_eq_cons {sign : List Char} (hsign : sign = [] ∨ sign = ['-']) (n : Nat) (rest : List Char) :
    ∃ c cs, sign ++ ((Nat.repr n).toList ++ rest) = c :: cs ∧ isBlank c = false ∧ c ≠ ']' := by
  rcases hsign with rfl | rfl
  · obtain ⟨c, cs, hdigits⟩ := List.exists_cons_of_ne_nil (Decimal.repr_ne_nil n)
    have hdigit : c.isDigit = true := Decimal.isDigit_of_mem_repr (hdigits ▸ List.mem_cons_self)
    refine ⟨c, cs ++ rest, by rw [hdigits]; rfl, ?_, ?_⟩
    · have hmem := Decimal.mem_digits_of_isDigit hdigit
      simp only [List.mem_cons, List.not_mem_nil, or_false] at hmem
      rcases hmem with rfl | rfl | rfl | rfl | rfl | rfl | rfl | rfl | rfl | rfl <;> rfl
    · rintro rfl
      exact absurd hdigit (by decide)
  · exact ⟨_, _, rfl, rfl, by decide⟩

section Reading

variable {body : String → List Char} {gap : List Char}

/-- What a value begins with: neither a blank nor the end of an array. -/
theorem renderSeparated_eq_cons (body : String → List Char) (gap : List Char) {value : Json} (h : Exact value) :
    ∃ c cs, renderSeparated body gap value = c :: cs ∧ isBlank c = false ∧ c ≠ ']' := by
  cases h with
  | null => exact ⟨_, _, rfl, rfl, by decide⟩
  | bool value => cases value <;> exact ⟨_, _, rfl, rfl, by decide⟩
  | str text => exact ⟨_, _, rfl, rfl, by decide⟩
  | arr h => exact ⟨_, _, rfl, rfl, by decide⟩
  | obj h => exact ⟨_, _, rfl, rfl, by decide⟩
  | float h =>
    obtain ⟨sign, n, fraction, exponent, hchars, hsign, -⟩ := h
    rw [renderSeparated, hchars]
    exact number_eq_cons hsign n _
  | int n =>
    show ∃ c cs, intChars n = c :: cs ∧ isBlank c = false ∧ c ≠ ']'
    unfold intChars
    rw [← List.append_nil (Nat.repr n.natAbs).toList]
    split
    · exact number_eq_cons (.inr rfl) n.natAbs []
    · exact number_eq_cons (.inl rfl) n.natAbs []

/-- There is nothing to skip before a character that is no blank. -/
theorem skipBlanks_cons {c : Char} (h : isBlank c = false) (cs : List Char) :
    skipBlanks (c :: cs) = c :: cs := by
  rw [skipBlanks, List.dropWhile_cons, h]
  rfl

/-- Blanks are skipped. -/
theorem skipBlanks_append (hgap : ∀ c ∈ gap, isBlank c = true) {cs : List Char} (h : skipBlanks cs = cs) :
    skipBlanks (gap ++ cs) = cs := by
  rw [skipBlanks, List.dropWhile_append_of_pos hgap]
  exact h

/-- Values are read back to a depth. -/
def ReadsValues (body : String → List Char) (gap : List Char) (depth : Nat) : Prop :=
  ∀ value rest, Exact value → Ends rest → (renderSeparated body gap value).length < depth →
    value? depth (renderSeparated body gap value ++ rest) = some (value, rest)

/-- Elements are read back to a depth. -/
def ReadsElements (body : String → List Char) (gap : List Char) (depth : Nat) : Prop :=
  ∀ value values rest, (∀ v ∈ value :: values, Exact v) →
    (renderElementsSeparated body gap (value :: values)).length + 1 < depth →
      elements? depth (renderElementsSeparated body gap (value :: values) ++ ']' :: rest) = some (value :: values, rest)

/-- Fields are read back to a depth. -/
def ReadsMembers (body : String → List Char) (gap : List Char) (depth : Nat) : Prop :=
  ∀ field fields rest, (∀ f ∈ field :: fields, Exact f.2) →
    (renderMembersSeparated body gap (field :: fields)).length + 1 < depth →
      members? depth (renderMembersSeparated body gap (field :: fields) ++ '}' :: rest) = some (field :: fields, rest)

/-- One field is read back to a depth. -/
def ReadsMember (body : String → List Char) (gap : List Char) (depth : Nat) : Prop :=
  ∀ field rest, Exact field.2 → Ends rest → (renderMemberSeparated body gap field).length < depth →
    member? depth (renderMemberSeparated body gap field ++ rest) = some (field, rest)

/-- A value is read back where what is inside it is, one step less deep. -/
theorem readsValues_succ (hbody : ∀ text rest, string? (body text ++ '"' :: rest) = some (text, rest))
    {depth : Nat} (helements : ReadsElements body gap depth) (hmembers : ReadsMembers body gap depth) :
    ReadsValues body gap (depth + 1) := by
  intro value rest hexact hends hlength
  cases hexact with
  | null => rfl
  | bool value => cases value <;> rfl
  | int n => exact value?_intChars depth n hends
  | str text =>
    have htext : renderSeparated body gap (str text) ++ rest = '"' :: (body text ++ '"' :: rest) := by
      simp [renderSeparated]
    rw [htext]
    show (string? _).map _ = _
    rw [hbody]
    rfl
  | float hliteral => exact value?_float depth hliteral hends
  | arr hvalues =>
    next values =>
    cases values with
    | nil => rfl
    | cons value values =>
      obtain ⟨c, cs, hc, hblank, hclose⟩ := renderSeparated_eq_cons body gap (hvalues value List.mem_cons_self)
      have htext : renderSeparated body gap (arr (value :: values)) ++ rest
          = '[' :: (renderElementsSeparated body gap (value :: values) ++ ']' :: rest) := by simp [renderSeparated]
      have hlength' : (renderElementsSeparated body gap (value :: values)).length + 1 < depth := by
        have h : ('[' :: renderElementsSeparated body gap (value :: values) ++ [']']).length < depth + 1 := hlength
        simp only [List.length_append, List.length_cons, List.length_nil] at h
        omega
      have hhead : ∃ cs, renderElementsSeparated body gap (value :: values) ++ ']' :: rest = c :: cs := by
        rw [renderElementsSeparated, hc]
        exact ⟨_, rfl⟩
      obtain ⟨cs', hcs⟩ := hhead
      have hskip : skipBlanks (renderElementsSeparated body gap (value :: values) ++ ']' :: rest)
          = renderElementsSeparated body gap (value :: values) ++ ']' :: rest := by
        rw [hcs, skipBlanks_cons hblank]
      rw [htext]
      show (if (skipBlanks _).head? = some ']' then _ else (elements? depth (skipBlanks _)).map _) = _
      rw [hskip, if_neg, helements value values rest hvalues hlength']
      · rfl
      · rw [hcs]
        exact fun h => hclose (Option.some.inj h)
  | obj hfields =>
    next fields =>
    cases fields with
    | nil => rfl
    | cons field fields =>
      have htext : renderSeparated body gap (obj (field :: fields)) ++ rest
          = '{' :: (renderMembersSeparated body gap (field :: fields) ++ '}' :: rest) := by simp [renderSeparated]
      have hlength' : (renderMembersSeparated body gap (field :: fields)).length + 1 < depth := by
        have h : ('{' :: renderMembersSeparated body gap (field :: fields) ++ ['}']).length < depth + 1 := hlength
        simp only [List.length_append, List.length_cons, List.length_nil] at h
        omega
      rw [htext]
      show (if (skipBlanks _).head? = some '}' then _ else (members? depth (skipBlanks _)).map _) = _
      have hskip : skipBlanks (renderMembersSeparated body gap (field :: fields) ++ '}' :: rest)
          = renderMembersSeparated body gap (field :: fields) ++ '}' :: rest := by
        obtain ⟨key, value⟩ := field
        rfl
      rw [hskip, if_neg, hmembers field fields rest hfields hlength']
      · rfl
      · obtain ⟨key, value⟩ := field
        exact fun h => absurd (Option.some.inj h) (by decide)

/-- Elements are read back where they are one by one. -/
theorem readsElements_succ (hgap : ∀ c ∈ gap, isBlank c = true) {depth : Nat}
    (hvalue : ReadsValues body gap depth) (helements : ReadsElements body gap depth) :
    ReadsElements body gap (depth + 1) := by
  intro value values rest hexact hlength
  have hfirst := hexact value List.mem_cons_self
  cases values with
  | nil =>
    have hchars : renderElementsSeparated body gap [value] = renderSeparated body gap value := by
      simp [renderElementsSeparated]
    rw [hchars] at hlength ⊢
    rw [elements?, hvalue value _ hfirst (ends_cons (.inr (.inl rfl)) _) (by omega)]
    rfl
  | cons next values =>
    have hchars : renderElementsSeparated body gap (value :: next :: values)
        = renderSeparated body gap value ++ ',' :: (gap ++ renderElementsSeparated body gap (next :: values)) := by
      simp [renderElementsSeparated]
    rw [hchars, List.length_append, List.length_cons, List.length_append] at hlength
    obtain ⟨c, cs, hc, hblank, -⟩ :=
      renderSeparated_eq_cons body gap (hexact next (List.mem_cons_of_mem _ List.mem_cons_self))
    have hskip : skipBlanks (gap ++ (renderElementsSeparated body gap (next :: values) ++ ']' :: rest))
        = renderElementsSeparated body gap (next :: values) ++ ']' :: rest := by
      refine skipBlanks_append hgap ?_
      rw [renderElementsSeparated, hc]
      exact skipBlanks_cons hblank _
    rw [hchars, List.append_assoc, List.cons_append, List.append_assoc, elements?,
      hvalue value _ hfirst (ends_cons (.inl rfl) _) (by omega)]
    show (elements? depth (skipBlanks (gap ++ (renderElementsSeparated body gap (next :: values) ++ ']' :: rest)))).map
      _ = _
    rw [hskip, helements next values rest (fun v hv => hexact v (List.mem_cons_of_mem _ hv)) (by omega)]
    rfl

/-- Fields are read back where they are one by one. -/
theorem readsMembers_succ (hgap : ∀ c ∈ gap, isBlank c = true) {depth : Nat}
    (hmember : ReadsMember body gap depth) (hmembers : ReadsMembers body gap depth) :
    ReadsMembers body gap (depth + 1) := by
  intro field fields rest hexact hlength
  have hfirst := hexact field List.mem_cons_self
  cases fields with
  | nil =>
    have hchars : renderMembersSeparated body gap [field] = renderMemberSeparated body gap field := by
      simp [renderMembersSeparated]
    rw [hchars] at hlength ⊢
    rw [members?, hmember field _ hfirst (ends_cons (.inr (.inr rfl)) _) (by omega)]
    rfl
  | cons next fields =>
    have hchars : renderMembersSeparated body gap (field :: next :: fields)
        = renderMemberSeparated body gap field ++ ',' :: (gap ++ renderMembersSeparated body gap (next :: fields)) := by
      simp [renderMembersSeparated]
    rw [hchars, List.length_append, List.length_cons, List.length_append] at hlength
    have hskip : skipBlanks (gap ++ (renderMembersSeparated body gap (next :: fields) ++ '}' :: rest))
        = renderMembersSeparated body gap (next :: fields) ++ '}' :: rest := by
      refine skipBlanks_append hgap ?_
      obtain ⟨key, value⟩ := next
      rfl
    rw [hchars, List.append_assoc, List.cons_append, List.append_assoc, members?,
      hmember field _ hfirst (ends_cons (.inl rfl) _) (by omega)]
    show (members? depth (skipBlanks (gap ++ (renderMembersSeparated body gap (next :: fields) ++ '}' :: rest)))).map
      _ = _
    rw [hskip, hmembers next fields rest (fun f hf => hexact f (List.mem_cons_of_mem _ hf)) (by omega)]
    rfl

/-- A field is read back where its value is. -/
theorem readsMember_succ (hbody : ∀ text rest, string? (body text ++ '"' :: rest) = some (text, rest))
    (hgap : ∀ c ∈ gap, isBlank c = true) {depth : Nat}
    (hvalue : ReadsValues body gap depth) : ReadsMember body gap (depth + 1) := by
  rintro ⟨key, value⟩ rest hexact hends hlength
  obtain ⟨c, cs, hc, hblank, -⟩ := renderSeparated_eq_cons body gap hexact
  have hchars : renderMemberSeparated body gap (key, value) ++ rest
      = '"' :: (body key ++ '"' :: ':' :: (gap ++ (renderSeparated body gap value ++ rest))) := by
    simp [renderMemberSeparated]
  have hskip : skipBlanks (gap ++ (renderSeparated body gap value ++ rest))
      = renderSeparated body gap value ++ rest := by
    refine skipBlanks_append hgap ?_
    rw [hc]
    exact skipBlanks_cons hblank _
  have hlength' : (renderSeparated body gap value).length < depth := by
    have h : ('"' :: body key ++ ('"' :: ':' :: gap) ++ renderSeparated body gap value).length < depth + 1 := hlength
    simp only [List.length_append, List.length_cons] at h
    omega
  rw [hchars]
  show (string? _).bind _ = _
  rw [hbody, Option.bind_some]
  show (value? depth (skipBlanks (gap ++ (renderSeparated body gap value ++ rest)))).map _ = _
  rw [hskip, hvalue value rest hexact hends hlength']
  rfl

/-- **What was written is read back, at any depth.** -/
theorem reads (hbody : ∀ text rest, string? (body text ++ '"' :: rest) = some (text, rest))
    (hgap : ∀ c ∈ gap, isBlank c = true) (depth : Nat) :
    ReadsValues body gap depth ∧ ReadsElements body gap depth ∧ ReadsMembers body gap depth
      ∧ ReadsMember body gap depth := by
  induction depth with
  | zero =>
    exact ⟨fun _ _ _ _ h => absurd h (Nat.not_lt_zero _), fun _ _ _ _ h => absurd h (Nat.not_lt_zero _),
      fun _ _ _ _ h => absurd h (Nat.not_lt_zero _), fun _ _ _ _ h => absurd h (Nat.not_lt_zero _)⟩
  | succ depth ih =>
    obtain ⟨hvalues, helements, hmembers, hmember⟩ := ih
    exact ⟨readsValues_succ hbody helements hmembers, readsElements_succ hgap hvalues helements,
      readsMembers_succ hgap hmember hmembers, readsMember_succ hbody hgap hvalues⟩

/-- **What was written is read back**, if each of its texts is and there are only blanks between its parts. -/
theorem loads_renderSeparated (hbody : ∀ text rest, string? (body text ++ '"' :: rest) = some (text, rest))
    (hgap : ∀ c ∈ gap, isBlank c = true) {value : Json} (h : Exact value) :
    loads (String.ofList (renderSeparated body gap value)) = some value := by
  obtain ⟨c, cs, hc, hblank, -⟩ := renderSeparated_eq_cons body gap h
  have hskip : skipBlanks (String.ofList (renderSeparated body gap value)).toList = renderSeparated body gap value := by
    rw [String.toList_ofList, hc, skipBlanks_cons hblank]
  have hread := (reads hbody hgap ((renderSeparated body gap value).length + 1)).1 value [] h (by intro c hc; cases hc)
    (Nat.lt_succ_self _)
  rw [List.append_nil] at hread
  unfold loads
  rw [hskip]
  dsimp only
  rw [hread]
  rfl

/-- **What was written with the default separators is read back**, if each of its texts is. -/
theorem loads_renderWith (hbody : ∀ text rest, string? (body text ++ '"' :: rest) = some (text, rest))
    {value : Json} (h : Exact value) : loads (String.ofList (renderWith body value)) = some value := by
  rw [← renderSeparated_blank]
  exact loads_renderSeparated hbody (fun c hc => List.mem_singleton.mp hc ▸ rfl) h

end Reading

/-- **What was written is read back.** -/
theorem loads_dumps {value : Json} (h : Exact value) : loads (dumps value) = some value := by
  rw [dumps, ← renderWith_escaped]
  exact loads_renderWith string?_quoted h

/-- The bytes of a text are read back. -/
theorem fromUTF8?_toUTF8 (text : String) : String.fromUTF8? text.toUTF8 = some text := by
  rw [String.fromUTF8?, String.toUTF8_eq_toByteArray, dif_pos text.isValidUTF8]
  rfl

/-- **What was written compactly is read back.** -/
theorem loads_dumpsCompact {value : Json} (h : Exact value) : loads (dumpsCompact value) = some value :=
  loads_renderSeparated (fun text rest => (spells_plain text.toList).string? rest) (fun _ hc => absurd hc List.not_mem_nil) h

example : dumps (obj [("at", str "a\"\n€😀"), ("seq", int (-10))])
    = "\x7b\"at\": \"a\\\"\\n\\u20ac\\ud83d\\ude00\", \"seq\": -10\x7d" := by decide +kernel

end Json
