import FactoryAgent.Lib.Json

/-!
# How the scanner of JSON fails

`json.loads` as it raises: a `JSONDecodeError` for what is no JSON, but another `ValueError` for an integer with more
digits than the interpreter converts, and a `RecursionError` for values that are nested deeper than it goes. The scanner
goes from left to right, and the first of these ends it. It always ends (`scan_ne_fuel`): the steps that it is given are
enough for every text.
-/

namespace Json

/-- **What the scanner raises**; `fuel` stands for a scanner that goes on for ever. -/
inductive ScanError
  | decode
  | digits
  | recursion
  | fuel
  deriving DecidableEq, Repr

/-- **The limits of an interpreter**: the digits of an integer and the depth of a value. -/
structure Limits where
  digits : Nat
  depth : Nat

variable (limits : Limits)

/-- A constant or a number. -/
def scanAtom (cs : List Char) : Except ScanError (Json × List Char) :=
  match atom? cs with
  | none => .error .decode
  | some (.int n, rest) =>
    if limits.digits < (Nat.repr n.natAbs).length then .error .digits else .ok (.int n, rest)
  | some result => .ok result

mutual

/-- **A value and what follows it.** -/
def scanValue : Nat → Nat → List Char → Except ScanError (Json × List Char)
  | 0, _, _ => .error .fuel
  | steps + 1, depth, cs =>
    match cs with
    | '"' :: cs => (string? cs).elim (.error .decode) fun result => .ok (.str result.1, result.2)
    | '[' :: cs =>
      match depth with
      | 0 => .error .recursion
      | depth + 1 =>
        if (skipBlanks cs).head? = some ']' then .ok (.arr [], (skipBlanks cs).tail)
        else (scanElements steps depth (skipBlanks cs)).map fun result => (.arr result.1, result.2)
    | '{' :: cs =>
      match depth with
      | 0 => .error .recursion
      | depth + 1 =>
        if (skipBlanks cs).head? = some '}' then .ok (.obj [], (skipBlanks cs).tail)
        else (scanMembers steps depth (skipBlanks cs)).map fun result => (.obj result.1, result.2)
    | cs => scanAtom limits cs

/-- The elements of an array up to its closing bracket, one at least. -/
def scanElements : Nat → Nat → List Char → Except ScanError (List Json × List Char)
  | 0, _, _ => .error .fuel
  | steps + 1, depth, cs =>
    (scanValue steps depth cs).bind fun first =>
      match skipBlanks first.2 with
      | ']' :: rest => .ok ([first.1], rest)
      | ',' :: rest =>
        (scanElements steps depth (skipBlanks rest)).map fun result => (first.1 :: result.1, result.2)
      | _ => .error .decode

/-- The fields of an object up to its closing brace, one at least. -/
def scanMembers : Nat → Nat → List Char → Except ScanError (List (String × Json) × List Char)
  | 0, _, _ => .error .fuel
  | steps + 1, depth, cs =>
    (scanMember steps depth cs).bind fun first =>
      match skipBlanks first.2 with
      | '}' :: rest => .ok ([first.1], rest)
      | ',' :: rest =>
        (scanMembers steps depth (skipBlanks rest)).map fun result => (first.1 :: result.1, result.2)
      | _ => .error .decode

/-- A field of an object. -/
def scanMember : Nat → Nat → List Char → Except ScanError ((String × Json) × List Char)
  | 0, _, _ => .error .fuel
  | steps + 1, depth, cs =>
    match cs with
    | '"' :: cs =>
      (string? cs).elim (.error .decode) fun key =>
        match skipBlanks key.2 with
        | ':' :: rest =>
          (scanValue steps depth (skipBlanks rest)).map fun result => ((key.1, result.1), result.2)
        | _ => .error .decode
    | _ => .error .decode

end

/-- **`json.loads`** -/
def scan (cs : List Char) : Except ScanError Json :=
  (scanValue limits (2 * (skipBlanks cs).length + 1) limits.depth (skipBlanks cs)).bind fun result =>
    if skipBlanks result.2 = [] then .ok result.1 else .error .decode

/-! ## What is left of a text -/

/-- Blanks are left out. -/
theorem length_skipBlanks (cs : List Char) : (skipBlanks cs).length ≤ cs.length :=
  (List.dropWhile_sublist isBlank).length_le

/-- Four digits are read. -/
theorem length_hex? {cs rest : List Char} {n : Nat} (h : hex? cs = some (n, rest)) : rest.length ≤ cs.length := by
  unfold hex? at h
  split at h
  · split at h
    · cases h
      simp only [List.length_cons]
      omega
    · cases h
  · cases h

/-- The digits of an escape are read. -/
theorem length_unicode? {cs rest : List Char} {c : Char} (h : unicode? cs = some (c, rest)) :
    rest.length ≤ cs.length := by
  obtain ⟨⟨n, first⟩, hfirst, h⟩ := Option.bind_eq_some_iff.mp h
  have hlength := length_hex? hfirst
  dsimp only at h
  split at h
  · split at h
    · obtain ⟨⟨m, second⟩, hsecond, h⟩ := Option.bind_eq_some_iff.mp h
      have hlength' := length_hex? hsecond
      rw [List.length_drop] at hlength'
      dsimp only at h
      obtain ⟨-, h⟩ := Option.ite_none_right_eq_some.mp h
      have hrest : second = rest := (Prod.mk.inj (Option.some.inj h)).2
      rw [← hrest]
      omega
    · cases h
  · obtain ⟨-, h⟩ := Option.ite_none_left_eq_some.mp h
    cases h
    exact hlength

/-- **A character of a text is read.** -/
theorem length_unescape? {cs rest : List Char} {c : Char} (h : unescape? cs = some (c, rest)) :
    rest.length < cs.length := by
  unfold unescape? at h
  split at h
  · cases h
  · split at h
    · split at h
      · cases h
      · split at h
        · have hlength := length_unicode? h
          simp only [List.length_cons]
          omega
        · obtain ⟨_, -, h⟩ := Option.map_eq_some_iff.mp h
          cases h
          simp only [List.length_cons]
          omega
    · obtain ⟨-, h⟩ := Option.ite_none_left_eq_some.mp h
      cases h
      exact Nat.lt_succ_self _

/-- The characters of a text and its closing quote are read. -/
theorem length_stringChars {steps : Nat} {cs text rest : List Char} (h : stringChars steps cs = some (text, rest)) :
    rest.length < cs.length := by
  induction steps generalizing cs text with
  | zero => cases h
  | succ steps ih =>
    unfold stringChars at h
    split at h
    · next hquote =>
      cases h
      cases cs with
      | nil => cases hquote
      | cons c cs => exact Nat.lt_succ_self _
    · obtain ⟨⟨c, next⟩, hnext, h⟩ := Option.bind_eq_some_iff.mp h
      obtain ⟨⟨text', rest'⟩, hrest, h⟩ := Option.map_eq_some_iff.mp h
      cases h
      exact Nat.lt_trans (ih hrest) (length_unescape? hnext)

/-- **A text is read.** -/
theorem length_string? {cs rest : List Char} {text : String} (h : string? cs = some (text, rest)) :
    rest.length < cs.length := by
  obtain ⟨⟨chars, rest'⟩, hchars, h⟩ := Option.map_eq_some_iff.mp h
  cases h
  exact length_stringChars hchars

/-- **A number is read.** -/
theorem length_number? {cs rest : List Char} {value : Json} (h : number? cs = some (value, rest)) :
    rest.length < cs.length := by
  unfold number? at h
  dsimp only at h
  obtain ⟨hwhole, h⟩ := Option.ite_none_left_eq_some.mp h
  generalize (if cs.head? = some '-' then ['-'] else []) = sign at hwhole h
  have hbody : cs.drop sign.length ≠ [] := by
    intro hempty
    rw [hempty] at hwhole
    exact hwhole rfl
  have hlength := List.length_pos_of_ne_nil hbody
  generalize (if (cs.drop sign.length).head? = some '0' then ['0']
    else (cs.drop sign.length).takeWhile Char.isDigit) = whole at hwhole h
  have hpos := List.length_pos_of_ne_nil hwhole
  rw [List.length_drop] at hlength
  split at h
  · obtain rfl := (Prod.mk.inj (Option.some.inj h)).2
    rw [List.length_drop, List.length_drop]
    omega
  · obtain rfl := (Prod.mk.inj (Option.some.inj h)).2
    rw [List.length_drop, List.length_drop, List.length_drop]
    omega

/-- A word is read. -/
theorem length_word? {c : Char} {word cs rest : List Char} {value result : Json}
    (h : word? (c :: word) value cs = some (result, rest)) : rest.length < cs.length := by
  obtain ⟨hfront, h⟩ := Option.ite_none_right_eq_some.mp h
  cases h
  have hlength := (List.isPrefixOf_iff_prefix.mp hfront).length_le
  rw [List.length_drop]
  simp only [List.length_cons] at hlength ⊢
  omega

/-- **A constant or a number is read.** -/
theorem length_atom? {cs rest : List Char} {value : Json} (h : atom? cs = some (value, rest)) :
    rest.length < cs.length := by
  unfold atom? at h
  simp only [Option.orElse_eq_orElse, Option.orElse_eq_or, Option.or_eq_some_iff] at h
  rcases h with h | ⟨-, h | ⟨-, h | ⟨-, h | ⟨-, h | ⟨-, h | ⟨-, h⟩⟩⟩⟩⟩⟩
  · exact length_word? h
  · exact length_word? h
  · exact length_word? h
  · exact length_word? h
  · exact length_word? h
  · exact length_word? h
  · exact length_number? h

/-- **A constant or a number is read**, unless it is an integer with too many digits. -/
theorem length_scanAtom {cs rest : List Char} {value : Json} (h : scanAtom limits cs = .ok (value, rest)) :
    rest.length < cs.length := by
  unfold scanAtom at h
  split at h
  · cases h
  · next n rest' hatom =>
    split at h
    · cases h
    · cases h
      exact length_atom? hatom
  · next result _ hatom =>
    cases h
    exact length_atom? hatom

/-- A constant or a number takes one step. -/
theorem scanAtom_ne_fuel (cs : List Char) : scanAtom limits cs ≠ .error .fuel := by
  unfold scanAtom
  split
  · intro h
    cases h
  · split <;> intro h <;> cases h
  · intro h
    cases h

/-! ## The steps are enough -/

variable {limits}

/-- **A step of the scanner** on a text: it does not run out, and it reads something. -/
def Reads {α : Type} (outcome : Except ScanError (α × List Char)) (cs : List Char) : Prop :=
  outcome ≠ .error .fuel ∧ ∀ value rest, outcome = .ok (value, rest) → rest.length < cs.length

/-- What is read of the rest of a text is read of the text. -/
theorem Reads.map {α β : Type} {outcome : Except ScanError (α × List Char)} {cs cs' : List Char} (f : α → β)
    (h : Reads outcome cs) (hlength : cs.length ≤ cs'.length) :
    Reads (outcome.map fun result => (f result.1, result.2)) cs' := by
  cases outcome with
  | error error =>
    exact ⟨fun heq => h.1 (congrArg _ (Except.error.inj heq)), fun _ _ heq => by cases heq⟩
  | ok result =>
    refine ⟨fun heq => (by cases heq), fun value rest heq => ?_⟩
    cases heq
    exact Nat.lt_of_lt_of_le (h.2 result.1 result.2 rfl) hlength

/-- What is read after the beginning of a text. -/
theorem Reads.bind {α β : Type} {outcome : Except ScanError (α × List Char)} {cs : List Char}
    {f : α × List Char → Except ScanError (β × List Char)} (h : Reads outcome cs)
    (hf : ∀ value rest, rest.length < cs.length → Reads (f (value, rest)) cs) : Reads (outcome.bind f) cs := by
  cases outcome with
  | error error =>
    exact ⟨fun heq => h.1 (congrArg _ (Except.error.inj heq)), fun _ _ heq => by cases heq⟩
  | ok result => exact hf result.1 result.2 (h.2 result.1 result.2 rfl)

/-- What is no JSON is read. -/
theorem reads_decode {α : Type} (cs : List Char) : Reads (.error .decode : Except ScanError (α × List Char)) cs :=
  ⟨fun h => (by cases h), fun _ _ h => by cases h⟩

/-- What is nested too deep is read. -/
theorem reads_recursion {α : Type} (cs : List Char) :
    Reads (.error .recursion : Except ScanError (α × List Char)) cs :=
  ⟨fun h => (by cases h), fun _ _ h => by cases h⟩

/-- A result is read where something is. -/
theorem reads_ok {α : Type} {value : α} {rest cs : List Char} (h : rest.length < cs.length) :
    Reads (.ok (value, rest) : Except ScanError (α × List Char)) cs :=
  ⟨fun heq => (by cases heq), fun _ _ heq => by cases heq; exact h⟩

/-- A text is read. -/
theorem reads_string? {α : Type} {cs cs' : List Char} {f : String × List Char → Except ScanError (α × List Char)}
    (hf : ∀ text rest, rest.length < cs.length → Reads (f (text, rest)) cs') :
    Reads ((string? cs).elim (.error .decode) f) cs' := by
  cases hread : string? cs with
  | none => exact reads_decode cs'
  | some result => exact hf result.1 result.2 (length_string? hread)

/-- **Every part of a value is read** in the steps that its text leaves. -/
theorem reads_of_length (steps : Nat) :
    (∀ depth cs, 2 * cs.length < steps → Reads (scanValue limits steps depth cs) cs)
      ∧ (∀ depth cs, 2 * cs.length + 1 < steps → Reads (scanElements limits steps depth cs) cs)
      ∧ (∀ depth cs, 2 * cs.length + 1 < steps → Reads (scanMembers limits steps depth cs) cs)
      ∧ (∀ depth cs, 2 * cs.length < steps → Reads (scanMember limits steps depth cs) cs) := by
  induction steps with
  | zero => exact ⟨fun _ _ h => by omega, fun _ _ h => by omega, fun _ _ h => by omega, fun _ _ h => by omega⟩
  | succ steps ih =>
    obtain ⟨hvalue, helements, hmembers, hmember⟩ := ih
    refine ⟨fun depth cs hlength => ?_, fun depth cs hlength => ?_, fun depth cs hlength => ?_,
      fun depth cs hlength => ?_⟩
    · unfold scanValue
      split
      · next cs =>
        exact reads_string? fun text rest hrest => reads_ok (Nat.lt_succ_of_lt hrest)
      · next cs =>
        have hskip := length_skipBlanks cs
        rw [List.length_cons] at hlength
        split
        · exact reads_recursion _
        · next depth =>
          split
          · refine reads_ok ?_
            rw [List.length_tail, List.length_cons]
            omega
          · exact (helements depth (skipBlanks cs) (by omega)).map Json.arr (Nat.le_succ_of_le hskip)
      · next cs =>
        have hskip := length_skipBlanks cs
        rw [List.length_cons] at hlength
        split
        · exact reads_recursion _
        · next depth =>
          split
          · refine reads_ok ?_
            rw [List.length_tail, List.length_cons]
            omega
          · exact (hmembers depth (skipBlanks cs) (by omega)).map Json.obj (Nat.le_succ_of_le hskip)
      · exact ⟨scanAtom_ne_fuel limits _, fun _ _ => length_scanAtom limits⟩
    · unfold scanElements
      refine Reads.bind (hvalue depth cs (by omega)) fun first rest hrest => ?_
      have hskip := length_skipBlanks rest
      split
      · next rest' heq =>
        dsimp only at heq
        rw [heq, List.length_cons] at hskip
        exact reads_ok (by omega)
      · next rest' heq =>
        dsimp only at heq
        rw [heq, List.length_cons] at hskip
        have hskip' := length_skipBlanks rest'
        exact (helements depth (skipBlanks rest') (by omega)).map (first :: ·) (by omega)
      · exact reads_decode cs
    · unfold scanMembers
      refine Reads.bind (hmember depth cs (by omega)) fun first rest hrest => ?_
      have hskip := length_skipBlanks rest
      split
      · next rest' heq =>
        dsimp only at heq
        rw [heq, List.length_cons] at hskip
        exact reads_ok (by omega)
      · next rest' heq =>
        dsimp only at heq
        rw [heq, List.length_cons] at hskip
        have hskip' := length_skipBlanks rest'
        exact (hmembers depth (skipBlanks rest') (by omega)).map (first :: ·) (by omega)
      · exact reads_decode cs
    · unfold scanMember
      split
      · next cs =>
        rw [List.length_cons] at hlength
        refine reads_string? fun key rest hrest => ?_
        have hskip := length_skipBlanks rest
        split
        · next rest' heq =>
          dsimp only at heq
          rw [heq, List.length_cons] at hskip
          have hskip' := length_skipBlanks rest'
          refine (hvalue depth (skipBlanks rest') (by omega)).map (fun value => (key, value)) ?_
          rw [List.length_cons]
          omega
        · exact reads_decode _
      · exact reads_decode cs

/-- **The scanner always ends.** -/
theorem scan_ne_fuel (limits : Limits) (cs : List Char) : scan limits cs ≠ .error .fuel := by
  have hread := ((@reads_of_length limits (2 * (skipBlanks cs).length + 1)).1 limits.depth (skipBlanks cs)
    (Nat.lt_succ_self _)).1
  unfold scan
  cases hvalue : scanValue limits (2 * (skipBlanks cs).length + 1) limits.depth (skipBlanks cs) with
  | error error =>
    rw [hvalue] at hread
    exact fun h => hread (congrArg _ (Except.error.inj h))
  | ok result =>
    show (if skipBlanks result.2 = [] then _ else _) ≠ _
    split <;> intro h <;> cases h

end Json
