import FactoryAgent.Lib.JsonScan
import FactoryAgent.Lib.Text

/-!
# The object in a reply

`extract_json_object` of `application/structured.py`. A reply may be an object, may have one between fences, and may
have one among other text; these are tried in turn, and the first that is an object is taken. A candidate that is no JSON
is passed over. The scanner raises something else for an integer with too many digits and for a value that is nested too
deep, and this is not handled: an object is found, or none is, exactly where the candidates that are tried are
scannable (`extract_eq_ok_iff`).
-/

namespace Intent

open Json (Limits scan)

/-! ## The candidates -/

/-- What delimits a block of code. -/
def fence : List Char :=
  ['\x60', '\x60', '\x60']

/-- The text before the first fence, and the text after it. -/
def cut? : List Char → Option (List Char × List Char)
  | [] => none
  | c :: cs =>
    if fence.isPrefixOf (c :: cs) then some ([], cs.drop 2)
    else (cut? cs).map fun parts => (c :: parts.1, parts.2)

/-- `(?:json)?` of `_JSON_FENCE`, in any case; the long s is an s in another case. -/
def dropJson : List Char → List Char
  | j :: s :: o :: n :: cs =>
    if j ∈ ['j', 'J'] ∧ s ∈ ['s', 'S', 'ſ'] ∧ o ∈ ['o', 'O'] ∧ n ∈ ['n', 'N'] then cs
    else j :: s :: o :: n :: cs
  | cs => cs

/-- **The groups of `_JSON_FENCE.finditer`**, with the blanks after them. -/
def fenced : Nat → List Char → List (List Char)
  | 0, _ => []
  | steps + 1, cs =>
    match cut? cs with
    | none => []
    | some (_, opened) =>
      match cut? ((dropJson opened).dropWhile Text.isSpace) with
      | none => []
      | some (group, rest) => group :: fenced steps rest

/-- From the first opening brace to the last closing one. -/
def braced (cs : List Char) : List Char :=
  ((cs.dropWhile (· ≠ '\x7b')).reverse.dropWhile (· ≠ '\x7d')).reverse

/-- **The candidates of a reply**, in the order in which they are tried. -/
def candidates (cs : List Char) : List (List Char) :=
  ((fenced cs.length cs).map Text.stripped).filter (· ≠ []) ++ [Text.stripped cs]
    ++ [braced cs].filter (· ≠ [])

/-- A fence is left out. -/
theorem length_cut? {cs before rest : List Char} (h : cut? cs = some (before, rest)) : rest.length < cs.length := by
  induction cs generalizing before with
  | nil => cases h
  | cons c cs ih =>
    unfold cut? at h
    split at h
    · cases h
      rw [List.length_drop, List.length_cons]
      omega
    · obtain ⟨parts, hparts, h⟩ := Option.map_eq_some_iff.mp h
      cases h
      exact Nat.lt_succ_of_lt (ih hparts)

/-- The language of a block is left out. -/
theorem length_dropJson (cs : List Char) : (dropJson cs).length ≤ cs.length := by
  unfold dropJson
  split
  · split
    · simp only [List.length_cons]
      omega
    · exact Nat.le_refl _
  · exact Nat.le_refl _

/-- **The length of a text is steps enough** for its blocks. -/
theorem fenced_succ {steps : Nat} {cs : List Char} (h : cs.length ≤ steps) : fenced (steps + 1) cs = fenced steps cs := by
  induction steps generalizing cs with
  | zero =>
    obtain rfl : cs = [] := List.length_eq_zero_iff.mp (Nat.le_zero.mp h)
    rfl
  | succ steps ih =>
    rw [fenced, fenced]
    cases hopen : cut? cs with
    | none => rfl
    | some parts =>
      obtain ⟨before, opened⟩ := parts
      dsimp only
      cases hclose : cut? ((dropJson opened).dropWhile Text.isSpace) with
      | none => rfl
      | some parts =>
        have hopened := length_cut? hopen
        have hjson := length_dropJson opened
        have hspace := (List.dropWhile_sublist Text.isSpace (l := dropJson opened)).length_le
        have hclosed := length_cut? hclose
        dsimp only
        rw [ih (by omega)]

/-! ## The object -/

variable (limits : Limits)

/-- The fields of the first candidate that is an object. -/
def firstObject : List (List Char) → Except Json.ScanError (Option (List (String × Json)))
  | [] => .ok none
  | candidate :: rest =>
    match scan limits candidate with
    | .ok (.obj fields) => .ok (some fields)
    | .ok _ => firstObject rest
    | .error .decode => firstObject rest
    | .error error => .error error

/-- **`extract_json_object`** -/
def extractJsonObject (text : String) : Except Json.ScanError (Option (List (String × Json))) :=
  if Text.strip text = "" then .ok none
  else firstObject limits (candidates text.toList)

/-! ## What is tried -/

/-- **A candidate that the scanner reads or refuses** as it says it does. -/
def Scannable (candidate : List Char) : Prop :=
  scan limits candidate ≠ .error .digits ∧ scan limits candidate ≠ .error .recursion

/-- Whether a candidate is an object. -/
def isObject (candidate : List Char) : Bool :=
  match scan limits candidate with
  | .ok (.obj _) => true
  | _ => false

/-- **The candidates that are tried**: up to the first object. -/
def tried : List (List Char) → List (List Char)
  | [] => []
  | candidate :: rest => if isObject limits candidate then [candidate] else candidate :: tried rest

/-- **A reply of which every candidate that is tried is scannable.** -/
def Readable (text : String) : Prop :=
  Text.strip text ≠ "" → ∀ candidate ∈ tried limits (candidates text.toList), Scannable limits candidate

/-- **The object of a reply.** -/
def IsObjectOf (text : String) (fields : List (String × Json)) : Prop :=
  Text.strip text ≠ "" ∧ ∃ candidate ∈ tried limits (candidates text.toList),
    scan limits candidate = .ok (.obj fields)

variable {limits}

/-- How the first candidate is scanned, and what is tried then. -/
theorem firstObject_cons (candidate : List Char) (rest : List (List Char)) :
    (∃ fields, scan limits candidate = .ok (.obj fields)
        ∧ firstObject limits (candidate :: rest) = .ok (some fields) ∧ tried limits (candidate :: rest) = [candidate])
      ∨ ((∀ fields, scan limits candidate ≠ .ok (.obj fields))
        ∧ tried limits (candidate :: rest) = candidate :: tried limits rest
        ∧ (Scannable limits candidate → firstObject limits (candidate :: rest) = firstObject limits rest)
        ∧ (¬Scannable limits candidate → ∃ error, firstObject limits (candidate :: rest) = .error error)) := by
  have hends := Json.scan_ne_fuel limits candidate
  rw [firstObject, tried]
  unfold isObject Scannable
  cases hscan : scan limits candidate with
  | ok value =>
    cases value with
    | obj fields => exact .inl ⟨fields, rfl, rfl, rfl⟩
    | _ =>
      refine .inr ⟨fun fields h => (by cases h), rfl, fun _ => rfl, fun h => absurd ?_ h⟩
      exact ⟨fun h => (by cases h), fun h => by cases h⟩
  | error error =>
    refine .inr ⟨fun fields h => (by cases h), rfl, ?_⟩
    cases error with
    | decode =>
      refine ⟨fun _ => rfl, fun h => absurd ?_ h⟩
      exact ⟨fun h => (by cases h), fun h => by cases h⟩
    | digits => exact ⟨fun h => absurd rfl h.1, fun _ => ⟨_, rfl⟩⟩
    | recursion => exact ⟨fun h => absurd rfl h.2, fun _ => ⟨_, rfl⟩⟩
    | fuel => exact absurd hscan hends

/-- **The candidates are gone through** where those that are tried are scannable. -/
theorem firstObject_eq_ok_iff {all : List (List Char)} :
    (∃ result, firstObject limits all = .ok result) ↔ ∀ candidate ∈ tried limits all, Scannable limits candidate := by
  induction all with
  | nil => exact ⟨fun _ _ h => absurd h List.not_mem_nil, fun _ => ⟨none, rfl⟩⟩
  | cons candidate rest ih =>
    rcases @firstObject_cons limits candidate rest with
      ⟨fields, hscan, hfirst, htried⟩ | ⟨-, htried, hgoes, hfails⟩
    · rw [htried, hfirst]
      refine ⟨fun _ c hc => ?_, fun _ => ⟨_, rfl⟩⟩
      rw [List.mem_singleton.mp hc, Scannable, hscan]
      exact ⟨fun h => (by cases h), fun h => by cases h⟩
    · rw [htried, List.forall_mem_cons]
      by_cases hscannable : Scannable limits candidate
      · rw [hgoes hscannable, ih]
        exact ⟨fun h => ⟨hscannable, h⟩, And.right⟩
      · obtain ⟨error, herror⟩ := hfails hscannable
        rw [herror]
        exact ⟨fun ⟨_, h⟩ => (by cases h), fun h => absurd h.1 hscannable⟩

/-- **The object that is found** is the one that is tried. -/
theorem firstObject_eq_some_iff {all : List (List Char)} {fields : List (String × Json)}
    (h : ∀ candidate ∈ tried limits all, Scannable limits candidate) :
    firstObject limits all = .ok (some fields) ↔
      ∃ candidate ∈ tried limits all, scan limits candidate = .ok (.obj fields) := by
  induction all with
  | nil => exact ⟨fun h => (by cases h), fun ⟨_, hmem, _⟩ => absurd hmem List.not_mem_nil⟩
  | cons candidate rest ih =>
    rcases @firstObject_cons limits candidate rest with
      ⟨found, hscan, hfirst, htried⟩ | ⟨hnone, htried, hgoes, -⟩
    · rw [htried, hfirst]
      constructor
      · intro h
        cases h
        exact ⟨candidate, List.mem_singleton_self _, hscan⟩
      · rintro ⟨c, hmem, hobject⟩
        rw [List.mem_singleton.mp hmem, hscan] at hobject
        cases hobject
        rfl
    · rw [htried, List.forall_mem_cons] at h
      rw [htried, hgoes h.1, ih h.2]
      constructor
      · rintro ⟨c, hmem, hobject⟩
        exact ⟨c, List.mem_cons_of_mem _ hmem, hobject⟩
      · rintro ⟨c, hmem, hobject⟩
        rcases List.mem_cons.mp hmem with rfl | hmem
        · exact absurd hobject (hnone fields)
        · exact ⟨c, hmem, hobject⟩

/-- **The extraction ends without an error** exactly on a readable reply. -/
theorem extract_eq_ok_iff {text : String} :
    (∃ result, extractJsonObject limits text = .ok result) ↔ Readable limits text := by
  unfold extractJsonObject Readable
  by_cases hempty : Text.strip text = ""
  · rw [if_pos hempty]
    exact ⟨fun _ h => absurd hempty h, fun _ => ⟨none, rfl⟩⟩
  · rw [if_neg hempty, firstObject_eq_ok_iff]
    exact ⟨fun h _ => h, fun h => h hempty⟩

/-- **What is extracted** from a readable reply is its object. -/
theorem extract_eq_some_iff {text : String} (h : Readable limits text) {fields : List (String × Json)} :
    extractJsonObject limits text = .ok (some fields) ↔ IsObjectOf limits text fields := by
  unfold extractJsonObject IsObjectOf
  by_cases hempty : Text.strip text = ""
  · rw [if_pos hempty]
    exact ⟨fun h => (by cases h), fun h => absurd hempty h.1⟩
  · rw [if_neg hempty, firstObject_eq_some_iff (h hempty)]
    exact ⟨fun h => ⟨hempty, h⟩, And.right⟩

end Intent
