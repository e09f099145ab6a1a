import FactoryAgent.Observability.Payloads
import FactoryAgent.Observability.Secrets
import FactoryAgent.Trace.Report
import Mathlib.Data.List.Infix

/-!
# Captured debug payloads

`summarise_payload` of `observability/debug_trace.py`: a payload is redacted, then counted and measured, and over a cap it
degrades to its structure. What stands under a credential key is gone before anything is counted, so it does not matter
to the result (`redact_erase`). A payload within the caps is captured as a whole, with nothing replaced but what stands
under credential keys and, in texts, database addresses, bearer tokens and the queries of addresses (`shows_redact`).
-/

namespace DebugTrace

open Masking Redaction

/-! ## Texts -/

variable (words : Words)

/-- A character of an address before its query. -/
def isPathChar (c : Char) : Bool :=
  nonspace c && c != '"' && c != '\'' && c != '?'

/-- A character of a query. -/
def isQueryChar (c : Char) : Bool :=
  nonspace c && c != '"' && c != '\''

/-- The schemes of `_URL_QUERY_PATTERN`. -/
def webSchemes : List String :=
  ["https", "http"]

/-- **`_URL_QUERY_PATTERN`**: a scheme, an address, and all of a query up to a blank or a quote. -/
def urlQuery : Matcher := fun before cs =>
  if boundary words before then
    match webSchemes.find? fun scheme => startsWith (literal (scheme ++ "://")) cs with
    | some scheme =>
      let address := scheme.length + 3 + ((cs.drop (scheme.length + 3)).takeWhile isPathChar).length
      if (cs.drop address).head? = some '?' then
        address + 1 + ((cs.drop (address + 1)).takeWhile isQueryChar).length
      else 0
    | none => 0
  else 0

/-- The address without its query, `\1?[REDACTED]`. -/
def queryMark (part : List Char) : List Char :=
  part.takeWhile (· != '?') ++ '?' :: redacted

/-- **`redact_text`** -/
def redactText (text : String) : String :=
  String.ofList (mask (urlQuery words) queryMark none (redactValue words text).toList)

/-! ## Payloads -/

/-- `_CREDENTIAL_KEY_PATTERNS` -/
def credentialKeyPatterns : List String :=
  ["password", "passwd", "secret", "token", "apikey", "api_key", "api-key", "authorization", "bearer", "cookie",
    "credential", "appkey", "app_key", "app-key", "sign", "access_key", "accesskey", "private_key", "privatekey", "dsn",
    "postgres_url", "redis_url"]

/-- `_USAGE_COUNTER_KEYS` -/
def usageCounterKeys : List String :=
  ["prompt_tokens", "completion_tokens", "cached_tokens", "reasoning_tokens", "total_tokens"]

/-- **`_is_credential_key`** -/
def isCredentialKey (key : String) : Bool :=
  let lowered := Text.lower key
  if lowered ∈ usageCounterKeys then false
  else credentialKeyPatterns.any fun pattern => decide (pattern.toList <:+: lowered.toList)

/-- The text that replaces a credential. -/
def marker : Json :=
  .str (String.ofList redacted)

mutual

/-- **`_redact`** -/
def redact : Value → Json
  | .null => .null
  | .bool value => .bool value
  | .int value => .int value
  | .float literal => .float literal
  | .text text => .str (redactText words text)
  | .object shown => .str (redactText words shown)
  | .mapping _ entries => .obj (redactFields entries)
  | .list items => .arr (redactItems items)
  | .tuple items => .arr (redactItems items)
termination_by structural value => value

/-- The entries of a mapping in `_redact`. -/
def redactFields : List (String × Value) → List (String × Json)
  | [] => []
  | (key, value) :: entries => (key, if isCredentialKey key then marker else redact value) :: redactFields entries
termination_by structural entries => entries

/-- The items of a sequence in `_redact`. -/
def redactItems : List Value → List Json
  | [] => []
  | item :: items => redact item :: redactItems items
termination_by structural items => items

end

mutual

/-- **`_count_rows`**: the items of all lists. -/
def countRows : Json → Nat
  | .obj fields => countFields fields
  | .arr values => countItems values
  | _ => 0
termination_by structural value => value

/-- The items of the lists in fields. -/
def countFields : List (String × Json) → Nat
  | [] => 0
  | (_, value) :: fields => countRows value + countFields fields
termination_by structural fields => fields

/-- Items, and the items of the lists in them. -/
def countItems : List Json → Nat
  | [] => 0
  | value :: values => 1 + countRows value + countItems values
termination_by structural values => values

end

/-- The bytes of characters in UTF-8. -/
def bytes : List Char → Nat
  | [] => 0
  | c :: cs => c.utf8Size + bytes cs

/-- **`_measure`**: the bytes of a value as it is serialized. -/
def measure (value : Json) : Nat :=
  bytes (TraceReport.dumps value)

/-- `_MAX_STRING_CHARS` -/
def maxStringChars : Nat :=
  4000

/-- A text in `_structure_only`, cut where it is long. -/
def cutText (text : String) : String :=
  if maxStringChars < text.toList.length then String.ofList (text.toList.take maxStringChars ++ ['…']) else text

mutual

/-- **`_structure_only`** -/
def structureOnly : Json → Json
  | .obj fields => .obj (structureFields fields)
  | .arr [] => .arr []
  | .arr (value :: values) =>
    .arr [.obj [("_truncated_items", .int (values.length + 1)), ("_sample", .arr [structureOnly value])]]
  | .str text => .str (cutText text)
  | value => value
termination_by structural value => value

/-- The fields of an object in `_structure_only`. -/
def structureFields : List (String × Json) → List (String × Json)
  | [] => []
  | (key, value) :: fields => (key, structureOnly value) :: structureFields fields
termination_by structural fields => fields

end

/-- **The caps of the settings**, with their least values. -/
structure Caps where
  maxPayloadBytes : Nat
  maxRows : Nat
  bytes_ge : 1024 ≤ maxPayloadBytes
  rows_ge : 1 ≤ maxRows

/-- **`CapturedPayload`** -/
structure CapturedPayload where
  input : Json
  output : Json
  truncated : Bool
  originalRows : Option Nat
  originalBytes : Option Nat

/-- **`summarise_payload`** -/
def summarisePayload (caps : Caps) (inputPayload outputPayload : Value) : CapturedPayload :=
  let redactedInput := redact words inputPayload
  let redactedOutput := redact words outputPayload
  let rows := countRows redactedInput + countRows redactedOutput
  let size := measure redactedInput + measure redactedOutput
  if size ≤ caps.maxPayloadBytes ∧ rows ≤ caps.maxRows then ⟨redactedInput, redactedOutput, false, none, some size⟩
  else ⟨structureOnly redactedInput, structureOnly redactedOutput, true, some rows, some size⟩

/-! ## What is shown -/

/-- **A text without its secrets**: the addresses of databases are replaced, then the bearer tokens, then the queries of
addresses. -/
def Scrubbed (text shown : String) : Prop :=
  ∃ first second, Replaces (Matches (dsn words)) (fun _ => redacted) text.toList first
    ∧ Replaces (Matches (bearer words)) (fun _ => "Bearer ".toList ++ redacted) first second
    ∧ Replaces (Matches (urlQuery words)) queryMark second shown.toList

mutual

/-- **A value is shown as a whole**: with its entries and its items, its numbers, and its texts without their secrets;
only what is under a credential key is replaced. -/
def Shows : Value → Json → Prop
  | .null, .null => True
  | .bool value, .bool shown => shown = value
  | .int value, .int shown => shown = value
  | .float literal, .float shown => shown = literal
  | .text text, .str shown => Scrubbed words text shown
  | .object text, .str shown => Scrubbed words text shown
  | .mapping _ entries, .obj fields => ShowsFields entries fields
  | .list items, .arr values => ShowsItems items values
  | .tuple items, .arr values => ShowsItems items values
  | _, _ => False
termination_by structural value => value

/-- Entries are shown in their order, under their keys. -/
def ShowsFields : List (String × Value) → List (String × Json) → Prop
  | [], [] => True
  | (key, value) :: entries, (name, shown) :: fields =>
    name = key ∧ (if isCredentialKey key then shown = marker else Shows value shown) ∧ ShowsFields entries fields
  | _, _ => False
termination_by structural entries => entries

/-- Items are shown in their order. -/
def ShowsItems : List Value → List Json → Prop
  | [], [] => True
  | item :: items, shown :: values => Shows item shown ∧ ShowsItems items values
  | _, _ => False
termination_by structural items => items

end

theorem redactFields_eq (entries : List (String × Value)) : redactFields words entries
    = entries.map fun entry => (entry.1, if isCredentialKey entry.1 then marker else redact words entry.2) := by
  induction entries with
  | nil => rfl
  | cons entry entries ih => rw [redactFields, ih, List.map_cons]

theorem redactItems_eq (items : List Value) : redactItems words items = items.map (redact words) := by
  induction items with
  | nil => rfl
  | cons item items ih => rw [redactItems, ih, List.map_cons]

/-- A redacted text is without its secrets. -/
theorem scrubbed_redactText (text : String) : Scrubbed words text (redactText words text) := by
  refine ⟨_, _, replaces_mask none text.toList, replaces_mask none _, ?_⟩
  simp only [redactText, redactValue, String.toList_ofList]
  exact replaces_mask none _

/-- Entries are shown, where their values are. -/
theorem showsFields_of {entries : List (String × Value)}
    (h : ∀ entry ∈ entries, Shows words entry.2 (redact words entry.2)) :
    ShowsFields words entries (redactFields words entries) := by
  induction entries with
  | nil => exact trivial
  | cons entry entries ih =>
    obtain ⟨hentry, hentries⟩ := List.forall_mem_cons.mp h
    refine ⟨rfl, ?_, ih hentries⟩
    split
    · rfl
    · exact hentry

/-- Items are shown, where each of them is. -/
theorem showsItems_of {items : List Value} (h : ∀ item ∈ items, Shows words item (redact words item)) :
    ShowsItems words items (redactItems words items) := by
  induction items with
  | nil => exact trivial
  | cons item items ih =>
    obtain ⟨hitem, hitems⟩ := List.forall_mem_cons.mp h
    exact ⟨hitem, ih hitems⟩

/-- **A redacted value is shown as a whole.** -/
theorem shows_redact (value : Value) : Shows words value (redact words value) := by
  induction value with
  | leaf value hleaf =>
    cases value with
    | text text => exact scrubbed_redactText words text
    | object text => exact scrubbed_redactText words text
    | mapping | list | tuple => exact hleaf.elim
    | null => exact trivial
    | _ => rfl
  | mapping isDict entries ih => exact showsFields_of words ih
  | list items ih => exact showsItems_of words ih
  | tuple items ih => exact showsItems_of words ih

/-- **What credential keys hold is gone** when a value is redacted. -/
theorem redact_erase (value : Value) : redact words (value.erase isCredentialKey) = redact words value := by
  induction value with
  | leaf value hleaf => cases value <;> first | exact hleaf.elim | rfl
  | mapping isDict entries ih =>
    rw [Value.erase, redact, redact, Value.eraseEntries_eq, redactFields_eq, redactFields_eq, List.map_map]
    refine congrArg _ (List.map_congr_left fun entry hentry => ?_)
    dsimp only [Function.comp_apply]
    split
    · rfl
    · rw [ih entry hentry]
  | list items ih =>
    rw [Value.erase, redact, redact, Value.eraseItems_eq, redactItems_eq, redactItems_eq, List.map_map]
    exact congrArg _ (List.map_congr_left ih)
  | tuple items ih =>
    rw [Value.erase, redact, redact, Value.eraseItems_eq, redactItems_eq, redactItems_eq, List.map_map]
    exact congrArg _ (List.map_congr_left ih)

/-- Values that differ under credential keys only are redacted to the same. -/
theorem redact_eq_of_erase_eq {value other : Value} (h : other.erase isCredentialKey = value.erase isCredentialKey) :
    redact words other = redact words value := by
  rw [← redact_erase, h, redact_erase]

/-- **A captured payload hides its credentials, and nothing else unless it says so**: payloads that differ under
credential keys only are captured as the same, with the same size and the same number of rows; and what is not marked as
truncated is shown as a whole. -/
theorem capture_hides_credentials (caps : Caps) {input input' output output' : Value}
    (hinput : input'.erase isCredentialKey = input.erase isCredentialKey)
    (houtput : output'.erase isCredentialKey = output.erase isCredentialKey) :
    summarisePayload words caps input' output' = summarisePayload words caps input output
      ∧ ((summarisePayload words caps input output).truncated = false →
        Shows words input (summarisePayload words caps input output).input
          ∧ Shows words output (summarisePayload words caps input output).output) := by
  constructor
  · rw [summarisePayload, summarisePayload, redact_eq_of_erase_eq words hinput, redact_eq_of_erase_eq words houtput]
  · intro hwhole
    simp only [summarisePayload] at hwhole ⊢
    split_ifs at hwhole ⊢
    exact ⟨shows_redact words input, shows_redact words output⟩

/-- The caps that are set by default. -/
def defaultCaps : Caps :=
  ⟨262144, 500, by decide, by decide⟩

/-- ASCII letters and digits as the word characters. -/
def asciiWords : Words :=
  ⟨Char.isAlphanum⟩

/-- Two passwords are captured as the same. -/
theorem capture_hides_password :
    summarisePayload asciiWords defaultCaps (.mapping true [("password", .text "hunter2")]) .null
      = summarisePayload asciiWords defaultCaps (.mapping true [("password", .text "s3cret")]) .null :=
  (capture_hides_credentials asciiWords defaultCaps
    (by simp [Value.erase, Value.eraseEntries, show isCredentialKey "password" = true by decide]) rfl).1

/-- The address of a request, with the number of an order. -/
def orderAddress : String :=
  "https://mes.example/orders?order=A100"

/-- **A text without any credential is not captured as it is**, and not marked as truncated. -/
theorem query_replaced :
    ¬∀ (words : Words) (caps : Caps) (text : String), Clean words text →
      (summarisePayload words caps (.text text) .null).truncated = false →
      (summarisePayload words caps (.text text) .null).input = .str text := by
  intro h
  have hsame : redactValue asciiWords orderAddress = orderAddress := by decide +kernel
  have hclean : Clean asciiWords orderAddress := hsame ▸ clean_redactValue orderAddress
  have hredacted : redactText asciiWords orderAddress = "https://mes.example/orders?[REDACTED]" := by decide +kernel
  have hfits : measure (.str "https://mes.example/orders?[REDACTED]") + measure .null ≤ 262144 := by decide +kernel
  have hwhole : (summarisePayload asciiWords defaultCaps (.text orderAddress) .null).truncated = false := by
    simp only [summarisePayload, redact, hredacted, countRows, defaultCaps, hfits]
    rfl
  have hinput := h asciiWords defaultCaps orderAddress hclean hwhole
  simp only [summarisePayload, redact, hredacted, countRows, defaultCaps, hfits] at hinput
  exact absurd (Json.str.inj hinput) (by decide)

end DebugTrace
