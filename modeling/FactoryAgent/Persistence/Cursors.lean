import FactoryAgent.Lib.Base64
import FactoryAgent.Lib.IsoDateTime
import FactoryAgent.Lib.Json

/-!
# Pagination cursors

The opaque cursors of `persistence/queries.py`: the last key of a page as a JSON object, in URL-safe Base64. A
cursor that is no Base64, no JSON object or has a field of another type is malformed. A cursor that the server
wrote is read back as the key it was written for, whatever characters the identifier has and whatever the
offset of the date and time is.

`json.loads` takes bytes and detects their encoding; the model reads UTF-8, in which cursors are written.
-/

/-- **A cursor that is missing, malformed or truncated.** -/
structure CursorError where
  message : String
  deriving DecidableEq, Repr

namespace CursorError

/-- The one message of a decoder. -/
def malformed : CursorError := ⟨"pagination cursor is malformed"⟩

end CursorError

/-- The cursor of an object: its fields are given in the order of their names, as `sort_keys` leaves them. -/
def encodePayload (fields : List (String × Json)) : String :=
  Base64.urlsafeEncode (Json.dumps (.obj fields)).toUTF8

/-- The fields of the object in a cursor. -/
def decodePayload (cursor : String) : Except CursorError (List (String × Json)) :=
  match ((Base64.urlsafeDecode cursor).bind String.fromUTF8?).bind Json.loads with
  | some (.obj fields) => .ok fields
  | _ => .error .malformed

/-- The date and time in a cursor. -/
def decodeAt (text : String) : Except CursorError DateTime :=
  match DateTime.fromisoformat text with
  | some createdAt => .ok createdAt
  | none => .error .malformed

/-- `encode_cursor` -/
def encodeCursor (createdAt : DateTime) (rowId : String) : String :=
  encodePayload [("at", .str createdAt.isoformat), ("id", .str rowId)]

/-- `decode_cursor` -/
def decodeCursor (cursor : String) : Except CursorError (DateTime × String) :=
  (decodePayload cursor).bind fun payload =>
    match Json.get? payload "at", Json.get? payload "id" with
    | some (.str rawAt), some (.str rawId) => (decodeAt rawAt).map fun createdAt => (createdAt, rawId)
    | _, _ => .error .malformed

/-- `encode_message_cursor` -/
def encodeMessageCursor (createdAt : DateTime) (interactionId : String) (sequence : Int) : String :=
  encodePayload
    [("at", .str createdAt.isoformat), ("iid", .str interactionId), ("seq", .int sequence)]

/-- `decode_message_cursor`. A boolean is no sequence. -/
def decodeMessageCursor (cursor : String) : Except CursorError (DateTime × String × Int) :=
  (decodePayload cursor).bind fun payload =>
    match Json.get? payload "at", Json.get? payload "iid", Json.get? payload "seq" with
    | some (.str rawAt), some (.str rawIid), some (.int rawSeq) =>
      (decodeAt rawAt).map fun createdAt => (createdAt, rawIid, rawSeq)
    | _, _, _ => .error .malformed

/-! ## What was encoded -/

/-- **The fields of a cursor are read back.** -/
theorem decodePayload_encodePayload {fields : List (String × Json)}
    (h : ∀ field ∈ fields, Json.Exact field.2) : decodePayload (encodePayload fields) = .ok fields := by
  rw [decodePayload, encodePayload, Base64.urlsafeDecode_urlsafeEncode, Option.bind_some,
    Json.fromUTF8?_toUTF8, Option.bind_some, Json.loads_dumps (.obj h)]

/-- A cursor is not empty. -/
theorem encodePayload_ne_empty {fields : List (String × Json)}
    (h : ∀ field ∈ fields, Json.Exact field.2) : encodePayload fields ≠ "" := by
  intro hempty
  have hread := decodePayload_encodePayload h
  rw [hempty] at hread
  have hmalformed : (decodePayload "").isOk = false := by decide +kernel
  rw [hread] at hmalformed
  cases hmalformed

/-- The date and time of a cursor are read back. -/
theorem decodeAt_isoformat (createdAt : DateTime) : decodeAt createdAt.isoformat = .ok createdAt := by
  rw [decodeAt, DateTime.fromisoformat_isoformat]

/-- The fields of a cursor hold no floating point numbers. -/
theorem exact_cursor (createdAt : DateTime) (rowId : String) :
    ∀ field ∈ [("at", Json.str createdAt.isoformat), ("id", .str rowId)], Json.Exact field.2 := by
  simp only [List.forall_mem_cons, List.not_mem_nil, false_imp_iff, implies_true, and_true]
  exact ⟨.str _, .str _⟩

/-- The fields of a message cursor hold no floating point numbers. -/
theorem exact_messageCursor (createdAt : DateTime) (interactionId : String) (sequence : Int) :
    ∀ field ∈ [("at", Json.str createdAt.isoformat), ("iid", .str interactionId), ("seq", .int sequence)],
      Json.Exact field.2 := by
  simp only [List.forall_mem_cons, List.not_mem_nil, false_imp_iff, implies_true, and_true]
  exact ⟨.str _, .str _, .int _⟩

/-- **A cursor is read back as its key.** -/
theorem decodeCursor_encodeCursor (createdAt : DateTime) (rowId : String) :
    decodeCursor (encodeCursor createdAt rowId) = .ok (createdAt, rowId) := by
  have hat : Json.get? [("at", .str createdAt.isoformat), ("id", .str rowId)] "at"
      = some (.str createdAt.isoformat) := by simp [Json.get?]
  have hid : Json.get? [("at", .str createdAt.isoformat), ("id", .str rowId)] "id"
      = some (.str rowId) := by simp [Json.get?]
  rw [decodeCursor, encodeCursor, decodePayload_encodePayload (exact_cursor createdAt rowId)]
  simp only [Except.bind, hat, hid, decodeAt_isoformat, Except.map]

/-- **A message cursor is read back as its key.** -/
theorem decodeMessageCursor_encodeMessageCursor (createdAt : DateTime) (interactionId : String)
    (sequence : Int) :
    decodeMessageCursor (encodeMessageCursor createdAt interactionId sequence)
      = .ok (createdAt, interactionId, sequence) := by
  have hat : Json.get? [("at", .str createdAt.isoformat), ("iid", .str interactionId),
      ("seq", .int sequence)] "at" = some (.str createdAt.isoformat) := by simp [Json.get?]
  have hiid : Json.get? [("at", .str createdAt.isoformat), ("iid", .str interactionId),
      ("seq", .int sequence)] "iid" = some (.str interactionId) := by simp [Json.get?]
  have hseq : Json.get? [("at", .str createdAt.isoformat), ("iid", .str interactionId),
      ("seq", .int sequence)] "seq" = some (.int sequence) := by simp [Json.get?]
  rw [decodeMessageCursor, encodeMessageCursor,
    decodePayload_encodePayload (exact_messageCursor createdAt interactionId sequence)]
  simp only [Except.bind, hat, hiid, hseq, decodeAt_isoformat, Except.map]
