import Mathlib.Data.Prod.Lex
import Mathlib.Data.String.Basic
import FactoryAgent.Domain.Session
import FactoryAgent.Lib.Keyset
import FactoryAgent.Persistence.Cursors

/-!
# Messages and history, page by page

`list_messages` of `persistence/session_store.py` and `SqlHistoryRepository.list` of
`persistence/personal_store.py`. Both read one page of an owner's rows in the order of a key, after the key
of a cursor, and look one row ahead. The key of a message is `(created_at, interaction_id, sequence)`, that of
a history entry is `(created_at, history_id)`.

The database compares timestamps as instants, whatever offset the driver reads them with, and texts by its
collation, of which no more is assumed than that it is an order (`Collation`).
-/

/-- **A collation**: the order in which a database sorts texts, as that of their sort keys. Different texts
have different sort keys. -/
structure Collation where
  Key : Type
  order : LinearOrder Key
  sortKey : String → Key
  injective : Function.Injective sortKey

instance (collation : Collation) : LinearOrder collation.Key := collation.order

/-- **A timestamp as the driver reads it**: a date and time with the offset of the session, of the instant
that is stored. -/
structure Timestamp (stored : Instant) where
  value : DateTime
  aware : value.offset.isSome
  instant_eq : value.instant = stored

theorem Timestamp.eq_of_value {stored : Instant} {read other : Timestamp stored} (h : read.value = other.value) :
    read = other := by
  cases read with
  | mk value aware hinstant =>
    cases other with
    | mk value' aware' hinstant' =>
      have hvalue : value = value' := h
      subst hvalue
      rfl

instance (stored : Instant) : DecidableEq (Timestamp stored) := fun _ _ =>
  decidable_of_iff _ ⟨Timestamp.eq_of_value, congrArg Timestamp.value⟩

/-- A row of `agent_message` as it is read. -/
structure MessageRow extends MessageRecord where
  readAt : Timestamp createdAt
  deriving DecidableEq

/-- A row of `agent_query_history`, `HistoryEntry`. -/
structure HistoryEntry where
  historyId : String
  tenantId : String
  userId : String
  capabilityId : String
  intent : Payload
  status : String
  createdAt : Instant
  deriving DecidableEq

/-- A row of `agent_query_history` as it is read. -/
structure HistoryRow extends HistoryEntry where
  readAt : Timestamp createdAt
  deriving DecidableEq

variable (collation : Collation)

/-! ## Messages -/

/-- The order of messages: by instant, then by interaction, then by sequence. -/
abbrev Collation.MessageKey : Type := Instant ×ₗ collation.Key ×ₗ Int

/-- The key of a message. -/
def messageKey (row : MessageRow) : collation.MessageKey :=
  toLex (row.createdAt, toLex (collation.sortKey row.interactionId, row.sequence))

/-- The key that a cursor compares with. -/
def messageCursorKey (cursor : DateTime × String × Int) : collation.MessageKey :=
  toLex (cursor.1.instant, toLex (collation.sortKey cursor.2.1, cursor.2.2))

/-- **The messages of a conversation** of an owner whose kind is not excluded. -/
def conversationMessages (rows : List MessageRow) (tenantId userId sessionId : String)
    (excludeKinds : List MessageKind) : List MessageRow :=
  rows.filter fun row => row.tenantId = tenantId ∧ row.userId = userId ∧ row.sessionId = sessionId
    ∧ row.kind ∉ excludeKinds

/-- `select_messages`: the rows after the cursor, one more than the page holds. The kinds are subtracted before
the rows are cut. -/
def selectMessages (rows : List MessageRow) (tenantId userId sessionId : String) (limit : ℕ)
    (cursor : Option (DateTime × String × Int)) (excludeKinds : List MessageKind) : List MessageRow :=
  Keyset.select (messageKey collation) limit (cursor.map (messageCursorKey collation))
    (conversationMessages rows tenantId userId sessionId excludeKinds)

/-- The cursor after a message. -/
def messageCursor (row : MessageRow) : String :=
  encodeMessageCursor row.readAt.value row.interactionId row.sequence

/-- **`list_messages`** -/
def listMessages (rows : List MessageRow) (tenantId userId sessionId : String) (limit : ℕ)
    (cursor : Option String) (excludeKinds : List MessageKind) :
    Except CursorError (Keyset.Page MessageRow) :=
  (Keyset.decoded decodeMessageCursor cursor).map fun after =>
    Keyset.page limit messageCursor
      (selectMessages collation rows tenantId userId sessionId limit after excludeKinds)

/-- The cursor after a message is read back as the key of the message. -/
theorem decodeMessageCursor_messageCursor (row : MessageRow) :
    messageCursor row ≠ ""
      ∧ (decodeMessageCursor (messageCursor row)).map (messageCursorKey collation)
        = .ok (messageKey collation row) := by
  refine ⟨encodePayload_ne_empty (exact_messageCursor _ _ _), ?_⟩
  rw [messageCursor, decodeMessageCursor_encodeMessageCursor]
  show Except.ok (toLex (row.readAt.value.instant, _)) = _
  rw [row.readAt.instant_eq]
  rfl

/-! ## History -/

/-- The order of history entries: by instant, then by identifier. -/
abbrev Collation.HistoryKey : Type := Instant ×ₗ collation.Key

/-- The key of a history entry. -/
def historyKey (row : HistoryRow) : collation.HistoryKey :=
  toLex (row.createdAt, collation.sortKey row.historyId)

/-- The key that a cursor compares with. -/
def historyCursorKey (cursor : DateTime × String) : collation.HistoryKey :=
  toLex (cursor.1.instant, collation.sortKey cursor.2)

/-- The history of an owner. -/
def ownedHistory (rows : List HistoryRow) (tenantId userId : String) : List HistoryRow :=
  rows.filter fun row => row.tenantId = tenantId ∧ row.userId = userId

/-- `_select`: the entries after the cursor, one more than the page holds. -/
def selectHistory (rows : List HistoryRow) (tenantId userId : String) (limit : ℕ)
    (cursor : Option (DateTime × String)) : List HistoryRow :=
  Keyset.select (historyKey collation) limit (cursor.map (historyCursorKey collation))
    (ownedHistory rows tenantId userId)

/-- The cursor after a history entry. -/
def historyCursor (row : HistoryRow) : String :=
  encodeCursor row.readAt.value row.historyId

/-- **`SqlHistoryRepository.list`** -/
def listHistory (rows : List HistoryRow) (tenantId userId : String) (limit : ℕ)
    (cursor : Option String) : Except CursorError (Keyset.Page HistoryRow) :=
  (Keyset.decoded decodeCursor cursor).map fun after =>
    Keyset.page limit historyCursor (selectHistory collation rows tenantId userId limit after)

/-- The cursor after a history entry is read back as the key of the entry. -/
theorem decodeCursor_historyCursor (row : HistoryRow) :
    historyCursor row ≠ ""
      ∧ (decodeCursor (historyCursor row)).map (historyCursorKey collation)
        = .ok (historyKey collation row) := by
  refine ⟨encodePayload_ne_empty (exact_cursor _ _), ?_⟩
  rw [historyCursor, decodeCursor_encodeCursor]
  show Except.ok (toLex (row.readAt.value.instant, _)) = _
  rw [row.readAt.instant_eq]
  rfl

/-! ## Following the cursors -/

/-- **The pages show the rows once**: following the cursors from the first page ends, within as many steps as
the table has rows, and the pages together are the wanted rows in the order of their keys. -/
def CoversOnce {α κ : Type} [LinearOrder κ] (key : α → κ) (rows wanted : List α)
    (read : Option String → Except CursorError (Keyset.Page α)) : Prop :=
  ∃ pages, (∀ steps, rows.length < steps → Keyset.follow read steps none = some (.ok pages))
    ∧ (pages.flatMap Keyset.Page.items).Perm wanted
    ∧ (pages.flatMap Keyset.Page.items).Pairwise fun a b => key a < key b

/-- **Messages and history are shown once, page by page.** In a fixed table with distinct keys, whatever the
collation, the owner, the excluded kinds and the limit are, following `next_cursor` from the first page ends
and shows every message of the conversation that is not excluded exactly once, in the order of the keys; so it
does for the history of an owner. A cursor is decoded as the key it was encoded from. -/
theorem listMessages_listHistory_coversOnce {limit : ℕ} (hlimit : 1 ≤ limit)
    {messages : List MessageRow} (hmessages : (messages.map (messageKey collation)).Nodup)
    {history : List HistoryRow} (hhistory : (history.map (historyKey collation)).Nodup) :
    (∀ tenantId userId sessionId excludeKinds,
      CoversOnce (messageKey collation) messages
        (conversationMessages messages tenantId userId sessionId excludeKinds)
        (listMessages collation messages tenantId userId sessionId limit · excludeKinds))
    ∧ (∀ tenantId userId,
      CoversOnce (historyKey collation) history (ownedHistory history tenantId userId)
        (listHistory collation history tenantId userId limit ·))
    ∧ (∀ createdAt interactionId sequence,
      decodeMessageCursor (encodeMessageCursor createdAt interactionId sequence)
        = .ok (createdAt, interactionId, sequence))
    ∧ ∀ createdAt rowId, decodeCursor (encodeCursor createdAt rowId) = .ok (createdAt, rowId) := by
  refine ⟨fun tenantId userId sessionId excludeKinds => ?messages, fun tenantId userId => ?history,
    decodeMessageCursor_encodeMessageCursor, decodeCursor_encodeCursor⟩
  case messages =>
    have hkeys : ((conversationMessages messages tenantId userId sessionId excludeKinds).map
        (messageKey collation)).Nodup := hmessages.sublist (List.filter_sublist.map _)
    obtain ⟨pages, hfollow, hperm, hsorted⟩ := Keyset.follow_list hlimit hkeys
      fun row _ => decodeMessageCursor_messageCursor collation row
    exact ⟨pages, fun steps hsteps => hfollow steps (lt_of_le_of_lt (List.length_filter_le ..) hsteps),
      hperm, hsorted⟩
  case history =>
    have hkeys : ((ownedHistory history tenantId userId).map (historyKey collation)).Nodup :=
      hhistory.sublist (List.filter_sublist.map _)
    obtain ⟨pages, hfollow, hperm, hsorted⟩ := Keyset.follow_list hlimit hkeys
      fun row _ => decodeCursor_historyCursor collation row
    exact ⟨pages, fun steps hsteps => hfollow steps (lt_of_le_of_lt (List.length_filter_le ..) hsteps),
      hperm, hsorted⟩

/-- **The collation by code points.** -/
def Collation.codePoints : Collation where
  Key := String
  order := inferInstance
  sortKey := id
  injective := Function.injective_id

/-- A date and time in UTC+8. -/
def quarterPast : DateTime := ⟨⟨2026, 9, 15, 8, 15, 0, 250000, some 28800000000⟩, by decide⟩

/-- A message of one commit: those of a commit share their instant. -/
def committedMessage (sequence : Nat) (kind : MessageKind) : MessageRow where
  messageId := sequence
  interactionId := "int_1"
  sessionId := "sess_1"
  tenantId := "t1"
  userId := "u1"
  role := .assistant
  kind := kind
  sequence := sequence
  text := ""
  payload := []
  createdAt := quarterPast.instant
  readAt := ⟨quarterPast, rfl, rfl⟩

/-- An entry of the history. -/
def historyRow (historyId : String) : HistoryRow where
  historyId := historyId
  tenantId := "t1"
  userId := "u1"
  capabilityId := "order_progress"
  intent := []
  status := "answered"
  createdAt := quarterPast.instant
  readAt := ⟨quarterPast, rfl, rfl⟩

/-- **The result and the answer of one commit, a page each**: they share their instant, and so do two entries
of the history. -/
theorem listMessages_listHistory_coversOnce_ties :
    (CoversOnce (messageKey .codePoints) [committedMessage 2 .plainText, committedMessage 1 .resultTable]
      (conversationMessages [committedMessage 2 .plainText, committedMessage 1 .resultTable] "t1" "u1"
        "sess_1" [.phase])
      (listMessages .codePoints [committedMessage 2 .plainText, committedMessage 1 .resultTable] "t1" "u1"
        "sess_1" 1 · [.phase]))
    ∧ CoversOnce (historyKey .codePoints) [historyRow "h2", historyRow "h1"]
      (ownedHistory [historyRow "h2", historyRow "h1"] "t1" "u1")
      (listHistory .codePoints [historyRow "h2", historyRow "h1"] "t1" "u1" 1 ·) := by
  have hmessages : ([committedMessage 2 .plainText, committedMessage 1 .resultTable].map
      (messageKey .codePoints)).Nodup := by
    refine List.nodup_cons.mpr ⟨fun h => ?_, List.nodup_singleton _⟩
    have hkey := List.mem_singleton.mp h
    have hsequence : (2 : Int) = 1 := congrArg (fun key => (ofLex (ofLex key).2).2) hkey
    exact absurd hsequence (by decide)
  have hhistory : ([historyRow "h2", historyRow "h1"].map (historyKey .codePoints)).Nodup := by
    refine List.nodup_cons.mpr ⟨fun h => ?_, List.nodup_singleton _⟩
    have hkey := List.mem_singleton.mp h
    have hid : "h2" = "h1" := congrArg (fun key => (ofLex key).2) hkey
    exact absurd hid (by decide)
  have hcovers := listMessages_listHistory_coversOnce .codePoints (Nat.le_refl 1) hmessages hhistory
  exact ⟨hcovers.1 "t1" "u1" "sess_1" [.phase], hcovers.2.1 "t1" "u1"⟩
