import FactoryAgent.Metering.UsageEvent

/-!
# The session store

The tables that `persistence/session_store.py` writes, and its transactions, for one interaction of
one owner. Every statement of the store filters by the owner, so a caller who is not the owner finds
no row; the model has the owner's side only.

The two tables with a unique key carry it as a field. `agent_interaction_event` has the primary key
`(interaction_id, sequence)` and its upsert *replaces* the row of a sequence that is taken.
`agent_message` has the primary key `message_id` and a second unique key `(interaction_id, sequence)`;
its upsert is on the primary key alone, so a second message with a taken sequence violates the other
key and the whole transaction is rolled back.

`InteractionStore.commit` is the business transaction and `none` is its rollback. The compare-and-set
statements are `claimRun`, `failStaleRun` and `failAbandonedRun`: they look at the status and change
it in one statement, and return nothing where the status is not the one they look for.
-/

/-! ## The event table -/

/-- **The durable event log**: the rows of `agent_interaction_event` in the order of their key. -/
structure EventLog where
  rows : List SessionEvent
  sorted : rows.Pairwise (fun a b => a.sequence < b.sequence)
  deriving DecidableEq

namespace EventLog

/-- The empty log. -/
def empty : EventLog := ⟨[], List.Pairwise.nil⟩

/-- Put an event into its place in a list of rows, replacing the row of its sequence. -/
def put : List SessionEvent → SessionEvent → List SessionEvent
  | [], event => [event]
  | row :: rows, event =>
    if event.sequence < row.sequence then event :: row :: rows
    else if event.sequence = row.sequence then event :: rows
    else row :: put rows event

theorem mem_put {rows : List SessionEvent} {event e : SessionEvent} (h : e ∈ put rows event) :
    e = event ∨ e ∈ rows := by
  induction rows with
  | nil => exact Or.inl (List.mem_singleton.mp h)
  | cons row rows ih =>
    rw [put] at h
    split at h
    · exact (List.mem_cons.mp h).imp_right id
    · split at h
      · exact (List.mem_cons.mp h).imp_right (List.mem_cons_of_mem row)
      · rcases List.mem_cons.mp h with rfl | h
        · exact Or.inr List.mem_cons_self
        · exact (ih h).imp_right (List.mem_cons_of_mem row)

theorem put_pairwise {rows : List SessionEvent} (event : SessionEvent)
    (h : rows.Pairwise (fun a b => a.sequence < b.sequence)) :
    (put rows event).Pairwise (fun a b => a.sequence < b.sequence) := by
  induction rows with
  | nil => exact List.pairwise_singleton _ event
  | cons row rows ih =>
    obtain ⟨hrow, hrows⟩ := List.pairwise_cons.mp h
    rw [put]
    split
    · rename_i hlt
      refine List.pairwise_cons.mpr ⟨fun e he => ?_, h⟩
      rcases List.mem_cons.mp he with rfl | he
      · exact hlt
      · exact Nat.lt_trans hlt (hrow e he)
    · split
      · rename_i heq
        exact List.pairwise_cons.mpr ⟨fun e he => heq ▸ hrow e he, hrows⟩
      · rename_i hnlt hne
        refine List.pairwise_cons.mpr ⟨fun e he => ?_, ih hrows⟩
        rcases mem_put he with rfl | he
        · omega
        · exact hrow e he

/-- `_upsert` on the event table: insert, or replace the row of the sequence. -/
def upsert (log : EventLog) (event : SessionEvent) : EventLog :=
  ⟨put log.rows event, put_pairwise event log.sorted⟩

/-- The row of a sequence. -/
def at? (log : EventLog) (sequence : Nat) : Option SessionEvent :=
  log.rows.find? (fun row => decide (row.sequence = sequence))

/-- **An upsert writes its own slot and no other.** -/
theorem at?_upsert (log : EventLog) (event : SessionEvent) (n : Nat) :
    (log.upsert event).at? n = if n = event.sequence then some event else log.at? n := by
  unfold at? upsert
  dsimp only
  induction log.rows with
  | nil => by_cases h : n = event.sequence <;> simp [put, List.find?, h, eq_comm]
  | cons row rows ih =>
    rw [put]
    split
    · by_cases h : event.sequence = n
      · simp [h]
      · simp [h, Ne.symm h]
    · split
      · rename_i heq
        by_cases h : event.sequence = n
        · simp [h]
        · simp [h, ← heq, Ne.symm h]
      · rename_i hne
        rw [List.find?_cons, List.find?_cons, ih]
        by_cases h : row.sequence = n
        · have hn : n ≠ event.sequence := fun he => hne (he ▸ h.symm)
          simp [h, hn]
        · simp [h]

theorem at?_eq_some_iff {log : EventLog} {n : Nat} {event : SessionEvent} :
    log.at? n = some event ↔ event ∈ log.rows ∧ event.sequence = n := by
  constructor
  · intro h
    exact ⟨List.mem_of_find?_eq_some h, by simpa using List.find?_some h⟩
  · rintro ⟨hmem, rfl⟩
    unfold at?
    have hsorted := log.sorted
    revert hmem hsorted
    induction log.rows with
    | nil => intro hmem; cases hmem
    | cons row rows ih =>
      intro hmem hsorted
      obtain ⟨hrow, hrows⟩ := List.pairwise_cons.mp hsorted
      rcases List.mem_cons.mp hmem with rfl | hmem
      · simp
      · have hlt := hrow event hmem
        rw [List.find?_cons_of_neg (by simpa using Nat.ne_of_lt hlt)]
        exact ih hmem hrows

/-- `select_events`: the rows after a sequence, in order. -/
def after (log : EventLog) (sequence : Nat) : List SessionEvent :=
  log.rows.filter (fun row => decide (sequence < row.sequence))

/-- The terminal events of the log. -/
def terminals (log : EventLog) : List SessionEvent :=
  log.rows.filter (fun row => row.name.isTerminal)

/-- Write the events of a commit one after the other. -/
def upsertAll (log : EventLog) (events : List SessionEvent) : EventLog :=
  events.foldl upsert log

/-- An event past every row is put at the end. -/
theorem rows_upsert_of_lt {log : EventLog} {event : SessionEvent}
    (h : ∀ row ∈ log.rows, row.sequence < event.sequence) :
    (log.upsert event).rows = log.rows ++ [event] := by
  unfold upsert
  dsimp only
  revert h
  induction log.rows with
  | nil => exact fun _ => rfl
  | cons row rows ih =>
    intro h
    have hrow := h row List.mem_cons_self
    rw [put, if_neg (by omega), if_neg (by omega),
      ih (fun r hr => h r (List.mem_cons_of_mem row hr))]
    rfl

/-- **Events numbered consecutively from a counter that no row is past are appended.** -/
theorem rows_upsertAll {log : EventLog} {events : List SessionEvent} {counter : Nat}
    (hbound : ∀ row ∈ log.rows, row.sequence ≤ counter)
    (hnumbered : events.map (·.sequence) = List.range' (counter + 1) events.length) :
    (log.upsertAll events).rows = log.rows ++ events := by
  induction events generalizing log counter with
  | nil => exact (List.append_nil _).symm
  | cons event events ih =>
    rw [List.map_cons, List.length_cons, List.range'_succ, List.cons.injEq] at hnumbered
    obtain ⟨hfirst, hrest⟩ := hnumbered
    have hrows : (log.upsert event).rows = log.rows ++ [event] :=
      rows_upsert_of_lt (fun row hrow => by have := hbound row hrow; omega)
    have hbound' : ∀ row ∈ (log.upsert event).rows, row.sequence ≤ counter + 1 := by
      intro row hrow
      rw [hrows] at hrow
      rcases List.mem_append.mp hrow with hrow | hrow
      · exact Nat.le_succ_of_le (hbound row hrow)
      · obtain rfl := List.mem_singleton.mp hrow
        exact Nat.le_of_eq hfirst
    calc ((log.upsert event).upsertAll events).rows
        = (log.upsert event).rows ++ events := ih hbound' hrest
      _ = log.rows ++ event :: events := by rw [hrows, List.append_assoc]; rfl

end EventLog

/-! ## The message table -/

/-- **The message table**: both its keys are unique. -/
structure MessageTable where
  rows : List MessageRecord
  keys : rows.Pairwise (fun a b =>
    a.messageId ≠ b.messageId ∧ (a.interactionId, a.sequence) ≠ (b.interactionId, b.sequence))
  deriving DecidableEq

namespace MessageTable

/-- The table without rows. -/
def empty : MessageTable := ⟨[], List.Pairwise.nil⟩

/-- Whether another message holds the `(interaction_id, sequence)` of this one. -/
def Taken (table : MessageTable) (message : MessageRecord) : Prop :=
  ∃ row ∈ table.rows, row.messageId ≠ message.messageId
    ∧ (row.interactionId, row.sequence) = (message.interactionId, message.sequence)

instance (table : MessageTable) (message : MessageRecord) : Decidable (table.Taken message) :=
  inferInstanceAs (Decidable (∃ row ∈ table.rows, _))

/-- `_upsert` on the message table. The conflict clause names the primary key only, so a taken
`(interaction_id, sequence)` is an error. -/
def upsert (table : MessageTable) (message : MessageRecord) : Option MessageTable :=
  if h : table.Taken message then none
  else some
    { rows := table.rows.filter (fun row => decide (row.messageId ≠ message.messageId)) ++ [message]
      keys := by
        refine List.pairwise_append.mpr
          ⟨table.keys.filter _, List.pairwise_singleton _ _, fun row hrow m hm => ?_⟩
        obtain ⟨hmem, hid⟩ := List.mem_filter.mp hrow
        rw [List.mem_singleton.mp hm]
        have hne : row.messageId ≠ message.messageId := by simpa using hid
        exact ⟨hne, fun hkey => h ⟨row, hmem, hne, hkey⟩⟩ }

/-- Write the messages of a commit one after the other. -/
def upsertAll (table : MessageTable) : List MessageRecord → Option MessageTable
  | [] => some table
  | message :: messages => (table.upsert message).bind (fun t => t.upsertAll messages)

/-- **What an accepted upsert does to a table that does not hold the message yet**: it appends the
message and leaves every row as it is. -/
theorem rows_of_upsert {table table' : MessageTable} {message : MessageRecord}
    (hfresh : ∀ row ∈ table.rows, row.messageId ≠ message.messageId)
    (h : table.upsert message = some table') : table'.rows = table.rows ++ [message] := by
  unfold upsert at h
  split at h
  · cases h
  · cases h
    dsimp only
    rw [List.filter_eq_self.mpr (fun row hrow => by simpa using hfresh row hrow)]

/-- Messages with new identifiers are appended, if they are accepted at all. -/
theorem rows_of_upsertAll {table table' : MessageTable} {messages : List MessageRecord}
    (hfresh : ∀ row ∈ table.rows, ∀ m ∈ messages, row.messageId ≠ m.messageId)
    (hnodup : messages.Pairwise (fun a b => a.messageId ≠ b.messageId))
    (h : table.upsertAll messages = some table') : table'.rows = table.rows ++ messages := by
  induction messages generalizing table with
  | nil =>
    rw [upsertAll, Option.some.injEq] at h
    rw [← h, List.append_nil]
  | cons message messages ih =>
    obtain ⟨hhead, htail⟩ := List.pairwise_cons.mp hnodup
    obtain ⟨t, ht, hrest⟩ := Option.bind_eq_some_iff.mp h
    have hrows := rows_of_upsert (fun row hrow => hfresh row hrow message List.mem_cons_self) ht
    rw [ih (fun row hrow m hm => ?_) htail hrest, hrows, List.append_assoc]
    · rfl
    · rw [hrows] at hrow
      rcases List.mem_append.mp hrow with hrow | hrow
      · exact hfresh row hrow m (List.mem_cons_of_mem _ hm)
      · rw [List.mem_singleton.mp hrow]
        exact hhead m hm

/-- A message whose `(interaction_id, sequence)` no row holds is accepted. -/
theorem upsert_isSome {table : MessageTable} {message : MessageRecord}
    (h : ∀ row ∈ table.rows,
      (row.interactionId, row.sequence) ≠ (message.interactionId, message.sequence)) :
    (table.upsert message).isSome := by
  unfold upsert
  rw [dif_neg (fun ⟨row, hrow, _, hkey⟩ => h row hrow hkey)]
  rfl

end MessageTable

/-! ## The transactions -/

/-- **The atomic unit of a commit**: interaction state, messages, events and usage events. A commit
with `lifecycle := false` is informational: it moves the sequence watermark and the liveness
timestamp and never rewrites a lifecycle column. -/
structure InteractionCommit where
  interaction : InteractionRecord
  messages : List MessageRecord := []
  events : List SessionEvent := []
  usageEvents : List UsageEvent := []
  lifecycle : Bool := true
  deriving DecidableEq

/-- **The tables of one interaction**: its row, its messages, its events, and the metering archive
that is written after each business transaction. -/
structure InteractionStore where
  interaction : Option InteractionRecord
  messages : MessageTable
  events : EventLog
  usageEvents : List UsageEvent
  deriving DecidableEq

/-- `touch_interaction_run`: only the watermark and the liveness timestamp move. -/
def InteractionRecord.touch (row record : InteractionRecord) : InteractionRecord :=
  { row with lastEventSequence := record.lastEventSequence, updatedAt := record.updatedAt }

namespace InteractionStore

/-- The store before the interaction exists. -/
def empty : InteractionStore := ⟨none, .empty, .empty, []⟩

/-- The row a commit leaves: the whole record for a lifecycle commit, which is an unconditional
upsert, and the touched row otherwise. -/
def rowAfter (store : InteractionStore) (commit : InteractionCommit) : Option InteractionRecord :=
  if commit.lifecycle then some commit.interaction
  else store.interaction.map (fun row => row.touch commit.interaction)

/-- **The business transaction of a commit.** Messages and events reference the interaction row, and
a violated key rolls everything back. -/
def commit (store : InteractionStore) (commit : InteractionCommit) : Option InteractionStore :=
  if store.rowAfter commit = none ∧ (commit.messages ≠ [] ∨ commit.events ≠ []) then none
  else (store.messages.upsertAll commit.messages).map (fun messages =>
    { interaction := store.rowAfter commit
      messages := messages
      events := store.events.upsertAll commit.events
      usageEvents := store.usageEvents })

/-- `write_usage_events`: a separate transaction after the business one, idempotent on the event
id. -/
def writeUsageEvents (store : InteractionStore) (events : List UsageEvent) : InteractionStore :=
  { store with
    usageEvents := events.foldl (fun rows event =>
      if rows.any (fun row => decide (row.eventId = event.eventId)) then rows
      else rows ++ [event]) store.usageEvents }

/-- `claim_run`: the compare-and-set from `pending` to `running` that one caller can win. -/
def claimRun (store : InteractionStore) (now : Instant) :
    Option (InteractionRecord × InteractionStore) :=
  match store.interaction with
  | some row =>
    if row.status = .pending then
      let claimed := { row with status := .running, updatedAt := now }
      some (claimed, { store with interaction := some claimed })
    else none
  | none => none

/-- The row both recovery statements leave: failed, with the terminal event's sequence reserved. -/
def reapedRow (row : InteractionRecord) (category : String) (now : Instant) : InteractionRecord :=
  { row with
    status := .failed, state := .failed, errorCategory := some category, updatedAt := now
    completedAt := some now, lastEventSequence := row.lastEventSequence + 1 }

/-- `fail_stale_run` and its bulk variant: a `running` row whose liveness timestamp is old. -/
def failStaleRun (store : InteractionStore) (staleBefore now : Instant) (category : String) :
    Option (InteractionRecord × InteractionStore) :=
  match store.interaction with
  | some row =>
    if row.status = .running ∧ row.updatedAt < staleBefore then
      some (reapedRow row category now,
        { store with interaction := some (reapedRow row category now) })
    else none
  | none => none

/-- `fail_abandoned_runs`: a `pending` row that was created long ago. -/
def failAbandonedRun (store : InteractionStore) (abandonedBefore now : Instant)
    (category : String) : Option (InteractionRecord × InteractionStore) :=
  match store.interaction with
  | some row =>
    if row.status = .pending ∧ row.createdAt < abandonedBefore then
      some (reapedRow row category now,
        { store with interaction := some (reapedRow row category now) })
    else none
  | none => none

/-- `list_events`. -/
def listEvents (store : InteractionStore) (afterSequence : Nat) : List SessionEvent :=
  store.events.after afterSequence

/-! ## What each transaction can do -/

/-- **An accepted commit**, field by field. -/
theorem commit_eq_some {store store' : InteractionStore} {c : InteractionCommit}
    (h : store.commit c = some store') :
    store'.interaction = store.rowAfter c
      ∧ store.messages.upsertAll c.messages = some store'.messages
      ∧ store'.events = store.events.upsertAll c.events
      ∧ store'.usageEvents = store.usageEvents := by
  unfold commit at h
  split at h
  · cases h
  · obtain ⟨messages, hm, rfl⟩ := Option.map_eq_some_iff.mp h
    exact ⟨rfl, hm, rfl, rfl⟩

/-- **A won claim**: the row was pending, and it is the same row, running, now. -/
theorem claimRun_eq_some {store store' : InteractionStore} {now : Instant}
    {claimed : InteractionRecord} (h : store.claimRun now = some (claimed, store')) :
    ∃ row, store.interaction = some row ∧ row.status = .pending
      ∧ claimed = { row with status := .running, updatedAt := now }
      ∧ store' = { store with interaction := some claimed } := by
  unfold claimRun at h
  split at h
  · rename_i row hrow
    split at h
    · rename_i hp
      cases h
      exact ⟨row, hrow, hp, rfl, rfl⟩
    · cases h
  · cases h

/-- **A stale run that was failed**: the row was running and stale. -/
theorem failStaleRun_eq_some {store store' : InteractionStore} {staleBefore now : Instant}
    {category : String} {reaped : InteractionRecord}
    (h : store.failStaleRun staleBefore now category = some (reaped, store')) :
    ∃ row, store.interaction = some row ∧ row.status = .running ∧ row.updatedAt < staleBefore
      ∧ reaped = reapedRow row category now
      ∧ store' = { store with interaction := some reaped } := by
  unfold failStaleRun at h
  split at h
  · rename_i row hrow
    split at h
    · rename_i hr
      cases h
      exact ⟨row, hrow, hr.1, hr.2, rfl, rfl⟩
    · cases h
  · cases h

/-- **An abandoned run that was failed**: the row was pending and old. -/
theorem failAbandonedRun_eq_some {store store' : InteractionStore}
    {abandonedBefore now : Instant} {category : String} {reaped : InteractionRecord}
    (h : store.failAbandonedRun abandonedBefore now category = some (reaped, store')) :
    ∃ row, store.interaction = some row ∧ row.status = .pending
      ∧ row.createdAt < abandonedBefore ∧ reaped = reapedRow row category now
      ∧ store' = { store with interaction := some reaped } := by
  unfold failAbandonedRun at h
  split at h
  · rename_i row hrow
    split at h
    · rename_i hr
      cases h
      exact ⟨row, hrow, hr.1, hr.2, rfl, rfl⟩
    · cases h
  · cases h

@[simp] theorem writeUsageEvents_interaction (store : InteractionStore) (events : List UsageEvent) :
    (store.writeUsageEvents events).interaction = store.interaction := rfl

@[simp] theorem writeUsageEvents_messages (store : InteractionStore) (events : List UsageEvent) :
    (store.writeUsageEvents events).messages = store.messages := rfl

@[simp] theorem writeUsageEvents_events (store : InteractionStore) (events : List UsageEvent) :
    (store.writeUsageEvents events).events = store.events := rfl

end InteractionStore
