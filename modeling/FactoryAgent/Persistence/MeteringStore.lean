import Mathlib.Data.List.Dedup
import FactoryAgent.Lib.Except
import FactoryAgent.Lib.IsoDateTime
import FactoryAgent.Lib.KeyedTable

/-!
# The metering store

`SqlMeteringStore` of `persistence/metering.py`: the archive `usage_event` and the tables `interaction_fact`,
`llm_call_fact` and `mes_call_fact` that are derived from it. A batch of events is written in one transaction.
Each event is archived and, by its type, leaves a fact: its values are coerced on the way, and a coercion that
raises fails the write, as does a statement that the database refuses. A batch that fails is rolled back and
reported, and the caller never sees the failure.

The archive is keyed by `(event_id, occurred_at)` and a fact by `event_id`; every insert is
`ON CONFLICT DO NOTHING`. The identifier of an event is drawn when its envelope is built and stands for the
event, so no other event has it.
-/

namespace MeteringStore

/-- **A value of a payload**, as the coercions read it. A float is its text and its integer part, which a NaN
and the infinities lack; any other object is its text. -/
inductive PayloadValue where
  | none
  | bool (value : Bool)
  | int (value : Int)
  | float (text : String) (truncated : Option Int)
  | str (value : String)
  | datetime (value : DateTime) (text : String)
  | other (text : String)
  deriving DecidableEq, Repr

/-- A `UsageEvent` of `ports/session.py`, with the values of its payload. -/
structure MeteredEvent where
  eventId : String
  eventType : String
  tenantId : String
  payload : List (String × PayloadValue)
  createdAt : DateTime
  deriving DecidableEq, Repr

/-- **Why a write fails**: a coercion raises, or the database refuses a statement. -/
inductive WriteError where
  | valueError
  | overflowError
  | database (message : String)
  deriving DecidableEq, Repr

/-! ## Coercions -/

/-- `payload.get(name)` -/
def MeteredEvent.get (event : MeteredEvent) (name : String) : PayloadValue :=
  (event.payload.lookup name).getD .none

/-- `str(value)` -/
def pyStr : PayloadValue → String
  | .none => "None"
  | .bool value => if value then "True" else "False"
  | .int value => toString value
  | .float text _ => text
  | .str value => value
  | .datetime _ text => text
  | .other text => text

/-- `_nullable`: at most 64 characters; nothing for an absent value or an empty text. -/
def nullable (value : PayloadValue) : Option String :=
  if value = .none ∨ pyStr value = "" then none else some (Text.prefixOf 64 (pyStr value))

/-- `int(value)` of a float. -/
def floatToInt (text : String) (truncated : Option Int) : Except WriteError Int :=
  match truncated with
  | some value => .ok value
  | none => .error (if text = "nan" then .valueError else .overflowError)

/-- `_nullable_int`. A boolean is an integer. -/
def nullableInt : PayloadValue → Except WriteError (Option Int)
  | .bool value => .ok (some value.toNat)
  | .int value => .ok (some value)
  | .float text truncated => (floatToInt text truncated).map some
  | _ => .ok none

/-- `_nullable_dt`: what cannot be read is nothing. -/
def nullableDt : PayloadValue → Option DateTime
  | .str value => DateTime.fromisoformat value
  | .datetime value _ => some value
  | _ => none

/-- `_int`: zero for what is no number and no text, and for an empty text. -/
def pyInt : PayloadValue → Except WriteError Int
  | .bool value => .ok value.toNat
  | .int value => .ok value
  | .float text truncated => floatToInt text truncated
  | .str value =>
    if value = "" then .ok 0
    else match Text.int? value with
      | some n => .ok n
      | none => .error .valueError
  | _ => .ok 0

/-! ## Rows -/

/-- A row of `usage_event`. -/
structure UsageEventRow where
  eventId : String
  schemaVersion : String
  eventType : String
  tenantId : String
  occurredAt : DateTime
  receivedAt : DateTime
  userSubjectId : String
  sessionId : String
  interactionId : String
  traceId : String
  payload : List (String × PayloadValue)
  deriving DecidableEq, Repr

/-- A row of `interaction_fact`. -/
structure InteractionFactRow where
  eventId : String
  tenantId : String
  sessionId : String
  interactionId : String
  eventType : String
  userSubjectId : String
  occurredAt : DateTime
  capabilityId : Option String
  entrypoint : Option String
  roleCategory : Option String
  status : Option String
  durationMs : Option Int
  mesDurationMs : Option Int
  llmDurationMs : Option Int
  localDurationMs : Option Int
  resultRowsBucket : Option String
  errorCategory : Option String
  receivedAt : DateTime
  deriving DecidableEq, Repr

/-- A row of `llm_call_fact`; the user pseudonym is not among its columns. -/
structure LlmCallFactRow where
  eventId : String
  tenantId : String
  sessionId : String
  interactionId : String
  occurredAt : DateTime
  logicalCallId : String
  stage : String
  modelAlias : String
  actualModel : String
  attempt : Int
  promptTokens : Int
  completionTokens : Int
  cachedTokens : Int
  reasoningTokens : Int
  durationMs : Int
  status : String
  fallbackReason : Option String
  errorCategory : Option String
  startedAt : Option DateTime
  endedAt : Option DateTime
  parentSpanId : Option String
  receivedAt : DateTime
  deriving DecidableEq, Repr

/-- A row of `mes_call_fact`; the user pseudonym is not among its columns. -/
structure MesCallFactRow where
  eventId : String
  tenantId : String
  sessionId : String
  interactionId : String
  occurredAt : DateTime
  operationId : String
  pageCount : Int
  rowCountBucket : String
  durationMs : Int
  status : String
  errorCategory : Option String
  startedAt : Option DateTime
  endedAt : Option DateTime
  parentSpanId : Option String
  receivedAt : DateTime
  deriving DecidableEq, Repr

/-- The archive row of an event. -/
def usageEventRow (event : MeteredEvent) : UsageEventRow where
  eventId := event.eventId
  schemaVersion := pyStr (event.get "schema_version")
  eventType := event.eventType
  tenantId := event.tenantId
  occurredAt := event.createdAt
  receivedAt := event.createdAt
  userSubjectId := pyStr (event.get "user_subject_id")
  sessionId := pyStr (event.get "session_id")
  interactionId := pyStr (event.get "interaction_id")
  traceId := pyStr (event.get "trace_id")
  payload := event.payload

/-- The fact of an interaction event. -/
def interactionFactRow (event : MeteredEvent) : Except WriteError InteractionFactRow := do
  let durationMs ← nullableInt (event.get "duration_ms")
  let mesDurationMs ← nullableInt (event.get "mes_duration_ms")
  let llmDurationMs ← nullableInt (event.get "llm_duration_ms")
  let localDurationMs ← nullableInt (event.get "local_duration_ms")
  return {
    eventId := event.eventId
    tenantId := event.tenantId
    sessionId := pyStr (event.get "session_id")
    interactionId := pyStr (event.get "interaction_id")
    eventType := event.eventType
    userSubjectId := pyStr (event.get "user_subject_id")
    occurredAt := event.createdAt
    capabilityId := nullable (event.get "capability")
    entrypoint := nullable (event.get "entrypoint")
    roleCategory := nullable (event.get "role_category")
    status := nullable (event.get "status")
    durationMs, mesDurationMs, llmDurationMs, localDurationMs
    resultRowsBucket := nullable (event.get "result_rows_bucket")
    errorCategory := nullable (event.get "error_category")
    receivedAt := event.createdAt }

/-- The fact of a model call. An attempt that is absent or zero is the first. -/
def llmCallFactRow (event : MeteredEvent) : Except WriteError LlmCallFactRow := do
  let attempt ← pyInt (event.get "attempt")
  let promptTokens ← pyInt (event.get "prompt_tokens")
  let completionTokens ← pyInt (event.get "completion_tokens")
  let cachedTokens ← pyInt (event.get "cached_tokens")
  let reasoningTokens ← pyInt (event.get "reasoning_tokens")
  let durationMs ← pyInt (event.get "duration_ms")
  return {
    eventId := event.eventId
    tenantId := event.tenantId
    sessionId := pyStr (event.get "session_id")
    interactionId := pyStr (event.get "interaction_id")
    occurredAt := event.createdAt
    logicalCallId := pyStr (event.get "logical_call_id")
    stage := pyStr (event.get "stage")
    modelAlias := pyStr (event.get "model_alias")
    actualModel := pyStr (event.get "actual_model")
    attempt := if attempt = 0 then 1 else attempt
    promptTokens, completionTokens, cachedTokens, reasoningTokens, durationMs
    status := pyStr (event.get "status")
    fallbackReason := nullable (event.get "fallback_reason")
    errorCategory := nullable (event.get "error_category")
    startedAt := nullableDt (event.get "started_at")
    endedAt := nullableDt (event.get "ended_at")
    parentSpanId := nullable (event.get "parent_span_id")
    receivedAt := event.createdAt }

/-- The fact of a MES call. -/
def mesCallFactRow (event : MeteredEvent) : Except WriteError MesCallFactRow := do
  let pageCount ← pyInt (event.get "page_count")
  let durationMs ← pyInt (event.get "duration_ms")
  return {
    eventId := event.eventId
    tenantId := event.tenantId
    sessionId := pyStr (event.get "session_id")
    interactionId := pyStr (event.get "interaction_id")
    occurredAt := event.createdAt
    operationId := pyStr (event.get "operation_id")
    pageCount
    rowCountBucket := pyStr (event.get "row_count_bucket")
    durationMs
    status := pyStr (event.get "status")
    errorCategory := nullable (event.get "error_category")
    startedAt := nullableDt (event.get "started_at")
    endedAt := nullableDt (event.get "ended_at")
    parentSpanId := nullable (event.get "parent_span_id")
    receivedAt := event.createdAt }

/-! ## Writing -/

/-- `_INTERACTION_EVENT_TYPES` -/
def interactionEventTypes : List String :=
  ["interaction_started", "interaction_routed", "interaction_completed"]

/-- `_LLM_EVENT_TYPES` -/
def llmEventTypes : List String := ["llm_call_completed"]

/-- `_MES_EVENT_TYPES` -/
def mesEventTypes : List String := ["mes_call_completed"]

/-- The key of the archive, `(event_id, occurred_at)`. -/
def UsageEventRow.key (row : UsageEventRow) : String × Int :=
  (row.eventId, row.occurredAt.instant)

/-- **The metering tables**, each with its primary key. -/
structure MeteringTables where
  usageEvent : KeyedTable UsageEventRow.key
  interactionFact : KeyedTable InteractionFactRow.eventId
  llmCallFact : KeyedTable LlmCallFactRow.eventId
  mesCallFact : KeyedTable MesCallFactRow.eventId

/-- The tables without rows. -/
def MeteringTables.empty : MeteringTables := ⟨.empty, .empty, .empty, .empty⟩

/-- A connection in a transaction: how many statements it has executed, and what it sees. -/
structure Connection where
  statements : Nat
  tables : MeteringTables

/-- `connection.execute`: the database may refuse the statement, for whatever reason it has at that point of
the transaction. -/
def Connection.execute (faults : Nat → Option WriteError) (connection : Connection)
    (statement : MeteringTables → MeteringTables) : Except WriteError Connection :=
  match faults connection.statements with
  | some fault => .error fault
  | none => .ok ⟨connection.statements + 1, statement connection.tables⟩

/-- **`_write_event`**: the archive row, and the fact that the type of the event calls for. -/
def writeEvent (faults : Nat → Option WriteError) (connection : Connection) (event : MeteredEvent) :
    Except WriteError Connection := do
  let connection ← connection.execute faults fun tables =>
    { tables with usageEvent := tables.usageEvent.insertIgnore (usageEventRow event) }
  if event.eventType ∈ interactionEventTypes then
    let row ← interactionFactRow event
    connection.execute faults fun tables =>
      { tables with interactionFact := tables.interactionFact.insertIgnore row }
  else if event.eventType ∈ llmEventTypes then
    let row ← llmCallFactRow event
    connection.execute faults fun tables =>
      { tables with llmCallFact := tables.llmCallFact.insertIgnore row }
  else if event.eventType ∈ mesEventTypes then
    let row ← mesCallFactRow event
    connection.execute faults fun tables =>
      { tables with mesCallFact := tables.mesCallFact.insertIgnore row }
  else return connection

/-- **`write_usage_events`**: the batch is one transaction. What fails is rolled back and reported, and nothing
is raised. -/
def writeUsageEvents (faults : Nat → Option WriteError) (tables : MeteringTables)
    (events : List MeteredEvent) : MeteringTables × Option WriteError :=
  if events = [] then (tables, none)
  else
    match events.foldlM (writeEvent faults) ⟨0, tables⟩ with
    | .ok connection => (connection.tables, none)
    | .error failure => (tables, some failure)

/-- A batch that is delivered, and what the database refuses meanwhile. -/
structure Delivery where
  events : List MeteredEvent
  faults : Nat → Option WriteError

/-- **Deliveries one after the other**: the tables they leave and the failures that are reported. -/
def deliver (tables : MeteringTables) : List Delivery → MeteringTables × List WriteError
  | [] => (tables, [])
  | delivery :: deliveries =>
    let (tables, failure) := writeUsageEvents delivery.faults tables delivery.events
    let (tables, failures) := deliver tables deliveries
    (tables, failure.toList ++ failures)

/-! ## What a write leaves -/

/-- The fact of an interaction, where the event leaves one. -/
def interactionFact? (event : MeteredEvent) : Option InteractionFactRow :=
  if event.eventType ∈ interactionEventTypes then (interactionFactRow event).toOption else none

/-- The fact of a model call, where the event leaves one. -/
def llmCallFact? (event : MeteredEvent) : Option LlmCallFactRow :=
  if event.eventType ∈ llmEventTypes then (llmCallFactRow event).toOption else none

/-- The fact of a MES call, where the event leaves one. -/
def mesCallFact? (event : MeteredEvent) : Option MesCallFactRow :=
  if event.eventType ∈ mesEventTypes then (mesCallFactRow event).toOption else none

/-- **The tables with what events leave** in each of them. -/
def MeteringTables.record (tables : MeteringTables) (events : List MeteredEvent) : MeteringTables where
  usageEvent := tables.usageEvent.insertAll (events.flatMap fun e => (some (usageEventRow e)).toList)
  interactionFact := tables.interactionFact.insertAll (events.flatMap fun e => (interactionFact? e).toList)
  llmCallFact := tables.llmCallFact.insertAll (events.flatMap fun e => (llmCallFact? e).toList)
  mesCallFact := tables.mesCallFact.insertAll (events.flatMap fun e => (mesCallFact? e).toList)

/-- **Every value of the event can be coerced** to its column. -/
def Coercible (event : MeteredEvent) : Prop :=
  (event.eventType ∈ interactionEventTypes → (interactionFactRow event).isOk)
    ∧ (event.eventType ∈ llmEventTypes → (llmCallFactRow event).isOk)
    ∧ (event.eventType ∈ mesEventTypes → (mesCallFactRow event).isOk)

/-- Recording one event. -/
theorem MeteringTables.record_singleton (tables : MeteringTables) (event : MeteredEvent) :
    tables.record [event] =
      { usageEvent := tables.usageEvent.insertIgnore (usageEventRow event)
        interactionFact := tables.interactionFact.insertAll (interactionFact? event).toList
        llmCallFact := tables.llmCallFact.insertAll (llmCallFact? event).toList
        mesCallFact := tables.mesCallFact.insertAll (mesCallFact? event).toList } := by
  simp only [record, List.flatMap_cons, List.flatMap_nil, List.append_nil]
  rfl

/-- Recording one event after another. -/
theorem MeteringTables.record_append (tables : MeteringTables) (events events' : List MeteredEvent) :
    tables.record (events ++ events') = (tables.record events).record events' := by
  simp only [record, List.flatMap_append, KeyedTable.insertAll_append]

/-- A type of event leaves one type of fact. -/
theorem eventTypes_disjoint {eventType : String} :
    (eventType ∈ interactionEventTypes → eventType ∉ llmEventTypes ∧ eventType ∉ mesEventTypes)
      ∧ (eventType ∈ llmEventTypes → eventType ∉ interactionEventTypes ∧ eventType ∉ mesEventTypes)
      ∧ (eventType ∈ mesEventTypes → eventType ∉ interactionEventTypes ∧ eventType ∉ llmEventTypes) := by
  have hinteraction : ∀ t ∈ interactionEventTypes, t ∉ llmEventTypes ∧ t ∉ mesEventTypes := by decide
  have hllm : ∀ t ∈ llmEventTypes, t ∉ interactionEventTypes ∧ t ∉ mesEventTypes := by decide
  have hmes : ∀ t ∈ mesEventTypes, t ∉ interactionEventTypes ∧ t ∉ llmEventTypes := by decide
  exact ⟨hinteraction eventType, hllm eventType, hmes eventType⟩

/-- What a statement that succeeds does. -/
theorem Connection.execute_eq_ok {faults : Nat → Option WriteError} {connection connection' : Connection}
    {statement : MeteringTables → MeteringTables}
    (h : connection.execute faults statement = .ok connection') :
    connection'.tables = statement connection.tables := by
  unfold execute at h
  split at h
  · cases h
  · cases h
    rfl

/-- **What a write that succeeds does**: the event is recorded. -/
theorem writeEvent_eq_ok {faults : Nat → Option WriteError} {connection connection' : Connection}
    {event : MeteredEvent} (h : writeEvent faults connection event = .ok connection') :
    connection'.tables = connection.tables.record [event] ∧ Coercible event := by
  obtain ⟨archived, harchived, hfact⟩ := Except.bind_eq_ok.mp h
  have harchive := Connection.execute_eq_ok harchived
  obtain ⟨hinteraction, hllm, hmes⟩ := @eventTypes_disjoint event.eventType
  rw [MeteringTables.record_singleton]
  by_cases htype : event.eventType ∈ interactionEventTypes
  · obtain ⟨hllm, hmes⟩ := hinteraction htype
    rw [if_pos htype] at hfact
    obtain ⟨row, hrow, hinsert⟩ := Except.bind_eq_ok.mp hfact
    refine ⟨?_, fun _ => by rw [hrow]; rfl, fun h => absurd h hllm, fun h => absurd h hmes⟩
    rw [Connection.execute_eq_ok hinsert, harchive, interactionFact?, if_pos htype, llmCallFact?,
      if_neg hllm, mesCallFact?, if_neg hmes, hrow]
    rfl
  rw [if_neg htype] at hfact
  by_cases htype' : event.eventType ∈ llmEventTypes
  · obtain ⟨-, hmes⟩ := hllm htype'
    rw [if_pos htype'] at hfact
    obtain ⟨row, hrow, hinsert⟩ := Except.bind_eq_ok.mp hfact
    refine ⟨?_, fun h => absurd h htype, fun _ => by rw [hrow]; rfl, fun h => absurd h hmes⟩
    rw [Connection.execute_eq_ok hinsert, harchive, interactionFact?, if_neg htype, llmCallFact?,
      if_pos htype', mesCallFact?, if_neg hmes, hrow]
    rfl
  rw [if_neg htype'] at hfact
  by_cases htype'' : event.eventType ∈ mesEventTypes
  · rw [if_pos htype''] at hfact
    obtain ⟨row, hrow, hinsert⟩ := Except.bind_eq_ok.mp hfact
    refine ⟨?_, fun h => absurd h htype, fun h => absurd h htype', fun _ => by rw [hrow]; rfl⟩
    rw [Connection.execute_eq_ok hinsert, harchive, interactionFact?, if_neg htype, llmCallFact?,
      if_neg htype', mesCallFact?, if_pos htype'', hrow]
    rfl
  · rw [if_neg htype''] at hfact
    cases hfact
    refine ⟨?_, fun h => absurd h htype, fun h => absurd h htype', fun h => absurd h htype''⟩
    rw [harchive, interactionFact?, if_neg htype, llmCallFact?, if_neg htype', mesCallFact?,
      if_neg htype'']
    rfl

/-- **A transaction that succeeds** records its events, and all of them can be coerced. -/
theorem foldlM_writeEvent_eq_ok {faults : Nat → Option WriteError} {events : List MeteredEvent}
    {connection connection' : Connection}
    (h : events.foldlM (writeEvent faults) connection = .ok connection') :
    connection'.tables = connection.tables.record events ∧ ∀ event ∈ events, Coercible event := by
  induction events generalizing connection with
  | nil =>
    cases h
    exact ⟨rfl, fun event hevent => absurd hevent List.not_mem_nil⟩
  | cons event events ih =>
    rw [List.foldlM_cons] at h
    obtain ⟨written, hwritten, hrest⟩ := Except.bind_eq_ok.mp h
    obtain ⟨htables, hcoercible⟩ := writeEvent_eq_ok hwritten
    obtain ⟨hrecorded, hall⟩ := ih hrest
    refine ⟨?_, List.forall_mem_cons.mpr ⟨hcoercible, hall⟩⟩
    rw [hrecorded, htables, ← MeteringTables.record_append]
    rfl

/-- A coercible event is written where the database refuses nothing. -/
theorem writeEvent_isOk {connection : Connection} {event : MeteredEvent} (h : Coercible event) :
    (writeEvent (fun _ => none) connection event).isOk := by
  obtain ⟨hinteraction, hllm, hmes⟩ := h
  show (ite _ _ _ : Except WriteError Connection).isOk = true
  by_cases htype : event.eventType ∈ interactionEventTypes
  · obtain ⟨row, hrow⟩ := Except.exists_eq_ok_of_isOk (hinteraction htype)
    rw [if_pos htype, hrow]
    rfl
  rw [if_neg htype]
  by_cases htype' : event.eventType ∈ llmEventTypes
  · obtain ⟨row, hrow⟩ := Except.exists_eq_ok_of_isOk (hllm htype')
    rw [if_pos htype', hrow]
    rfl
  rw [if_neg htype']
  by_cases htype'' : event.eventType ∈ mesEventTypes
  · obtain ⟨row, hrow⟩ := Except.exists_eq_ok_of_isOk (hmes htype'')
    rw [if_pos htype'', hrow]
    rfl
  · rw [if_neg htype'']
    rfl

/-- **Coercible events are written** where the database refuses nothing. -/
theorem exists_foldlM_writeEvent {events : List MeteredEvent} (h : ∀ event ∈ events, Coercible event)
    (connection : Connection) :
    ∃ connection', events.foldlM (writeEvent fun _ => none) connection = .ok connection' := by
  induction events generalizing connection with
  | nil => exact ⟨connection, rfl⟩
  | cons event events ih =>
    obtain ⟨hevent, hevents⟩ := List.forall_mem_cons.mp h
    obtain ⟨written, hwritten⟩ := Except.exists_eq_ok_of_isOk (@writeEvent_isOk connection event hevent)
    obtain ⟨connection', hrest⟩ := ih hevents written
    refine ⟨connection', ?_⟩
    rw [List.foldlM_cons, hwritten]
    exact hrest

/-- What a batch that does not fail leaves. -/
theorem writeUsageEvents_eq_none {faults : Nat → Option WriteError} {tables : MeteringTables}
    {events : List MeteredEvent} (h : (writeUsageEvents faults tables events).2 = none) :
    (writeUsageEvents faults tables events).1 = tables.record events
      ∧ ∀ event ∈ events, Coercible event := by
  unfold writeUsageEvents at h ⊢
  by_cases hnil : events = []
  · rw [if_pos hnil, hnil]
    exact ⟨rfl, fun event hevent => absurd hevent List.not_mem_nil⟩
  · rw [if_neg hnil] at h ⊢
    cases hrun : events.foldlM (writeEvent faults) ⟨0, tables⟩ with
    | error failure =>
      rw [hrun] at h
      cases h
    | ok connection => exact foldlM_writeEvent_eq_ok hrun

/-- **What deliveries leave** that do not fail: all their events are recorded. -/
theorem deliver_eq_nil {tables : MeteringTables} {deliveries : List Delivery}
    (h : (deliver tables deliveries).2 = []) :
    (deliver tables deliveries).1 = tables.record (deliveries.flatMap (·.events))
      ∧ ∀ event ∈ deliveries.flatMap (·.events), Coercible event := by
  induction deliveries generalizing tables with
  | nil => exact ⟨rfl, fun event hevent => absurd hevent List.not_mem_nil⟩
  | cons delivery deliveries ih =>
    obtain ⟨hfirst, hrest⟩ := List.append_eq_nil_iff.mp h
    obtain ⟨htables, hcoercible⟩ := writeUsageEvents_eq_none (Option.toList_eq_nil_iff.mp hfirst)
    obtain ⟨hrecorded, hall⟩ := ih hrest
    refine ⟨?_, fun event hevent => ?_⟩
    · rw [List.flatMap_cons, MeteringTables.record_append, ← htables]
      exact hrecorded
    · rw [List.flatMap_cons] at hevent
      exact (List.mem_append.mp hevent).elim (hcoercible event) (hall event)

/-- A batch of coercible events is delivered without a failure where the database refuses nothing. -/
theorem deliver_of_coercible {events : List MeteredEvent} (h : ∀ event ∈ events, Coercible event)
    (tables : MeteringTables) : (deliver tables [⟨events, fun _ => none⟩]).2 = [] := by
  obtain ⟨connection, hrun⟩ := exists_foldlM_writeEvent h ⟨0, tables⟩
  have hnone : (writeUsageEvents (fun _ => none) tables events).2 = none := by
    unfold writeUsageEvents
    by_cases hnil : events = []
    · rw [if_pos hnil]
    · rw [if_neg hnil, hrun]
  show (writeUsageEvents (fun _ => none) tables events).2.toList ++ [] = []
  rw [hnone]
  rfl

/-! ## Neither order nor repetition counts -/

/-- **The tables hold the same rows.** -/
structure MeteringTables.Same (tables tables' : MeteringTables) : Prop where
  usageEvent : tables.usageEvent.Same tables'.usageEvent
  interactionFact : tables.interactionFact.Same tables'.interactionFact
  llmCallFact : tables.llmCallFact.Same tables'.llmCallFact
  mesCallFact : tables.mesCallFact.Same tables'.mesCallFact

/-- **An identifier stands for its event**: no two different events have it. -/
def Identified (events : List MeteredEvent) : Prop :=
  ∀ event ∈ events, ∀ other ∈ events, event.eventId = other.eventId → event = other

/-- What is there was computed without an error. -/
theorem eq_ok_of_toOption {α : Type} {p : Prop} [Decidable p] {x : Except WriteError α} {a : α}
    (h : (if p then x.toOption else none) = some a) : x = .ok a := by
  by_cases hp : p
  · rw [if_pos hp] at h
    cases x with
    | error e => cases h
    | ok b => exact congrArg Except.ok (Option.some.inj h)
  · rw [if_neg hp] at h
    cases h

/-- The fact of an interaction has the identifier of its event. -/
theorem eventId_of_interactionFact? (event : MeteredEvent) (row : InteractionFactRow)
    (h : interactionFact? event = some row) : row.eventId = event.eventId := by
  have hrow := eq_ok_of_toOption h
  obtain ⟨durationMs, -, hrow⟩ := Except.bind_eq_ok.mp hrow
  obtain ⟨mesDurationMs, -, hrow⟩ := Except.bind_eq_ok.mp hrow
  obtain ⟨llmDurationMs, -, hrow⟩ := Except.bind_eq_ok.mp hrow
  obtain ⟨localDurationMs, -, hrow⟩ := Except.bind_eq_ok.mp hrow
  cases hrow
  rfl

/-- The fact of a model call has the identifier of its event. -/
theorem eventId_of_llmCallFact? (event : MeteredEvent) (row : LlmCallFactRow)
    (h : llmCallFact? event = some row) : row.eventId = event.eventId := by
  have hrow := eq_ok_of_toOption h
  obtain ⟨attempt, -, hrow⟩ := Except.bind_eq_ok.mp hrow
  obtain ⟨promptTokens, -, hrow⟩ := Except.bind_eq_ok.mp hrow
  obtain ⟨completionTokens, -, hrow⟩ := Except.bind_eq_ok.mp hrow
  obtain ⟨cachedTokens, -, hrow⟩ := Except.bind_eq_ok.mp hrow
  obtain ⟨reasoningTokens, -, hrow⟩ := Except.bind_eq_ok.mp hrow
  obtain ⟨durationMs, -, hrow⟩ := Except.bind_eq_ok.mp hrow
  cases hrow
  rfl

/-- The fact of a MES call has the identifier of its event. -/
theorem eventId_of_mesCallFact? (event : MeteredEvent) (row : MesCallFactRow)
    (h : mesCallFact? event = some row) : row.eventId = event.eventId := by
  have hrow := eq_ok_of_toOption h
  obtain ⟨pageCount, -, hrow⟩ := Except.bind_eq_ok.mp hrow
  obtain ⟨durationMs, -, hrow⟩ := Except.bind_eq_ok.mp hrow
  cases hrow
  rfl

/-- **Recording the same events** leaves the same tables. -/
theorem MeteringTables.record_same {events events' : List MeteredEvent} (hidentified : Identified events)
    (hmem : ∀ event, event ∈ events ↔ event ∈ events') (tables : MeteringTables) :
    (tables.record events).Same (tables.record events') := by
  have hrows : ∀ {ρ : Type} (rowOf : MeteredEvent → Option ρ) (row : ρ),
      row ∈ events.flatMap (fun e => (rowOf e).toList)
        ↔ row ∈ events'.flatMap fun e => (rowOf e).toList := by
    intro ρ rowOf row
    simp only [List.mem_flatMap, hmem]
  exact
    { usageEvent := KeyedTable.insertAll_same
        (KeyedTable.consistent_flatMap Prod.fst (fun event row h => by cases h; rfl) hidentified)
        (hrows fun e => some (usageEventRow e)) tables.usageEvent
      interactionFact := KeyedTable.insertAll_same
        (KeyedTable.consistent_flatMap id eventId_of_interactionFact? hidentified)
        (hrows interactionFact?) tables.interactionFact
      llmCallFact := KeyedTable.insertAll_same
        (KeyedTable.consistent_flatMap id eventId_of_llmCallFact? hidentified)
        (hrows llmCallFact?) tables.llmCallFact
      mesCallFact := KeyedTable.insertAll_same
        (KeyedTable.consistent_flatMap id eventId_of_mesCallFact? hidentified)
        (hrows mesCallFact?) tables.mesCallFact }

/-- **Metering is idempotent and atomic.** However events are ordered, grouped into batches and delivered
again, the tables hold what they hold when every distinct event is delivered once, as long as no write fails;
and a batch in which the write of one event fails leaves the tables as they were. -/
theorem deliver_idempotent_atomic :
    (∀ (tables : MeteringTables) (events : List MeteredEvent) (deliveries : List Delivery),
      Identified events → (∀ event, event ∈ deliveries.flatMap (·.events) ↔ event ∈ events) →
      (deliver tables deliveries).2 = [] →
        (deliver tables [⟨events.dedup, fun _ => none⟩]).2 = []
        ∧ (deliver tables deliveries).1.Same (deliver tables [⟨events.dedup, fun _ => none⟩]).1)
    ∧ ∀ (tables : MeteringTables) (faults : Nat → Option WriteError) (before after : List MeteredEvent)
        (event : MeteredEvent) (connection : Connection) (failure : WriteError),
        before.foldlM (writeEvent faults) ⟨0, tables⟩ = .ok connection →
        writeEvent faults connection event = .error failure →
          writeUsageEvents faults tables (before ++ event :: after) = (tables, some failure) := by
  constructor
  · intro tables events deliveries hidentified hmem hdelivered
    obtain ⟨hrecorded, hcoercible⟩ := deliver_eq_nil hdelivered
    have hall : ∀ event ∈ events.dedup, Coercible event := fun event hevent =>
      hcoercible event ((hmem event).mpr (List.mem_dedup.mp hevent))
    have hsilent := deliver_of_coercible hall tables
    refine ⟨hsilent, ?_⟩
    rw [hrecorded, (deliver_eq_nil hsilent).1]
    refine MeteringTables.record_same (fun e he e' he' => ?_) (fun event => ?_) tables
    · exact hidentified e ((hmem e).mp he) e' ((hmem e').mp he')
    · rw [hmem, List.flatMap_cons, List.flatMap_nil, List.append_nil, List.mem_dedup]
  · intro tables faults before after event connection failure hbefore hfailure
    have hrun : (before ++ event :: after).foldlM (writeEvent faults) ⟨0, tables⟩ = .error failure := by
      rw [List.foldlM_append, hbefore]
      show (List.foldlM _ _ _) = _
      rw [List.foldlM_cons, hfailure]
      rfl
    rw [writeUsageEvents, if_neg (by simp), hrun]

/-- A model call; its attempt may be one that cannot be coerced. -/
def llmCall (eventId : String) (attempt : PayloadValue) : MeteredEvent where
  eventId := eventId
  eventType := "llm_call_completed"
  tenantId := "t1"
  payload := [("session_id", .str "s1"), ("attempt", attempt), ("duration_ms", .int 120)]
  createdAt := ⟨⟨2026, 9, 15, 8, 15, 0, 250000, some 0⟩, by decide⟩

/-- **Two model calls, one of them delivered again in another batch**, and a batch in which the attempt of a
call is no number. -/
theorem deliver_idempotent_atomic_llmCalls :
    (deliver .empty [⟨[llmCall "e2" (.int 2)], fun _ => none⟩,
        ⟨[llmCall "e1" .none, llmCall "e2" (.int 2)], fun _ => none⟩]).1.Same
      (deliver .empty [⟨[llmCall "e1" .none, llmCall "e2" (.int 2)].dedup, fun _ => none⟩]).1
    ∧ writeUsageEvents (fun _ => none) .empty [llmCall "e1" .none, llmCall "e2" (.str "two")]
      = (.empty, some .valueError) := by
  have hidentified : Identified [llmCall "e1" .none, llmCall "e2" (.int 2)] := by
    unfold Identified
    decide +kernel
  have hmem : ∀ event, event ∈ ([⟨[llmCall "e2" (.int 2)], fun _ => none⟩,
      ⟨[llmCall "e1" .none, llmCall "e2" (.int 2)], fun _ => none⟩] : List Delivery).flatMap (·.events)
        ↔ event ∈ [llmCall "e1" .none, llmCall "e2" (.int 2)] := by
    intro event
    simp only [List.flatMap_cons, List.flatMap_nil, List.append_nil, List.mem_append, List.mem_cons,
      List.not_mem_nil, or_false]
    tauto
  obtain ⟨hidempotent, hatomic⟩ := deliver_idempotent_atomic
  refine ⟨(hidempotent .empty _ _ hidentified hmem (by decide +kernel)).2, ?_⟩
  exact hatomic .empty _ [llmCall "e1" .none] [] (llmCall "e2" (.str "two")) _ .valueError rfl rfl

end MeteringStore
