import FactoryAgent.Domain.Session

/-!
# Usage events

The construction of metering events in `application/usage.py`. An event carries whitelisted fields
only: the identifiers of its interaction, and what its type adds to them. `eventId` is the
idempotency key under which the metering tables store it.

A digest is represented by the text it is taken of, a uuid by the token that the id source issued.
-/

/-- The event types of `application/usage.py`. -/
inductive UsageEventType where
  | interactionStarted
  | interactionRouted
  | interactionCompleted
  | llmCallCompleted
  | mesCallCompleted
  deriving DecidableEq, Repr

namespace UsageEventType

/-- The stored spelling of an event type. -/
def value : UsageEventType → String
  | interactionStarted => "interaction_started"
  | interactionRouted => "interaction_routed"
  | interactionCompleted => "interaction_completed"
  | llmCallCompleted => "llm_call_completed"
  | mesCallCompleted => "mes_call_completed"

end UsageEventType

/-- One metering event. -/
structure UsageEvent where
  eventId : Nat
  eventType : UsageEventType
  tenantId : String
  payload : Payload
  createdAt : Instant
  deriving DecidableEq, Repr

/-- The stable identifiers shared by every event of one interaction. -/
structure UsageContext where
  tenantId : String
  userId : String
  sessionId : String
  interactionId : String
  traceId : Nat
  deriving DecidableEq, Repr

/-- `pseudonymous_subject`, as the text the digest is taken of. -/
def pseudonymousSubject (tenantId userId : String) : String :=
  tenantId ++ "\x1f" ++ userId

namespace UsageContext

/-- The entries every event of the interaction carries. -/
def envelope (context : UsageContext) (eventType : UsageEventType) (occurredAt : Instant) :
    Payload :=
  [("schema_version", .text "1.0"),
   ("occurred_at", .number occurredAt),
   ("tenant_id", .text context.tenantId),
   ("user_subject_id", .text (pseudonymousSubject context.tenantId context.userId)),
   ("session_id", .text context.sessionId),
   ("interaction_id", .text context.interactionId),
   ("trace_id", .number context.traceId),
   ("event_type", .text eventType.value)]

/-- `_wrap`: an event of the interaction with the entries its type adds. -/
def wrap (context : UsageContext) (eventId : Nat) (eventType : UsageEventType)
    (entries : Payload) (occurredAt : Instant) : UsageEvent where
  eventId := eventId
  eventType := eventType
  tenantId := context.tenantId
  payload := context.envelope eventType occurredAt ++ entries
  createdAt := occurredAt

end UsageContext

/-- `_short`: at most 64 characters, nothing for an absent or empty text. -/
def shortText : Option String → Datum
  | none => .null
  | some value => if value = "" then .null else .text (String.ofList (value.toList.take 64))

/-- `row_count_bucket`. -/
def rowCountBucket (rowCount : Nat) : String :=
  if rowCount ≤ 0 then "0"
  else if rowCount ≤ 10 then "1-10"
  else if rowCount ≤ 100 then "11-100"
  else if rowCount ≤ 1000 then "101-1000"
  else "1001+"

/-- `completion_status`: a status that is not terminal is metered as a failure. -/
def completionStatus : InteractionStatus → String
  | .completed => "completed"
  | .failed => "failed"
  | .cancelled => "cancelled"
  | .pending | .running => "failed"

/-- `interaction_started_event`. -/
def interactionStartedEvent (context : UsageContext) (eventId : Nat) (occurredAt : Instant)
    (entrypoint role : String) : UsageEvent :=
  context.wrap eventId .interactionStarted
    [("entrypoint", .text entrypoint), ("role_category", .text role)] occurredAt

/-- `interaction_routed_event`. -/
def interactionRoutedEvent (context : UsageContext) (eventId : Nat) (occurredAt : Instant)
    (capability : Option String) : UsageEvent :=
  context.wrap eventId .interactionRouted
    [("capability", capability.elim .null .text)] occurredAt

/-- `interaction_completed_event`. -/
def interactionCompletedEvent (context : UsageContext) (eventId : Nat) (occurredAt : Instant)
    (status : String) (durationMs mesDurationMs llmDurationMs localDurationMs : Int)
    (resultRowCount : Nat) (errorCategory : Option String) : UsageEvent :=
  context.wrap eventId .interactionCompleted
    [("status", .text status),
     ("duration_ms", .number (max 0 durationMs)),
     ("mes_duration_ms", .number (max 0 mesDurationMs)),
     ("llm_duration_ms", .number (max 0 llmDurationMs)),
     ("local_duration_ms", .number (max 0 localDurationMs)),
     ("result_rows_bucket", .text (rowCountBucket resultRowCount)),
     ("error_category", shortText errorCategory)] occurredAt

/-- One completed or failed MES HTTP call, as the adapter records it at its exit. -/
structure MesCallRecord where
  operationId : String
  pageCount : Int
  rowCount : Int
  durationMs : Int
  completed : Bool
  errorCategory : Option String
  startedAt : Option Instant
  endedAt : Option Instant
  deriving DecidableEq, Repr

/-- `_resolve_span_edges`: an edge the caller did not measure is recovered from the duration. -/
def resolveSpanEdges (occurredAt : Instant) (durationMs : Int)
    (startedAt endedAt : Option Instant) : Instant × Instant :=
  let stop := endedAt.getD occurredAt
  (startedAt.getD (stop - 1000 * max 0 durationMs), stop)

/-- `mes_call_completed_event`. -/
def mesCallCompletedEvent (context : UsageContext) (eventId : Nat) (occurredAt : Instant)
    (call : MesCallRecord) : UsageEvent :=
  let edges := resolveSpanEdges occurredAt (max 0 call.durationMs) call.startedAt call.endedAt
  context.wrap eventId .mesCallCompleted
    [("operation_id", .text call.operationId),
     ("page_count", .number (max 0 call.pageCount)),
     ("row_count_bucket", .text (rowCountBucket (max 0 call.rowCount).toNat)),
     ("duration_ms", .number (max 0 call.durationMs)),
     ("status", .text (if call.completed then "completed" else "failed")),
     ("error_category", shortText call.errorCategory),
     ("started_at", .number edges.1),
     ("ended_at", .number edges.2)] occurredAt
