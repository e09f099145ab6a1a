/-!
# Session, interaction and message values

The values of `domain/session.py`: the states of a conversation and their transition table, the
status of one interaction, the durable rows of an interaction and of a message, and the events a
client reads.

Identifiers and texts are strings, instants are integers (microseconds on one time axis), and the
payload of an event or of a message is the list of its entries.
-/

/-- An instant on the time axis of the clocks, in microseconds. -/
abbrev Instant := Int

/-- The lifecycle of a factory-agent conversation. -/
inductive SessionState where
  | parsing
  | clarifying
  | authorizing
  | executing
  | composing
  | answered
  | archived
  | cancelled
  | failed
  deriving DecidableEq, Repr

namespace SessionState

/-- The stored spelling of a state. -/
def value : SessionState → String
  | parsing => "parsing"
  | clarifying => "clarifying"
  | authorizing => "authorizing"
  | executing => "executing"
  | composing => "composing"
  | answered => "answered"
  | archived => "archived"
  | cancelled => "cancelled"
  | failed => "failed"

/-- The table `ALLOWED_TRANSITIONS`. -/
def allowedTransitions : SessionState → List SessionState
  | parsing => [answered, clarifying, authorizing, cancelled, failed]
  | clarifying => [parsing, authorizing, cancelled, failed]
  | authorizing => [executing, cancelled, failed]
  | executing => [composing, clarifying, cancelled, failed]
  | composing => [answered, cancelled, failed]
  | answered => [parsing, archived, cancelled, failed]
  | archived => []
  | cancelled => []
  | failed => []

/-- `TERMINAL_STATES`. -/
def isTerminal : SessionState → Bool
  | archived | cancelled | failed => true
  | _ => false

/-- Whether a transition is legal. `FAILED` is reachable from every non-terminal state, whatever the
table says. -/
def canTransition (source target : SessionState) : Bool :=
  if target = failed then !source.isTerminal else decide (target ∈ source.allowedTransitions)

/-- **Terminal states never restart.** -/
theorem canTransition_of_isTerminal {source : SessionState} (h : source.isTerminal = true)
    (target : SessionState) : source.canTransition target = false := by
  revert h
  cases source <;> cases target <;> decide

/-- A state that is not terminal can always be failed and can always be cancelled. -/
theorem canTransition_failed_cancelled {source : SessionState} (h : source.isTerminal = false) :
    source.canTransition failed = true ∧ source.canTransition cancelled = true := by
  revert h
  cases source <;> decide

end SessionState

/-- One applied transition; `reason` is a category label. -/
structure StateTransition where
  fromState : SessionState
  toState : SessionState
  reason : String
  occurredAt : Instant
  deriving DecidableEq, Repr

/-- The illegal transition that `assert_transition` reports. -/
structure InvalidStateTransitionError where
  source : SessionState
  target : SessionState
  deriving DecidableEq, Repr

/-- The immutable state holder that appends a history entry per transition. -/
structure SessionStateMachine where
  state : SessionState
  history : List StateTransition := []
  deriving DecidableEq, Repr

/-- `transition_to`: refused when the transition is illegal. -/
def SessionStateMachine.transitionTo (machine : SessionStateMachine) (target : SessionState)
    (reason : String) (occurredAt : Instant) :
    Except InvalidStateTransitionError SessionStateMachine :=
  if machine.state.canTransition target then
    .ok { state := target,
          history := machine.history ++ [⟨machine.state, target, reason, occurredAt⟩] }
  else .error ⟨machine.state, target⟩

/-- An accepted transition was legal and leads to its target. -/
theorem SessionStateMachine.transitionTo_ok {machine machine' : SessionStateMachine}
    {target : SessionState} {reason : String} {occurredAt : Instant}
    (h : machine.transitionTo target reason occurredAt = .ok machine') :
    machine.state.canTransition target = true ∧ machine'.state = target := by
  unfold transitionTo at h
  split at h
  · rename_i hlegal
    cases h
    exact ⟨hlegal, rfl⟩
  · cases h

/-- The lifecycle of a single request/answer turn. -/
inductive InteractionStatus where
  | pending
  | running
  | completed
  | failed
  | cancelled
  deriving DecidableEq, Repr

/-- `TERMINAL_INTERACTION_STATUSES`. -/
def InteractionStatus.isTerminal : InteractionStatus → Bool
  | .completed | .failed | .cancelled => true
  | .pending | .running => false

inductive MessageRole where
  | user
  | assistant
  | system
  deriving DecidableEq, Repr

/-- The kind of a message. `thinking` is the narration of a round, reassembled from its streamed
fragments. -/
inductive MessageKind where
  | plainText
  | chat
  | clarification
  | phase
  | resultTable
  | error
  | thinking
  deriving DecidableEq, Repr

/-- One entry of a payload. A nested object is carried as its JSON text. -/
inductive Datum where
  | text (value : String)
  | number (value : Int)
  | flag (value : Bool)
  | texts (values : List String)
  | object (json : String)
  | null
  deriving DecidableEq, Repr

/-- The entries of a payload, key by key. -/
abbrev Payload := List (String × Datum)

/-- **The durable interaction row.** Ownership fields come from trusted context only. -/
structure InteractionRecord where
  interactionId : String
  sessionId : String
  tenantId : String
  userId : String
  status : InteractionStatus
  state : SessionState
  inputText : String
  capabilityId : Option String
  clarificationRounds : Nat
  lastEventSequence : Nat
  errorCategory : Option String
  createdAt : Instant
  updatedAt : Instant
  completedAt : Option Instant
  deriving DecidableEq, Repr

/-- **The durable message row**, unique on `(interactionId, sequence)`. Identifiers are fresh tokens
of the process-wide id source. -/
structure MessageRecord where
  messageId : Nat
  interactionId : String
  sessionId : String
  tenantId : String
  userId : String
  role : MessageRole
  kind : MessageKind
  sequence : Nat
  text : String
  payload : Payload
  createdAt : Instant
  deriving DecidableEq, Repr

/-- The names of the events. `heartbeat` is never stored. -/
inductive EventName where
  | started
  | answer
  | phase
  | progress
  | clarification
  | thinking
  | result
  | heartbeat
  | completed
  | failed
  | cancelled
  deriving DecidableEq, Repr

namespace EventName

/-- The name on the wire. -/
def wire : EventName → String
  | started => "interaction.started"
  | answer => "interaction.answer"
  | phase => "interaction.phase"
  | progress => "interaction.progress"
  | clarification => "interaction.clarification"
  | thinking => "interaction.thinking"
  | result => "interaction.result"
  | heartbeat => "interaction.heartbeat"
  | completed => "interaction.completed"
  | failed => "interaction.failed"
  | cancelled => "interaction.cancelled"

/-- `TERMINAL_EVENT_NAMES`. -/
def isTerminal : EventName → Bool
  | completed | failed | cancelled => true
  | _ => false

end EventName

/-- `terminal_event_name`: the single terminal event of a terminal status. -/
def terminalEventName : InteractionStatus → Option EventName
  | .completed => some .completed
  | .failed => some .failed
  | .cancelled => some .cancelled
  | .pending | .running => none

/-- One event with a durable, monotonically increasing sequence. -/
structure SessionEvent where
  sequence : Nat
  name : EventName
  data : Payload
  deriving DecidableEq, Repr

/-- The messages that carry an answer to the user: what the round produced, as opposed to the
question, an error notice or the transcript. -/
def MessageRecord.isAnswer (message : MessageRecord) : Bool :=
  decide (message.role = .assistant) &&
    match message.kind with
    | .plainText | .chat | .clarification | .resultTable => true
    | .phase | .error | .thinking => false
