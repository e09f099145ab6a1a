import FactoryAgent.Persistence.SessionStore

/-!
# The run state and the commits built from it

What one run holds in memory (`RunState`), and the functions of `application/session/base.py` and
`application/session/outcomes.py` that build its commits: stage events, transcript frames, and the
commits that end a round. Each commit is built from the record *in memory*, with sequence numbers
taken from the counter in memory; the durable row is not consulted.

A function that takes a state transition fails where the transition is illegal. The error carries the
run state as it stands at the raise, because a sequence number that was allocated stays allocated.

What a step reads besides the run state – the clock, the drained metering buffer, the id source – is
a `Reading`.
-/

/-- What one step of a run reads from its surroundings. -/
structure Reading where
  /-- The clock. -/
  now : Instant
  /-- Milliseconds since the run started. -/
  elapsedMs : Nat
  /-- The MES call events that `drain_mes_events` hands over. -/
  drained : List UsageEvent
  /-- The first unused token of the id source. -/
  nextId : Nat
  deriving DecidableEq

/-- One round's transcript: its fragment counter, the text released so far, and whether it was
closed. -/
structure ThinkingTranscript where
  enabled : Bool
  seq : Nat := 0
  lastEventSequence : Nat := 0
  text : String := ""
  truncated : Bool := false
  closed : Bool := false
  deriving DecidableEq

/-- Whether the round narrated anything a client could render. -/
def ThinkingTranscript.produced (transcript : ThinkingTranscript) : Bool :=
  decide (0 < transcript.seq)

/-- **The state of a run in memory.** -/
structure RunState where
  record : InteractionRecord
  sequence : Nat
  transcript : Option ThinkingTranscript
  usageEvents : List UsageEvent
  deriving DecidableEq

/-- What `_complete_result` takes from the runner's result and from the composed answer. -/
structure ResultFacts where
  capabilityId : String
  columns : List String
  columnTitles : List String
  rowCount : Nat
  incomplete : Bool
  incompleteReason : Option String
  artifactId : Option String
  answer : String
  timeRange : Option String
  card : Option String
  cacheSource : Option String
  consistency : Option String
  mesDurationMs : Int
  deriving DecidableEq

/-- The entries that the result event and the result message share. -/
def ResultFacts.data (facts : ResultFacts) : Payload :=
  [("capability_id", .text facts.capabilityId),
   ("columns", .texts facts.columns),
   ("column_titles", .texts facts.columnTitles),
   ("row_count", .number facts.rowCount),
   ("incomplete", .flag facts.incomplete),
   ("incomplete_reason", facts.incompleteReason.elim .null .text),
   ("artifact_id", facts.artifactId.elim .null .text),
   ("answer", .text facts.answer),
   ("time_range", facts.timeRange.elim .null .object)]
  ++ (facts.card.elim [] fun card => [("card", .object card)])
  ++ (facts.cacheSource.elim [] fun source => [("cache_source", .text source)])
  ++ (facts.consistency.elim [] fun finding => [("consistency", .object finding)])

/-- The status and category of a failed or cancelled round. -/
structure Termination where
  status : InteractionStatus
  category : String
  text : String
  deriving DecidableEq

/-- `STAGE_LABELS`. -/
def SessionState.stageLabel : SessionState → String
  | .parsing => "解析"
  | .authorizing => "鉴权"
  | .executing => "取数"
  | .composing => "计算"
  | .answered => "完成"
  | .clarifying => "追问"
  | .failed => "失败"
  | .cancelled => "取消"
  | .archived => "archived"

/-- `PROGRESS_LABELS`: the reason itself where no label is registered. -/
def progressLabel (reason : String) : String :=
  if reason = "analysis_plan" then "规划分析"
  else if reason = "analysis_tool" then "核对与计算"
  else if reason = "analysis_repair" then "核对分析条件"
  else if reason = "parse_started" then "解析中"
  else if reason = "authorize_started" then "权限检查中"
  else if reason = "scope_resolution_started" then "核对数据范围"
  else reason

/-- `_advance`: the record in its next state, where the transition is legal. -/
def InteractionRecord.advance (record : InteractionRecord) (target : SessionState)
    (reason : String) (now : Instant) : Option InteractionRecord :=
  match SessionStateMachine.transitionTo { state := record.state } target reason now with
  | .ok machine => some { record with state := machine.state }
  | .error _ => none

/-- `_message`. -/
def InteractionRecord.message (record : InteractionRecord) (messageId : Nat) (role : MessageRole)
    (kind : MessageKind) (sequence : Nat) (text : String) (now : Instant)
    (payload : Payload := []) : MessageRecord where
  messageId := messageId
  interactionId := record.interactionId
  sessionId := record.sessionId
  tenantId := record.tenantId
  userId := record.userId
  role := role
  kind := kind
  sequence := sequence
  text := text
  payload := payload
  createdAt := now

/-- `_llm_duration_ms`: what one model call spent, as its event reports it. -/
def UsageEvent.llmDurationMs (event : UsageEvent) : Int :=
  if event.eventType = .llmCallCompleted then
    match event.payload.lookup "duration_ms" with
    | some (.number value) => max 0 value
    | _ => 0
  else 0

/-- `_completion_event`. -/
def InteractionRecord.completionEvent (record : InteractionRecord) (reading : Reading)
    (result : Option ResultFacts) (errorCategory : Option String)
    (usageEvents : List UsageEvent) : UsageEvent :=
  let durationMs := max 0 ((record.updatedAt - record.createdAt).tdiv 1000)
  let llmDurationMs := (usageEvents.map UsageEvent.llmDurationMs).foldl (· + ·) 0
  let mesDurationMs := result.elim 0 (·.mesDurationMs)
  interactionCompletedEvent
    ⟨record.tenantId, record.userId, record.sessionId, record.interactionId, reading.nextId + 1⟩
    reading.nextId record.updatedAt (completionStatus record.status) durationMs mesDurationMs
    llmDurationMs (max 0 (durationMs - llmDurationMs - mesDurationMs))
    (result.elim 0 (·.rowCount)) errorCategory

namespace RunState

/-- The state a run starts with: the claimed record, and its watermark as the counter. -/
def ofClaimed (record : InteractionRecord) (afterSequence : Nat) : RunState where
  record := record
  sequence := max record.lastEventSequence afterSequence
  transcript := none
  usageEvents := []

/-! ## Stage events -/

/-- `_stage_event_uncommitted`: allocate the next sequence and advance the record in memory. -/
def stageEventUncommitted (state : RunState) (name : EventName) (data : Payload)
    (record : InteractionRecord) (reading : Reading) : SessionEvent × RunState :=
  let sequence := state.sequence + 1
  (⟨sequence, name, data ++ [("duration_ms", .number reading.elapsedMs)]⟩,
    { state with
      sequence := sequence
      record := { record with lastEventSequence := sequence, updatedAt := reading.now } })

/-- `_stage_event`: one stage event in one commit. -/
def stageEvent (state : RunState) (name : EventName) (data : Payload) (lifecycle : Bool)
    (reading : Reading) : RunState × InteractionCommit :=
  let (event, state') := state.stageEventUncommitted name data state.record reading
  (state', { interaction := state'.record, events := [event], usageEvents := reading.drained
             lifecycle := lifecycle })

/-- The commit of `interaction.started` in `_run`. -/
def started (state : RunState) (reading : Reading) : RunState × InteractionCommit :=
  let sequence := state.sequence + 1
  let record := { state.record with
    status := .running, lastEventSequence := sequence, updatedAt := reading.now }
  ({ state with sequence := sequence, record := record },
    { interaction := record
      events := [⟨sequence, .started,
        [("interaction_id", .text record.interactionId), ("session_id", .text record.sessionId),
         ("state", .text SessionState.parsing.value), ("stage", .text "接收"),
         ("status", .text "accepted")]⟩]
      usageEvents := reading.drained })

/-- `_progress`: announce a long stage without moving the state. Informational. -/
def progress (state : RunState) (reason : String) (reading : Reading) :
    RunState × InteractionCommit :=
  state.stageEvent .progress
    [("state", .text state.record.state.value), ("reason", .text reason),
     ("stage", .text (progressLabel reason)), ("status", .text "running")] false reading

/-- The events and the run state after the transitions of `_phases`, one event each. -/
def phaseEvents (state : RunState) (reading : Reading) :
    List (SessionState × String) → Except RunState (List SessionEvent × RunState)
  | [] => .ok ([], state)
  | (target, reason) :: transitions =>
    match state.record.advance target reason reading.now with
    | none => .error state
    | some advanced =>
      let (event, state') := state.stageEventUncommitted .phase
        [("state", .text target.value), ("reason", .text reason),
         ("stage", .text target.stageLabel), ("status", .text "ok")] advanced reading
      match state'.phaseEvents reading transitions with
      | .error state'' => .error state''
      | .ok (events, state'') => .ok (event :: events, state'')

/-- `_phases`: adjacent stage transitions in a single commit. -/
def phases (state : RunState) (transitions : List (SessionState × String)) (reading : Reading) :
    Except RunState (RunState × InteractionCommit) :=
  match state.phaseEvents reading transitions with
  | .error state' => .error state'
  | .ok (events, state') =>
    .ok (state', { interaction := state'.record, events := events, usageEvents := reading.drained })

/-! ## The transcript -/

/-- `_start_transcript`. -/
def startTranscript (state : RunState) (enabled : Bool) : RunState :=
  { state with transcript := some { enabled := enabled } }

/-- `_thinking`: one fragment of the transcript. Informational. -/
def thinking (state : RunState) (text : String) (seq : Nat) (done truncated : Bool)
    (reading : Reading) : RunState × InteractionCommit :=
  state.stageEvent .thinking
    ([("text", .text text), ("seq", .number seq), ("done", .flag done),
      ("elapsed_ms", .number reading.elapsedMs)]
      ++ if truncated then [("truncated", .flag true)] else []) false reading

/-- One released frame, as `_fact` and `_flush_frames` emit it: nothing once the transcript is
missing, switched off or closed. -/
def frame (state : RunState) (text : String) (reading : Reading) :
    Option (RunState × InteractionCommit) :=
  match state.transcript with
  | none => none
  | some transcript =>
    if transcript.enabled = false ∨ transcript.closed = true then none
    else
      let (state', commit) := state.thinking text (transcript.seq + 1) false false reading
      some ({ state' with
        transcript := some { transcript with
          seq := transcript.seq + 1, text := transcript.text ++ text
          lastEventSequence := state'.sequence } }, commit)

/-- The first half of `_close_transcript`: mark it closed, and emit the end marker where the round
narrated anything. -/
def closeTranscript (state : RunState) (reading : Reading) :
    RunState × Option InteractionCommit :=
  match state.transcript with
  | none => (state, none)
  | some transcript =>
    if transcript.closed then (state, none)
    else
      let closed := { transcript with closed := true }
      if transcript.enabled = false ∨ transcript.produced = false then
        ({ state with transcript := some closed }, none)
      else
        let (state', commit) :=
          state.thinking "" (transcript.seq + 1) true transcript.truncated reading
        ({ state' with
          transcript := some { closed with
            seq := transcript.seq + 1, lastEventSequence := state'.sequence } }, some commit)

/-- Whether a text is blank, as `not text.strip()`. -/
def isBlank (text : String) : Bool :=
  text.toList.all Char.isWhitespace

/-- The second half, `_record_thinking_message`: the reassembled text once, under the end marker's
sequence. A blank text leaves no message and makes no commit. -/
def recordThinkingMessage (state : RunState) (reading : Reading) : Option InteractionCommit :=
  match state.transcript with
  | none => none
  | some transcript =>
    if isBlank transcript.text then none
    else some
      { interaction := state.record
        messages := [state.record.message (reading.nextId + 2) .assistant .thinking
          transcript.lastEventSequence transcript.text reading.now
          [("elapsed_ms", .number reading.elapsedMs)]]
        usageEvents := reading.drained
        lifecycle := false }

/-! ## The commits that end a round -/

/-- The second half of `_clarify_message`; `clarifying` was advanced before the transcript was
closed. -/
def clarifyMessage (state : RunState) (clarifying : InteractionRecord) (question : String)
    (reading : Reading) : RunState × InteractionCommit :=
  let terminal := state.sequence + 2
  let record := { clarifying with
    status := .completed, clarificationRounds := state.record.clarificationRounds + 1
    lastEventSequence := terminal, updatedAt := reading.now, completedAt := some reading.now }
  let usageEvents := state.usageEvents
    ++ [record.completionEvent reading none none state.usageEvents]
  ({ state with sequence := terminal, record := record, usageEvents := usageEvents },
    { interaction := record
      messages := [record.message (reading.nextId + 2) .assistant .clarification terminal question
        reading.now]
      events := [⟨state.sequence + 1, .clarification,
          [("question", .text question), ("missing", .texts []), ("ambiguous", .texts [])]⟩,
        ⟨terminal, .completed,
          [("interaction_id", .text state.record.interactionId), ("status", .text "clarifying")]⟩]
      usageEvents := usageEvents ++ reading.drained })

/-- The second half of `_chat_with_text`; `answered` and `now` were taken before the transcript was
closed. -/
def chatWithText (state : RunState) (answered : InteractionRecord) (now : Instant) (text : String)
    (reading : Reading) : RunState × InteractionCommit :=
  let terminal := state.sequence + 2
  let record := { answered with
    status := .completed, lastEventSequence := terminal, updatedAt := now, completedAt := some now }
  let usageEvents := state.usageEvents
    ++ [record.completionEvent reading none none state.usageEvents]
  ({ state with sequence := terminal, record := record, usageEvents := usageEvents },
    { interaction := record
      messages := [record.message (reading.nextId + 2) .assistant .chat terminal text reading.now]
      events := [⟨state.sequence + 1, .answer, [("text", .text text)]⟩,
        ⟨terminal, .completed,
          [("interaction_id", .text state.record.interactionId), ("status", .text "completed")]⟩]
      usageEvents := usageEvents ++ reading.drained })

/-- The part of `_complete_result` after the transcript was closed and the export attempted. -/
def completeResult (state : RunState) (facts : ResultFacts) (reading : Reading) :
    Except RunState (RunState × InteractionCommit) :=
  let current := { state.record with capabilityId := some facts.capabilityId }
  match current.advance .answered "result_ready" reading.now with
  | none => .error { state with record := current, sequence := state.sequence + 1 }
  | some answered =>
    let terminal := state.sequence + 2
    let record := { answered with
      status := .completed, lastEventSequence := terminal, updatedAt := reading.now
      completedAt := some reading.now }
    let usageEvents := state.usageEvents
      ++ [record.completionEvent reading (some facts) none state.usageEvents]
    .ok ({ state with sequence := terminal, record := record, usageEvents := usageEvents },
      { interaction := record
        messages := [
          record.message (reading.nextId + 2) .assistant .resultTable (state.sequence + 1)
            ("已返回 " ++ toString facts.rowCount ++ " 行结果。") reading.now facts.data,
          record.message (reading.nextId + 3) .assistant .plainText terminal facts.answer
            reading.now]
        events := [⟨state.sequence + 1, .result, facts.data⟩,
          ⟨terminal, .completed,
            [("interaction_id", .text state.record.interactionId),
             ("status", .text "completed")]⟩]
        usageEvents := usageEvents ++ reading.drained })

/-- The part of `_terminate` after the transcript was closed; `now` was read before. The target state
follows the status, and a status without a terminal event is an error. -/
def terminate (state : RunState) (ending : Termination) (now : Instant) (reading : Reading) :
    Except RunState (RunState × InteractionCommit) :=
  let target := if ending.status = .failed then SessionState.failed else SessionState.cancelled
  match state.record.advance target ending.category reading.now with
  | none => .error state
  | some advanced =>
    match terminalEventName ending.status with
    | none => .error { state with sequence := state.sequence + 1 }
    | some name =>
      let sequence := state.sequence + 1
      let record := { advanced with
        status := ending.status, errorCategory := some ending.category
        lastEventSequence := sequence, updatedAt := now, completedAt := some now }
      let usageEvents := state.usageEvents
        ++ [record.completionEvent reading none (some ending.category) state.usageEvents]
      .ok ({ state with sequence := sequence, record := record, usageEvents := usageEvents },
        { interaction := record
          messages := [record.message (reading.nextId + 2) .assistant .error sequence ending.text
            reading.now]
          events := [⟨sequence, name,
            [("interaction_id", .text state.record.interactionId),
             ("error_category", .text ending.category), ("message", .text ending.text)]⟩]
          usageEvents := usageEvents ++ reading.drained })

end RunState
