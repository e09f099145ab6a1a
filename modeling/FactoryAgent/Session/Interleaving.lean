import FactoryAgent.Lib.Machine
import FactoryAgent.Session.Emission

/-!
# The parties of one interaction

Five parties write the row of one interaction: `start`, the connections of `stream` through
`claim_run`, the executor, the cancel API and the recovery sweeps. Here they are one machine
(`interactionMachine`) whose actions are single transactions: an action is one read, one
compare-and-set or one commit of one party, and anything may happen between two actions of a party.

What a party holds between its actions is in the `World`. A cancel call holds the copy it loaded; a
sweep holds the row its compare-and-set returned until it commits the terminal event; an executor
holds its run state. A party that dies just never acts again, except that a sweep that dies forgets
the row it holds, and an executor that dies makes no further move.

A write is the business transaction followed by the metering one. It is rolled back, or stored, or
stored without its usage events.
-/

/-- The outcome of a commit: rolled back, or stored, with or without its usage events. -/
inductive WriteOutcome where
  | rolledBack
  | unmetered
  | stored
  deriving DecidableEq, Repr

namespace InteractionStore

/-- **A commit with its outcome.** A commit that violates a key can only be rolled back. -/
def write (store : InteractionStore) (c : InteractionCommit) :
    WriteOutcome → Option InteractionStore
  | .rolledBack => some store
  | .unmetered => store.commit c
  | .stored => (store.commit c).map (fun stored => stored.writeUsageEvents c.usageEvents)

end InteractionStore

/-! ## The commits of the other parties -/

/-- A question as `start` accepted it, validated and attributed to its owner. -/
structure Question where
  interactionId : String
  sessionId : String
  tenantId : String
  userId : String
  role : String
  text : String
  clarificationRounds : Nat
  deriving DecidableEq

/-- The record `start` creates. -/
def Question.record (question : Question) (now : Instant) : InteractionRecord where
  interactionId := question.interactionId
  sessionId := question.sessionId
  tenantId := question.tenantId
  userId := question.userId
  status := .pending
  state := .parsing
  inputText := question.text
  capabilityId := none
  clarificationRounds := question.clarificationRounds
  lastEventSequence := 0
  errorCategory := none
  createdAt := now
  updatedAt := now
  completedAt := none

/-- The commit of `start`: the row, the question as message 1, and the started usage event. -/
def Question.commit (question : Question) (now : Instant) (nextId : Nat) : InteractionCommit where
  interaction := question.record now
  messages := [(question.record now).message (nextId + 2) .user .plainText 1 question.text now]
  usageEvents := [interactionStartedEvent
    ⟨question.tenantId, question.userId, question.sessionId, question.interactionId, nextId + 1⟩
    nextId now "api" question.role]

/-- The record that `cancel` writes over the copy it loaded. -/
def InteractionRecord.cancelled (copy : InteractionRecord) (now : Instant) : InteractionRecord :=
  { copy with
    status := .cancelled, state := .cancelled, updatedAt := now, completedAt := some now
    errorCategory := some "cancelled", lastEventSequence := copy.lastEventSequence + 1 }

/-- The commit of `cancel`, built from the copy it loaded. Its message takes the number after its
event. -/
def InteractionRecord.cancelCommit (copy : InteractionRecord) (reading : Reading) :
    InteractionCommit :=
  let record := copy.cancelled reading.now
  { interaction := record
    messages := [record.message (reading.nextId + 2) .system .error (record.lastEventSequence + 1)
      "已取消本次查询。" reading.now]
    events := [⟨record.lastEventSequence, .cancelled,
      [("interaction_id", .text record.interactionId), ("reason", .text "user_requested")]⟩]
    usageEvents := [record.completionEvent reading none (some "cancelled") []] }

/-- **A row that a sweep failed** and whose terminal event it has not committed yet. -/
structure Reap where
  record : InteractionRecord
  category : String
  text : String
  messageSequence : Nat
  deriving DecidableEq

namespace Reap

/-- `_fail_stale_run` and `sweep_stale_runs`: the error message takes the number of the terminal
event. -/
def ofStale (record : InteractionRecord) : Reap :=
  ⟨record, "executor_lost", "查询未能完成。", record.lastEventSequence⟩

/-- `sweep_abandoned_runs`: the error message takes the number after the terminal event's. -/
def ofAbandoned (record : InteractionRecord) : Reap :=
  ⟨record, "abandoned", "该提问未能开始执行，请重新发送。", record.lastEventSequence + 1⟩

/-- `_persist_reaped_terminal`. -/
def commit (reap : Reap) (reading : Reading) : InteractionCommit where
  interaction := reap.record
  messages := [reap.record.message (reading.nextId + 2) .system .error reap.messageSequence
    reap.text reading.now]
  events := [⟨reap.record.lastEventSequence, .failed,
    [("interaction_id", .text reap.record.interactionId),
     ("error_category", .text reap.category), ("message", .text reap.text)]⟩]
  usageEvents := [reap.record.completionEvent reading none (some reap.category) []]

end Reap

/-! ## The machine -/

/-- **The durable store and what each party holds.** There is one executor for each won claim, and
its entry stays when its task is over. -/
structure World where
  store : InteractionStore
  executors : List Executor
  /-- The copies that cancel calls loaded and have not committed yet. -/
  cancels : List InteractionRecord
  /-- The cancel calls whose commit returned and whose in-process signal is outstanding. -/
  signals : Nat
  /-- The rows that sweeps failed and have not committed a terminal event for yet. -/
  reaps : List Reap
  /-- The first unused token of the id source. -/
  nextId : Nat
  deriving DecidableEq

/-- **One transaction of one party.** -/
inductive SessionAction where
  /-- `start` commits a question. -/
  | start (question : Question) (now : Instant)
  /-- A connection runs `claim_run`, and the winner spawns the executor. -/
  | claim (now : Instant)
  /-- An executor makes a move. -/
  | move (index : Nat) (move : Move) (reading : Reading) (outcome : WriteOutcome)
  /-- An executor's process dies. -/
  | executorDies (index : Nat)
  /-- A cancel call loads the row. -/
  | cancelLoad
  /-- A cancel call commits over the copy it loaded. -/
  | cancelCommit (index : Nat) (reading : Reading) (outcome : WriteOutcome)
  /-- A cancel call that committed wakes an executor of its process. -/
  | cancelSignal (index : Nat)
  /-- A sweep, or a follower, runs the compare-and-set on stale runs. -/
  | staleSweep (staleBefore now : Instant)
  /-- A sweep runs the compare-and-set on abandoned questions. -/
  | abandonedSweep (abandonedBefore now : Instant)
  /-- A sweep commits the terminal event of a row it failed. -/
  | reapCommit (index : Nat) (reading : Reading) (outcome : WriteOutcome)
  /-- A sweep dies before it committed. -/
  | reapDies (index : Nat)
  deriving DecidableEq

/-- Whether an action is a sweep's. -/
def SessionAction.isSweep : SessionAction → Bool
  | .staleSweep _ _ | .abandonedSweep _ _ | .reapCommit _ _ _ | .reapDies _ => true
  | _ => false

/-- Whether a move tells the truth about the surroundings of its executor. `interrupted` reports the
cancel event first, then the deadline, then a terminal row; the run control's own cancellation needs
the cancel event. -/
def Executor.Sees (executor : Executor) (store : InteractionStore) : Move → Prop
  | .stopPoint none => executor.cancelRequested = false ∧
      ∀ row ∈ store.interaction, row.status.isTerminal = false
  | .stopPoint (some .cancelled) => executor.cancelRequested = true ∨
      ∃ row ∈ store.interaction, row.status.isTerminal = true
  | .stopPoint (some .runTimeout) => executor.cancelRequested = false
  | .raise (.runStopped code) => code = "cancelled" → executor.cancelRequested = true
  | _ => True

instance (executor : Executor) (store : InteractionStore) (move : Move) :
    Decidable (executor.Sees store move) := by
  unfold Executor.Sees
  split <;> infer_instance

namespace World

/-- The world before anything happened. -/
def initial : World := ⟨.empty, [], [], 0, [], 0⟩

/-- `start`: the identifier of an interaction is new, so no row is there. -/
def start (world : World) (question : Question) (now : Instant) : Option World :=
  if world.store.interaction = none then
    (world.store.write (question.commit now world.nextId) .stored).map (fun store =>
      { world with store := store, nextId := world.nextId + 4 })
  else none

/-- `claim_run` and `_spawn_executor`. A lost claim changes nothing. -/
def claim (world : World) (now : Instant) : World :=
  match world.store.claimRun now with
  | some (claimed, store) =>
    { world with store := store, executors := world.executors ++ [.spawn claimed] }
  | none => world

/-- A move of an executor. The identifiers it uses are new. -/
def move (world : World) (thinkingEnabled : Bool) (index : Nat) (move : Move) (reading : Reading)
    (outcome : WriteOutcome) : Option World :=
  match world.executors[index]? with
  | none => none
  | some executor =>
    if reading.nextId = world.nextId ∧ executor.Sees world.store move then
      match executor.perform move reading thinkingEnabled with
      | none => none
      | some performed =>
        match performed.commit with
        | none => some { world with executors := world.executors.set index performed.stored }
        | some c =>
          (world.store.write c outcome).map (fun store =>
            { world with
              store := store
              executors := world.executors.set index
                (if outcome = .rolledBack then performed.refused else performed.stored)
              nextId := world.nextId + 4 })
    else none

/-- The load of `cancel`. A terminal row is returned to the caller as it is. -/
def cancelLoad (world : World) : World :=
  match world.store.interaction with
  | some row =>
    if row.status.isTerminal then world else { world with cancels := world.cancels ++ [row] }
  | none => world

/-- The commit of `cancel`. An illegal transition of the copy ends the call with an error. -/
def cancelCommit (world : World) (index : Nat) (reading : Reading) (outcome : WriteOutcome) :
    Option World :=
  match world.cancels[index]? with
  | none => none
  | some copy =>
    if reading.nextId = world.nextId then
      if copy.state.canTransition .cancelled then
        (world.store.write (copy.cancelCommit reading) outcome).map (fun store =>
          { world with
            store := store, cancels := world.cancels.eraseIdx index
            signals := if outcome = .rolledBack then world.signals else world.signals + 1
            nextId := world.nextId + 4 })
      else some { world with cancels := world.cancels.eraseIdx index }
    else none

/-- `request_cancel`. -/
def cancelSignal (world : World) (index : Nat) : Option World :=
  match world.executors[index]? with
  | none => none
  | some executor =>
    if 0 < world.signals then
      some { world with
        executors := world.executors.set index { executor with cancelRequested := true }
        signals := world.signals - 1 }
    else none

/-- The death of an executor's process. -/
def executorDies (world : World) (index : Nat) : Option World :=
  (world.executors[index]?).map (fun executor =>
    { world with executors := world.executors.set index { executor with point := .done } })

/-- The compare-and-set on a stale run. -/
def staleSweep (world : World) (staleBefore now : Instant) : World :=
  match world.store.failStaleRun staleBefore now "executor_lost" with
  | some (record, store) =>
    { world with store := store, reaps := world.reaps ++ [.ofStale record] }
  | none => world

/-- The compare-and-set on an abandoned question. -/
def abandonedSweep (world : World) (abandonedBefore now : Instant) : World :=
  match world.store.failAbandonedRun abandonedBefore now "abandoned" with
  | some (record, store) =>
    { world with store := store, reaps := world.reaps ++ [.ofAbandoned record] }
  | none => world

/-- The commit of a reaped row's terminal event. Where it raises the sweep is over. -/
def reapCommit (world : World) (index : Nat) (reading : Reading) (outcome : WriteOutcome) :
    Option World :=
  match world.reaps[index]? with
  | none => none
  | some reap =>
    if reading.nextId = world.nextId then
      (world.store.write (reap.commit reading) outcome).map (fun store =>
        { world with
          store := store, reaps := world.reaps.eraseIdx index, nextId := world.nextId + 4 })
    else none

/-- The death of a sweep. -/
def reapDies (world : World) (index : Nat) : Option World :=
  if index < world.reaps.length then
    some { world with reaps := world.reaps.eraseIdx index }
  else none

/-- **One action.** -/
def step (thinkingEnabled : Bool) (world : World) : SessionAction → Option World
  | .start question now => world.start question now
  | .claim now => some (world.claim now)
  | .move index move reading outcome => world.move thinkingEnabled index move reading outcome
  | .executorDies index => world.executorDies index
  | .cancelLoad => some world.cancelLoad
  | .cancelCommit index reading outcome => world.cancelCommit index reading outcome
  | .cancelSignal index => world.cancelSignal index
  | .staleSweep staleBefore now => some (world.staleSweep staleBefore now)
  | .abandonedSweep abandonedBefore now => some (world.abandonedSweep abandonedBefore now)
  | .reapCommit index reading outcome => world.reapCommit index reading outcome
  | .reapDies index => world.reapDies index

end World

/-- **The parties of one interaction**, under the setting of the transcript. -/
def interactionMachine (thinkingEnabled : Bool) : Machine World SessionAction :=
  ⟨World.initial, World.step thinkingEnabled⟩

/-! ## Runs of the machine

A scenario is a list of actions, carried out from the start. -/

namespace Scenario

/-- A question to replay. -/
def question : Question := ⟨"i-1", "s-1", "t-1", "u-1", "manager", "本月产量", 0⟩

/-- A reading of the clock and of the id source. -/
def reading (now : Instant) (nextId : Nat) : Reading := ⟨now, 0, [], nextId⟩

/-- A move of the executor whose commit is stored. -/
def moves (move : Move) (now : Instant) (nextId : Nat) : SessionAction :=
  .move 0 move (reading now nextId) .stored

/-- A question whose run was claimed, started, announced its parse and narrated a fragment: the row
is `running`, and its watermark is 3. -/
def narrated : List SessionAction :=
  [.start question 0, .claim 1,
   moves (.stopPoint none) 2 4, moves .started 2 4, moves (.stopPoint none) 3 8,
   moves (.announce "parse_started") 3 8, moves (.frame "正在解析") 4 12]

/-- The narrated run, cancelled: a cancel call loads the row and commits at once. -/
def cancelled : List SessionAction :=
  narrated ++ [.cancelLoad, .cancelCommit 0 (reading 5 16) .stored]

/-- The executor of the cancelled run stops and closes its transcript. -/
def stopping : List SessionAction :=
  [.cancelSignal 0, moves (.raise (.runStopped "cancelled")) 6 20, moves .close 6 20]

/-- The world after a scenario. -/
def world (actions : List SessionAction) : World := (interactionMachine true).after actions

end Scenario
