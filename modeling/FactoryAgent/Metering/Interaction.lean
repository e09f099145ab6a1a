import FactoryAgent.Lib.Machine
import FactoryAgent.Metering.Delivery
import FactoryAgent.Session.Interleaving

/-!
# The metering of one interaction

The two places that open a usage context: `start` around `authorize`, and `_run` around the whole run.
In between the adapter records its calls, each commit of the run drains them before the store is
asked, and the context is closed on every exit. The world remembers which calls were recorded and
which commits were successful.

`start` and `_run` are different tasks, so each begins with the variables unset.
-/

/-- **Where an interaction is**, as far as its metering goes. -/
inductive MeteredPhase where
  | new
  /-- `start` has opened its context and awaits `authorize`. -/
  | authorizing (question : Question) (firstId : Nat)
  /-- `start` has closed its context; its commit is next. -/
  | accepting (question : Question) (firstId : Nat)
  | accepted
  /-- The run has opened its context. -/
  | running (executor : Executor)
  | over
  deriving DecidableEq

/-- Whether a usage context is open. -/
def MeteredPhase.isOpen : MeteredPhase → Bool
  | .authorizing _ _ | .running _ => true
  | _ => false

/-- **An interaction and what is metered of it.** -/
structure MeteredInteraction where
  phase : MeteredPhase
  vars : UsageVars
  /-- The MES calls recorded while a context was open. -/
  recorded : List UsageEvent
  /-- The successful commits. -/
  committed : List InteractionCommit
  /-- The first unused token of the id source. -/
  nextId : Nat
  deriving DecidableEq

/-- What happens to the metering of an interaction. -/
inductive MeteredAction where
  /-- `start` opens its context. -/
  | start (question : Question)
  /-- The adapter records a call. -/
  | call (record : MesCallRecord) (now : Instant)
  /-- `authorize` returned, or raised. -/
  | authorized (granted : Bool)
  /-- `start` commits. -/
  | accept (now : Instant) (stored : Bool)
  /-- A claimed run opens its context. -/
  | claim (claimed : InteractionRecord)
  /-- The run makes a move. -/
  | move (move : Move) (now : Instant) (elapsedMs : Nat) (stored : Bool)
  /-- The task of the run is cancelled, at a shutdown. -/
  | cancelled
  /-- The task of the run ends, and its context is closed. -/
  | close
  deriving DecidableEq

namespace MeteredInteraction

/-- An interaction that nobody has asked for yet. -/
def initial : MeteredInteraction := ⟨.new, .unset, [], [], 0⟩

/-- The usage events of the successful commits. -/
def delivered (s : MeteredInteraction) : List UsageEvent := s.committed.flatMap (·.usageEvents)

/-- Whether calls are made: under `authorize` and during the run. -/
def calls (s : MeteredInteraction) : Bool :=
  match s.phase with
  | .authorizing _ _ => true
  | .running executor => decide (executor.point ≠ .done)
  | _ => false

/-- `start` up to `authorize`. -/
def start (s : MeteredInteraction) (question : Question) : Option MeteredInteraction :=
  if s.phase = .new then
    some { s with
      phase := .authorizing question s.nextId
      vars := UsageVars.unset.setUsageContext (some ⟨question.tenantId, question.userId,
        question.sessionId, question.interactionId, s.nextId + 1⟩)
      nextId := s.nextId + 4 }
  else none

/-- `ContextVarMesCallRecorder.record`, with an open buffer. -/
def call (s : MeteredInteraction) (record : MesCallRecord) (now : Instant) :
    Option MeteredInteraction :=
  match s.vars.context, s.calls && s.vars.isOpen with
  | some context, true =>
    some { s with
      vars := s.vars.recordMesCall s.nextId now record
      recorded := s.recorded ++ [mesCallCompletedEvent context s.nextId now record]
      nextId := s.nextId + 1 }
  | _, _ => none

/-- The end of `authorize` in `start`: its context is closed in either case. -/
def authorized (s : MeteredInteraction) (granted : Bool) : Option MeteredInteraction :=
  match s.phase with
  | .authorizing question firstId =>
    some { s with
      phase := if granted then .accepting question firstId else .over
      vars := s.vars.setUsageContext none }
  | _ => none

/-- The commit of `start`, which drains nothing. -/
def accept (s : MeteredInteraction) (now : Instant) (stored : Bool) : Option MeteredInteraction :=
  match s.phase with
  | .accepting question firstId =>
    some (if stored then
        { s with phase := .accepted, committed := s.committed ++ [question.commit now firstId] }
      else { s with phase := .over })
  | _ => none

/-- The start of `_run` for a claimed record. -/
def claim (s : MeteredInteraction) (claimed : InteractionRecord) : Option MeteredInteraction :=
  if s.phase = .accepted then
    some { s with
      phase := .running (.spawn claimed)
      vars := UsageVars.unset.setUsageContext (some ⟨claimed.tenantId, claimed.userId,
        claimed.sessionId, claimed.interactionId, s.nextId⟩)
      nextId := s.nextId + 1 }
  else none

/-- What a move reads: the pending calls, which a commit drains. -/
def reading (s : MeteredInteraction) (now : Instant) (elapsedMs : Nat) : Reading :=
  ⟨now, elapsedMs, s.vars.pending, s.nextId⟩

/-- A move of the run. The buffer is drained before the store is asked. -/
def move (s : MeteredInteraction) (thinkingEnabled : Bool) (move : Move) (now : Instant)
    (elapsedMs : Nat) (stored : Bool) : Option MeteredInteraction :=
  match s.phase with
  | .running executor =>
    if move.Own then
      (executor.perform move (s.reading now elapsedMs) thinkingEnabled).map (fun performed =>
        match performed.commit with
        | none => { s with phase := .running performed.stored }
        | some c =>
          { s with
            phase := .running (if stored then performed.stored else performed.refused)
            vars := s.vars.drained
            committed := if stored then s.committed ++ [c] else s.committed
            nextId := s.nextId + 4 })
    else none
  | _ => none

/-- The cancellation of the run's task. -/
def cancelled (s : MeteredInteraction) : Option MeteredInteraction :=
  match s.phase with
  | .running executor => some { s with phase := .running { executor with point := .done } }
  | _ => none

/-- The end of `_run`. -/
def close (s : MeteredInteraction) : Option MeteredInteraction :=
  match s.phase with
  | .running executor =>
    if executor.point = .done then
      some { s with phase := .over, vars := s.vars.setUsageContext none }
    else none
  | _ => none

/-- **One step of the metering.** -/
def step (thinkingEnabled : Bool) (s : MeteredInteraction) :
    MeteredAction → Option MeteredInteraction
  | .start question => s.start question
  | .call record now => s.call record now
  | .authorized granted => s.authorized granted
  | .accept now stored => s.accept now stored
  | .claim claimed => s.claim claimed
  | .move move now elapsedMs stored => s.move thinkingEnabled move now elapsedMs stored
  | .cancelled => s.cancelled
  | .close => s.close

end MeteredInteraction

/-- **The machine of one interaction's metering.** -/
def meteringMachine (thinkingEnabled : Bool) : Machine MeteredInteraction MeteredAction :=
  ⟨MeteredInteraction.initial, MeteredInteraction.step thinkingEnabled⟩
