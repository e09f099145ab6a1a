import FactoryAgent.Session.RunState

/-!
# The executor and its pipeline

One claimed run, from the stop point before any work to the end of its task: `_run`, `_pipeline`,
`_authorize_request`, `_run_analysis` and `_complete_result` of `application/session/pipeline.py`, with
the transcript frames of `narration.py` in between. The control flow is a machine whose points
(`Point`) are the places where the task awaits something, and whose moves (`Move`) are what it awaits:
the verdict of a cooperative stop point, a commit, an answer of a collaborator. What a collaborator
answers – a parse, a denial, a result, an exception – is in the move.

A commit is built from the run state in memory. Whether the store accepts it is not the executor's
to decide, so a move with a commit has two continuations (`Performed`): the one after the store
accepted it, and the one after it raised. In the second the run state keeps what was already changed
in memory, and the exception goes to the handler of `_run`, or out of the task where the handler
itself was running.
-/

/-- The verdicts of a cooperative stop point that end the run. -/
inductive Stop where
  | cancelled
  | runTimeout
  deriving DecidableEq, Repr

/-- What reaches the handler of `_run`: the run control's own stop, or any other exception. -/
inductive Raised where
  | runStopped (code : String)
  | exception
  deriving DecidableEq, Repr

/-- How a branch of the pipeline asks for the round to end. -/
inductive Request where
  | clarify (question : String)
  | chat (text : String)
  | result (facts : ResultFacts)
  | terminate (ending : Termination)
  deriving DecidableEq

/-- A requested ending with what was read before the transcript was closed. `stopped` finishes the
transcript and nothing else: the terminal of a cancelled run is the cancel API's. -/
inductive Ending where
  | clarify (question : String) (clarifying : InteractionRecord)
  | chat (text : String) (answered : InteractionRecord) (now : Instant)
  | result (facts : ResultFacts)
  | terminate (ending : Termination) (now : Instant)
  | stopped
  deriving DecidableEq

/-- **The points of a run.** -/
inductive Point where
  /-- Before the stop point that precedes any work. -/
  | claimed
  /-- Past it; the `started` commit is next. -/
  | starting
  /-- The first stop point of the pipeline. -/
  | entering
  /-- The transcript is open; the parse is about to be announced. -/
  | announcingParse
  /-- The parse is under way, narrated. -/
  | parsing
  /-- A business capability was routed; the authorization chain is about to be announced. -/
  | announcingAuthorize
  /-- The authorization chain is under way. -/
  | authorizing
  /-- The stop point before the business-data call. -/
  | fetchGate
  /-- The fetch facts are stated; the two stage transitions are next. -/
  | stating
  /-- The business-data call is under way, narrated. -/
  | fetching
  /-- The stop point before the answer is composed. -/
  | composeGate
  /-- The `COMPOSING` transition is next. -/
  | composing
  /-- The answer is composed. -/
  | answering
  /-- The analysis branch; its announcement is next. -/
  | announcingAnalysis
  /-- The analysis is announced; its two stage transitions are next. -/
  | preparingAnalysis
  /-- The analysis runner is at work. -/
  | analysing
  /-- The stop point after the analysis. -/
  | analysisGate
  /-- The outcome of the analysis is read. -/
  | analysed
  /-- The transcript is about to be closed. -/
  | closing (ending : Ending)
  /-- The end marker is stored; the transcript message is next. -/
  | recording (ending : Ending)
  /-- The commit that ends the round is next. -/
  | finishing (ending : Ending)
  /-- The round ended; its history entry is next. -/
  | recordingHistory
  /-- The task is over. -/
  | done
  deriving DecidableEq

/-- **What a run awaits at a point.** -/
inductive Move where
  /-- The verdict of a stop point. -/
  | stopPoint (verdict : Option Stop)
  /-- The commit of `interaction.started`. -/
  | started
  /-- A progress announcement. -/
  | announce (reason : String)
  /-- One released frame of the transcript. -/
  | frame (text : String)
  /-- The stage transitions of the point, in one commit. -/
  | phases
  /-- A metering event of a model call or of the routing joins the run's list. -/
  | meter (event : UsageEvent)
  /-- The work of the point succeeded and the pipeline goes on. -/
  | pass
  /-- The parse was routed to the analysis branch. -/
  | toAnalysis
  /-- A branch ends the round. -/
  | request (request : Request)
  /-- The first half of `_close_transcript`. -/
  | close
  /-- The second half of `_close_transcript`. -/
  | record
  /-- The commit that ends the round. -/
  | finish
  /-- The history entry was recorded. -/
  | history
  /-- An await raised. -/
  | raise (error : Raised)
  deriving DecidableEq

/-- **A run as its task holds it.** -/
structure Executor where
  point : Point
  run : RunState
  /-- The in-process cancel event. -/
  cancelRequested : Bool
  /-- Whether the handler of `_run` is running. -/
  handling : Bool
  deriving DecidableEq

namespace Point

/-- The stop points. -/
def isStopPoint : Point → Bool
  | claimed | entering | fetchGate | composeGate | analysisGate => true
  | _ => false

/-- The point after a stop point whose verdict was to go on. -/
def afterStopPoint : Point → Point
  | claimed => starting
  | entering => announcingParse
  | fetchGate => stating
  | composeGate => composing
  | analysisGate => analysed
  | point => point

/-- Where progress is announced with which reason, and where that leads. -/
def announced : Point → String → Option Point
  | announcingParse, reason => if reason = "parse_started" then some parsing else none
  | announcingAuthorize, reason => if reason = "authorize_started" then some authorizing else none
  | authorizing, reason => if reason = "scope_resolution_started" then some authorizing else none
  | announcingAnalysis, reason => if reason = "analysis_started" then some preparingAnalysis else none
  | analysing, reason =>
    if reason = "analysis_plan" ∨ reason = "analysis_tool" ∨ reason = "analysis_repair"
    then some analysing else none
  | _, _ => none

/-- Where frames of the transcript are released. -/
def narrates : Point → Bool
  | parsing | authorizing | stating | fetching | preparingAnalysis | answering => true
  | _ => false

/-- The stage transitions committed at a point, and the point after them. -/
def transitions : Point → Option (List (SessionState × String) × Point)
  | stating =>
    some ([(.authorizing, "intent_complete"), (.executing, "authorized")], fetching)
  | preparingAnalysis =>
    some ([(.authorizing, "analysis_request"), (.executing, "analysis_authorized")], analysing)
  | composing => some ([(.composing, "execution_complete")], answering)
  | _ => none

/-- Where the work of a point leads when it succeeds. -/
def afterWork : Point → Option Point
  | parsing => some announcingAuthorize
  | authorizing => some fetchGate
  | fetching => some composeGate
  | analysing => some analysisGate
  | analysed => some composing
  | _ => none

/-- Which endings a branch of the point can request. -/
def mayRequest : Point → Request → Bool
  | parsing, .clarify _ | parsing, .chat _ | parsing, .terminate _ => true
  | authorizing, .clarify _ | authorizing, .terminate _ => true
  | fetching, .terminate _ => true
  | analysed, .clarify _ | analysed, .terminate _ => true
  | answering, .result _ => true
  | _, _ => false

/-- The points outside the handler's reach: an exception there leaves the task. -/
def isUnguarded : Point → Bool
  | claimed | starting | done => true
  | _ => false

end Point

/-- `_fail` with the text every failure without a notice of its own carries. -/
def Termination.failure (category : String) : Termination :=
  ⟨.failed, category, "查询未能完成。"⟩

namespace Executor

/-- The executor as `_spawn_executor` creates it. -/
def spawn (claimed : InteractionRecord) : Executor where
  point := .claimed
  run := RunState.ofClaimed claimed 0
  cancelRequested := false
  handling := false

/-- What the handler of `_run` does with what reached it. -/
def handlerEnding (error : Raised) (now : Instant) : Ending :=
  match error with
  | .runStopped code =>
    if code = "cancelled" then .stopped
    else if code = "deadline_exceeded" then .terminate (.failure "run_timeout") now
    else .terminate (.failure code) now
  | .exception => .terminate (.failure "executor_lost") now

/-- **An exception**: to the handler, or out of the task. -/
def raised (executor : Executor) (error : Raised) (now : Instant) : Executor :=
  if executor.handling ∨ executor.point.isUnguarded = true then { executor with point := .done }
  else { executor with point := .closing (handlerEnding error now), handling := true }

/-- A move carried out: the executor after the store accepted the commit, the executor after it
raised, and the commit if there is one. -/
structure Performed where
  stored : Executor
  refused : Executor
  commit : Option InteractionCommit
  deriving DecidableEq

/-- A move without a commit. -/
def silent (executor : Executor) : Performed := ⟨executor, executor, none⟩

/-- A move with a commit, from the executor as it stands in memory when the commit is made. -/
def commits (executor : Executor) (next : Point) (run : RunState) (commit : InteractionCommit)
    (now : Instant) : Performed where
  stored := { executor with point := next, run := run }
  refused := { executor with run := run }.raised .exception now
  commit := some commit

/-- The point after the commit that ended the round: history once, and not from the handler. -/
def afterFinish (executor : Executor) : Point :=
  if executor.handling then .done else .recordingHistory

/-- Take up a requested ending. A clarification and a chat answer take their state transition before
the transcript is closed, and an illegal one raises. -/
def begin (executor : Executor) (request : Request) (now : Instant) : Executor :=
  match request with
  | .clarify question =>
    match executor.run.record.advance .clarifying "slots_missing" now with
    | none => executor.raised .exception now
    | some clarifying => { executor with point := .closing (.clarify question clarifying) }
  | .chat text =>
    match executor.run.record.advance .answered "chat_answer" now with
    | none => executor.raised .exception now
    | some answered => { executor with point := .closing (.chat text answered now) }
  | .result facts => { executor with point := .closing (.result facts) }
  | .terminate ending => { executor with point := .closing (.terminate ending now) }

/-- The commit that ends the round, or the run state at the raise. -/
def endingCommit (run : RunState) (ending : Ending) (reading : Reading) :
    Except RunState (RunState × InteractionCommit) :=
  match ending with
  | .clarify question clarifying => .ok (run.clarifyMessage clarifying question reading)
  | .chat text answered now => .ok (run.chatWithText answered now text reading)
  | .result facts => run.completeResult facts reading
  | .terminate ending now => run.terminate ending now reading
  | .stopped => .error run

/-- The executor past a stop point with its verdict. -/
def stopPoint (executor : Executor) (verdict : Option Stop) (now : Instant)
    (thinkingEnabled : Bool) : Executor :=
  match verdict with
  | none =>
    { executor with
      point := executor.point.afterStopPoint
      run := if executor.point = .entering then executor.run.startTranscript thinkingEnabled
             else executor.run }
  | some stop =>
    if executor.point = .claimed then { executor with point := .done }
    else
      match stop with
      | .cancelled => { executor with point := .closing .stopped }
      | .runTimeout =>
        { executor with point := .closing (.terminate (.failure "run_timeout") now) }

/-- **One move of a run.** A move that the point does not await is not enabled. -/
def perform (executor : Executor) (move : Move) (reading : Reading) (thinkingEnabled : Bool) :
    Option Performed :=
  match move with
  | .stopPoint verdict =>
    if executor.point.isStopPoint then
      some (executor.stopPoint verdict reading.now thinkingEnabled).silent
    else none
  | .started =>
    if executor.point = .starting then
      let (run, commit) := executor.run.started reading
      some (executor.commits .entering run commit reading.now)
    else none
  | .announce reason =>
    (executor.point.announced reason).map (fun next =>
      let (run, commit) := executor.run.progress reason reading
      executor.commits next run commit reading.now)
  | .frame text =>
    if executor.point.narrates then
      (executor.run.frame text reading).map (fun (run, commit) =>
        executor.commits executor.point run commit reading.now)
    else none
  | .phases =>
    executor.point.transitions.map (fun (transitions, next) =>
      match executor.run.phases transitions reading with
      | .error run => ({ executor with run := run }.raised .exception reading.now).silent
      | .ok (run, commit) => executor.commits next run commit reading.now)
  | .meter event =>
    if executor.point.narrates ∧ event.eventType ≠ .interactionCompleted then
      some { executor with
        run := { executor.run with usageEvents := executor.run.usageEvents ++ [event] } }.silent
    else none
  | .pass =>
    executor.point.afterWork.map (fun next => { executor with point := next }.silent)
  | .toAnalysis =>
    if executor.point = .parsing then
      some { executor with point := .announcingAnalysis }.silent
    else none
  | .request request =>
    if executor.point.mayRequest request then
      some (executor.begin request reading.now).silent
    else none
  | .close =>
    match executor.point with
    | .closing ending =>
      match executor.run.closeTranscript reading with
      | (run, none) => some { executor with run := run, point := .finishing ending }.silent
      | (run, some commit) => some (executor.commits (.recording ending) run commit reading.now)
    | _ => none
  | .record =>
    match executor.point with
    | .recording ending =>
      match executor.run.recordThinkingMessage reading with
      | none => some { executor with point := .finishing ending }.silent
      | some commit =>
        some (executor.commits (.finishing ending) executor.run commit reading.now)
    | _ => none
  | .finish =>
    match executor.point with
    | .finishing .stopped => some { executor with point := .done }.silent
    | .finishing ending =>
      match endingCommit executor.run ending reading with
      | .error run => some ({ executor with run := run }.raised .exception reading.now).silent
      | .ok (run, commit) =>
        some (executor.commits executor.afterFinish run commit reading.now)
    | _ => none
  | .history =>
    if executor.point = .recordingHistory then some { executor with point := .done }.silent
    else none
  | .raise error =>
    if executor.point = .done then none
    else some (executor.raised error reading.now).silent

end Executor
