import FactoryAgent.Session.Log
import FactoryAgent.Session.Solo

/-!
# The event discipline of a run

The log of an interaction is in order when nobody disturbs its run and its commits are accepted. Every
function that emits an event takes its number from the counter in memory and moves the record in
memory along, so while the run is under way the record in memory *is* the durable row
(`Executor.Tracked`). What is different from point to point is which endings are legal there and what
became of the transcript (`Point.Placed`).

The discipline fails in three places, which the guard `World.Undisturbed` names. `_run` records the
history entry inside the handler's reach, after the terminal event was stored, and an exception there
ends a completed round a second time. The stop point before any work returns without an event, also
where its verdict is the timeout. And an exception before `interaction.started` is outside the handler.
-/

/-! ## The run in memory -/

/-- The state in which a point of a round under way finds the record. -/
def Point.state? : Point → Option SessionState
  | .claimed | .starting | .entering | .announcingParse | .parsing | .announcingAuthorize
  | .authorizing | .fetchGate | .stating | .announcingAnalysis | .preparingAnalysis => some .parsing
  | .fetching | .composeGate | .composing | .analysing | .analysisGate | .analysed =>
    some .executing
  | .answering => some .composing
  | _ => none

/-- The points before the transcript is opened. -/
def Point.isEarly : Point → Bool
  | .claimed | .starting | .entering => true
  | _ => false

/-- The points after the transcript was closed. -/
def Point.isLate : Point → Bool
  | .recording _ | .finishing _ => true
  | _ => false

/-- An ending that is legal from a state. -/
def Ending.Fits (state : SessionState) : Ending → Prop
  | .clarify _ clarifying =>
    clarifying.state = .clarifying ∧ state.canTransition .clarifying = true
  | .chat _ answered _ => answered.state = .answered ∧ state.canTransition .answered = true
  | .result _ => state.canTransition .answered = true
  | .terminate ending _ => ending.status = .failed
  | .stopped => False

/-- The transcript was closed, or never opened. -/
def RunState.Shut (run : RunState) : Prop :=
  ∀ transcript ∈ run.transcript, transcript.closed = true

/-- **What a point says about the run in memory**, while the round is under way. -/
structure Point.Placed (point : Point) (run : RunState) : Prop where
  state : ∀ state, point.state? = some state → run.record.state = state
  early : point.isEarly = true → run.transcript = none
  ending : ∀ ending, point.ending? = some ending → ending.Fits run.record.state
  late : point.isLate = true → run.Shut
  active : point ≠ .recordingHistory ∧ point ≠ .done

namespace Executor

/-- **The record in memory is the durable row**, and the counter is the length of the log. -/
structure Tracked (key : String) (executor : Executor) (store : InteractionStore) : Prop where
  coherent : executor.Coherent key
  row : store.interaction = some executor.run.record
  watermark : executor.run.record.lastEventSequence = executor.run.sequence
  contiguous : store.events.rows.map (·.sequence) = List.range' 1 executor.run.sequence
  signal : executor.cancelRequested = false

/-- **A round under way.** -/
structure Underway (key : String) (executor : Executor) (store : InteractionStore) : Prop extends
    executor.Tracked key store where
  running : executor.run.record.status = .running
  plain : ∀ event ∈ store.events.rows, event.isOutcome = false
  frames : Framed store.events.rows (executor.run.transcript.elim 0 (·.seq))
  /-- While the transcript is open there is no end marker. -/
  undone : (∀ transcript ∈ executor.run.transcript, transcript.closed = false) →
    ∀ event ∈ store.events.rows, event.isThinking = true → event.isDone = false
  announces : Announces store.events.rows executor.run.record.state
  live : executor.run.record.state.isTerminal = false
  placed : executor.point.Placed executor.run

/-- The points of a task whose round is over. The handler is there only where the round failed and
its history entry could not be recorded, and it finds no legal transition. -/
def Overtime (executor : Executor) : Point → Prop
  | .recordingHistory => executor.handling = false ∧
      (executor.run.record.status = .completed ∨ executor.run.record.state = .failed)
  | .closing (.terminate ending _) | .finishing (.terminate ending _) =>
    executor.handling = true ∧ executor.run.record.state = .failed ∧ ending.status = .failed
  | .done => True
  | _ => False

/-- **A round that is over.** -/
structure Over (key : String) (executor : Executor) (store : InteractionStore) : Prop extends
    executor.Tracked key store where
  disciplined : store.Disciplined
  ended : store.Ended
  shut : executor.run.Shut
  overtime : executor.Overtime executor.point

variable {key : String} {executor executor' : Executor} {store store' : InteractionStore}

/-- The counter is the length of the log. -/
theorem Tracked.length (h : executor.Tracked key store) :
    store.events.rows.length = executor.run.sequence := by
  have hlength := congrArg List.length h.contiguous
  rwa [List.length_map, List.length_range'] at hlength

/-- Nothing outruns the counter. -/
theorem Tracked.bound (h : executor.Tracked key store) :
    ∀ row ∈ store.events.rows, row.sequence ≤ executor.run.sequence := by
  intro row hrow
  have hmem : row.sequence ∈ store.events.rows.map (·.sequence) := List.mem_map_of_mem hrow
  rw [h.contiguous, List.mem_range'_1] at hmem
  omega

/-- **The log of a round under way is in order.** -/
theorem Underway.disciplined (h : executor.Underway key store) : store.Disciplined where
  contiguous := h.length ▸ h.contiguous
  watermark := fun row hrow => by
    rw [h.row, Option.mem_some] at hrow
    rw [← hrow, h.watermark, h.length]
  terminalLast := List.pairwise_of_forall_mem_list fun event hevent _ _ => by
    have := h.plain event hevent
    simp only [SessionEvent.isOutcome, Bool.or_eq_false_iff] at this
    exact this.2
  framesFirst := List.pairwise_of_forall_mem_list fun event hevent _ _ houtcome => by
    rw [h.plain event hevent] at houtcome
    cases houtcome
  frames := ⟨_, h.frames⟩
  legal := fun row hrow => by
    rw [h.row, Option.mem_some] at hrow
    exact ⟨_, h.announces, Or.inl (congrArg _ hrow.symm)⟩

/-! ### Moves in general -/

/-- Only `request_cancel` sets the cancel event. -/
theorem perform_cancelRequested {move : Move} {reading : Reading} {enabled : Bool} {p : Performed}
    (h : executor.perform move reading enabled = some p) :
    p.stored.cancelRequested = executor.cancelRequested := by
  have hraised : ∀ (e : Executor) (error : Raised) (now : Instant),
      (e.raised error now).cancelRequested = e.cancelRequested := by
    intro e error now
    unfold Executor.raised
    split <;> rfl
  have hbegin : ∀ (request : Request) (now : Instant),
      (executor.begin request now).cancelRequested = executor.cancelRequested := by
    intro request now
    unfold Executor.begin
    cases request <;> dsimp only <;> (try split) <;> simp [hraised]
  have hstop : ∀ (verdict : Option Stop) (now : Instant),
      (executor.stopPoint verdict now enabled).cancelRequested = executor.cancelRequested := by
    intro verdict now
    unfold Executor.stopPoint
    split
    · rfl
    · split
      · rfl
      · split <;> rfl
  unfold perform at h
  cases move with
  | announce reason | pass =>
    obtain ⟨next, -, rfl⟩ := Option.map_eq_some_iff.mp h
    rfl
  | phases =>
    obtain ⟨next, -, rfl⟩ := Option.map_eq_some_iff.mp h
    dsimp only
    split
    · exact hraised _ _ _
    · rfl
  | frame text =>
    dsimp only at h
    split at h
    · obtain ⟨next, -, rfl⟩ := Option.map_eq_some_iff.mp h
      rfl
    · cases h
  | stopPoint verdict =>
    dsimp only at h
    split at h <;> cases h
    exact hstop _ _
  | request request =>
    dsimp only at h
    split at h <;> cases h
    exact hbegin _ _
  | raise error =>
    dsimp only at h
    split at h <;> cases h
    exact hraised _ _ _
  | finish =>
    dsimp only at h
    split at h
    · cases h
      rfl
    · split at h <;> cases h
      · exact hraised _ _ _
      · rfl
    · cases h
  | close | record =>
    dsimp only at h
    split at h
    · split at h <;> cases h <;> rfl
    · cases h
  | started | meter event | toAnalysis | history =>
    dsimp only at h
    split at h <;> cases h
    rfl

/-- A move without a commit keeps the run tracked, if it keeps the record and the counter. -/
theorem Tracked.silent (h : executor.Tracked key store) (hcoherent : executor'.Coherent key)
    (hsignal : executor'.cancelRequested = executor.cancelRequested)
    (hrecord : executor'.run.record = executor.run.record)
    (hsequence : executor'.run.sequence = executor.run.sequence) :
    executor'.Tracked key store where
  coherent := hcoherent
  row := hrecord ▸ h.row
  watermark := by rw [hrecord, hsequence, h.watermark]
  contiguous := by rw [hsequence, h.contiguous]
  signal := hsignal.trans h.signal

/-- **An accepted commit keeps the run tracked, and its events are appended.** An informational
commit moves the watermark and the liveness timestamp of the row, and nothing else may have moved in
memory. -/
theorem Tracked.commit {p : Performed} {c : InteractionCommit} {reading : Reading}
    {outcome : WriteOutcome} (h : executor.Tracked key store)
    (hsound : Performed.Sound key executor reading.nextId p)
    (hsignal : p.stored.cancelRequested = executor.cancelRequested) (hc : p.commit = some c)
    (htouch : c.lifecycle = false → executor.run.record.touch c.interaction = c.interaction)
    (hwrite : store.write c outcome = some store') (houtcome : outcome ≠ .rolledBack) :
    p.stored.Tracked key store' ∧ store'.events.rows = store.events.rows ++ c.events := by
  have hemits := hsound.commit c hc
  have hwritten : store'.interaction = store.rowAfter c
      ∧ store'.events = store.events.upsertAll c.events := by
    cases outcome with
    | rolledBack => exact absurd rfl houtcome
    | unmetered =>
      obtain ⟨hrow, -, hevents, -⟩ := InteractionStore.commit_eq_some hwrite
      exact ⟨hrow, hevents⟩
    | stored =>
      obtain ⟨committed, hcommitted, rfl⟩ := Option.map_eq_some_iff.mp hwrite
      obtain ⟨hrow, -, hevents, -⟩ := InteractionStore.commit_eq_some hcommitted
      exact ⟨hrow, hevents⟩
  have hrows : store'.events.rows = store.events.rows ++ c.events := by
    rw [hwritten.2]
    exact EventLog.rows_upsertAll h.bound hemits.numbered
  have hrow : store.rowAfter c = some c.interaction := by
    unfold InteractionStore.rowAfter
    cases hlifecycle : c.lifecycle with
    | true => rfl
    | false => simp [h.row, htouch hlifecycle]
  refine ⟨⟨hsound.stored, ?_, ?_, ?_, hsignal.trans h.signal⟩, hrows⟩
  · rw [hwritten.1, hrow, hemits.record]
  · rw [← hemits.record, hemits.watermark]
  · rw [hrows, List.map_append, h.contiguous, hemits.numbered, hemits.counter,
      Nat.add_comm executor.run.sequence 1, List.range'_append_1]

/-! ### Points -/

/-- A working point is placed if the record is in its state. -/
theorem placed_of_state {point : Point} {run : RunState}
    (hstate : point.state? = some run.record.state)
    (hearly : point.isEarly = true → run.transcript = none) : point.Placed run where
  state := fun state h => by
    rw [hstate] at h
    exact Option.some.inj h
  early := hearly
  ending := fun ending h => by
    cases point <;> simp [Point.state?] at hstate <;> cases h
  late := fun h => by
    cases point <;> simp [Point.state?] at hstate <;> cases h
  active := by
    constructor <;> rintro rfl <;> cases hstate

/-- An ending that was requested is placed if it is legal. -/
theorem placed_closing {ending : Ending} {run : RunState} (h : ending.Fits run.record.state) :
    (Point.closing ending).Placed run where
  state := fun _ h => by cases h
  early := fun h => by cases h
  ending := fun _ he => by
    cases he
    exact h
  late := fun h => by cases h
  active := by simp

/-- After the transcript was closed an ending is placed if it is legal. -/
theorem placed_late {point : Point} {ending : Ending} {run : RunState}
    (hpoint : point = .recording ending ∨ point = .finishing ending)
    (h : ending.Fits run.record.state) (hshut : run.Shut) : point.Placed run := by
  have hending : ∀ e, point.ending? = some e → e = ending := by
    obtain rfl | rfl := hpoint <;> exact fun e he => (Option.some.inj he).symm
  refine ⟨?_, ?_, fun e he => hending e he ▸ h, fun _ => hshut, ?_⟩
  · obtain rfl | rfl := hpoint <;> exact fun _ h => nomatch h
  · obtain rfl | rfl := hpoint <;> exact fun h => nomatch h
  · obtain rfl | rfl := hpoint <;> simp

/-- Where a point leads without a transition, the record is in the same state. -/
theorem state?_of_announced {point next : Point} {reason : String}
    (h : point.announced reason = some next) :
    next.state? = point.state? ∧ point.state?.isSome = true ∧ next.isEarly = false := by
  unfold Point.announced at h
  split at h <;> (try split at h) <;> cases h <;> exact ⟨rfl, rfl, rfl⟩

theorem state?_of_afterWork {point next : Point} (h : point.afterWork = some next) :
    next.state? = point.state? ∧ point.state?.isSome = true ∧ next.isEarly = false := by
  unfold Point.afterWork at h
  split at h <;> cases h <;> exact ⟨rfl, rfl, rfl⟩

theorem state?_of_stopPoint {point : Point} (h : point.isStopPoint = true) :
    point.afterStopPoint.state? = point.state? ∧ point.state?.isSome = true
      ∧ (point ≠ .entering → point.afterStopPoint.isEarly = true → point.isEarly = true)
      ∧ Point.entering.afterStopPoint.isEarly = false := by
  revert h
  cases point <;> simp [Point.isStopPoint, Point.afterStopPoint, Point.state?, Point.isEarly]

theorem state?_of_narrates {point : Point} (h : point.narrates = true) :
    point.state?.isSome = true ∧ point.isEarly = false := by
  revert h
  cases point <;> simp [Point.narrates, Point.state?, Point.isEarly]

theorem state?_of_mayRequest {point : Point} {request : Request}
    (h : point.mayRequest request = true) : point.state?.isSome = true := by
  unfold Point.mayRequest at h
  split at h <;> first | rfl | cases h

/-- The state of a record at a point with a state. -/
theorem Underway.state_eq (h : executor.Underway key store)
    (hsome : executor.point.state?.isSome = true) :
    executor.point.state? = some executor.run.record.state := by
  obtain ⟨state, hstate⟩ := Option.isSome_iff_exists.mp hsome
  rw [hstate, h.placed.state state hstate]

/-- The endings a branch requests are legal where it requests them. -/
theorem fits_of_mayRequest {point : Point} {request : Request} {state : SessionState}
    (h : point.mayRequest request = true) (hstate : point.state? = some state) :
    match request with
    | .clarify _ => state.canTransition .clarifying = true
    | .chat _ | .result _ => state.canTransition .answered = true
    | .terminate _ => True := by
  unfold Point.mayRequest at h
  split at h <;> first | (cases hstate; rfl) | (cases hstate; trivial) | cases h

/-! ### A round under way -/

/-- A move without a commit keeps a round under way, if it leaves the record, the counter and the
frames as they are. -/
theorem Underway.silent (h : executor.Underway key store) (hcoherent : executor'.Coherent key)
    (hsignal : executor'.cancelRequested = executor.cancelRequested)
    (hrecord : executor'.run.record = executor.run.record)
    (hsequence : executor'.run.sequence = executor.run.sequence)
    (hcount : executor'.run.transcript.elim 0 (·.seq) = executor.run.transcript.elim 0 (·.seq))
    (hopen : (∀ transcript ∈ executor'.run.transcript, transcript.closed = false) →
      ∀ transcript ∈ executor.run.transcript, transcript.closed = false)
    (hplaced : executor'.point.Placed executor'.run) : executor'.Underway key store where
  toTracked := h.toTracked.silent hcoherent hsignal hrecord hsequence
  running := hrecord ▸ h.running
  plain := h.plain
  frames := hcount ▸ h.frames
  undone := fun ho => h.undone (hopen ho)
  announces := hrecord ▸ h.announces
  live := hrecord ▸ h.live
  placed := hplaced

/-- A move that leaves the run in memory as it is. -/
theorem Underway.of_run (h : executor.Underway key store) (hcoherent : executor'.Coherent key)
    (hsignal : executor'.cancelRequested = executor.cancelRequested)
    (hrun : executor'.run = executor.run) (hplaced : executor'.point.Placed executor'.run) :
    executor'.Underway key store :=
  h.silent hcoherent hsignal (congrArg _ hrun) (congrArg _ hrun) (by rw [hrun]) (hrun ▸ id) hplaced

/-- One more event, which is neither a transition nor a frame nor an outcome. -/
theorem Underway.extended {event : SessionEvent} (h : executor.Underway key store)
    (htracked : executor'.Tracked key store')
    (hrows : store'.events.rows = store.events.rows ++ [event])
    (hname : event.isOutcome = false ∧ event.isThinking = false ∧ event.name ≠ .phase)
    (hstatus : executor'.run.record.status = .running)
    (hstate : executor'.run.record.state = executor.run.record.state)
    (htranscript : executor'.run.transcript = executor.run.transcript)
    (hplaced : executor'.point.Placed executor'.run) : executor'.Underway key store' where
  toTracked := htracked
  running := hstatus
  plain := fun e he => by
    rw [hrows] at he
    rcases List.mem_append.mp he with he | he
    · exact h.plain e he
    · exact List.mem_singleton.mp he ▸ hname.1
  frames := by
    rw [hrows, htranscript]
    exact h.frames.append (fun e he => List.mem_singleton.mp he ▸ hname.2.1)
  undone := fun ho e he hthinking => by
    rw [hrows] at he
    rcases List.mem_append.mp he with he | he
    · exact h.undone (htranscript ▸ ho) e he hthinking
    · rw [List.mem_singleton.mp he, hname.2.1] at hthinking
      cases hthinking
  announces := by
    rw [hrows, hstate]
    exact h.announces.other hname.2.2
  live := hstate ▸ h.live
  placed := hplaced

/-- One more frame, while the transcript is open. It may be the end marker if it closes it. -/
theorem Underway.narrated {event : SessionEvent} {transcript transcript' : ThinkingTranscript}
    (h : executor.Underway key store) (htracked : executor'.Tracked key store')
    (hrows : store'.events.rows = store.events.rows ++ [event]) (hname : event.name = .thinking)
    (hseq : event.data.lookup "seq" = some (.number (transcript.seq + 1 : Nat)))
    (hdone : transcript'.closed = false → event.isDone = false)
    (htranscript : executor.run.transcript = some transcript) (hopen : transcript.closed = false)
    (htranscript' : executor'.run.transcript = some transcript')
    (hcount : transcript'.seq = transcript.seq + 1)
    (hstatus : executor'.run.record.status = .running)
    (hstate : executor'.run.record.state = executor.run.record.state)
    (hplaced : executor'.point.Placed executor'.run) : executor'.Underway key store' := by
  have hundone := h.undone (fun t ht => by
    rw [htranscript, Option.mem_some] at ht
    exact ht ▸ hopen)
  have hframes := h.frames
  rw [htranscript, Option.elim_some] at hframes
  refine
    { toTracked := htracked, running := hstatus, plain := fun e he => ?_, frames := ?_
      undone := fun ho e he hthinking => ?_, announces := ?_, live := hstate ▸ h.live
      placed := hplaced }
  · rw [hrows] at he
    rcases List.mem_append.mp he with he | he
    · exact h.plain e he
    · rw [List.mem_singleton.mp he, SessionEvent.isOutcome, hname]
      rfl
  · rw [hrows, htranscript', Option.elim_some, hcount]
    exact hframes.frame hundone (by simp [SessionEvent.isThinking, hname]) hseq
  · rw [hrows] at he
    rcases List.mem_append.mp he with he | he
    · exact hundone e he hthinking
    · rw [List.mem_singleton.mp he]
      exact hdone (ho transcript' htranscript')
  · rw [hrows, hstate]
    exact h.announces.other (by simp [hname])

/-- What reaches the handler fails the round, unless the run was cancelled. -/
theorem handlerEnding_eq {error : Raised} (now : Instant) (h : error ≠ .runStopped "cancelled") :
    ∃ ending, handlerEnding error now = .terminate ending now ∧ ending.status = .failed := by
  cases error with
  | exception => exact ⟨_, rfl, rfl⟩
  | runStopped code =>
    unfold handlerEnding
    dsimp only
    rw [if_neg (by rintro rfl; exact h rfl)]
    split <;> exact ⟨_, rfl, rfl⟩

/-- **An exception hands a round under way to the handler**, where it is failed. -/
theorem Underway.raised {error : Raised} {now : Instant} (h : executor.Underway key store)
    (hhandling : executor.handling = false) (hguarded : executor.point.isUnguarded = false)
    (hcode : error ≠ .runStopped "cancelled") :
    (executor.raised error now).Underway key store := by
  have heq : executor.raised error now
      = { executor with point := .closing (handlerEnding error now), handling := true } := by
    unfold Executor.raised
    rw [if_neg (by simp [hhandling, hguarded])]
  obtain ⟨ending, hending, hstatus⟩ := handlerEnding_eq now hcode
  refine h.of_run (Coherent.raised h.coherent.run) ?_ (raised_run _ _) ?_ <;> rw [heq, hending]
  exact placed_closing hstatus

/-- **A requested ending is legal**, and takes a round under way to the close of its transcript. -/
theorem Underway.begin {request : Request} {now : Instant} (h : executor.Underway key store)
    (hmay : executor.point.mayRequest request = true)
    (hgenuine : ∀ ending, request = .terminate ending → ending.status = .failed) :
    (executor.begin request now).Underway key store := by
  have hcoherent : (executor.begin request now).Coherent key := h.coherent.begin
  have hlegal := fits_of_mayRequest hmay (h.state_eq (state?_of_mayRequest hmay))
  cases request with
  | clarify question =>
    have hadvance := executor.run.record.advance_of_canTransition hlegal "slots_missing" now
    simp only [Executor.begin, hadvance] at hcoherent ⊢
    exact h.of_run hcoherent rfl rfl (placed_closing ⟨rfl, hlegal⟩)
  | chat text =>
    have hadvance := executor.run.record.advance_of_canTransition hlegal "chat_answer" now
    simp only [Executor.begin, hadvance] at hcoherent ⊢
    exact h.of_run hcoherent rfl rfl (placed_closing ⟨rfl, hlegal⟩)
  | result facts => exact h.of_run hcoherent rfl rfl (placed_closing hlegal)
  | terminate ending =>
    exact h.of_run hcoherent rfl rfl (placed_closing (hgenuine ending rfl))

/-- **Past a stop point a round is under way**, where it is not the timeout before any work. -/
theorem Underway.stopPoint {verdict : Option Stop} {now : Instant} {enabled : Bool}
    (h : executor.Underway key store) (hpoint : executor.point.isStopPoint = true)
    (hcancelled : verdict ≠ some .cancelled)
    (hguarded : executor.point = .claimed → verdict ≠ some .runTimeout) :
    (executor.stopPoint verdict now enabled).Underway key store := by
  have hcoherent : (executor.stopPoint verdict now enabled).Coherent key :=
    h.coherent.stopPoint hpoint
  obtain ⟨hnext, hsome, hearly, hopened⟩ := state?_of_stopPoint hpoint
  have hstate := h.state_eq hsome
  match verdict with
  | none =>
    by_cases hentering : executor.point = .entering
    · -- the transcript is opened here, and there was none before
      have hnone := h.placed.early (by rw [hentering]; rfl)
      have heq : executor.stopPoint none now enabled
          = { executor with
              point := executor.point.afterStopPoint, run := executor.run.startTranscript enabled } := by
        simp [Executor.stopPoint, hentering]
      rw [heq] at hcoherent ⊢
      refine h.silent hcoherent rfl rfl rfl ?_ ?_ (placed_of_state (hnext.trans hstate) ?_)
      · simp [RunState.startTranscript, hnone]
      · intro _ transcript ht
        rw [hnone] at ht
        cases ht
      · intro he
        rw [hentering, hopened] at he
        cases he
    · have heq : executor.stopPoint none now enabled
          = { executor with point := executor.point.afterStopPoint } := by
        simp [Executor.stopPoint, hentering]
      rw [heq] at hcoherent ⊢
      exact h.of_run hcoherent rfl rfl (placed_of_state (hnext.trans hstate)
        (fun he => h.placed.early (hearly hentering he)))
  | some .cancelled => exact absurd rfl hcancelled
  | some .runTimeout =>
    have hclaimed : executor.point ≠ .claimed := fun hc => hguarded hc rfl
    have heq : executor.stopPoint (some .runTimeout) now enabled
        = { executor with point := .closing (.terminate (.failure "run_timeout") now) } := by
      simp [Executor.stopPoint, hclaimed]
    rw [heq] at hcoherent ⊢
    exact h.of_run hcoherent rfl rfl (placed_closing rfl)

/-! ### The commits of a round under way -/

section Commits

variable {reading : Reading} {outcome : WriteOutcome}

theorem Underway.started (h : executor.Underway key store) (hpoint : executor.point = .starting)
    (hsound : Performed.Sound key executor reading.nextId
      (executor.commits .entering (executor.run.started reading).1 (executor.run.started reading).2
        reading.now))
    (hwrite : store.write (executor.run.started reading).2 outcome = some store')
    (houtcome : outcome ≠ .rolledBack) :
    Underway key { executor with point := .entering, run := (executor.run.started reading).1 }
      store' := by
  obtain ⟨htracked, hrows⟩ :=
    h.toTracked.commit hsound rfl rfl (fun hl => by cases hl) hwrite houtcome
  refine h.extended htracked hrows ⟨rfl, rfl, by simp⟩ rfl rfl rfl (placed_of_state ?_ fun _ => ?_)
  · have hstate := h.state_eq (by rw [hpoint]; rfl)
    rw [hpoint] at hstate
    exact hstate
  · exact h.placed.early (by rw [hpoint]; rfl)

theorem Underway.announced {next : Point} {reason : String} (h : executor.Underway key store)
    (hnext : executor.point.announced reason = some next)
    (hsound : Performed.Sound key executor reading.nextId
      (executor.commits next (executor.run.progress reason reading).1
        (executor.run.progress reason reading).2 reading.now))
    (hwrite : store.write (executor.run.progress reason reading).2 outcome = some store')
    (houtcome : outcome ≠ .rolledBack) :
    Underway key { executor with point := next, run := (executor.run.progress reason reading).1 }
      store' := by
  obtain ⟨htracked, hrows⟩ := h.toTracked.commit hsound rfl rfl (fun _ => rfl) hwrite houtcome
  obtain ⟨hsame, hsome, hearly⟩ := state?_of_announced hnext
  refine h.extended htracked hrows ⟨rfl, rfl, by simp⟩ h.running rfl rfl
    (placed_of_state (hsame.trans (h.state_eq hsome)) fun he => ?_)
  rw [hearly] at he
  cases he

theorem Underway.framed {text : String} {run : RunState} {c : InteractionCommit}
    (h : executor.Underway key store) (hnarrates : executor.point.narrates = true)
    (hframe : executor.run.frame text reading = some (run, c))
    (hsound : Performed.Sound key executor reading.nextId
      (executor.commits executor.point run c reading.now))
    (hwrite : store.write c outcome = some store') (houtcome : outcome ≠ .rolledBack) :
    Underway key { executor with run := run } store' := by
  obtain ⟨hsome, hearly⟩ := state?_of_narrates hnarrates
  have hstate := h.state_eq hsome
  unfold RunState.frame at hframe
  split at hframe
  · cases hframe
  · rename_i transcript htranscript
    split at hframe
    · cases hframe
    · rename_i hopen
      rw [not_or] at hopen
      cases hframe
      obtain ⟨htracked, hrows⟩ := h.toTracked.commit hsound rfl rfl (fun _ => rfl) hwrite houtcome
      exact h.narrated htracked hrows rfl rfl (fun _ => rfl) htranscript
        (eq_false_of_ne_true hopen.2) rfl rfl h.running rfl
        (placed_of_state hstate fun he => by rw [hearly] at he; cases he)

/-- **The end marker** is stored, and the transcript is closed. -/
theorem Underway.closed {ending : Ending} {run : RunState} {c : InteractionCommit}
    (h : executor.Underway key store) (hpoint : executor.point = .closing ending)
    (hclose : executor.run.closeTranscript reading = (run, some c))
    (hsound : Performed.Sound key executor reading.nextId
      (executor.commits (.recording ending) run c reading.now))
    (hwrite : store.write c outcome = some store') (houtcome : outcome ≠ .rolledBack) :
    Underway key { executor with point := .recording ending, run := run } store' := by
  have hfits := h.placed.ending ending (by rw [hpoint]; rfl)
  unfold RunState.closeTranscript at hclose
  split at hclose
  · cases hclose
  · rename_i transcript htranscript
    split at hclose
    · cases hclose
    · rename_i hopen
      dsimp only at hclose
      split at hclose
      · cases hclose
      · cases hclose
        obtain ⟨htracked, hrows⟩ :=
          h.toTracked.commit hsound rfl rfl (fun _ => rfl) hwrite houtcome
        refine h.narrated htracked hrows rfl rfl (fun ho => by cases ho) htranscript
          (eq_false_of_ne_true hopen) rfl rfl h.running rfl
          (placed_late (Or.inl rfl) hfits (fun t ht => ?_))
        cases ht
        rfl

/-- The transcript is closed without an end marker. -/
theorem Underway.closed_silently {ending : Ending} {run : RunState}
    (h : executor.Underway key store) (hpoint : executor.point = .closing ending)
    (hclose : executor.run.closeTranscript reading = (run, none))
    (hcoherent : Coherent key { executor with run := run, point := .finishing ending }) :
    Underway key { executor with run := run, point := .finishing ending } store := by
  have hfits := h.placed.ending ending (by rw [hpoint]; rfl)
  unfold RunState.closeTranscript at hclose
  split at hclose
  · rename_i htranscript
    cases hclose
    exact h.of_run hcoherent rfl rfl (placed_late (Or.inr rfl) hfits
      (fun t ht => by rw [htranscript] at ht; cases ht))
  · rename_i transcript htranscript
    split at hclose
    · rename_i hclosed
      cases hclose
      exact h.of_run hcoherent rfl rfl (placed_late (Or.inr rfl) hfits (fun t ht => by
        rw [htranscript, Option.mem_some] at ht
        exact ht ▸ hclosed))
    · dsimp only at hclose
      split at hclose
      · cases hclose
        refine h.silent hcoherent rfl rfl rfl ?_ (fun ho => ?_)
          (placed_late (Or.inr rfl) hfits (fun t ht => by cases ht; rfl))
        · simp [htranscript]
        · exact absurd (ho _ rfl) (by simp)
      · cases hclose

/-- The transcript message is stored. It takes no event. -/
theorem Underway.recorded {ending : Ending} {c : InteractionCommit}
    (h : executor.Underway key store) (hpoint : executor.point = .recording ending)
    (hrecord : executor.run.recordThinkingMessage reading = some c)
    (hsound : Performed.Sound key executor reading.nextId
      (executor.commits (.finishing ending) executor.run c reading.now))
    (hwrite : store.write c outcome = some store') (houtcome : outcome ≠ .rolledBack) :
    Underway key { executor with point := .finishing ending } store' := by
  have hfits := h.placed.ending ending (by rw [hpoint]; rfl)
  have hshut := h.placed.late (by rw [hpoint]; rfl)
  unfold RunState.recordThinkingMessage at hrecord
  split at hrecord
  · cases hrecord
  · split at hrecord
    · cases hrecord
    · cases hrecord
      obtain ⟨htracked, hrows⟩ := h.toTracked.commit hsound rfl rfl (fun _ => rfl) hwrite houtcome
      rw [List.append_nil] at hrows
      exact
        { toTracked := htracked, running := h.running, plain := hrows ▸ h.plain
          frames := hrows ▸ h.frames, undone := hrows ▸ h.undone, announces := hrows ▸ h.announces
          live := h.live, placed := placed_late (Or.inr rfl) hfits hshut }

/-! Stage transitions. -/

/-- **The transitions of a point are legal** in the state of the point, and lead to the state of the
next one. -/
theorem chain_of_transitions {point next : Point} {transitions : List (SessionState × String)}
    (h : point.transitions = some (transitions, next)) :
    ∃ state, point.state? = some state
      ∧ (state :: transitions.map (·.1)).IsChain
          (fun source target => source.canTransition target = true)
      ∧ next.state? = some ((transitions.map (·.1)).getLastD state) ∧ next.isEarly = false := by
  unfold Point.transitions at h
  split at h <;> cases h <;> exact ⟨_, rfl, by decide, rfl, rfl⟩

/-- The state of a point is live. -/
theorem live_of_state? {point : Point} {state : SessionState} (h : point.state? = some state) :
    state.isTerminal = false := by
  unfold Point.state? at h
  split at h <;> cases h <;> rfl

theorem Underway.transited {next : Point} {transitions : List (SessionState × String)}
    {performed : Performed} (h : executor.Underway key store)
    (hnext : executor.point.transitions = some (transitions, next))
    (hperformed : performed = match executor.run.phases transitions reading with
      | .error run => ({ executor with run := run }.raised .exception reading.now).silent
      | .ok (run, commit) => executor.commits next run commit reading.now)
    (hsound : Performed.Sound key executor reading.nextId performed)
    (hwrite : ∀ c, performed.commit = some c → store.write c outcome = some store')
    (houtcome : outcome ≠ .rolledBack) : performed.stored.Underway key store' := by
  obtain ⟨state, hstate, hchain, hthere, hearly⟩ := chain_of_transitions hnext
  have hcurrent := h.placed.state state hstate
  rw [← hcurrent] at hchain hthere
  obtain ⟨events, run, hevents, hlast, hannounces⟩ :=
    executor.run.phaseEvents_announces reading hchain h.announces
  obtain ⟨htransits, -, -, hnames, -⟩ := RunState.phaseEvents_ok hevents
  rw [RunState.phases, hevents] at hperformed
  dsimp only at hperformed
  subst hperformed
  obtain ⟨htracked, hrows⟩ :=
    h.toTracked.commit hsound rfl rfl (fun hl => by cases hl) (hwrite _ rfl) houtcome
  dsimp only at hrows
  exact
    { toTracked := htracked
      running := htransits.status.trans h.running
      plain := fun e he => by
        rw [hrows] at he
        rcases List.mem_append.mp he with he | he
        · exact h.plain e he
        · rw [SessionEvent.isOutcome, hnames e he]
          rfl
      frames := by
        rw [hrows]
        show Framed _ (run.transcript.elim 0 (·.seq))
        rw [htransits.transcript]
        exact h.frames.append (fun e he => by simp [SessionEvent.isThinking, hnames e he])
      undone := fun ho e he hthinking => by
        rw [hrows] at he
        rcases List.mem_append.mp he with he | he
        · exact h.undone (htransits.transcript ▸ ho) e he hthinking
        · simp [SessionEvent.isThinking, hnames e he] at hthinking
      announces := by
        rw [hrows]
        exact hannounces
      live := live_of_state? (hthere.trans (congrArg some hlast.symm))
      placed := placed_of_state (hthere.trans (congrArg some hlast.symm))
        (fun he => nomatch hearly.symm.trans he) }


/-! The commit that ends the round. -/

/-- **What a commit that ends a round does**, next to its shape. -/
structure Concludes (run run' : RunState) (c : InteractionCommit) : Prop where
  lifecycle : c.lifecycle = true
  terminal : ∃ events terminal, c.events = events ++ [terminal] ∧ terminal.name.isTerminal = true
    ∧ ∀ event ∈ events, event.name.isTerminal = false
  quiet : ∀ event ∈ c.events, event.isThinking = false ∧ event.name ≠ .phase
  status : run'.record.status = .completed ∨ run'.record.state = .failed
  legal : run.record.state.canTransition run'.record.state = true
  transcript : run'.transcript = run.transcript

/-- **A legal ending goes through.** -/
theorem endingCommit_ok (reading : Reading) {ending : Ending} {run : RunState} (hfits : ending.Fits run.record.state)
    (hlive : run.record.state.isTerminal = false) :
    ∃ run' c, endingCommit run ending reading = .ok (run', c) := by
  cases ending with
  | clarify question clarifying => exact ⟨_, _, rfl⟩
  | chat text answered now => exact ⟨_, _, rfl⟩
  | result facts =>
    have hadvance := InteractionRecord.advance_of_canTransition
      { run.record with capabilityId := some facts.capabilityId } hfits "result_ready" reading.now
    simp [endingCommit, RunState.completeResult, hadvance]
  | terminate ending now =>
    have hstatus : ending.status = .failed := hfits
    have hadvance := run.record.advance_of_canTransition
      (SessionState.canTransition_failed_cancelled hlive).1 ending.category reading.now
    simp [endingCommit, RunState.terminate, hstatus, hadvance, terminalEventName]
  | stopped => exact absurd hfits id

/-- **A legal ending concludes the round.** -/
theorem concludes_of_endingCommit {ending : Ending} {run run' : RunState} {c : InteractionCommit}
    (hfits : ending.Fits run.record.state)
    (h : endingCommit run ending reading = .ok (run', c)) : Concludes run run' c := by
  cases ending with
  | clarify question clarifying =>
    cases h
    refine ⟨rfl, ⟨[_], _, rfl, rfl, ?_⟩, ?_, Or.inl rfl, hfits.1 ▸ hfits.2, rfl⟩
    · simp [EventName.isTerminal]
    · simp [SessionEvent.isThinking]
  | chat text answered now =>
    cases h
    refine ⟨rfl, ⟨[_], _, rfl, rfl, ?_⟩, ?_, Or.inl rfl, hfits.1 ▸ hfits.2, rfl⟩
    · simp [EventName.isTerminal]
    · simp [SessionEvent.isThinking]
  | result facts =>
    simp only [endingCommit, RunState.completeResult] at h
    split at h
    · cases h
    · rename_i answered hanswered
      obtain ⟨hlegal, rfl⟩ := InteractionRecord.advance_eq_some hanswered
      cases h
      refine ⟨rfl, ⟨[_], _, rfl, rfl, ?_⟩, ?_, Or.inl rfl, hlegal, rfl⟩
      · simp [EventName.isTerminal]
      · simp [SessionEvent.isThinking]
  | terminate ending now =>
    have hstatus : ending.status = .failed := hfits
    simp only [endingCommit, RunState.terminate, hstatus, if_true, terminalEventName] at h
    split at h
    · cases h
    · rename_i advanced hadvanced
      obtain ⟨hlegal, rfl⟩ := InteractionRecord.advance_eq_some hadvanced
      cases h
      refine ⟨rfl, ⟨[], _, rfl, rfl, by simp⟩, ?_, Or.inr rfl, hlegal, rfl⟩
      simp [SessionEvent.isThinking]
  | stopped => exact absurd hfits id

/-- **The round is over** once the commit that ends it is stored. -/
theorem Underway.finished {ending : Ending} {run : RunState} {c : InteractionCommit}
    (h : executor.Underway key store) (hpoint : executor.point = .finishing ending)
    (hending : endingCommit executor.run ending reading = .ok (run, c))
    (hsound : Performed.Sound key executor reading.nextId
      (executor.commits executor.afterFinish run c reading.now))
    (hwrite : store.write c outcome = some store') (houtcome : outcome ≠ .rolledBack) :
    Over key { executor with point := executor.afterFinish, run := run } store' := by
  have hfits := h.placed.ending ending (by rw [hpoint]; rfl)
  have hshut := h.placed.late (by rw [hpoint]; rfl)
  have hconcludes := concludes_of_endingCommit hfits hending
  obtain ⟨htracked, hrows⟩ := h.toTracked.commit hsound rfl rfl
    (fun hl => by rw [hconcludes.lifecycle] at hl; cases hl) hwrite houtcome
  obtain ⟨events, terminal, hevents, hterminal, hbefore⟩ := hconcludes.terminal
  have hplain : ∀ event ∈ store.events.rows, event.name.isTerminal = false := by
    intro event hevent
    have := h.plain event hevent
    simp only [SessionEvent.isOutcome, Bool.or_eq_false_iff] at this
    exact this.2
  have hfirst : ∀ event ∈ store.events.rows ++ events, event.name.isTerminal = false := by
    intro event hevent
    rcases List.mem_append.mp hevent with hevent | hevent
    · exact hplain event hevent
    · exact hbefore event hevent
  have hlog : store'.events.rows = (store.events.rows ++ events) ++ [terminal] := by
    rw [hrows, hevents, List.append_assoc]
  exact
    { toTracked := htracked
      disciplined :=
        { contiguous := htracked.length ▸ htracked.contiguous
          watermark := fun row hrow => by
            rw [htracked.row, Option.mem_some] at hrow
            rw [← hrow, htracked.watermark, htracked.length]
          terminalLast := by
            rw [hlog, List.pairwise_append]
            refine ⟨List.pairwise_of_forall_mem_list fun event hevent _ _ => hfirst event hevent,
              List.pairwise_singleton _ _, fun event hevent _ _ => hfirst event hevent⟩
          framesFirst := by
            rw [hrows, List.pairwise_append]
            refine ⟨List.pairwise_of_forall_mem_list fun event hevent _ _ houtcome => ?_,
              List.pairwise_of_forall_mem_list fun _ _ later hlater _ =>
                (hconcludes.quiet later hlater).1,
              fun _ _ later hlater _ => (hconcludes.quiet later hlater).1⟩
            rw [h.plain event hevent] at houtcome
            cases houtcome
          frames := by
            rw [hrows]
            exact ⟨_, h.frames.append fun event he => (hconcludes.quiet event he).1⟩
          legal := fun row hrow => by
            rw [htracked.row, Option.mem_some] at hrow
            refine ⟨_, ?_, Or.inr (hrow ▸ hconcludes.legal)⟩
            rw [hrows]
            exact h.announces.append fun event he => (hconcludes.quiet event he).2 }
      ended := ⟨_, terminal, hlog, hterminal, hfirst⟩
      shut := fun transcript ht => hshut transcript (hconcludes.transcript ▸ ht)
      overtime := by
        unfold afterFinish
        cases hhandling : executor.handling with
        | true => exact trivial
        | false => exact ⟨rfl, hconcludes.status⟩ }

end Commits

/-! ## The guard -/

/-- **The condition on the moves**: none of the three places at which the discipline fails. -/
def Spared (executor : Executor) : Move → Prop
  | .stopPoint verdict => executor.point = .claimed → verdict ≠ some .runTimeout
  | .raise _ => executor.point ≠ .claimed ∧ executor.point ≠ .starting ∧
      (executor.point = .recordingHistory → executor.run.record.status ≠ .completed)
  | _ => True

instance (executor : Executor) (move : Move) : Decidable (executor.Spared move) :=
  match move with
  | .stopPoint verdict => inferInstanceAs (Decidable (_ → verdict ≠ some .runTimeout))
  | .raise _ => inferInstanceAs (Decidable (_ ∧ _ ∧ _))
  | .started | .announce _ | .frame _ | .phases | .meter _ | .pass | .toAnalysis | .request _ | .close
  | .record | .finish | .history => isTrue trivial

/-- **An executor whose log is in order.** -/
def Orderly (key : String) (executor : Executor) (store : InteractionStore) : Prop :=
  executor.Underway key store ∨ executor.Over key store

/-- No await raises a cancellation, because nobody cancels. -/
theorem Tracked.not_cancelled {error : Raised} (h : executor.Tracked key store)
    (hsees : executor.Sees store (.raise error)) : error ≠ .runStopped "cancelled" := by
  rintro rfl
  have hsignal := hsees rfl
  rw [h.signal] at hsignal
  cases hsignal

/-- While a round is under way no stop point reports a cancellation. -/
theorem Underway.not_cancelled {verdict : Option Stop} (h : executor.Underway key store)
    (hsees : executor.Sees store (.stopPoint verdict)) : verdict ≠ some .cancelled := by
  rintro rfl
  rcases hsees with hsignal | ⟨row, hrow, hterminal⟩
  · rw [h.signal] at hsignal
    cases hsignal
  · rw [h.row, Option.mem_some] at hrow
    rw [← hrow, h.running] at hterminal
    cases hterminal

/-- **The step of a round under way**: it stays under way, or it is over. -/
theorem Underway.moved {enabled : Bool} {move : Move} {reading : Reading} {outcome : WriteOutcome}
    {p : Performed} (h : executor.Underway key store) (hgenuine : executor.Genuine move)
    (hspared : executor.Spared move) (houtcome : outcome ≠ .rolledBack)
    (hmove : World.Moved enabled executor store move reading outcome p store') :
    p.stored.Orderly key store' := by
  have hsound := perform_sound h.coherent hmove.perform
  have hsignal := perform_cancelRequested hmove.perform
  have hperform := hmove.perform
  unfold perform at hperform
  cases move with
  | stopPoint verdict =>
    dsimp only at hperform
    split at hperform
    · rename_i hpoint
      cases hperform
      rw [hmove.silent rfl]
      exact Or.inl (h.stopPoint hpoint (h.not_cancelled hmove.sees) hspared)
    · cases hperform
  | started =>
    dsimp only at hperform
    split at hperform
    · rename_i hpoint
      cases hperform
      exact Or.inl (h.started hpoint hsound (hmove.write _ rfl) houtcome)
    · cases hperform
  | announce reason =>
    obtain ⟨next, hnext, rfl⟩ := Option.map_eq_some_iff.mp hperform
    exact Or.inl (h.announced hnext hsound (hmove.write _ rfl) houtcome)
  | frame text =>
    dsimp only at hperform
    split at hperform
    · rename_i hnarrates
      obtain ⟨⟨run, c⟩, hframe, rfl⟩ := Option.map_eq_some_iff.mp hperform
      exact Or.inl (h.framed hnarrates hframe hsound (hmove.write _ rfl) houtcome)
    · cases hperform
  | phases =>
    obtain ⟨⟨transitions, next⟩, hnext, rfl⟩ := Option.map_eq_some_iff.mp hperform
    exact Or.inl (h.transited hnext rfl hsound hmove.write houtcome)
  | meter event =>
    dsimp only at hperform
    split at hperform
    · cases hperform
      rw [hmove.silent rfl]
      exact Or.inl (h.silent hsound.stored rfl rfl rfl rfl id
        ⟨h.placed.state, h.placed.early, h.placed.ending, h.placed.late, h.placed.active⟩)
    · cases hperform
  | pass =>
    obtain ⟨next, hnext, rfl⟩ := Option.map_eq_some_iff.mp hperform
    obtain ⟨hsame, hsome, hearly⟩ := state?_of_afterWork hnext
    rw [hmove.silent rfl]
    exact Or.inl (h.of_run hsound.stored rfl rfl (placed_of_state (hsame.trans (h.state_eq hsome))
      (fun he => nomatch hearly.symm.trans he)))
  | toAnalysis =>
    dsimp only at hperform
    split at hperform
    · rename_i hpoint
      cases hperform
      have hstate := h.state_eq (by rw [hpoint]; rfl)
      rw [hpoint] at hstate
      rw [hmove.silent rfl]
      exact Or.inl (h.of_run hsound.stored rfl rfl (placed_of_state hstate (fun he => nomatch he)))
    · cases hperform
  | request request =>
    dsimp only at hperform
    split at hperform
    · rename_i hmay
      cases hperform
      rw [hmove.silent rfl]
      refine Or.inl (h.begin hmay ?_)
      rintro ending rfl
      exact hgenuine
    · cases hperform
  | close =>
    dsimp only at hperform
    split at hperform
    · rename_i ending hpoint
      split at hperform
      · rename_i run hclose
        cases hperform
        rw [hmove.silent rfl]
        exact Or.inl (h.closed_silently hpoint hclose hsound.stored)
      · rename_i run c hclose
        cases hperform
        exact Or.inl (h.closed hpoint hclose hsound (hmove.write _ rfl) houtcome)
    · cases hperform
  | record =>
    dsimp only at hperform
    split at hperform
    · rename_i ending hpoint
      split at hperform
      · cases hperform
        have hfits := h.placed.ending ending (by rw [hpoint]; rfl)
        have hshut := h.placed.late (by rw [hpoint]; rfl)
        rw [hmove.silent rfl]
        exact Or.inl (h.of_run hsound.stored rfl rfl (placed_late (Or.inr rfl) hfits hshut))
      · rename_i c hrecord
        cases hperform
        exact Or.inl (h.recorded hpoint hrecord hsound (hmove.write _ rfl) houtcome)
    · cases hperform
  | finish =>
    dsimp only at hperform
    split at hperform
    · rename_i hpoint
      exact absurd (h.placed.ending .stopped (by rw [hpoint]; rfl)) id
    · rename_i ending hstopped hpoint
      have hfits := h.placed.ending ending (by rw [hpoint]; rfl)
      obtain ⟨run, c, hending⟩ := endingCommit_ok reading hfits h.live
      rw [hending] at hperform
      cases hperform
      exact Or.inr (h.finished hpoint hending hsound (hmove.write _ rfl) houtcome)
    · cases hperform
  | history =>
    dsimp only at hperform
    split at hperform
    · rename_i hpoint
      exact absurd hpoint h.placed.active.1
    · cases hperform
  | raise error =>
    dsimp only at hperform
    split at hperform
    · cases hperform
    · rename_i hdone
      cases hperform
      rw [hmove.silent rfl]
      refine Or.inl (h.raised hgenuine ?_ (h.toTracked.not_cancelled hmove.sees))
      obtain ⟨hclaimed, hstarting, -⟩ := hspared
      cases hpoint : executor.point <;> first | rfl | contradiction

/-! ## Runs -/

/-- A move without a commit keeps a round over, if it leaves the record, the counter and the
transcript as they are. -/
theorem Over.silent (h : executor.Over key store) (hcoherent : executor'.Coherent key)
    (hsignal : executor'.cancelRequested = executor.cancelRequested)
    (hrun : executor'.run = executor.run) (hovertime : executor'.Overtime executor'.point) :
    executor'.Over key store where
  toTracked := h.toTracked.silent hcoherent hsignal (congrArg _ hrun) (congrArg _ hrun)
  disciplined := h.disciplined
  ended := h.ended
  shut := hrun ▸ h.shut
  overtime := hovertime

/-- **After a round is over nothing more is stored.** An exception from the history entry of a
failed round finds no legal transition in the handler. -/
theorem Over.moved {enabled : Bool} {move : Move} {reading : Reading} {outcome : WriteOutcome}
    {p : Performed} (h : executor.Over key store) (hgenuine : executor.Genuine move)
    (hspared : executor.Spared move)
    (hmove : World.Moved enabled executor store move reading outcome p store') :
    p.stored.Over key store' ∧ p.commit = none := by
  have hsound := perform_sound h.coherent hmove.perform
  have hperform := hmove.perform
  have hovertime := h.overtime
  cases hpoint : executor.point with
  | recordingHistory =>
    rw [hpoint] at hovertime
    cases move with
    | history =>
      simp only [perform, hpoint, if_true, Option.some.injEq] at hperform
      subst hperform
      rw [hmove.silent rfl]
      exact ⟨h.silent hsound.stored rfl rfl trivial, rfl⟩
    | raise error =>
      have hfailed := hovertime.2.resolve_left
        (fun hcompleted => hspared.2.2 hpoint hcompleted)
      obtain ⟨ending, hending, hstatus⟩ :=
        handlerEnding_eq reading.now (h.toTracked.not_cancelled hmove.sees)
      simp only [perform, hpoint, reduceCtorEq, if_false, Option.some.injEq] at hperform
      simp only [Executor.raised, hovertime.1, hpoint, Point.isUnguarded, Bool.false_eq_true, or_self,
        if_false, hending] at hperform
      subst hperform
      rw [hmove.silent rfl]
      exact ⟨h.silent hsound.stored rfl rfl ⟨rfl, hfailed, hstatus⟩, rfl⟩
    | _ => simp [perform, hpoint, Point.isStopPoint, Point.announced, Point.narrates,
        Point.transitions, Point.afterWork, Point.mayRequest] at hperform
  | closing ending =>
    rw [hpoint] at hovertime
    cases ending with
    | terminate ending now =>
      cases move with
      | close =>
        have hclose : executor.run.closeTranscript reading = (executor.run, none) := by
          unfold RunState.closeTranscript
          split
          · rfl
          · rename_i transcript htranscript
            rw [if_pos (h.shut transcript htranscript)]
        simp only [perform, hpoint, hclose, Option.some.injEq] at hperform
        subst hperform
        rw [hmove.silent rfl]
        exact ⟨h.silent hsound.stored rfl rfl hovertime, rfl⟩
      | raise error => exact absurd (hovertime.1.symm.trans hgenuine) (by simp)
      | _ => simp [perform, hpoint, Point.isStopPoint, Point.announced, Point.narrates,
          Point.transitions, Point.afterWork, Point.mayRequest] at hperform
    | _ => exact absurd hovertime id
  | finishing ending =>
    rw [hpoint] at hovertime
    cases ending with
    | terminate ending now =>
      cases move with
      | finish =>
        have hillegal : executor.run.record.advance .failed ending.category reading.now = none := by
          simp [InteractionRecord.advance, SessionStateMachine.transitionTo, hovertime.2.1,
            SessionState.canTransition, SessionState.isTerminal]
        have hending : endingCommit executor.run (.terminate ending now) reading
            = .error executor.run := by
          simp [endingCommit, RunState.terminate, hovertime.2.2, hillegal]
        simp only [perform, hpoint, hending, Option.some.injEq] at hperform
        simp only [Executor.raised, hovertime.1, true_or, if_true] at hperform
        subst hperform
        rw [hmove.silent rfl]
        exact ⟨h.silent hsound.stored rfl rfl trivial, rfl⟩
      | raise error => exact absurd (hovertime.1.symm.trans hgenuine) (by simp)
      | _ => simp [perform, hpoint, Point.isStopPoint, Point.announced, Point.narrates,
          Point.transitions, Point.afterWork, Point.mayRequest] at hperform
    | _ => exact absurd hovertime id
  | done =>
    cases move <;> simp [perform, hpoint, Point.isStopPoint, Point.announced, Point.narrates,
      Point.transitions, Point.afterWork, Point.mayRequest] at hperform
  | _ =>
    rw [hpoint] at hovertime
    exact absurd hovertime id

end Executor

/-! ## Runs within the guard -/

/-- No commit raises. -/
def SessionAction.Successful : SessionAction → Prop
  | .move _ _ _ outcome => outcome ≠ .rolledBack
  | _ => True

instance (action : SessionAction) : Decidable action.Successful :=
  match action with
  | .move _ _ _ outcome => inferInstanceAs (Decidable (outcome ≠ .rolledBack))
  | .start _ _ | .claim _ | .executorDies _ | .cancelLoad | .cancelCommit _ _ _ | .cancelSignal _
  | .staleSweep _ _ | .abandonedSweep _ _ | .reapCommit _ _ _ | .reapDies _ => isTrue trivial

namespace World

/-- The condition on an action: the moves are spared the three places. -/
def Spared (world : World) : SessionAction → Prop
  | .move _ move _ _ => ∀ executor ∈ world.executors, executor.Spared move
  | _ => True

instance (world : World) (action : SessionAction) : Decidable (world.Spared action) :=
  match action with
  | .move _ move _ _ =>
    inferInstanceAs (Decidable (∀ executor ∈ world.executors, executor.Spared move))
  | .start _ _ | .claim _ | .executorDies _ | .cancelLoad | .cancelCommit _ _ _ | .cancelSignal _
  | .staleSweep _ _ | .abandonedSweep _ _ | .reapCommit _ _ _ | .reapDies _ => isTrue trivial

/-- A run by itself whose commits are accepted: the runs that the discipline is about. -/
def Uncontested (world : World) (action : SessionAction) : Prop :=
  world.Alone action ∧ action.Successful

instance (world : World) (action : SessionAction) : Decidable (world.Uncontested action) :=
  inferInstanceAs (Decidable (_ ∧ _))

/-- **The guard**: such a run that is spared the three places at which the discipline fails. -/
def Undisturbed (world : World) (action : SessionAction) : Prop :=
  world.Uncontested action ∧ world.Spared action

instance (world : World) (action : SessionAction) : Decidable (world.Undisturbed action) :=
  inferInstanceAs (Decidable (_ ∧ _))

variable {thinkingEnabled : Bool} {world : World}

/-- **A run starts under way.** -/
theorem underway_spawn {store : InteractionStore} {row : InteractionRecord} {now : Instant}
    (h : store.Unclaimed row) :
    (Executor.spawn { row with status := .running, updatedAt := now }).Underway row.interactionId
      { store with interaction := some { row with status := .running, updatedAt := now } } where
  coherent := Executor.coherent_spawn rfl rfl
  row := rfl
  watermark := by simp [Executor.spawn, RunState.ofClaimed]
  contiguous := by simp [Executor.spawn, RunState.ofClaimed, h.watermark, h.events]
  signal := rfl
  running := rfl
  plain := by simp [h.events]
  frames := ⟨by simp [h.events, Executor.spawn, RunState.ofClaimed], by simp [h.events]⟩
  undone := by simp [h.events]
  announces := by
    simp only [h.events, Executor.spawn, RunState.ofClaimed, h.parsing]
    exact .parsing
  live := by simp [Executor.spawn, RunState.ofClaimed, h.parsing, SessionState.isTerminal]
  placed := Executor.placed_of_state
    (by simp [Executor.spawn, RunState.ofClaimed, h.parsing, Point.state?]) (fun _ => rfl)

/-- **The run lemma**: within the guard the log of the executor is in order. -/
theorem orderly_of_reach
    (h : Machine.Reach (interactionMachine thinkingEnabled) Undisturbed world) :
    Solo (fun executor store => ∃ key, executor.Orderly key store) world := by
  refine alone_invariant (fun hg => hg.1.1) (fun hunclaimed => ⟨_, Or.inl (underway_spawn hunclaimed)⟩)
    ?_ ?_ h
  · rintro executor store ⟨key, hunderway | hover⟩
    · exact ⟨_, hunderway.row, hunderway.coherent.run.active⟩
    · exact ⟨_, hover.row, hover.coherent.run.active⟩
  · rintro w executor store' index move reading outcome performed hone ⟨key, horderly⟩
      ⟨⟨halone, hsuccessful⟩, hspared⟩ hmove
    have hmem : executor ∈ w.executors := by rw [hone]; exact List.mem_singleton_self _
    have hafter : afterMove performed outcome = performed.stored :=
      if_neg (fun hrolled => hsuccessful hrolled.2)
    rw [hafter]
    rcases horderly with hunderway | hover
    · exact ⟨key, hunderway.moved (halone executor hmem) (hspared executor hmem) hsuccessful hmove⟩
    · exact ⟨key, Or.inr (hover.moved (halone executor hmem) (hspared executor hmem) hmove).1⟩

/-- An empty log is in order. -/
theorem disciplined_of_nil {store : InteractionStore} (hevents : store.events.rows = [])
    (hrow : ∀ row ∈ store.interaction, row.lastEventSequence = 0 ∧ row.state = .parsing) :
    store.Disciplined where
  contiguous := by simp [hevents]
  watermark := fun row hr => by simp [hevents, (hrow row hr).1]
  terminalLast := by simp [hevents]
  framesFirst := by simp [hevents]
  frames := ⟨0, by simp [hevents], by simp [hevents]⟩
  legal := fun row hr => ⟨.parsing, hevents ▸ .parsing, Or.inl (hrow row hr).2⟩

/-- **The event discipline.** Along every run by itself whose commits are accepted and which is spared
the three places, the log is in order in every state reached, and once the task of the executor is
over exactly one of its events is terminal and it is the last. -/
theorem log_disciplined
    (h : Machine.Reach (interactionMachine thinkingEnabled) Undisturbed world) :
    world.store.Disciplined
      ∧ ∀ executor ∈ world.executors, executor.point = .done → world.store.Ended := by
  cases orderly_of_reach h with
  | idle hstore hexecutors =>
    refine ⟨disciplined_of_nil (by rw [hstore]; rfl) (fun row hrow => ?_), by simp [hexecutors]⟩
    rw [hstore] at hrow
    cases hrow
  | asked row hunclaimed hexecutors =>
    refine ⟨disciplined_of_nil hunclaimed.events (fun r hr => ?_), by simp [hexecutors]⟩
    rw [hunclaimed.row_eq, Option.mem_some] at hr
    exact hr ▸ ⟨hunclaimed.watermark, hunclaimed.parsing⟩
  | running executor hexecutors horderly =>
    rw [hexecutors]
    obtain ⟨key, hunderway | hover⟩ := horderly
    · refine ⟨hunderway.disciplined, fun e he hdone => ?_⟩
      rw [List.mem_singleton.mp he] at hdone
      exact absurd hdone hunderway.placed.active.2
    · exact ⟨hover.disciplined, fun _ _ _ => hover.ended⟩

/-! ### Runs inside and outside the guard -/

/-- The facts of a result. -/
def someFacts : ResultFacts :=
  ⟨"output", ["day", "count"], ["日期", "数量"], 3, false, none, none, "本月产量 3 行", none, none, none,
    none, 20⟩

/-- A narrated round that is answered with a result. -/
def answeredRun : List SessionAction :=
  Scenario.narrated ++
    [Scenario.moves .pass 5 16, Scenario.moves (.announce "authorize_started") 5 16,
     Scenario.moves .pass 6 20, Scenario.moves (.stopPoint none) 6 20, Scenario.moves .phases 6 20,
     Scenario.moves .pass 7 24, Scenario.moves (.stopPoint none) 7 24, Scenario.moves .phases 7 24,
     Scenario.moves (.request (.result someFacts)) 8 28, Scenario.moves .close 8 28,
     Scenario.moves .record 8 32, Scenario.moves .finish 8 36]

/-- The log of an answered round is in order and ended. -/
theorem log_disciplined_answered :
    (Scenario.world (answeredRun ++ [Scenario.moves .history 9 40])).store.Disciplined
      ∧ (Scenario.world (answeredRun ++ [Scenario.moves .history 9 40])).store.Ended := by
  have hreach : Machine.Reach (interactionMachine true) Undisturbed
      (Scenario.world (answeredRun ++ [Scenario.moves .history 9 40])) :=
    Machine.reach_after _ (by decide +kernel)
  obtain ⟨hdisciplined, hended⟩ := log_disciplined hreach
  exact ⟨hdisciplined, hended _ (List.mem_singleton.mpr rfl) rfl⟩

/-- A log that ended has one terminal event. -/
theorem terminals_of_ended {store : InteractionStore} (h : store.Ended) :
    (store.events.rows.filter (·.name.isTerminal)).length = 1 := by
  obtain ⟨events, terminal, hrows, hterminal, hevents⟩ := h
  have hnone : events.filter (·.name.isTerminal) = [] :=
    List.filter_eq_nil_iff.mpr (fun event he => by simp [hevents event he])
  rw [hrows, List.filter_append, hnone, List.nil_append]
  simp [hterminal]

/-- The history entry of the answered round cannot be stored. -/
def historyLostRun : List SessionAction :=
  answeredRun ++
    [Scenario.moves (.raise .exception) 9 40, Scenario.moves .close 9 40,
     Scenario.moves .finish 9 40]

/-- **A completed round ends a second time.** Nobody cancels and every commit is accepted, but the
history entry raises after `interaction.completed` was stored, and the handler appends
`interaction.failed`. -/
theorem log_ended_twice :
    ∃ world, Machine.Reach (interactionMachine true) Uncontested world
      ∧ world.executors.map (·.point) = [.done]
      ∧ (world.store.events.rows.filter (·.name.isTerminal)).map (·.name) = [.completed, .failed]
      ∧ world.store.interaction.map (·.status) = some .failed
      ∧ ¬ world.store.Ended := by
  refine ⟨Scenario.world historyLostRun, Machine.reach_after _ (by decide +kernel),
    by decide +kernel, by decide +kernel, by decide +kernel, fun hended => ?_⟩
  have hone := terminals_of_ended hended
  revert hone
  decide +kernel

end World
