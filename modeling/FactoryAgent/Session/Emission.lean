import FactoryAgent.Session.Executor

/-!
# What the commits of a run are like

The commits of a run are built by many functions, and they have one shape (`RunState.Emits`). The
events of a commit are numbered consecutively from the counter the run held before, the record of the
commit carries the counter the run holds afterwards, and a commit ends the interaction exactly if it
carries a terminal event. Only a commit that completes the interaction carries an answer.

The shape is proved function by function, and then for each move of a run (`Executor.perform_emits`),
together with the invariant of the run in memory that it needs (`Executor.Coherent`). What the shape
does *not* say is as important: nothing relates the counter in memory to the durable row.
-/

/-! ## The shape of a commit -/

/-- The transcript's own message number is not ahead of the counter. -/
def RunState.Marked (state : RunState) : Prop :=
  ∀ transcript, state.transcript = some transcript →
    transcript.lastEventSequence ≤ state.sequence

/-- **The shape of a commit** of a run, between the run state before it and the one after it. -/
structure RunState.Emits (before after : RunState) (nextId : Nat) (c : InteractionCommit) :
    Prop where
  /-- Each event takes one number from the counter. -/
  counter : after.sequence = before.sequence + c.events.length
  /-- The events are numbered consecutively. -/
  numbered : c.events.map (·.sequence) = List.range' (before.sequence + 1) c.events.length
  /-- The watermark is the counter. -/
  watermark : c.interaction.lastEventSequence = after.sequence
  /-- The record is the record in memory. -/
  record : c.interaction = after.record
  /-- The record is the interaction's own. -/
  identity : c.interaction.interactionId = before.record.interactionId
  /-- A commit does not make the row claimable. -/
  active : c.interaction.status ≠ .pending
  /-- A commit that ends the interaction carries one terminal event, and no other commit carries
  any. -/
  terminals : (c.events.filter (·.name.isTerminal)).length
    = if c.lifecycle = true ∧ c.interaction.status.isTerminal = true then 1 else 0
  /-- A terminal event is the last one. -/
  terminalLast : ∀ e ∈ c.events, e.name.isTerminal = true → e.sequence = after.sequence
  /-- The messages are the interaction's own, with numbers up to the counter. -/
  messages : before.Marked → ∀ m ∈ c.messages,
    m.interactionId = before.record.interactionId ∧ m.sequence ≤ after.sequence
  /-- The messages have new identifiers. -/
  fresh : ∀ m ∈ c.messages, nextId ≤ m.messageId ∧ m.messageId < nextId + 4
  /-- The messages of one commit have different identifiers. -/
  distinct : c.messages.Pairwise (fun a b => a.messageId ≠ b.messageId)
  /-- Only a commit that completes the interaction carries an answer. -/
  answers : ∀ m ∈ c.messages, m.isAnswer = true →
    c.lifecycle = true ∧ c.interaction.status = .completed
  /-- The transcript's number stays behind the counter. -/
  marked : before.Marked → after.Marked

/-- A record in its next state is the same record in another state, and the transition was legal. -/
theorem InteractionRecord.advance_eq_some {record advanced : InteractionRecord}
    {target : SessionState} {reason : String} {now : Instant}
    (h : record.advance target reason now = some advanced) :
    record.state.canTransition target = true ∧ advanced = { record with state := target } := by
  unfold advance at h
  split at h
  · rename_i machine hm
    obtain ⟨hlegal, hstate⟩ := SessionStateMachine.transitionTo_ok hm
    rw [Option.some.injEq] at h
    exact ⟨hlegal, by rw [← h, hstate]⟩
  · cases h

namespace RunState

variable {state state' : RunState} {reading : Reading} {c : InteractionCommit} {nextId : Nat}

/-- A longer counter keeps an unchanged transcript behind it. -/
theorem Marked.of_le {before after : RunState} (htranscript : after.transcript = before.transcript)
    (hle : before.sequence ≤ after.sequence) (h : before.Marked) : after.Marked := by
  intro transcript ht
  exact Nat.le_trans (h transcript (htranscript ▸ ht)) hle

/-! ### Commits that go on -/

/-- One stage event that ends nothing, informational or from a run that goes on. -/
theorem emits_stageEvent {name : EventName} {data : Payload} {lifecycle : Bool}
    (hname : name.isTerminal = false) (hactive : state.record.status ≠ .pending)
    (hrunning : lifecycle = true → state.record.status.isTerminal = false) :
    state.Emits (state.stageEvent name data lifecycle reading).1 nextId
      (state.stageEvent name data lifecycle reading).2 where
  counter := rfl
  numbered := rfl
  watermark := rfl
  record := rfl
  identity := rfl
  active := hactive
  terminals := by
    cases lifecycle with
    | false => simp [stageEvent, stageEventUncommitted, hname]
    | true => simp [stageEvent, stageEventUncommitted, hname, hrunning rfl]
  terminalLast := by simp [stageEvent, stageEventUncommitted]
  messages := by simp [stageEvent]
  fresh := by simp [stageEvent]
  distinct := List.Pairwise.nil
  answers := by simp [stageEvent]
  marked := Marked.of_le rfl (Nat.le_succ _)

theorem emits_progress {reason : String} (hactive : state.record.status ≠ .pending) :
    state.Emits (state.progress reason reading).1 nextId (state.progress reason reading).2 :=
  emits_stageEvent rfl hactive (by simp)

theorem emits_thinking {text : String} {seq : Nat} {done truncated : Bool}
    (hactive : state.record.status ≠ .pending) :
    state.Emits (state.thinking text seq done truncated reading).1 nextId
      (state.thinking text seq done truncated reading).2 :=
  emits_stageEvent rfl hactive (by simp)

theorem emits_started :
    state.Emits (state.started reading).1 nextId (state.started reading).2 where
  counter := rfl
  numbered := rfl
  watermark := rfl
  record := rfl
  identity := rfl
  active := by simp [started]
  terminals := by simp [started, EventName.isTerminal, InteractionStatus.isTerminal]
  terminalLast := by simp [started, EventName.isTerminal]
  messages := by simp [started]
  fresh := by simp [started]
  distinct := List.Pairwise.nil
  answers := by simp [started]
  marked := Marked.of_le rfl (Nat.le_succ _)

/-! ### Stage transitions -/

/-- **What transitions do to the run in memory**, whether they all went through or one was illegal:
only the state, the watermark and the liveness timestamp of the record move. -/
structure Transits (before after : RunState) : Prop where
  identity : after.record.interactionId = before.record.interactionId
  status : after.record.status = before.record.status
  transcript : after.transcript = before.transcript
  usage : after.usageEvents = before.usageEvents
  counter : before.sequence ≤ after.sequence
  watermark : after.record.lastEventSequence = after.sequence ∨
    (after.record.lastEventSequence = before.record.lastEventSequence
      ∧ after.sequence = before.sequence)

theorem Transits.refl : Transits state state :=
  ⟨rfl, rfl, rfl, rfl, Nat.le_refl _, Or.inr ⟨rfl, rfl⟩⟩

theorem Transits.trans {state'' : RunState} (h : Transits state state')
    (h' : Transits state' state'') : Transits state state'' where
  identity := h'.identity.trans h.identity
  status := h'.status.trans h.status
  transcript := h'.transcript.trans h.transcript
  usage := h'.usage.trans h.usage
  counter := Nat.le_trans h.counter h'.counter
  watermark := by
    rcases h'.watermark with hlast | ⟨hlast, hseq⟩
    · exact Or.inl hlast
    · rw [hlast, hseq]
      exact h.watermark

/-- One transition of the run in memory. -/
theorem transits_stageEventUncommitted {advanced : InteractionRecord} {target : SessionState}
    {reason : String} {name : EventName} {data : Payload}
    (h : state.record.advance target reason reading.now = some advanced) :
    Transits state (state.stageEventUncommitted name data advanced reading).2 := by
  obtain ⟨-, rfl⟩ := InteractionRecord.advance_eq_some h
  exact ⟨rfl, rfl, rfl, rfl, Nat.le_succ _, Or.inl rfl⟩

theorem transits_of_phaseEvents_error {transitions : List (SessionState × String)}
    (h : state.phaseEvents reading transitions = .error state') : Transits state state' := by
  induction transitions generalizing state with
  | nil => cases h
  | cons transition transitions ih =>
    obtain ⟨target, reason⟩ := transition
    rw [phaseEvents] at h
    split at h
    · cases h
      exact Transits.refl
    · rename_i advanced hadvanced
      dsimp only at h
      split at h
      · rename_i state'' hrest
        cases h
        exact (transits_stageEventUncommitted hadvanced).trans (ih hrest)
      · cases h

/-- **The events of a list of transitions**: one each, numbered consecutively. -/
theorem phaseEvents_ok {transitions : List (SessionState × String)} {events : List SessionEvent}
    (h : state.phaseEvents reading transitions = .ok (events, state')) :
    Transits state state' ∧ state'.sequence = state.sequence + events.length
      ∧ events.map (·.sequence) = List.range' (state.sequence + 1) events.length
      ∧ (∀ e ∈ events, e.name = .phase) ∧ events.length = transitions.length := by
  induction transitions generalizing state events with
  | nil =>
    cases h
    exact ⟨Transits.refl, rfl, rfl, by simp, rfl⟩
  | cons transition transitions ih =>
    obtain ⟨target, reason⟩ := transition
    rw [phaseEvents] at h
    split at h
    · cases h
    · rename_i advanced hadvanced
      dsimp only at h
      split at h
      · cases h
      · rename_i rest state'' hrest
        cases h
        obtain ⟨htransits, hcount, hnumbers, hnames, hlength⟩ := ih hrest
        refine ⟨(transits_stageEventUncommitted hadvanced).trans htransits, ?_, ?_, ?_, ?_⟩
        · rw [hcount]
          simp only [stageEventUncommitted, List.length_cons]
          omega
        · rw [List.map_cons, hnumbers, List.length_cons, List.range'_succ]
          rfl
        · intro e he
          rcases List.mem_cons.mp he with rfl | he
          · rfl
          · exact hnames e he
        · rw [List.length_cons, List.length_cons, hlength]

theorem emits_phases {transitions : List (SessionState × String)} (hne : transitions ≠ [])
    (hactive : state.record.status ≠ .pending)
    (hrunning : state.record.status.isTerminal = false)
    (h : state.phases transitions reading = .ok (state', c)) : state.Emits state' nextId c := by
  unfold phases at h
  split at h
  · cases h
  · rename_i events state'' hevents
    cases h
    obtain ⟨htransits, hcount, hnumbers, hnames, hlength⟩ := phaseEvents_ok hevents
    have hplain : ∀ e ∈ events, e.name.isTerminal = false := fun e he => by rw [hnames e he]; rfl
    refine
      { counter := hcount, numbered := hnumbers, watermark := ?_, record := rfl
        identity := htransits.identity, active := ?_, terminals := ?_
        terminalLast := fun e he ht => by simp [hplain e he] at ht
        messages := by simp, fresh := by simp, distinct := List.Pairwise.nil
        answers := by simp, marked := Marked.of_le htransits.transcript htransits.counter }
    · rcases htransits.watermark with hlast | ⟨-, hsame⟩
      · exact hlast
      · have hpos := List.length_pos_iff.mpr hne
        omega
    · exact htransits.status ▸ hactive
    · have hnone : events.filter (·.name.isTerminal) = [] :=
        List.filter_eq_nil_iff.mpr (fun e he => by simp [hplain e he])
      simp [hnone, htransits.status, hrunning]

/-- The transitions of a point leave the status as it is. -/
theorem status_of_phases {transitions : List (SessionState × String)}
    (h : state.phases transitions reading = .ok (state', c)) :
    c.interaction.status = state.record.status := by
  unfold phases at h
  split at h <;> cases h
  rename_i hevents
  exact (phaseEvents_ok hevents).1.status

theorem transits_of_phases_error {transitions : List (SessionState × String)}
    (h : state.phases transitions reading = .error state') : Transits state state' := by
  unfold phases at h
  split at h
  · rename_i hevents
    cases h
    exact transits_of_phaseEvents_error hevents
  · cases h

/-! ### The transcript -/

/-- A commit of a fragment, with the transcript that notes its number. -/
theorem emits_fragment {text : String} {seq : Nat} {done truncated : Bool}
    {transcript : ThinkingTranscript} (hactive : state.record.status ≠ .pending)
    (hlast : transcript.lastEventSequence = state.sequence + 1) :
    state.Emits
      { (state.thinking text seq done truncated reading).1 with transcript := some transcript }
      nextId (state.thinking text seq done truncated reading).2 :=
  have hthinking : state.Emits _ nextId (state.thinking text seq done truncated reading).2 :=
    emits_thinking hactive
  { hthinking with
    marked := fun _ t ht => by
      cases ht
      exact Nat.le_of_eq hlast
    messages := by simp [thinking, stageEvent] }

theorem emits_frame {text : String} (hactive : state.record.status ≠ .pending)
    (h : state.frame text reading = some (state', c)) : state.Emits state' nextId c := by
  unfold frame at h
  split at h
  · cases h
  · split at h
    · cases h
    · cases h
      exact emits_fragment hactive rfl

/-- A frame leaves the status as it is. -/
theorem status_of_frame {text : String} (h : state.frame text reading = some (state', c)) :
    c.interaction.status = state.record.status := by
  unfold frame at h
  split at h
  · cases h
  · split at h <;> cases h
    rfl

theorem emits_closeTranscript (hactive : state.record.status ≠ .pending)
    (h : state.closeTranscript reading = (state', some c)) : state.Emits state' nextId c := by
  unfold closeTranscript at h
  split at h
  · cases h
  · split at h
    · cases h
    · dsimp only at h
      split at h
      · cases h
      · cases h
        exact emits_fragment hactive rfl

/-- Closing a transcript without an end marker changes the transcript's flag and nothing else. -/
theorem closeTranscript_silent (h : state.closeTranscript reading = (state', none)) :
    state'.record = state.record ∧ state'.sequence = state.sequence
      ∧ (state.Marked → state'.Marked) := by
  unfold closeTranscript at h
  split at h
  · cases h
    exact ⟨rfl, rfl, id⟩
  · rename_i transcript htranscript
    split at h
    · cases h
      exact ⟨rfl, rfl, id⟩
    · dsimp only at h
      split at h
      · cases h
        refine ⟨rfl, rfl, fun hmarked t ht => ?_⟩
        cases ht
        exact hmarked transcript htranscript
      · cases h

/-- The transcript message takes no number. Its commit leaves the watermark where it is, which is the
counter only because the end marker was stored just before. -/
theorem emits_recordThinkingMessage (hactive : state.record.status ≠ .pending)
    (hlast : state.record.lastEventSequence = state.sequence)
    (h : state.recordThinkingMessage reading = some c) : state.Emits state reading.nextId c := by
  unfold recordThinkingMessage at h
  split at h
  · cases h
  · rename_i transcript htranscript
    split at h
    · cases h
    · cases h
      exact
        { counter := rfl, numbered := rfl, watermark := hlast, record := rfl, identity := rfl
          active := hactive, terminals := by simp, terminalLast := by simp
          messages := fun hmarked m hm => by
            rw [List.mem_singleton.mp hm]
            exact ⟨rfl, hmarked transcript htranscript⟩
          fresh := by simp [InteractionRecord.message]
          distinct := List.pairwise_singleton _ _
          answers := by simp [InteractionRecord.message, MessageRecord.isAnswer]
          marked := id }

/-! ### Commits that end the round -/

theorem emits_clarifyMessage {clarifying : InteractionRecord} {question : String}
    (hid : clarifying.interactionId = state.record.interactionId) :
    state.Emits (state.clarifyMessage clarifying question reading).1 reading.nextId
      (state.clarifyMessage clarifying question reading).2 where
  counter := rfl
  numbered := rfl
  watermark := rfl
  record := rfl
  identity := hid
  active := by simp [clarifyMessage]
  terminals := by simp [clarifyMessage, EventName.isTerminal, InteractionStatus.isTerminal]
  terminalLast := by simp [clarifyMessage, EventName.isTerminal]
  messages := by simp [clarifyMessage, InteractionRecord.message, hid]
  fresh := by simp [clarifyMessage, InteractionRecord.message]
  distinct := List.pairwise_singleton _ _
  answers := by simp [clarifyMessage]
  marked := Marked.of_le rfl (Nat.le_add_right _ 2)

theorem emits_chatWithText {answered : InteractionRecord} {now : Instant} {text : String}
    (hid : answered.interactionId = state.record.interactionId) :
    state.Emits (state.chatWithText answered now text reading).1 reading.nextId
      (state.chatWithText answered now text reading).2 where
  counter := rfl
  numbered := rfl
  watermark := rfl
  record := rfl
  identity := hid
  active := by simp [chatWithText]
  terminals := by simp [chatWithText, EventName.isTerminal, InteractionStatus.isTerminal]
  terminalLast := by simp [chatWithText, EventName.isTerminal]
  messages := by simp [chatWithText, InteractionRecord.message, hid]
  fresh := by simp [chatWithText, InteractionRecord.message]
  distinct := List.pairwise_singleton _ _
  answers := by simp [chatWithText]
  marked := Marked.of_le rfl (Nat.le_add_right _ 2)

theorem emits_completeResult {facts : ResultFacts}
    (h : state.completeResult facts reading = .ok (state', c)) :
    state.Emits state' reading.nextId c := by
  unfold completeResult at h
  dsimp only at h
  split at h
  · cases h
  · rename_i answered hanswered
    obtain ⟨-, rfl⟩ := InteractionRecord.advance_eq_some hanswered
    cases h
    exact
      { counter := rfl, numbered := rfl, watermark := rfl, record := rfl, identity := rfl
        active := by simp
        terminals := by simp [EventName.isTerminal, InteractionStatus.isTerminal]
        terminalLast := by simp [EventName.isTerminal]
        messages := by simp [InteractionRecord.message]
        fresh := by simp [InteractionRecord.message]
        distinct := by simp [InteractionRecord.message]
        answers := by simp
        marked := Marked.of_le rfl (Nat.le_add_right _ 2) }

theorem emits_terminate {ending : Termination} {now : Instant}
    (h : state.terminate ending now reading = .ok (state', c)) :
    state.Emits state' reading.nextId c := by
  unfold terminate at h
  dsimp only at h
  split at h
  · cases h
  · rename_i advanced hadvanced
    obtain ⟨-, rfl⟩ := InteractionRecord.advance_eq_some hadvanced
    split at h
    · cases h
    · rename_i name hname
      cases h
      have hterminal : name.isTerminal = true ∧ ending.status.isTerminal = true := by
        revert hname
        cases ending.status <;> simp [terminalEventName] <;> rintro rfl <;> decide
      have hactive : ending.status ≠ .pending := fun hp => by simp [hp, terminalEventName] at hname
      exact
        { counter := rfl, numbered := rfl, watermark := rfl, record := rfl, identity := rfl
          active := hactive
          terminals := by simp [hterminal]
          terminalLast := by simp
          messages := by simp [InteractionRecord.message]
          fresh := by simp [InteractionRecord.message]
          distinct := List.pairwise_singleton _ _
          answers := by simp [InteractionRecord.message, MessageRecord.isAnswer]
          marked := Marked.of_le rfl (Nat.le_succ _) }

/-! ## The run in memory -/

/-- **The invariant of a run in memory**: it is the run of the interaction `key`, it is past the
claim, and neither the record's watermark nor the transcript's number is ahead of the counter. -/
structure Coherent (key : String) (state : RunState) : Prop where
  identity : state.record.interactionId = key
  active : state.record.status ≠ .pending
  watermark : state.record.lastEventSequence ≤ state.sequence
  marked : state.Marked

variable {key : String}

theorem Emits.coherent (h : state.Emits state' nextId c) (hstate : state.Coherent key) :
    state'.Coherent key where
  identity := h.record ▸ h.identity.trans hstate.identity
  active := h.record ▸ h.active
  watermark := h.record ▸ Nat.le_of_eq h.watermark
  marked := h.marked hstate.marked

theorem Transits.coherent (h : Transits state state') (hstate : state.Coherent key) :
    state'.Coherent key where
  identity := h.identity.trans hstate.identity
  active := h.status ▸ hstate.active
  watermark := by
    have := hstate.watermark
    rcases h.watermark with hlast | ⟨hlast, hseq⟩ <;> omega
  marked := Marked.of_le h.transcript h.counter hstate.marked

/-- A claimed record starts a coherent run. -/
theorem coherent_ofClaimed {record : InteractionRecord} (h : record.status ≠ .pending) :
    (ofClaimed record 0).Coherent record.interactionId where
  identity := rfl
  active := h
  watermark := Nat.le_max_left _ _
  marked := fun _ ht => by cases ht

end RunState

/-! ## The moves of a run -/

/-- The points at which the round has not ended in memory. -/
def Point.isWorking : Point → Bool
  | .closing _ | .recording _ | .finishing _ | .recordingHistory | .done => false
  | _ => true

/-- The ending that a point carries. -/
def Point.ending? : Point → Option Ending
  | .closing ending | .recording ending | .finishing ending => some ending
  | _ => none

/-- The record an ending captured is the interaction's own. -/
def Ending.Owned (key : String) : Ending → Prop
  | .clarify _ clarifying => clarifying.interactionId = key
  | .chat _ answered _ => answered.interactionId = key
  | .result _ | .terminate _ _ | .stopped => True

namespace Executor

/-- **The invariant of a task**: its run is coherent, and not ended in memory while it works; the
transcript message is due only where the watermark is the counter. -/
structure Coherent (key : String) (executor : Executor) : Prop where
  run : executor.run.Coherent key
  working : executor.point.isWorking = true → executor.run.record.status.isTerminal = false
  recorded : ∀ ending, executor.point = .recording ending →
    executor.run.record.lastEventSequence = executor.run.sequence
  ending : ∀ ending, executor.point.ending? = some ending → ending.Owned key

/-- **What a move may do**: both continuations are coherent tasks with the same run in memory, and a
commit has the shape of a run's commit. -/
structure Performed.Sound (key : String) (executor : Executor) (nextId : Nat) (p : Performed) :
    Prop where
  stored : p.stored.Coherent key
  refused : p.refused.Coherent key
  run : p.refused.run = p.stored.run
  commit : ∀ c, p.commit = some c → executor.run.Emits p.stored.run nextId c

variable {key : String} {executor : Executor} {reading : Reading} {nextId : Nat}

/-- A task at a point without obligations is coherent if its run is. -/
theorem Coherent.of_run {e : Executor} (hrun : e.run.Coherent key)
    (hworking : e.point.isWorking = false) (hrecording : ∀ ending, e.point ≠ .recording ending)
    (hending : ∀ ending, e.point.ending? = some ending → ending.Owned key) : e.Coherent key :=
  ⟨hrun, fun h => by simp [hworking] at h, fun ending h => absurd h (hrecording ending), hending⟩

/-- **An exception leaves a coherent task**, in the handler or over. -/
theorem Coherent.raised {error : Raised} {now : Instant} (hrun : executor.run.Coherent key) :
    (executor.raised error now).Coherent key := by
  unfold Executor.raised
  split
  · exact Coherent.of_run hrun rfl (by simp) (by simp [Point.ending?])
  · refine Coherent.of_run hrun rfl (by simp) (fun ending h => ?_)
    cases h
    unfold handlerEnding
    cases error with
    | exception => trivial
    | runStopped code =>
      dsimp only
      split
      · trivial
      · split <;> trivial

@[simp] theorem raised_run (error : Raised) (now : Instant) :
    (executor.raised error now).run = executor.run := by
  unfold Executor.raised
  split <;> rfl

theorem sound_silent {e : Executor} (h : e.Coherent key) :
    Performed.Sound key executor nextId e.silent :=
  ⟨h, h, rfl, fun _ hc => by cases hc⟩

/-- A commit of the right shape leads to a coherent task, accepted or not. -/
theorem sound_commits {next : Point} {run : RunState} {c : InteractionCommit} {now : Instant}
    (hrun : executor.run.Coherent key) (hemits : executor.run.Emits run nextId c)
    (hworking : next.isWorking = true → c.interaction.status.isTerminal = false)
    (hending : ∀ ending, next.ending? = some ending → ending.Owned key) :
    Performed.Sound key executor nextId (executor.commits next run c now) where
  stored :=
    { run := hemits.coherent hrun
      working := fun h => hemits.record ▸ hworking h
      recorded := fun _ _ => hemits.record ▸ hemits.watermark
      ending := hending }
  refused := Coherent.raised (hemits.coherent hrun)
  run := raised_run _ _
  commit := fun _ hc => by
    cases hc
    exact hemits

/-- A working point carries no ending. -/
theorem ending?_of_isWorking {point : Point} (h : point.isWorking = true) :
    ∀ ending, point.ending? = some ending → ending.Owned key := by
  intro ending he
  unfold Point.ending? at he
  split at he <;> simp [Point.isWorking] at h
  cases he

/-- At a working point a task is coherent if its run is and has not ended. -/
theorem Coherent.of_working {e : Executor} (hrun : e.run.Coherent key)
    (hworking : e.point.isWorking = true) (hstatus : e.run.record.status.isTerminal = false) :
    e.Coherent key where
  run := hrun
  working := fun _ => hstatus
  recorded := fun ending h => by simp [h, Point.isWorking] at hworking
  ending := ending?_of_isWorking hworking

/-! ### Where the moves of a point lead -/

theorem isWorking_of_stopPoint {point : Point} (h : point.isStopPoint = true) :
    point.isWorking = true ∧ point.afterStopPoint.isWorking = true := by
  revert h
  cases point <;> simp [Point.isStopPoint, Point.isWorking, Point.afterStopPoint]

theorem isWorking_of_announced {point next : Point} {reason : String}
    (h : point.announced reason = some next) :
    point.isWorking = true ∧ next.isWorking = true := by
  unfold Point.announced at h
  split at h <;> (try split at h) <;> cases h <;> exact ⟨rfl, rfl⟩

theorem isWorking_of_narrates {point : Point} (h : point.narrates = true) :
    point.isWorking = true := by
  revert h
  cases point <;> simp [Point.narrates, Point.isWorking]

theorem isWorking_of_transitions {point next : Point}
    {transitions : List (SessionState × String)}
    (h : point.transitions = some (transitions, next)) :
    point.isWorking = true ∧ next.isWorking = true ∧ transitions ≠ [] := by
  unfold Point.transitions at h
  split at h <;> cases h <;> exact ⟨rfl, rfl, by simp⟩

theorem isWorking_of_afterWork {point next : Point} (h : point.afterWork = some next) :
    point.isWorking = true ∧ next.isWorking = true := by
  unfold Point.afterWork at h
  split at h <;> cases h <;> exact ⟨rfl, rfl⟩

theorem isWorking_of_mayRequest {point : Point} {request : Request}
    (h : point.mayRequest request = true) : point.isWorking = true := by
  unfold Point.mayRequest at h
  split at h <;> first | rfl | cases h

/-! ### The moves -/

/-- Past a stop point a task is coherent. -/
theorem Coherent.stopPoint {verdict : Option Stop} {now : Instant} {enabled : Bool}
    (h : executor.Coherent key) (hpoint : executor.point.isStopPoint = true) :
    (executor.stopPoint verdict now enabled).Coherent key := by
  obtain ⟨hworking, hnext⟩ := isWorking_of_stopPoint hpoint
  have hstatus := h.working hworking
  unfold Executor.stopPoint
  cases verdict with
  | none =>
    dsimp only
    split
    · refine Coherent.of_working ?_ hnext hstatus
      exact ⟨h.run.identity, h.run.active, h.run.watermark, fun t ht => by
        cases ht
        exact Nat.zero_le _⟩
    · exact Coherent.of_working h.run hnext hstatus
  | some stop =>
    dsimp only
    split
    · exact Coherent.of_run h.run rfl (by simp) (by simp [Point.ending?])
    · cases stop <;>
        exact Coherent.of_run h.run rfl (by simp) (fun ending he => by cases he; trivial)

/-- Taking up a requested ending leaves a coherent task. -/
theorem Coherent.begin {request : Request} {now : Instant} (h : executor.Coherent key) :
    (executor.begin request now).Coherent key := by
  unfold Executor.begin
  cases request with
  | clarify question =>
    dsimp only
    split
    · exact Coherent.raised h.run
    · rename_i clarifying hclarifying
      obtain ⟨-, rfl⟩ := InteractionRecord.advance_eq_some hclarifying
      exact Coherent.of_run h.run rfl (by simp) (fun ending he => by
        cases he
        exact h.run.identity)
  | chat text =>
    dsimp only
    split
    · exact Coherent.raised h.run
    · rename_i answered hanswered
      obtain ⟨-, rfl⟩ := InteractionRecord.advance_eq_some hanswered
      exact Coherent.of_run h.run rfl (by simp) (fun ending he => by
        cases he
        exact h.run.identity)
  | result facts =>
    exact Coherent.of_run h.run rfl (by simp) (fun ending he => by cases he; trivial)
  | terminate ending =>
    exact Coherent.of_run h.run rfl (by simp) (fun ending he => by cases he; trivial)

/-- **The commit that ends a round** has the shape of a run's commit. -/
theorem endingCommit_emits {ending : Ending} {run run' : RunState} {c : InteractionCommit}
    (hid : ending.Owned run.record.interactionId)
    (h : endingCommit run ending reading = .ok (run', c)) : run.Emits run' reading.nextId c := by
  cases ending with
  | clarify question clarifying =>
    cases h
    exact RunState.emits_clarifyMessage hid
  | chat text answered now =>
    cases h
    exact RunState.emits_chatWithText hid
  | result facts => exact RunState.emits_completeResult h
  | terminate ending now => exact RunState.emits_terminate h
  | stopped => cases h

/-- An ending that raises leaves a coherent run. -/
theorem endingCommit_error {ending : Ending} {run run' : RunState} (hrun : run.Coherent key)
    (h : endingCommit run ending reading = .error run') : run'.Coherent key := by
  cases ending with
  | clarify question clarifying => cases h
  | chat text answered now => cases h
  | result facts =>
    unfold endingCommit RunState.completeResult at h
    dsimp only at h
    split at h
    · cases h
      exact ⟨hrun.identity, hrun.active, Nat.le_succ_of_le hrun.watermark,
        fun t ht => Nat.le_succ_of_le (hrun.marked t ht)⟩
    · cases h
  | terminate ending now =>
    unfold endingCommit RunState.terminate at h
    dsimp only at h
    split at h
    · cases h
      exact hrun
    · split at h
      · cases h
        exact ⟨hrun.identity, hrun.active, Nat.le_succ_of_le hrun.watermark,
          fun t ht => Nat.le_succ_of_le (hrun.marked t ht)⟩
      · cases h
  | stopped =>
    cases h
    exact hrun

/-- **Every move of a run is sound.** -/
theorem perform_sound {move : Move} {enabled : Bool} {p : Performed}
    (hcoherent : executor.Coherent key) (h : executor.perform move reading enabled = some p) :
    Performed.Sound key executor reading.nextId p := by
  have hrun := hcoherent.run
  unfold perform at h
  cases move with
  | stopPoint verdict =>
    dsimp only at h
    split at h
    · rename_i hpoint
      cases h
      exact sound_silent (hcoherent.stopPoint hpoint)
    · cases h
  | started =>
    dsimp only at h
    split at h
    · cases h
      exact sound_commits hrun RunState.emits_started (fun _ => rfl) (by simp [Point.ending?])
    · cases h
  | announce reason =>
    obtain ⟨next, hnext, rfl⟩ := Option.map_eq_some_iff.mp h
    obtain ⟨hhere, hthere⟩ := isWorking_of_announced hnext
    exact sound_commits hrun (RunState.emits_progress hrun.active)
      (fun _ => hcoherent.working hhere) (ending?_of_isWorking hthere)
  | frame text =>
    dsimp only at h
    split at h
    · rename_i hnarrates
      obtain ⟨⟨run, c⟩, hframe, rfl⟩ := Option.map_eq_some_iff.mp h
      have hhere := isWorking_of_narrates hnarrates
      refine sound_commits hrun (RunState.emits_frame hrun.active hframe) (fun _ => ?_)
        (ending?_of_isWorking hhere)
      rw [RunState.status_of_frame hframe]
      exact hcoherent.working hhere
    · cases h
  | phases =>
    obtain ⟨⟨transitions, next⟩, hnext, rfl⟩ := Option.map_eq_some_iff.mp h
    obtain ⟨hhere, hthere, hne⟩ := isWorking_of_transitions hnext
    have hstatus := hcoherent.working hhere
    dsimp only
    split
    · rename_i run hphases
      exact sound_silent
        (Coherent.raised ((RunState.transits_of_phases_error hphases).coherent hrun))
    · rename_i run c hphases
      refine sound_commits hrun (RunState.emits_phases hne hrun.active hstatus hphases)
        (fun _ => ?_) (ending?_of_isWorking hthere)
      rw [RunState.status_of_phases hphases]
      exact hstatus
  | meter event =>
    dsimp only at h
    split at h
    · rename_i hpoint
      cases h
      have hhere := isWorking_of_narrates hpoint.1
      exact sound_silent (Coherent.of_working
        ⟨hrun.identity, hrun.active, hrun.watermark, hrun.marked⟩ hhere (hcoherent.working hhere))
    · cases h
  | pass =>
    obtain ⟨next, hnext, rfl⟩ := Option.map_eq_some_iff.mp h
    obtain ⟨hhere, hthere⟩ := isWorking_of_afterWork hnext
    exact sound_silent (Coherent.of_working hrun hthere (hcoherent.working hhere))
  | toAnalysis =>
    dsimp only at h
    split at h
    · rename_i hpoint
      cases h
      exact sound_silent (Coherent.of_working hrun rfl (hcoherent.working (hpoint ▸ rfl)))
    · cases h
  | request request =>
    dsimp only at h
    split at h
    · cases h
      exact sound_silent hcoherent.begin
    · cases h
  | close =>
    dsimp only at h
    split at h
    · rename_i ending hpoint
      have howned : ending.Owned key := hcoherent.ending ending (by rw [hpoint]; rfl)
      split at h
      · rename_i run hclose
        obtain ⟨hrecord, hsequence, hmarked⟩ := RunState.closeTranscript_silent hclose
        cases h
        refine sound_silent (Coherent.of_run ⟨?_, ?_, ?_, hmarked hrun.marked⟩ rfl (by simp)
          (fun e he => by cases he; exact howned))
        · exact hrecord ▸ hrun.identity
        · exact hrecord ▸ hrun.active
        · rw [hrecord, hsequence]
          exact hrun.watermark
      · rename_i run c hclose
        cases h
        exact sound_commits hrun (RunState.emits_closeTranscript hrun.active hclose) (by simp [Point.isWorking])
          (fun e he => by cases he; exact howned)
    · cases h
  | record =>
    dsimp only at h
    split at h
    · rename_i ending hpoint
      have howned : ending.Owned key := hcoherent.ending ending (by rw [hpoint]; rfl)
      split at h
      · cases h
        exact sound_silent (Coherent.of_run hrun rfl (by simp)
          (fun e he => by cases he; exact howned))
      · rename_i c hrecord
        cases h
        exact sound_commits hrun
          (RunState.emits_recordThinkingMessage hrun.active (hcoherent.recorded ending hpoint)
            hrecord)
          (by simp [Point.isWorking]) (fun e he => by cases he; exact howned)
    · cases h
  | finish =>
    dsimp only at h
    split at h
    · cases h
      exact sound_silent (Coherent.of_run hrun rfl (by simp) (by simp [Point.ending?]))
    · rename_i ending hstopped hpoint
      have howned : ending.Owned key := hcoherent.ending ending (by rw [hpoint]; rfl)
      split at h
      · rename_i run hending
        cases h
        exact sound_silent (Coherent.raised (endingCommit_error hrun hending))
      · rename_i run c hending
        cases h
        have hafter : executor.afterFinish.isWorking = false
            ∧ executor.afterFinish.ending? = none := by
          unfold afterFinish
          split <;> exact ⟨rfl, rfl⟩
        exact sound_commits hrun (endingCommit_emits (hrun.identity.symm ▸ howned) hending)
          (by simp [hafter.1]) (by simp [hafter.2])
    · cases h
  | history =>
    dsimp only at h
    split at h
    · cases h
      exact sound_silent (Coherent.of_run hrun rfl (by simp) (by simp [Point.ending?]))
    · cases h
  | raise error =>
    dsimp only at h
    split at h
    · cases h
    · cases h
      exact sound_silent (Coherent.raised hrun)

/-- A task starts coherent. -/
theorem coherent_spawn {record : InteractionRecord} (hid : record.interactionId = key)
    (h : record.status = .running) : (spawn record).Coherent key :=
  Coherent.of_working (hid ▸ RunState.coherent_ofClaimed (by simp [h])) rfl
    (by simp [spawn, RunState.ofClaimed, h, InteractionStatus.isTerminal])

end Executor
