import FactoryAgent.Metering.UsageBuffer
import FactoryAgent.Session.Emission

/-!
# What the commits of a run deliver

Each commit of a run carries what it drained from the metering buffer, at the end of its usage events;
before that come the events of the run's own list – model calls, the routing, the completion – which
holds no MES call (`Executor.perform_delivers`).
-/

/-- **A commit delivers what was drained**: after events of other kinds than MES calls. -/
def InteractionCommit.Delivers (c : InteractionCommit) (drained : List UsageEvent) : Prop :=
  ∃ own, c.usageEvents = own ++ drained ∧ ∀ event ∈ own, event.eventType ≠ .mesCallCompleted

/-- The run's own list holds no MES call. -/
def RunState.OwnEvents (state : RunState) : Prop :=
  ∀ event ∈ state.usageEvents, event.eventType ≠ .mesCallCompleted

/-- Whether a move meters something else than an MES call, as all moves do. -/
def Move.Own : Move → Prop
  | .meter event => event.eventType ≠ .mesCallCompleted
  | _ => True

instance (move : Move) : Decidable move.Own := by
  unfold Move.Own
  split <;> infer_instance

namespace RunState

variable {state state' : RunState} {reading : Reading} {c : InteractionCommit}

/-- **A commit of a run delivers**: what was drained, and the run's own list holds no MES call
afterwards. -/
structure Delivers (after : RunState) (drained : List UsageEvent) (c : InteractionCommit) : Prop where
  own : after.OwnEvents
  commit : c.Delivers drained

/-- A commit that carries only what was drained. -/
theorem delivers_of_drained {drained : List UsageEvent} (hown : state.OwnEvents)
    (hsame : state'.usageEvents = state.usageEvents) (hdrained : c.usageEvents = drained) :
    state'.Delivers drained c where
  own := fun event hevent => hown event (hsame ▸ hevent)
  commit := ⟨[], by rw [hdrained, List.nil_append], fun _ h => absurd h List.not_mem_nil⟩

/-- A commit that ends a round also carries the run's own list, with the completion. -/
theorem delivers_of_ending {drained : List UsageEvent} {record : InteractionRecord}
    {result : Option ResultFacts} {category : Option String} (hown : state.OwnEvents)
    (hafter : state'.usageEvents = state.usageEvents
      ++ [record.completionEvent reading result category state.usageEvents])
    (hcommit : c.usageEvents = state'.usageEvents ++ drained) : state'.Delivers drained c := by
  have hown' : state'.OwnEvents := by
    intro event hevent
    rw [hafter] at hevent
    rcases List.mem_append.mp hevent with hevent | hevent
    · exact hown event hevent
    · rw [List.mem_singleton.mp hevent]
      simp [InteractionRecord.completionEvent, interactionCompletedEvent, UsageContext.wrap]
  exact ⟨hown', state'.usageEvents, hcommit, hown'⟩

theorem delivers_phases {transitions : List (SessionState × String)} (hown : state.OwnEvents)
    (h : state.phases transitions reading = .ok (state', c)) :
    state'.Delivers reading.drained c := by
  unfold phases at h
  split at h
  · cases h
  · rename_i events state'' hevents
    cases h
    exact delivers_of_drained hown (phaseEvents_ok hevents).1.usage rfl

theorem delivers_frame {text : String} (hown : state.OwnEvents)
    (h : state.frame text reading = some (state', c)) : state'.Delivers reading.drained c := by
  unfold frame at h
  split at h
  · cases h
  · split at h
    · cases h
    · cases h
      exact delivers_of_drained hown rfl rfl

theorem delivers_closeTranscript (hown : state.OwnEvents)
    (h : state.closeTranscript reading = (state', some c)) : state'.Delivers reading.drained c := by
  unfold closeTranscript at h
  split at h
  · cases h
  · split at h
    · cases h
    · dsimp only at h
      split at h
      · cases h
      · cases h
        exact delivers_of_drained hown rfl rfl

/-- Closing the transcript without a commit leaves the run's own list as it is. -/
theorem usageEvents_closeTranscript (h : state.closeTranscript reading = (state', none)) :
    state'.usageEvents = state.usageEvents := by
  unfold closeTranscript at h
  split at h
  · cases h
    rfl
  · split at h
    · cases h
      rfl
    · dsimp only at h
      split at h
      · cases h
        rfl
      · cases h

theorem usageEvents_recordThinkingMessage
    (h : state.recordThinkingMessage reading = some c) : c.usageEvents = reading.drained := by
  unfold recordThinkingMessage at h
  split at h
  · cases h
  · split at h
    · cases h
    · cases h
      rfl

end RunState

namespace Executor

variable {executor : Executor} {reading : Reading}

/-- The commit that ends a round. -/
theorem endingCommit_delivers {ending : Ending} {run run' : RunState} {c : InteractionCommit}
    (hown : run.OwnEvents) (h : endingCommit run ending reading = .ok (run', c)) :
    run'.Delivers reading.drained c := by
  cases ending with
  | clarify question clarifying =>
    cases h
    exact RunState.delivers_of_ending hown rfl rfl
  | chat text answered now =>
    cases h
    exact RunState.delivers_of_ending hown rfl rfl
  | result facts =>
    unfold endingCommit RunState.completeResult at h
    dsimp only at h
    split at h
    · cases h
    · cases h
      exact RunState.delivers_of_ending hown rfl rfl
  | terminate ending now =>
    unfold endingCommit RunState.terminate at h
    dsimp only at h
    split at h
    · cases h
    · split at h
      · cases h
      · cases h
        exact RunState.delivers_of_ending hown rfl rfl
  | stopped => cases h

/-- A raise before the commit that ends a round leaves the run's own list as it is. -/
theorem endingCommit_error_usageEvents {ending : Ending} {run run' : RunState}
    (h : endingCommit run ending reading = .error run') : run'.usageEvents = run.usageEvents := by
  cases ending with
  | clarify question clarifying => cases h
  | chat text answered now => cases h
  | result facts =>
    unfold endingCommit RunState.completeResult at h
    dsimp only at h
    split at h <;> cases h
    rfl
  | terminate ending now =>
    unfold endingCommit RunState.terminate at h
    dsimp only at h
    split at h
    · cases h
      rfl
    · split at h <;> cases h
      rfl
  | stopped =>
    cases h
    rfl

/-- **What a move delivers**: the run's own list holds no MES call afterwards, and a commit carries
what was drained. -/
structure Performed.Delivers (drained : List UsageEvent) (p : Performed) : Prop where
  stored : p.stored.run.OwnEvents
  refused : p.refused.run.OwnEvents
  commit : ∀ c, p.commit = some c → c.Delivers drained

theorem delivers_silent {e : Executor} {drained : List UsageEvent} (h : e.run.OwnEvents) :
    Performed.Delivers drained e.silent := ⟨h, h, fun _ hc => by cases hc⟩

theorem delivers_commits {next : Point} {run : RunState} {c : InteractionCommit} {now : Instant}
    {drained : List UsageEvent} (h : run.Delivers drained c) :
    Performed.Delivers drained (executor.commits next run c now) where
  stored := h.own
  refused := by simpa [commits] using h.own
  commit := fun _ hc => by
    cases hc
    exact h.commit

/-- Taking up a request leaves the run as it is. -/
theorem begin_run (request : Request) (now : Instant) :
    (executor.begin request now).run = executor.run := by
  unfold begin
  split
  · split
    · exact raised_run _ _
    · rfl
  · split
    · exact raised_run _ _
    · rfl
  · rfl
  · rfl

/-- A stop point leaves the run's own list as it is. -/
theorem stopPoint_usageEvents (verdict : Option Stop) (now : Instant) (enabled : Bool) :
    (executor.stopPoint verdict now enabled).run.usageEvents = executor.run.usageEvents := by
  unfold stopPoint
  split
  · dsimp only
    split <;> rfl
  · split
    · rfl
    · split <;> rfl

/-- **Every move delivers what it drains.** -/
theorem perform_delivers {move : Move} {enabled : Bool} {p : Performed}
    (hown : executor.run.OwnEvents) (hmove : move.Own)
    (h : executor.perform move reading enabled = some p) : p.Delivers reading.drained := by
  have hsame : ∀ {run : RunState}, run.usageEvents = executor.run.usageEvents → run.OwnEvents :=
    fun heq event hevent => hown event (heq ▸ hevent)
  unfold perform at h
  cases move with
  | stopPoint verdict =>
    dsimp only at h
    split at h
    · cases h
      exact delivers_silent (hsame (stopPoint_usageEvents _ _ _))
    · cases h
  | started =>
    dsimp only at h
    split at h
    · cases h
      exact delivers_commits (RunState.delivers_of_drained hown rfl rfl)
    · cases h
  | announce reason =>
    obtain ⟨next, -, rfl⟩ := Option.map_eq_some_iff.mp h
    exact delivers_commits (RunState.delivers_of_drained hown rfl rfl)
  | frame text =>
    dsimp only at h
    split at h
    · obtain ⟨⟨run, c⟩, hframe, rfl⟩ := Option.map_eq_some_iff.mp h
      exact delivers_commits (RunState.delivers_frame hown hframe)
    · cases h
  | phases =>
    obtain ⟨⟨transitions, next⟩, -, rfl⟩ := Option.map_eq_some_iff.mp h
    dsimp only
    split
    · rename_i run hphases
      refine delivers_silent (hsame ?_)
      rw [raised_run]
      exact (RunState.transits_of_phases_error hphases).usage
    · rename_i run c hphases
      exact delivers_commits (RunState.delivers_phases hown hphases)
  | meter event =>
    dsimp only at h
    split at h
    · cases h
      refine delivers_silent (fun e he => ?_)
      rcases List.mem_append.mp he with he | he
      · exact hown e he
      · exact List.mem_singleton.mp he ▸ hmove
    · cases h
  | pass =>
    obtain ⟨next, -, rfl⟩ := Option.map_eq_some_iff.mp h
    exact delivers_silent hown
  | toAnalysis =>
    dsimp only at h
    split at h
    · cases h
      exact delivers_silent hown
    · cases h
  | request request =>
    dsimp only at h
    split at h
    · cases h
      exact delivers_silent (by rw [begin_run]; exact hown)
    · cases h
  | close =>
    dsimp only at h
    split at h
    · split at h
      · rename_i run hclose
        cases h
        exact delivers_silent (hsame (RunState.usageEvents_closeTranscript hclose))
      · rename_i run c hclose
        cases h
        exact delivers_commits (RunState.delivers_closeTranscript hown hclose)
    · cases h
  | record =>
    dsimp only at h
    split at h
    · split at h
      · cases h
        exact delivers_silent hown
      · rename_i c hrecord
        cases h
        exact delivers_commits (RunState.delivers_of_drained hown rfl
          (RunState.usageEvents_recordThinkingMessage hrecord))
    · cases h
  | finish =>
    dsimp only at h
    split at h
    · cases h
      exact delivers_silent hown
    · split at h
      · rename_i run hending
        cases h
        refine delivers_silent (hsame ?_)
        rw [raised_run]
        exact endingCommit_error_usageEvents hending
      · rename_i run c hending
        cases h
        exact delivers_commits (endingCommit_delivers hown hending)
    · cases h
  | history =>
    dsimp only at h
    split at h
    · cases h
      exact delivers_silent hown
    · cases h
  | raise error =>
    dsimp only at h
    split at h
    · cases h
    · cases h
      exact delivers_silent (by rw [raised_run]; exact hown)

end Executor
