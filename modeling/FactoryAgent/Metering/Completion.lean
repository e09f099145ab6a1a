import FactoryAgent.Metering.Delivery

/-!
# What a commit says about the end of an interaction

The completion event of an interaction rides on the commit that ends it: `_complete_result` and its
siblings append it to the run's list in memory and hand the whole list to the commit. A commit that
does not end the interaction carries what was drained from the metering buffer and nothing else
(`Executor.perform_accounts`). The metering tables ignore an event whose identifier they hold, and keep
every other one.
-/

/-! ## Completion events -/

/-- Whether an event is an `interaction_completed`. -/
def UsageEvent.isCompletion (event : UsageEvent) : Bool :=
  decide (event.eventType = .interactionCompleted)

/-- **A completion event of a status.** -/
structure UsageEvent.Reports (event : UsageEvent) (status : InteractionStatus) : Prop where
  completion : event.isCompletion = true
  status : event.payload.lookup "status" = some (.text (completionStatus status))

/-- The completion event of a record reports the record's status. -/
theorem InteractionRecord.reports_completionEvent (record : InteractionRecord) (reading : Reading)
    (result : Option ResultFacts) (category : Option String) (usageEvents : List UsageEvent) :
    (record.completionEvent reading result category usageEvents).Reports record.status := by
  refine ⟨rfl, ?_⟩
  simp only [completionEvent, interactionCompletedEvent, UsageContext.wrap, UsageContext.envelope]
  rfl

/-! ## The metering table -/

/-- A commit that ends the interaction. -/
def InteractionCommit.Ends (c : InteractionCommit) : Prop :=
  c.lifecycle = true ∧ c.interaction.status.isTerminal = true

instance (c : InteractionCommit) : Decidable c.Ends := inferInstanceAs (Decidable (_ ∧ _))

namespace InteractionStore

/-- **The completion events that are durably written.** -/
def completions (store : InteractionStore) : List UsageEvent :=
  store.usageEvents.filter (·.isCompletion)

variable {store : InteractionStore} {event : UsageEvent} {events own drained : List UsageEvent}

/-- The events of a write are written one after the other. -/
theorem writeUsageEvents_append (own drained : List UsageEvent) :
    store.writeUsageEvents (own ++ drained)
      = (store.writeUsageEvents own).writeUsageEvents drained := by
  simp [writeUsageEvents, List.foldl_append]

/-- One event is appended, unless its identifier is there. -/
theorem usageEvents_writeUsageEvents_singleton (store : InteractionStore) (event : UsageEvent) :
    (store.writeUsageEvents [event]).usageEvents = store.usageEvents
      ∨ (store.writeUsageEvents [event]).usageEvents = store.usageEvents ++ [event] := by
  simp only [writeUsageEvents, List.foldl_cons, List.foldl_nil]
  split
  · exact Or.inl rfl
  · exact Or.inr rfl

/-- A new event is appended. -/
theorem usageEvents_writeUsageEvents_new
    (hnew : ∀ row ∈ store.usageEvents, row.eventId ≠ event.eventId) :
    (store.writeUsageEvents [event]).usageEvents = store.usageEvents ++ [event] := by
  simpa [writeUsageEvents] using hnew

/-- What is written was there or was handed over. -/
theorem mem_writeUsageEvents {row : UsageEvent}
    (h : row ∈ (store.writeUsageEvents events).usageEvents) :
    row ∈ store.usageEvents ∨ row ∈ events := by
  induction events generalizing store with
  | nil => exact Or.inl h
  | cons event events ih =>
    rw [show event :: events = [event] ++ events from rfl, writeUsageEvents_append] at h
    rcases ih h with h | h
    · rcases store.usageEvents_writeUsageEvents_singleton event with hsame | hnew
      · exact Or.inl (hsame ▸ h)
      · rw [hnew] at h
        rcases List.mem_append.mp h with h | h
        · exact Or.inl h
        · exact Or.inr (List.mem_cons.mpr (Or.inl (List.mem_singleton.mp h)))
    · exact Or.inr (List.mem_cons_of_mem _ h)

/-- Events of other kinds leave the completions as they are. -/
theorem completions_of_others (hother : ∀ event ∈ events, event.isCompletion = false) :
    (store.writeUsageEvents events).completions = store.completions := by
  induction events generalizing store with
  | nil => rfl
  | cons event events ih =>
    rw [show event :: events = [event] ++ events from rfl, writeUsageEvents_append,
      ih fun e he => hother e (List.mem_cons_of_mem _ he)]
    unfold completions
    rcases store.usageEvents_writeUsageEvents_singleton event with hsame | hnew
    · rw [hsame]
    · have hnone : [event].filter (·.isCompletion) = [] := by
        simp [hother event List.mem_cons_self]
      rw [hnew, List.filter_append, hnone, List.append_nil]

/-- **A write with one new completion event** among events of other kinds. -/
theorem completions_of_ending (hevent : event.isCompletion = true)
    (hown : ∀ e ∈ own, e.isCompletion = false) (hdrained : ∀ e ∈ drained, e.isCompletion = false)
    (hnew : ∀ row ∈ store.usageEvents, row.eventId ≠ event.eventId)
    (hnewOwn : ∀ e ∈ own, e.eventId ≠ event.eventId) :
    (store.writeUsageEvents (own ++ [event] ++ drained)).completions
      = store.completions ++ [event] := by
  have happended : ((store.writeUsageEvents own).writeUsageEvents [event]).usageEvents
      = (store.writeUsageEvents own).usageEvents ++ [event] :=
    usageEvents_writeUsageEvents_new fun row hrow =>
      (mem_writeUsageEvents hrow).elim (hnew row) (hnewOwn row)
  have hone : [event].filter (·.isCompletion) = [event] := by simp [hevent]
  rw [writeUsageEvents_append, writeUsageEvents_append, completions_of_others hdrained, completions,
    happended, List.filter_append, hone]
  exact congrArg (· ++ [event]) (completions_of_others hown)

end InteractionStore

/-! ## The moves of a run -/

namespace Executor

variable {key : String} {executor : Executor} {reading : Reading}

/-- **What a move does to the account of a run**: the list in memory and what a commit carries of it.
Both continuations of a move have the same run in memory. -/
inductive Accounts (executor : Executor) (reading : Reading) (move : Move) (p : Performed) : Prop where
  /-- The list stays, and a commit carries what was drained. -/
  | kept (usage : p.stored.run.usageEvents = executor.run.usageEvents)
      (status : p.stored.run.record.status = executor.run.record.status
        ∨ executor.run.record.status.isTerminal = false)
      (commit : ∀ c ∈ p.commit, c.usageEvents = reading.drained ∧ ¬ c.Ends)
  /-- An event of another kind joins the list. -/
  | metered {event : UsageEvent} (move_eq : move = .meter event) (other : event.isCompletion = false)
      (usage : p.stored.run.usageEvents = executor.run.usageEvents ++ [event])
      (record : p.stored.run.record = executor.run.record) (commit : p.commit = none)
  /-- The round ends, and the whole list is carried with its completion event. -/
  | ended {c : InteractionCommit} {event : UsageEvent} (commit : p.commit = some c)
      (usage : p.stored.run.usageEvents = executor.run.usageEvents ++ [event])
      (carried : c.usageEvents = executor.run.usageEvents ++ [event] ++ reading.drained)
      (id : event.eventId = reading.nextId) (reports : event.Reports c.interaction.status)
      (ends : c.Ends) (record : p.stored.run.record = c.interaction)

/-- **The commit that ends a round** carries the list and one completion event more. -/
theorem endingCommit_accounts {ending : Ending} {run run' : RunState} {c : InteractionCommit}
    (h : endingCommit run ending reading = .ok (run', c)) :
    ∃ event, run'.usageEvents = run.usageEvents ++ [event]
      ∧ c.usageEvents = run.usageEvents ++ [event] ++ reading.drained
      ∧ event.eventId = reading.nextId ∧ event.Reports c.interaction.status ∧ c.Ends
      ∧ run'.record = c.interaction := by
  cases ending with
  | clarify question clarifying =>
    cases h
    exact ⟨_, rfl, rfl, rfl, InteractionRecord.reports_completionEvent _ _ _ _ _, ⟨rfl, rfl⟩, rfl⟩
  | chat text answered now =>
    cases h
    exact ⟨_, rfl, rfl, rfl, InteractionRecord.reports_completionEvent _ _ _ _ _, ⟨rfl, rfl⟩, rfl⟩
  | result facts =>
    unfold endingCommit RunState.completeResult at h
    dsimp only at h
    split at h
    · cases h
    · cases h
      exact ⟨_, rfl, rfl, rfl, InteractionRecord.reports_completionEvent _ _ _ _ _, ⟨rfl, rfl⟩, rfl⟩
  | terminate ending now =>
    unfold endingCommit RunState.terminate at h
    dsimp only at h
    split at h
    · cases h
    · split at h
      · cases h
      · rename_i name hname
        have hterminal : ending.status.isTerminal = true := by
          cases hstatus : ending.status <;> first | rfl | (rw [hstatus] at hname; cases hname)
        cases h
        exact ⟨_, rfl, rfl, rfl, InteractionRecord.reports_completionEvent _ _ _ _ _,
          ⟨rfl, hterminal⟩, rfl⟩
  | stopped => cases h

/-- An ending that raises leaves the list and the status as they are. -/
theorem endingCommit_error_account {ending : Ending} {run run' : RunState}
    (h : endingCommit run ending reading = .error run') :
    run'.usageEvents = run.usageEvents ∧ run'.record.status = run.record.status := by
  cases ending with
  | clarify question clarifying => cases h
  | chat text answered now => cases h
  | result facts =>
    unfold endingCommit RunState.completeResult at h
    dsimp only at h
    split at h <;> cases h
    exact ⟨rfl, rfl⟩
  | terminate ending now =>
    unfold endingCommit RunState.terminate at h
    dsimp only at h
    split at h
    · cases h
      exact ⟨rfl, rfl⟩
    · split at h <;> cases h
      exact ⟨rfl, rfl⟩
  | stopped =>
    cases h
    exact ⟨rfl, rfl⟩

/-- A stop point leaves the record and the list as they are. -/
theorem stopPoint_account (verdict : Option Stop) (now : Instant) (enabled : Bool) :
    (executor.stopPoint verdict now enabled).run.usageEvents = executor.run.usageEvents
      ∧ (executor.stopPoint verdict now enabled).run.record = executor.run.record := by
  unfold stopPoint
  split
  · dsimp only
    split <;> exact ⟨rfl, rfl⟩
  · split
    · exact ⟨rfl, rfl⟩
    · split <;> exact ⟨rfl, rfl⟩

theorem accounts_silent {move : Move} {e : Executor}
    (husage : e.run.usageEvents = executor.run.usageEvents)
    (hstatus : e.run.record.status = executor.run.record.status) :
    Accounts executor reading move e.silent :=
  .kept husage (Or.inl hstatus) (fun _ hc => by cases hc)

theorem accounts_commits {move : Move} {next : Point} {run : RunState} {c : InteractionCommit}
    {now : Instant} (husage : run.usageEvents = executor.run.usageEvents)
    (hstatus : run.record.status = executor.run.record.status
      ∨ executor.run.record.status.isTerminal = false)
    (hdrained : c.usageEvents = reading.drained) (hends : ¬ c.Ends) :
    Accounts executor reading move (executor.commits next run c now) :=
  .kept husage hstatus (fun _ hc => by cases hc; exact ⟨hdrained, hends⟩)

/-- An informational commit ends nothing. -/
theorem not_ends_of_informational {c : InteractionCommit} (h : c.lifecycle = false) : ¬ c.Ends :=
  fun hends => by rw [hends.1] at h; cases h

/-- **What each move does to the account of a run.** -/
theorem perform_accounts {move : Move} {enabled : Bool} {p : Performed}
    (hcoherent : executor.Coherent key) (h : executor.perform move reading enabled = some p) :
    Accounts executor reading move p := by
  unfold perform at h
  cases move with
  | stopPoint verdict =>
    dsimp only at h
    split at h
    · cases h
      obtain ⟨husage, hrecord⟩ := @stopPoint_account executor verdict reading.now enabled
      exact accounts_silent husage (congrArg _ hrecord)
    · cases h
  | started =>
    dsimp only at h
    split at h
    · rename_i hpoint
      cases h
      exact accounts_commits rfl (Or.inr (hcoherent.working (hpoint ▸ rfl))) rfl
        (fun hends => by cases hends.2)
    · cases h
  | announce reason =>
    obtain ⟨next, -, rfl⟩ := Option.map_eq_some_iff.mp h
    exact accounts_commits rfl (Or.inl rfl) rfl (not_ends_of_informational rfl)
  | frame text =>
    dsimp only at h
    split at h
    · obtain ⟨⟨run, c⟩, hframe, rfl⟩ := Option.map_eq_some_iff.mp h
      unfold RunState.frame at hframe
      split at hframe
      · cases hframe
      · split at hframe
        · cases hframe
        · cases hframe
          exact accounts_commits rfl (Or.inl rfl) rfl (not_ends_of_informational rfl)
    · cases h
  | phases =>
    obtain ⟨⟨transitions, next⟩, hnext, rfl⟩ := Option.map_eq_some_iff.mp h
    obtain ⟨hhere, -, -⟩ := isWorking_of_transitions hnext
    dsimp only
    split
    · rename_i run hphases
      have htransits := RunState.transits_of_phases_error hphases
      refine accounts_silent ?_ ?_
      · rw [raised_run]
        exact htransits.usage
      · rw [raised_run]
        exact htransits.status
    · rename_i run c hphases
      have hstatus := RunState.status_of_phases hphases
      have hends : ¬ c.Ends := fun hends => by
        have hterminal := hends.2
        rw [hstatus, hcoherent.working hhere] at hterminal
        cases hterminal
      unfold RunState.phases at hphases
      split at hphases
      · cases hphases
      · rename_i hevents
        cases hphases
        exact accounts_commits (RunState.phaseEvents_ok hevents).1.usage (Or.inl hstatus) rfl hends
  | meter event =>
    dsimp only at h
    split at h
    · rename_i hpoint
      cases h
      exact .metered rfl (decide_eq_false hpoint.2) rfl rfl rfl
    · cases h
  | pass =>
    obtain ⟨next, -, rfl⟩ := Option.map_eq_some_iff.mp h
    exact accounts_silent rfl rfl
  | toAnalysis =>
    dsimp only at h
    split at h
    · cases h
      exact accounts_silent rfl rfl
    · cases h
  | request request =>
    dsimp only at h
    split at h
    · cases h
      have hrun := @begin_run executor request reading.now
      exact accounts_silent (congrArg _ hrun) (congrArg (·.record.status) hrun)
    · cases h
  | close =>
    dsimp only at h
    split at h
    · split at h
      · rename_i run hclose
        cases h
        exact accounts_silent (RunState.usageEvents_closeTranscript hclose)
          (congrArg _ (RunState.closeTranscript_silent hclose).1)
      · rename_i run c hclose
        cases h
        unfold RunState.closeTranscript at hclose
        split at hclose
        · cases hclose
        · split at hclose
          · cases hclose
          · dsimp only at hclose
            split at hclose
            · cases hclose
            · cases hclose
              exact accounts_commits rfl (Or.inl rfl) rfl (not_ends_of_informational rfl)
    · cases h
  | record =>
    dsimp only at h
    split at h
    · split at h
      · cases h
        exact accounts_silent rfl rfl
      · rename_i c hrecord
        cases h
        unfold RunState.recordThinkingMessage at hrecord
        split at hrecord
        · cases hrecord
        · split at hrecord
          · cases hrecord
          · cases hrecord
            exact accounts_commits rfl (Or.inl rfl) rfl (not_ends_of_informational rfl)
    · cases h
  | finish =>
    dsimp only at h
    split at h
    · cases h
      exact accounts_silent rfl rfl
    · split at h
      · rename_i run hending
        cases h
        obtain ⟨husage, hstatus⟩ := endingCommit_error_account hending
        refine accounts_silent ?_ ?_
        · rw [raised_run]
          exact husage
        · rw [raised_run]
          exact hstatus
      · rename_i run c hending
        cases h
        obtain ⟨event, husage, hcarried, hid, hreports, hends, hrecord⟩ := endingCommit_accounts hending
        exact .ended rfl husage hcarried hid hreports hends hrecord
    · cases h
  | history =>
    dsimp only at h
    split at h
    · cases h
      exact accounts_silent rfl rfl
    · cases h
  | raise error =>
    dsimp only at h
    split at h
    · cases h
    · cases h
      exact accounts_silent (by rw [raised_run]) (by rw [raised_run])

end Executor
