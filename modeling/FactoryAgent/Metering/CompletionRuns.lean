import FactoryAgent.Metering.Completion
import FactoryAgent.Session.Absorption

/-!
# One completion event for an interaction

A terminal row should come with one `interaction_completed` event, whose status is the row's. The parties
of an interaction keep this along the runs in which each of them ends what is not ended yet, and in
which what is written about an ending gets through (`World.Conclusive`).

The condition on the memory of a run is the one that a failing commit breaks. The completion event joins
the list before the commit that carries it. When that commit raises, the handler of `_run` fails the
round with a second completion event, and its commit carries both.
-/

namespace SessionAction

/-- The outcome of the commit of an action. -/
def outcome? : SessionAction → Option WriteOutcome
  | .move _ _ _ outcome | .cancelCommit _ _ outcome | .reapCommit _ _ outcome => some outcome
  | _ => none

/-- The executor that an action moves. -/
def mover? (world : World) : SessionAction → Option Executor
  | .move index _ _ _ => world.executors[index]?
  | _ => none

/-- The events that an action takes from the metering buffer or from a model call. -/
def buffered : SessionAction → List UsageEvent
  | .move _ (.meter event) reading _ => event :: reading.drained
  | .move _ _ reading _ => reading.drained
  | _ => []

/-- A sweep gets the terminal event of a row it failed through. -/
def Persists : SessionAction → Prop
  | .reapDies _ => False
  | .reapCommit _ _ outcome => outcome = .stored
  | _ => True

instance (action : SessionAction) : Decidable action.Persists :=
  match action with
  | .reapDies _ => isFalse id
  | .reapCommit _ _ outcome => inferInstanceAs (Decidable (outcome = .stored))
  | .start _ _ | .claim _ | .move _ _ _ _ | .executorDies _ | .cancelLoad | .cancelCommit _ _ _
  | .cancelSignal _ | .staleSweep _ _ | .abandonedSweep _ _ => isTrue trivial

end SessionAction

/-- **The account of a run in memory**: its events have identifiers that were issued, and there is no
completion among them before the run ended in memory. -/
structure RunState.Accounted (nextId : Nat) (state : RunState) : Prop where
  issued : ∀ event ∈ state.usageEvents, event.eventId < nextId
  unended : state.record.status.isTerminal = false →
    ∀ event ∈ state.usageEvents, event.isCompletion = false

/-- Issuing more identifiers changes nothing. -/
theorem RunState.Accounted.mono {state : RunState} {nextId nextId' : Nat}
    (h : state.Accounted nextId) (hle : nextId ≤ nextId') : state.Accounted nextId' :=
  ⟨fun event hevent => Nat.lt_of_lt_of_le (h.issued event hevent) hle, h.unended⟩

/-- **A move keeps the account of its run.** -/
theorem Executor.Accounts.accounted {executor : Executor} {reading : Reading} {move : Move}
    {p : Performed} (h : executor.Accounts reading move p)
    (hrun : executor.run.Accounted reading.nextId)
    (hmeter : ∀ event, move = .meter event → event.eventId < reading.nextId) :
    p.stored.run.Accounted (if p.commit = none then reading.nextId else reading.nextId + 4) := by
  cases h with
  | kept husage hstatus hcommit =>
    have hkept : p.stored.run.Accounted reading.nextId := by
      refine ⟨husage ▸ hrun.issued, fun hopen => ?_⟩
      rw [husage]
      exact hrun.unended (hstatus.elim (fun heq => heq ▸ hopen) id)
    exact hkept.mono (by split <;> omega)
  | metered hmove hother husage hrecord hcommit =>
    rw [if_pos hcommit]
    refine ⟨fun e he => ?_, fun hopen e he => ?_⟩
    · rw [husage] at he
      rcases List.mem_append.mp he with he | he
      · exact hrun.issued e he
      · exact List.mem_singleton.mp he ▸ hmeter _ hmove
    · rw [husage] at he
      rcases List.mem_append.mp he with he | he
      · exact hrun.unended (hrecord ▸ hopen) e he
      · exact List.mem_singleton.mp he ▸ hother
  | ended hcommit husage hcarried hid hreports hends hrecord =>
    rw [if_neg (by rw [hcommit]; simp)]
    refine ⟨fun e he => ?_, fun hopen => ?_⟩
    · rw [husage] at he
      rcases List.mem_append.mp he with he | he
      · exact Nat.lt_add_right 4 (hrun.issued e he)
      · rw [List.mem_singleton.mp he, hid]
        exact Nat.lt_add_of_pos_right (by decide)
    · rw [hrecord, hends.2] at hopen
      cases hopen

namespace World

variable {thinkingEnabled : Bool} {key : String} {world world' : World} {action : SessionAction}

/-- **A move of an executor**, inverted. -/
theorem move_eq_some {index : Nat} {move : Move} {reading : Reading} {outcome : WriteOutcome}
    (h : world.move thinkingEnabled index move reading outcome = some world') :
    ∃ executor performed, world.executors[index]? = some executor ∧ reading.nextId = world.nextId
      ∧ executor.perform move reading thinkingEnabled = some performed
      ∧ ((performed.commit = none
          ∧ world' = { world with executors := world.executors.set index performed.stored })
        ∨ ∃ c store, performed.commit = some c ∧ world.store.write c outcome = some store
          ∧ world' = { world with
              store := store
              executors := world.executors.set index
                (if outcome = .rolledBack then performed.refused else performed.stored)
              nextId := world.nextId + 4 }) := by
  unfold World.move at h
  split at h
  · cases h
  · rename_i executor hexecutor
    split at h
    · rename_i hsees
      split at h
      · cases h
      · rename_i performed hperform
        refine ⟨executor, performed, hexecutor, hsees.1, hperform, ?_⟩
        split at h
        · rename_i hcommit
          cases h
          exact Or.inl ⟨hcommit, rfl⟩
        · rename_i c hcommit
          obtain ⟨store, hwrite, rfl⟩ := Option.map_eq_some_iff.mp h
          exact Or.inr ⟨c, store, hcommit, hwrite, rfl⟩
    · cases h

/-- The commit of a cancel call, inverted. -/
theorem cancelCommit_eq_some {index : Nat} {reading : Reading} {outcome : WriteOutcome}
    (h : world.cancelCommit index reading outcome = some world') :
    ∃ copy, world.cancels[index]? = some copy ∧ reading.nextId = world.nextId
      ∧ ((copy.state.canTransition .cancelled = false
          ∧ world' = { world with cancels := world.cancels.eraseIdx index })
        ∨ (copy.state.canTransition .cancelled = true
          ∧ ∃ store, world.store.write (copy.cancelCommit reading) outcome = some store
            ∧ world' = { world with
                store := store, cancels := world.cancels.eraseIdx index
                signals := if outcome = .rolledBack then world.signals else world.signals + 1
                nextId := world.nextId + 4 })) := by
  unfold cancelCommit at h
  split at h
  · cases h
  · rename_i copy hcopy
    split at h
    · rename_i hid
      refine ⟨copy, hcopy, hid, ?_⟩
      split at h
      · rename_i hlegal
        obtain ⟨store, hwrite, rfl⟩ := Option.map_eq_some_iff.mp h
        exact Or.inr ⟨hlegal, store, hwrite, rfl⟩
      · rename_i hillegal
        cases h
        exact Or.inl ⟨eq_false_of_ne_true hillegal, rfl⟩
    · cases h

/-- The commit of a sweep, inverted. -/
theorem reapCommit_eq_some {index : Nat} {reading : Reading} {outcome : WriteOutcome}
    (h : world.reapCommit index reading outcome = some world') :
    ∃ reap store, world.reaps[index]? = some reap ∧ reading.nextId = world.nextId
      ∧ world.store.write (reap.commit reading) outcome = some store
      ∧ world' = { world with
          store := store, reaps := world.reaps.eraseIdx index, nextId := world.nextId + 4 } := by
  unfold reapCommit at h
  split at h
  · cases h
  · rename_i reap hreap
    split at h
    · rename_i hid
      obtain ⟨store, hwrite, rfl⟩ := Option.map_eq_some_iff.mp h
      exact ⟨reap, store, hreap, hid, hwrite, rfl⟩
    · cases h

/-- **What an action writes** to the metering tables. -/
def written (thinkingEnabled : Bool) (world : World) : SessionAction → List UsageEvent
  | .start question now => (question.commit now world.nextId).usageEvents
  | .reapCommit index reading .stored =>
    (world.reaps[index]?).elim [] (fun reap => (reap.commit reading).usageEvents)
  | action =>
    if action.outcome? = some .stored then
      (world.attempts thinkingEnabled action).elim [] (·.2.usageEvents)
    else []

/-! ## One action -/

/-- A write leaves the events of its commit, if it is stored as a whole. -/
theorem usage_of_write {store store' : InteractionStore} {c : InteractionCommit}
    {outcome : WriteOutcome} (h : store.write c outcome = some store') :
    store'.usageEvents
      = (store.writeUsageEvents (if outcome = .stored then c.usageEvents else [])).usageEvents := by
  cases outcome with
  | rolledBack =>
    cases h
    rfl
  | unmetered => exact (InteractionStore.commit_eq_some h).2.2.2
  | stored =>
    obtain ⟨committed, hcommitted, rfl⟩ := Option.map_eq_some_iff.mp h
    simp [InteractionStore.writeUsageEvents, (InteractionStore.commit_eq_some hcommitted).2.2.2]

/-- **Every action writes what it writes**, and nothing is deleted. -/
theorem usage_of_step (hstep : world.step thinkingEnabled action = some world') :
    world'.store.usageEvents
      = (world.store.writeUsageEvents (world.written thinkingEnabled action)).usageEvents := by
  cases action with
  | start question now =>
    simp only [step, start] at hstep
    split at hstep
    · obtain ⟨store, hwrite, rfl⟩ := Option.map_eq_some_iff.mp hstep
      exact usage_of_write hwrite
    · cases hstep
  | claim now =>
    cases hstep
    unfold claim
    split
    · rename_i hclaim
      obtain ⟨_, -, -, -, rfl⟩ := InteractionStore.claimRun_eq_some hclaim
      rfl
    · rfl
  | move index move reading outcome =>
    obtain ⟨executor, performed, hexecutor, -, hperform,
      ⟨hcommit, rfl⟩ | ⟨c, store, hcommit, hwrite, rfl⟩⟩ := move_eq_some hstep
    · simp [written, attempts, hexecutor, hperform, hcommit, SessionAction.outcome?,
        InteractionStore.writeUsageEvents]
    · dsimp only
      rw [usage_of_write hwrite]
      cases outcome <;>
        simp [written, attempts, hexecutor, hperform, hcommit, SessionAction.outcome?]
  | executorDies index =>
    obtain ⟨_, -, rfl⟩ := Option.map_eq_some_iff.mp hstep
    rfl
  | cancelLoad =>
    cases hstep
    unfold cancelLoad
    split
    · split <;> rfl
    · rfl
  | cancelCommit index reading outcome =>
    obtain ⟨copy, hcopy, -, ⟨hlegal, rfl⟩ | ⟨hlegal, store, hwrite, rfl⟩⟩ :=
      cancelCommit_eq_some hstep
    · simp [written, attempts, hcopy, hlegal, InteractionStore.writeUsageEvents]
    · dsimp only
      rw [usage_of_write hwrite]
      cases outcome <;> simp [written, attempts, hcopy, hlegal, SessionAction.outcome?]
  | cancelSignal index =>
    change world.cancelSignal index = some world' at hstep
    unfold cancelSignal at hstep
    split at hstep
    · cases hstep
    · split at hstep <;> cases hstep
      rfl
  | staleSweep staleBefore now =>
    cases hstep
    unfold staleSweep
    split
    · rename_i hsweep
      obtain ⟨_, -, -, -, -, rfl⟩ := InteractionStore.failStaleRun_eq_some hsweep
      rfl
    · rfl
  | abandonedSweep abandonedBefore now =>
    cases hstep
    unfold abandonedSweep
    split
    · rename_i hsweep
      obtain ⟨_, -, -, -, -, rfl⟩ := InteractionStore.failAbandonedRun_eq_some hsweep
      rfl
    · rfl
  | reapCommit index reading outcome =>
    obtain ⟨reap, store, hreap, -, hwrite, rfl⟩ := reapCommit_eq_some hstep
    dsimp only
    rw [usage_of_write hwrite]
    cases outcome <;> simp [written, hreap, SessionAction.outcome?]
  | reapDies index =>
    change world.reapDies index = some world' at hstep
    unfold reapDies at hstep
    split at hstep <;> cases hstep
    rfl

/-- Runs are only started, or left as they are, by an action that is no move. -/
theorem runs_of_other
    (hother : ∀ index move reading outcome, action ≠ .move index move reading outcome)
    (hstep : world.step thinkingEnabled action = some world') :
    world.nextId ≤ world'.nextId ∧ ∀ executor ∈ world'.executors,
      (∃ old ∈ world.executors, executor.run = old.run) ∨ executor.run.usageEvents = [] := by
  have hsame : ∀ executor ∈ world.executors,
      (∃ old ∈ world.executors, executor.run = old.run) ∨ executor.run.usageEvents = [] :=
    fun executor he => Or.inl ⟨executor, he, rfl⟩
  have hset : ∀ {index : Nat} {executor changed : Executor},
      world.executors[index]? = some executor → changed.run = executor.run →
      ∀ e ∈ world.executors.set index changed,
        (∃ old ∈ world.executors, e.run = old.run) ∨ e.run.usageEvents = [] := by
    intro index executor changed hexecutor hrun e he
    rcases List.mem_or_eq_of_mem_set he with he | rfl
    · exact hsame e he
    · exact Or.inl ⟨executor, List.mem_of_getElem? hexecutor, hrun⟩
  cases action with
  | move index move reading outcome => exact absurd rfl (hother index move reading outcome)
  | start question now =>
    simp only [step, start] at hstep
    split at hstep
    · obtain ⟨store, -, rfl⟩ := Option.map_eq_some_iff.mp hstep
      exact ⟨Nat.le_add_right _ 4, hsame⟩
    · cases hstep
  | claim now =>
    cases hstep
    unfold claim
    split
    · refine ⟨Nat.le_refl _, fun executor he => ?_⟩
      rcases List.mem_append.mp he with he | he
      · exact hsame executor he
      · rw [List.mem_singleton.mp he]
        exact Or.inr rfl
    · exact ⟨Nat.le_refl _, hsame⟩
  | executorDies index =>
    obtain ⟨executor, hexecutor, rfl⟩ := Option.map_eq_some_iff.mp hstep
    exact ⟨Nat.le_refl _, hset hexecutor rfl⟩
  | cancelLoad =>
    cases hstep
    unfold cancelLoad
    split
    · split <;> exact ⟨Nat.le_refl _, hsame⟩
    · exact ⟨Nat.le_refl _, hsame⟩
  | cancelCommit index reading outcome =>
    obtain ⟨_, -, -, ⟨-, rfl⟩ | ⟨-, _, -, rfl⟩⟩ := cancelCommit_eq_some hstep
    · exact ⟨Nat.le_refl _, hsame⟩
    · exact ⟨Nat.le_add_right _ 4, hsame⟩
  | cancelSignal index =>
    change world.cancelSignal index = some world' at hstep
    unfold cancelSignal at hstep
    split at hstep
    · cases hstep
    · rename_i executor hexecutor
      split at hstep <;> cases hstep
      exact ⟨Nat.le_refl _, hset hexecutor rfl⟩
  | staleSweep staleBefore now =>
    cases hstep
    unfold staleSweep
    split <;> exact ⟨Nat.le_refl _, hsame⟩
  | abandonedSweep abandonedBefore now =>
    cases hstep
    unfold abandonedSweep
    split <;> exact ⟨Nat.le_refl _, hsame⟩
  | reapCommit index reading outcome =>
    obtain ⟨_, _, -, -, -, rfl⟩ := reapCommit_eq_some hstep
    exact ⟨Nat.le_add_right _ 4, hsame⟩
  | reapDies index =>
    change world.reapDies index = some world' at hstep
    unfold reapDies at hstep
    split at hstep <;> cases hstep
    exact ⟨Nat.le_refl _, hsame⟩

/-! ## The guard -/

/-- **The guard**: what is ended was not ended before, and what is written about it gets through. -/
structure Conclusive (thinkingEnabled : Bool) (world : World) (action : SessionAction) : Prop where
  /-- A row is ended while it is not terminal. -/
  fresh : world.LifecycleFresh thinkingEnabled action
  /-- A run ends the interaction while it has not ended in memory. -/
  once : ∀ attempt ∈ world.attempts thinkingEnabled action, attempt.2.Ends →
    ∀ executor ∈ action.mover? world, executor.run.record.status.isTerminal = false
  /-- The metering transaction of an ending goes through. -/
  metered : ∀ attempt ∈ world.attempts thinkingEnabled action, attempt.2.Ends →
    action.outcome? = some .stored
  /-- A sweep gets the terminal event of a row it failed through. -/
  persists : action.Persists
  /-- The metering buffer holds no completions, and its identifiers were issued. -/
  genuine : ∀ event ∈ action.buffered, event.isCompletion = false ∧ event.eventId < world.nextId

instance : Decidable (world.Conclusive thinkingEnabled action) :=
  decidable_of_iff (world.LifecycleFresh thinkingEnabled action
      ∧ (∀ attempt ∈ world.attempts thinkingEnabled action, attempt.2.Ends →
          ∀ executor ∈ action.mover? world, executor.run.record.status.isTerminal = false)
      ∧ (∀ attempt ∈ world.attempts thinkingEnabled action, attempt.2.Ends →
          action.outcome? = some .stored)
      ∧ action.Persists
      ∧ ∀ event ∈ action.buffered, event.isCompletion = false ∧ event.eventId < world.nextId)
    ⟨fun h => ⟨h.1, h.2.1, h.2.2.1, h.2.2.2.1, h.2.2.2.2⟩,
      fun h => ⟨h.fresh, h.once, h.metered, h.persists, h.genuine⟩⟩

/-! ## The account of the world -/

/-- **Where an interaction stands**: not ended; failed by a sweep that has not said so yet; ended, with
one completion event that reports the status of the row. -/
inductive Tally (world : World) : Prop where
  | ongoing {row : InteractionRecord} (row_eq : world.store.interaction = some row)
      (unended : row.status.isTerminal = false) (reaps : world.reaps = [])
      (completions : world.store.completions = [])
  | held {row : InteractionRecord} {reap : Reap} (row_eq : world.store.interaction = some row)
      (terminal : row.status.isTerminal = true) (reaps : world.reaps = [reap])
      (completions : world.store.completions = [])
  | ended {row : InteractionRecord} {event : UsageEvent}
      (row_eq : world.store.interaction = some row) (terminal : row.status.isTerminal = true)
      (reaps : world.reaps = []) (completions : world.store.completions = [event])
      (reports : event.Reports row.status)

/-- **The invariant.** -/
structure Accounted (world : World) : Prop where
  runs : ∀ executor ∈ world.executors, executor.run.Accounted world.nextId
  issued : ∀ event ∈ world.store.usageEvents, event.eventId < world.nextId
  tally : world.Tally

/-- A buffered event of a move is drained, or metered by it. -/
theorem buffered_of_drained {index : Nat} {move : Move} {reading : Reading} {outcome : WriteOutcome}
    {event : UsageEvent} (h : event ∈ reading.drained) :
    event ∈ (SessionAction.move index move reading outcome).buffered := by
  cases move <;> first | exact h | exact List.mem_cons_of_mem _ h

/-- **The runs keep their accounts.** -/
theorem runs_of_step (hstarted : world.Started key)
    (hruns : ∀ executor ∈ world.executors, executor.run.Accounted world.nextId)
    (hgenuine : ∀ event ∈ action.buffered, event.isCompletion = false ∧ event.eventId < world.nextId)
    (hstep : world.step thinkingEnabled action = some world') :
    ∀ executor ∈ world'.executors, executor.run.Accounted world'.nextId := by
  by_cases hmove : ∃ index move reading outcome, action = .move index move reading outcome
  · obtain ⟨index, move, reading, outcome, rfl⟩ := hmove
    obtain ⟨executor, performed, hexecutor, hid, hperform, hcases⟩ := move_eq_some hstep
    have hmem := List.mem_of_getElem? hexecutor
    have hcoherent := hstarted.executors executor hmem
    have haccounts := Executor.perform_accounts hcoherent hperform
    have hsound := Executor.perform_sound hcoherent hperform
    have hstored := haccounts.accounted (by rw [hid]; exact hruns executor hmem)
      (fun event hmeter => by
        subst hmeter
        rw [hid]
        exact (hgenuine event List.mem_cons_self).2)
    rcases hcases with ⟨hcommit, rfl⟩ | ⟨c, store, hcommit, -, rfl⟩
    · rw [if_pos hcommit, hid] at hstored
      intro e he
      rcases List.mem_or_eq_of_mem_set he with he | rfl
      · exact hruns e he
      · exact hstored
    · rw [if_neg (by rw [hcommit]; simp), hid] at hstored
      intro e he
      rcases List.mem_or_eq_of_mem_set he with he | rfl
      · exact (hruns e he).mono (Nat.le_add_right _ 4)
      · split
        · rw [hsound.run]
          exact hstored
        · exact hstored
  · obtain ⟨hle, hothers⟩ := runs_of_other
      (fun index move reading outcome heq => hmove ⟨index, move, reading, outcome, heq⟩) hstep
    intro executor he
    rcases hothers executor he with ⟨old, hold, hrun⟩ | hnil
    · rw [hrun]
      exact (hruns old hold).mono hle
    · exact ⟨by simp [hnil], by simp [hnil]⟩

/-! ### What a commit carries -/

/-- **What the commits of the parties carry**: no completion, or one with a new identifier that reports
the status they write. -/
inductive Carries (nextId : Nat) (c : InteractionCommit) : Prop where
  | informing (ends : ¬ c.Ends)
      (others : ∀ event ∈ c.usageEvents, event.isCompletion = false ∧ event.eventId < nextId)
  | concluding {own drained : List UsageEvent} {event : UsageEvent} (ends : c.Ends)
      (carried : c.usageEvents = own ++ [event] ++ drained)
      (reports : event.Reports c.interaction.status) (id : event.eventId = nextId)
      (own_others : ∀ e ∈ own, e.isCompletion = false ∧ e.eventId < nextId)
      (drained_others : ∀ e ∈ drained, e.isCompletion = false ∧ e.eventId < nextId)

/-- What is carried was issued. -/
theorem Carries.issued {nextId : Nat} {c : InteractionCommit} (h : Carries nextId c) :
    ∀ event ∈ c.usageEvents, event.eventId < nextId + 4 := by
  intro event hevent
  cases h with
  | informing hends hothers => exact Nat.lt_add_right 4 (hothers event hevent).2
  | concluding hends hcarried hreports hid hown hdrained =>
    rw [hcarried] at hevent
    rcases List.mem_append.mp hevent with hevent | hevent
    · rcases List.mem_append.mp hevent with hevent | hevent
      · exact Nat.lt_add_right 4 (hown event hevent).2
      · rw [List.mem_singleton.mp hevent, hid]
        exact Nat.lt_add_of_pos_right (by decide)
    · exact Nat.lt_add_right 4 (hdrained event hevent).2

/-- **A commit that ends the interaction writes one completion event.** -/
theorem Carries.completions {nextId : Nat} {c : InteractionCommit} {store : InteractionStore}
    (h : Carries nextId c) (hends : c.Ends)
    (hissued : ∀ event ∈ store.usageEvents, event.eventId < nextId) :
    ∃ event, (store.writeUsageEvents c.usageEvents).completions = store.completions ++ [event]
      ∧ event.Reports c.interaction.status := by
  cases h with
  | informing hno => exact absurd hends hno
  | @concluding own drained event _ hcarried hreports hid hown hdrained =>
    refine ⟨event, ?_, hreports⟩
    rw [hcarried]
    refine InteractionStore.completions_of_ending hreports.completion (fun e he => (hown e he).1)
      (fun e he => (hdrained e he).1) (fun e he => ?_) (fun e he => ?_)
    · rw [hid]
      exact Nat.ne_of_lt (hissued e he)
    · rw [hid]
      exact Nat.ne_of_lt (hown e he).2

/-- A commit that ends nothing writes no completion. -/
theorem Carries.others {nextId : Nat} {c : InteractionCommit} (h : Carries nextId c)
    (hends : ¬ c.Ends) : ∀ event ∈ c.usageEvents, event.isCompletion = false := by
  cases h with
  | informing hno hothers => exact fun event hevent => (hothers event hevent).1
  | concluding hdoes => exact absurd hdoes hends

/-- **The commits of executors and cancel calls**, within the guard. -/
theorem carries_of_attempt {counter : Nat} {c : InteractionCommit} (hstarted : world.Started key)
    (hruns : ∀ executor ∈ world.executors, executor.run.Accounted world.nextId)
    (hguard : world.Conclusive thinkingEnabled action)
    (hstep : world.step thinkingEnabled action = some world')
    (hattempt : world.attempts thinkingEnabled action = some (counter, c)) :
    Carries world.nextId c ∧ world'.nextId = world.nextId + 4 := by
  cases action with
  | move index move reading outcome =>
    obtain ⟨executor, performed, hexecutor, hid, hperform, hcases⟩ := move_eq_some hstep
    have hmem := List.mem_of_getElem? hexecutor
    have hcommit : outcome ≠ .rolledBack ∧ performed.commit = some c := by
      have hunfolded := hattempt
      simp only [attempts, hexecutor, hperform] at hunfolded
      split at hunfolded
      · cases hunfolded
      · rename_i houtcome
        obtain ⟨_, hcommit, heq⟩ := Option.map_eq_some_iff.mp hunfolded
        cases heq
        exact ⟨houtcome, hcommit⟩
    have hdrained : ∀ event ∈ reading.drained, event.isCompletion = false
        ∧ event.eventId < world.nextId :=
      fun event hevent => hguard.genuine event (buffered_of_drained hevent)
    refine ⟨?_, ?_⟩
    · cases Executor.perform_accounts (hstarted.executors executor hmem) hperform with
      | kept husage hstatus hkept =>
        obtain ⟨hcarried, hends⟩ := hkept c hcommit.2
        exact .informing hends (hcarried ▸ hdrained)
      | metered hmove hother husage hrecord hnone =>
        rw [hnone] at hcommit
        cases hcommit.2
      | @ended c' event hcommit' husage hcarried hevent hreports hends hrecord =>
        have hsame : c' = c := Option.some.inj (hcommit'.symm.trans hcommit.2)
        subst hsame
        have hopen := hguard.once _ hattempt hends executor hexecutor
        have hrun := hruns executor hmem
        exact .concluding hends hcarried hreports (hevent.trans hid)
          (fun e he => ⟨hrun.unended hopen e he, hrun.issued e he⟩) hdrained
    · rcases hcases with ⟨hnone, -⟩ | ⟨_, _, -, -, rfl⟩
      · rw [hnone] at hcommit
        cases hcommit.2
      · rfl
  | cancelCommit index reading outcome =>
    obtain ⟨copy, hcopy, hid, ⟨hillegal, -⟩ | ⟨hlegal, store, -, rfl⟩⟩ := cancelCommit_eq_some hstep
    · simp [attempts, hcopy, hillegal] at hattempt
    · have hcommit : c = copy.cancelCommit reading := by
        simp only [attempts, hcopy, hlegal, if_true] at hattempt
        split at hattempt
        · cases hattempt
        · cases hattempt
          rfl
      subst hcommit
      exact ⟨@Carries.concluding _ _ [] [] _ ⟨rfl, rfl⟩ rfl
        (InteractionRecord.reports_completionEvent _ _ _ _ _) hid (by simp) (by simp), rfl⟩
  | start question now => cases hattempt
  | claim now => cases hattempt
  | executorDies index => cases hattempt
  | cancelLoad => cases hattempt
  | cancelSignal index => cases hattempt
  | staleSweep staleBefore now => cases hattempt
  | abandonedSweep abandonedBefore now => cases hattempt
  | reapCommit index reading outcome => cases hattempt
  | reapDies index => cases hattempt

/-- The commits of sweeps. -/
theorem carries_of_reap {reap : Reap} {reading : Reading} (hstarted : world.Started key)
    (hmem : reap ∈ world.reaps) (hid : reading.nextId = world.nextId) :
    Carries world.nextId (reap.commit reading) ∧ (reap.commit reading).Ends := by
  have hends : (reap.commit reading).Ends :=
    ⟨rfl, by rw [Reap.commit, (hstarted.reaps reap hmem).2.1]; rfl⟩
  exact ⟨@Carries.concluding _ _ [] [] _ hends rfl
    (InteractionRecord.reports_completionEvent _ _ _ _ _) hid (by simp) (by simp), hends⟩

/-- What an action writes was issued. -/
theorem issued_of_step (hstarted : world.Started key) (haccounted : world.Accounted)
    (hguard : world.Conclusive thinkingEnabled action)
    (hstep : world.step thinkingEnabled action = some world') :
    ∀ event ∈ world.written thinkingEnabled action, event.eventId < world'.nextId := by
  intro event hevent
  unfold written at hevent
  split at hevent
  · -- the question was stored before
    obtain ⟨row, hrow, -⟩ := hstarted.row
    simp [step, start, hrow] at hstep
  · obtain ⟨reap, store, hreap, hid, -, rfl⟩ := reapCommit_eq_some hstep
    rw [hreap] at hevent
    exact (carries_of_reap hstarted (List.mem_of_getElem? hreap) hid).1.issued event hevent
  · split at hevent
    · cases hattempt : world.attempts thinkingEnabled action with
      | none =>
        rw [hattempt] at hevent
        cases hevent
      | some attempt =>
        rw [hattempt] at hevent
        obtain ⟨hcarries, hnext⟩ :=
          carries_of_attempt hstarted haccounted.runs hguard hstep hattempt
        exact hnext ▸ hcarries.issued event hevent
    · cases hevent

/-! ### The tally -/

/-- What nobody touches stays where it stands. -/
theorem Tally.of_same (h : world.Tally) (hrow : world'.store.interaction = world.store.interaction)
    (hreaps : world'.reaps = world.reaps)
    (hcompletions : world'.store.completions = world.store.completions) : world'.Tally := by
  cases h with
  | ongoing row_eq unended reaps completions =>
    exact .ongoing (hrow.trans row_eq) unended (hreaps.trans reaps) (hcompletions.trans completions)
  | held row_eq terminal reaps completions =>
    exact .held (hrow.trans row_eq) terminal (hreaps.trans reaps) (hcompletions.trans completions)
  | ended row_eq terminal reaps completions reports =>
    exact .ended (hrow.trans row_eq) terminal (hreaps.trans reaps) (hcompletions.trans completions)
      reports

/-- While the row is not terminal, nothing was reported and no sweep holds it. -/
theorem Tally.of_open {row : InteractionRecord} (h : world.Tally)
    (hrow : world.store.interaction = some row) (hopen : row.status.isTerminal = false) :
    world.reaps = [] ∧ world.store.completions = [] := by
  cases h with
  | ongoing row_eq unended reaps completions => exact ⟨reaps, completions⟩
  | held row_eq terminal reaps completions =>
    rw [hrow, Option.some.injEq] at row_eq
    rw [← row_eq, hopen] at terminal
    cases terminal
  | ended row_eq terminal reaps completions reports =>
    rw [hrow, Option.some.injEq] at row_eq
    rw [← row_eq, hopen] at terminal
    cases terminal

/-- A sweep's compare-and-set: the row is failed, and not reported yet. -/
theorem Tally.of_swept {row : InteractionRecord} {reap : Reap} (h : world.Tally)
    (hrow : world.store.interaction = some row) (hopen : row.status.isTerminal = false)
    (hstore : world'.store = { world.store with interaction := some reap.record })
    (hterminal : reap.record.status.isTerminal = true)
    (hreaps : world'.reaps = world.reaps ++ [reap]) : world'.Tally := by
  obtain ⟨hnone, hcompletions⟩ := h.of_open hrow hopen
  refine .held (by rw [hstore]) hterminal (by rw [hreaps, hnone]; rfl) ?_
  rw [hstore]
  exact hcompletions

/-- **An accepted commit of an executor or of a cancel call.** -/
theorem Tally.of_accepted {counter : Nat} {c : InteractionCommit} (hstarted : world.Started key)
    (haccounted : world.Accounted) (hguard : world.Conclusive thinkingEnabled action)
    (hstep : world.step thinkingEnabled action = some world')
    (hattempt : world.attempts thinkingEnabled action = some (counter, c))
    (hstore : world.store.Accepted c world'.store) (hreaps : world'.reaps = world.reaps) :
    world'.Tally := by
  obtain ⟨row, hrow, -⟩ := hstarted.row
  obtain ⟨hcarries, -⟩ := carries_of_attempt hstarted haccounted.runs hguard hstep hattempt
  have hwritten : world.written thinkingEnabled action
      = if action.outcome? = some .stored then c.usageEvents else [] := by
    cases action <;> first | cases hattempt | simp only [written, hattempt, Option.elim_some]
  have husage := usage_of_step hstep
  rw [hwritten] at husage
  by_cases hends : c.Ends
  · -- the round ends: the row was open, and the account of the run holds no completion
    have hopen := hguard.fresh _ hattempt hends.1 row hrow
    obtain ⟨hnone, hcompletions⟩ := haccounted.tally.of_open hrow hopen
    obtain ⟨event, hevent, hreports⟩ := hcarries.completions hends haccounted.issued
    rw [if_pos (hguard.metered _ hattempt hends)] at husage
    have hrow' : world'.store.interaction = some c.interaction := by
      rw [hstore.row, InteractionStore.rowAfter, if_pos hends.1]
    refine .ended hrow' hends.2 (hreaps.trans hnone) ?_ hreports
    · rw [InteractionStore.completions, husage]
      exact hevent.trans (by rw [hcompletions]; rfl)
  · -- nothing ends, and no completion is written
    have hcompletions : world'.store.completions = world.store.completions := by
      rw [InteractionStore.completions, husage]
      refine InteractionStore.completions_of_others fun event hevent => ?_
      split at hevent
      · exact hcarries.others hends event hevent
      · cases hevent
    cases hlifecycle : c.lifecycle with
    | true =>
      have hopen := hguard.fresh _ hattempt hlifecycle row hrow
      obtain ⟨hnone, hempty⟩ := haccounted.tally.of_open hrow hopen
      have hrow' : world'.store.interaction = some c.interaction := by
        rw [hstore.row, InteractionStore.rowAfter, if_pos hlifecycle]
      exact .ongoing hrow' (eq_false_of_ne_true fun hterminal => hends ⟨hlifecycle, hterminal⟩)
        (hreaps.trans hnone) (hcompletions.trans hempty)
    | false =>
      have hrow' : world'.store.interaction = some (row.touch c.interaction) := by
        rw [hstore.row, InteractionStore.rowAfter, if_neg (by simp [hlifecycle]), hrow]
        rfl
      cases haccounted.tally with
      | ongoing row_eq unended reaps completions =>
        rw [hrow, Option.some.injEq] at row_eq
        subst row_eq
        exact .ongoing hrow' unended (hreaps.trans reaps) (hcompletions.trans completions)
      | held row_eq terminal reaps completions =>
        rw [hrow, Option.some.injEq] at row_eq
        subst row_eq
        exact .held hrow' terminal (hreaps.trans reaps) (hcompletions.trans completions)
      | ended row_eq terminal reaps completions reports =>
        rw [hrow, Option.some.injEq] at row_eq
        subst row_eq
        exact .ended hrow' terminal (hreaps.trans reaps) (hcompletions.trans completions) reports

/-- **Every effect within the guard keeps the tally.** -/
theorem Tally.of_effect (hstarted : world.Started key) (haccounted : world.Accounted)
    (hguard : world.Conclusive thinkingEnabled action)
    (hstep : world.step thinkingEnabled action = some world')
    (heffect : Effect thinkingEnabled key world world' action) : world'.Tally := by
  cases heffect with
  | quiet hstore hexecutors hreaps =>
    exact haccounted.tally.of_same (by rw [hstore]) hreaps (by rw [hstore])
  | claimed hrow hpending hstore hexecutors hreaps =>
    obtain ⟨hnone, hcompletions⟩ := haccounted.tally.of_open hrow (by rw [hpending]; rfl)
    refine .ongoing (by rw [hstore]) rfl (hreaps.trans hnone) ?_
    rw [hstore]
    exact hcompletions
  | stale hrow hrunning hstore hexecutors hreaps =>
    exact haccounted.tally.of_swept hrow (by rw [hrunning]; rfl) hstore rfl hreaps
  | abandoned hrow hpending hstore hexecutors hreaps =>
    exact haccounted.tally.of_swept hrow (by rw [hpending]; rfl) hstore rfl hreaps
  | wrote hattempt happends hstore hexecutors hreaps =>
    exact Tally.of_accepted hstarted haccounted hguard hstep hattempt hstore hreaps
  | @reaped index reading outcome reap hreap hstore hexecutors hreaps =>
    obtain ⟨reap', store, hreap', hid, hwrite, rfl⟩ := reapCommit_eq_some hstep
    have hmem := List.mem_of_getElem? hreap
    have hsame : reap' = reap := Option.some.inj (hreap'.symm.trans hreap)
    subst hsame
    obtain ⟨hcarries, hends⟩ := carries_of_reap hstarted hmem hid
    obtain ⟨event, hevent, hreports⟩ := hcarries.completions hends haccounted.issued
    have houtcome : outcome = .stored := hguard.persists
    have husage := usage_of_write hwrite
    rw [if_pos houtcome] at husage
    -- only a held row is reaped, and it is the only one held
    have hheld : world.reaps = [reap'] ∧ world.store.completions = [] := by
      cases haccounted.tally with
      | ongoing row_eq unended reaps completions =>
        rw [reaps] at hmem
        cases hmem
      | held row_eq terminal reaps completions =>
        rw [reaps] at hmem
        rw [List.mem_singleton.mp hmem]
        exact ⟨reaps, completions⟩
      | ended row_eq terminal reaps completions reports =>
        rw [reaps] at hmem
        cases hmem
    have hindex : index = 0 := by
      have hlt := (List.getElem?_eq_some_iff.mp hreap).1
      rw [hheld.1] at hlt
      exact Nat.lt_one_iff.mp hlt
    have hrow' : _ = some (reap'.commit reading).interaction := hstore.row
    refine .ended hrow' hends.2 ?_ ?_ hreports
    · rw [hreaps, hheld.1, hindex]
      rfl
    · rw [InteractionStore.completions, husage]
      exact hevent.trans (by rw [hheld.2]; rfl)
  | lost haction hstore hexecutors hreaps =>
    rcases haction with rfl | ⟨reading, rfl⟩
    · exact absurd hguard.persists id
    · cases hguard.persists

/-! ## Whole runs -/

/-- Identifiers are never issued again. -/
theorem nextId_of_step (hstep : world.step thinkingEnabled action = some world') :
    world.nextId ≤ world'.nextId := by
  by_cases hmove : ∃ index move reading outcome, action = .move index move reading outcome
  · obtain ⟨index, move, reading, outcome, rfl⟩ := hmove
    obtain ⟨_, _, -, -, -, ⟨-, rfl⟩ | ⟨_, _, -, -, rfl⟩⟩ := move_eq_some hstep
    · exact Nat.le_refl _
    · exact Nat.le_add_right _ 4
  · exact (runs_of_other
      (fun index move reading outcome heq => hmove ⟨index, move, reading, outcome, heq⟩) hstep).1

/-- **Every step within the guard keeps the account.** -/
theorem Accounted.of_step (hstarted : world.Started key) (haccounted : world.Accounted)
    (hguard : world.Conclusive thinkingEnabled action)
    (hstep : world.step thinkingEnabled action = some world') : world'.Accounted where
  runs := runs_of_step hstarted haccounted.runs hguard.genuine hstep
  issued := fun event hevent => by
    rw [usage_of_step hstep] at hevent
    rcases InteractionStore.mem_writeUsageEvents hevent with hevent | hevent
    · exact Nat.lt_of_lt_of_le (haccounted.issued event hevent) (nextId_of_step hstep)
    · exact issued_of_step hstarted haccounted hguard hstep event hevent
  tally := Tally.of_effect hstarted haccounted hguard hstep (step_effect hstarted hstep).2

/-- Before the question is stored, only the question is metered. -/
theorem written_idle (h : world.Idle) (hother : ∀ question now, action ≠ .start question now) :
    world.written thinkingEnabled action = [] := by
  cases action with
  | start question now => exact absurd rfl (hother question now)
  | reapCommit index reading outcome => cases outcome <;> simp [written, attempts, h.reaps]
  | move index move reading outcome => simp [written, attempts, h.executors]
  | cancelCommit index reading outcome => simp [written, attempts, h.cancels]
  | claim now => rfl
  | executorDies index => rfl
  | cancelLoad => rfl
  | cancelSignal index => rfl
  | staleSweep staleBefore now => rfl
  | abandonedSweep abandonedBefore now => rfl
  | reapDies index => rfl

/-- **The stored question** is accounted for: its event is no completion. -/
theorem accounted_of_asked {question : Question} {now : Instant}
    (hempty : world.store.usageEvents = [])
    (hstep : world.step thinkingEnabled (.start question now) = some world')
    (hasked : Asked question now world') : world'.Accounted := by
  have hnext : world'.nextId = world.nextId + 4 := by
    simp only [step, start] at hstep
    split at hstep
    · obtain ⟨_, -, rfl⟩ := Option.map_eq_some_iff.mp hstep
      rfl
    · cases hstep
  have husage : world'.store.usageEvents = (question.commit now world.nextId).usageEvents := by
    rw [usage_of_step hstep]
    exact (InteractionStore.usageEvents_writeUsageEvents_new (by simp [hempty])).trans
      (by rw [hempty]; rfl)
  refine ⟨by simp [hasked.executors], fun event hevent => ?_,
    .ongoing hasked.row rfl hasked.reaps (by rw [InteractionStore.completions, husage]; rfl)⟩
  rw [husage] at hevent
  rw [List.mem_singleton.mp hevent, hnext]
  exact Nat.lt_add_of_pos_right (by decide)

/-- **The account holds in every state that is reached within the guard.** -/
theorem accounted_of_reach
    (h : Machine.Reach (interactionMachine thinkingEnabled) (Conclusive thinkingEnabled) world) :
    (world.Idle ∧ world.store.usageEvents = []) ∨ ∃ key, world.Started key ∧ world.Accounted := by
  refine h.invariant (I := fun w => (w.Idle ∧ w.store.usageEvents = [])
    ∨ ∃ key, w.Started key ∧ w.Accounted) (Or.inl ⟨⟨rfl, rfl, rfl, rfl, rfl, rfl⟩, rfl⟩) ?_
  rintro w w' action (⟨hidle, hempty⟩ | ⟨key, hstarted, haccounted⟩) hguard hstep
  · rcases step_idle hidle hstep with hidle' | ⟨question, now, rfl, hasked⟩
    · left
      refine ⟨hidle', ?_⟩
      rw [usage_of_step hstep, written_idle hidle]
      · exact hempty
      · rintro question now rfl
        -- a stored question would be there
        obtain ⟨store, hwrite, rfl⟩ : ∃ store, w.store.write (question.commit now w.nextId) .stored
            = some store ∧ w' = { w with store := store, nextId := w.nextId + 4 } := by
          simp only [interactionMachine, step, start, hidle.row, if_true] at hstep
          obtain ⟨store, hwrite, heq⟩ := Option.map_eq_some_iff.mp hstep
          exact ⟨store, hwrite, heq.symm⟩
        obtain ⟨committed, hcommitted, rfl⟩ := Option.map_eq_some_iff.mp hwrite
        have hrow := (InteractionStore.commit_eq_some hcommitted).1
        have hnone := hidle'.row
        rw [show ({ w with store := committed.writeUsageEvents _, nextId := _ } : World).store.interaction
          = committed.interaction from rfl, hrow] at hnone
        cases hnone
    · exact Or.inr ⟨_, hasked.started,
        @accounted_of_asked thinkingEnabled _ _ _ _ hempty hstep hasked⟩
  · exact Or.inr ⟨key, (step_effect hstarted hstep).1, haccounted.of_step hstarted hguard hstep⟩

/-- **One completion event per interaction**: a row that is terminal, and that no sweep has still to
report, comes with one completion event, which reports the row's status. -/
def CompletedOnce (world : World) : Prop :=
  ∀ row, world.store.interaction = some row → row.status.isTerminal = true → world.reaps = [] →
    ∃ event, world.store.completions = [event] ∧ event.Reports row.status

/-- **Completed once.** Along every run within the guard, an ended interaction has one completion event
with the status of its row, and an interaction that has not ended has none. -/
theorem completed_once
    (h : Machine.Reach (interactionMachine thinkingEnabled) (Conclusive thinkingEnabled) world) :
    world.CompletedOnce ∧
      ∀ row, world.store.interaction = some row → row.status.isTerminal = false →
        world.store.completions = [] := by
  rcases accounted_of_reach h with ⟨hidle, -⟩ | ⟨key, -, haccounted⟩
  · refine ⟨fun row hrow => ?_, fun row hrow => ?_⟩ <;>
      · rw [hidle.row] at hrow
        cases hrow
  · refine ⟨fun row hrow hterminal hreaps => ?_, fun row hrow hopen =>
      (haccounted.tally.of_open hrow hopen).2⟩
    cases haccounted.tally with
    | ongoing row_eq unended reaps completions =>
      rw [hrow, Option.some.injEq] at row_eq
      rw [← row_eq, hterminal] at unended
      cases unended
    | held row_eq terminal reaps completions =>
      rw [hreaps] at reaps
      cases reaps
    | ended row_eq terminal reaps completions reports =>
      rw [hrow, Option.some.injEq] at row_eq
      exact ⟨_, completions, row_eq ▸ reports⟩

/-! ### Runs inside and outside the guard -/

/-- A chat answer is ready to be committed. -/
def chattingRun : List SessionAction :=
  Scenario.narrated ++
    [Scenario.moves (.request (.chat "您好")) 5 16, Scenario.moves .close 5 16,
     Scenario.moves .record 5 20]

/-- The answered run has one completion event. -/
theorem completed_once_answered :
    (Scenario.world (chattingRun ++ [Scenario.moves .finish 6 24])).CompletedOnce ∧
      ∀ row, (Scenario.world (chattingRun ++ [Scenario.moves .finish 6 24])).store.interaction
          = some row → row.status.isTerminal = false →
        (Scenario.world (chattingRun ++ [Scenario.moves .finish 6 24])).store.completions = [] :=
  completed_once (Machine.reach_after (chattingRun ++ [Scenario.moves .finish 6 24])
    (by decide +kernel))

/-- The commit of the answer raises, and the handler of the run fails the interaction. -/
def failedAnswerRun : List SessionAction :=
  chattingRun ++
    [.move 0 .finish (Scenario.reading 6 24) .rolledBack, Scenario.moves .close 7 28,
     Scenario.moves .finish 8 28]

/-- **The interaction is completed twice.** The commit of the handler carries the completion event of
the answer that was never stored, next to its own. -/
theorem completed_twice :
    ∃ world, Machine.Reach (interactionMachine true) Machine.free world
      ∧ world.store.interaction.map (·.status) = some .failed ∧ world.reaps = []
      ∧ world.store.completions.map (·.payload.lookup "status")
          = [some (.text "completed"), some (.text "failed")]
      ∧ ¬ world.CompletedOnce := by
  have hstatus : (Scenario.world failedAnswerRun).store.interaction.map (·.status) = some .failed := by
    decide +kernel
  have hstatuses : (Scenario.world failedAnswerRun).store.completions.map (·.payload.lookup "status")
      = [some (.text "completed"), some (.text "failed")] := by decide +kernel
  refine ⟨_, Machine.reach_after failedAnswerRun (by decide +kernel), hstatus, by decide +kernel,
    hstatuses, fun honce => ?_⟩
  obtain ⟨row, hrow, hfailed⟩ := Option.map_eq_some_iff.mp hstatus
  obtain ⟨event, hevent, -⟩ := honce row hrow (by rw [hfailed]; rfl) (by decide +kernel)
  have hone : (Scenario.world failedAnswerRun).store.completions = [event] := hevent
  have hlength := congrArg List.length hstatuses
  rw [hone] at hlength
  cases hlength

end World
