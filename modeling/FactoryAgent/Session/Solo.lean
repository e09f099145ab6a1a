import FactoryAgent.Session.Interleaving

/-!
# A run by itself

The runs of the machine in which nobody but the executor acts once its run is claimed
(`World.Alone`): no cancel call, no sweep, no death. There the machine is the executor and its store,
so what the claim establishes and each move of the one executor keeps holds whenever there is an
executor (`World.alone_invariant`).

Two facts about the source are part of the guard. Every call of `_terminate` passes `FAILED`, and the
handler of `_run` awaits nothing but commits, so nothing else raises in it.
-/

/-- A move as the pipeline makes it. -/
def Executor.Genuine (executor : Executor) : Move → Prop
  | .request (.terminate ending) => ending.status = .failed
  | .raise _ => executor.handling = false
  | _ => True

instance (executor : Executor) (move : Move) : Decidable (executor.Genuine move) := by
  unfold Executor.Genuine
  split <;> infer_instance

/-- **A question that nobody claimed yet.** -/
structure InteractionStore.Unclaimed (store : InteractionStore) (row : InteractionRecord) :
    Prop where
  row_eq : store.interaction = some row
  pending : row.status = .pending
  parsing : row.state = .parsing
  watermark : row.lastEventSequence = 0
  events : store.events.rows = []

namespace World

/-- **Nobody but the executor acts**, once its run is claimed. -/
def Alone (world : World) : SessionAction → Prop
  | .start _ _ | .claim _ => True
  | .move _ move _ _ => ∀ executor ∈ world.executors, executor.Genuine move
  | _ => False

instance (world : World) (action : SessionAction) : Decidable (world.Alone action) :=
  match action with
  | .start _ _ | .claim _ => isTrue trivial
  | .move _ move _ _ =>
    inferInstanceAs (Decidable (∀ executor ∈ world.executors, executor.Genuine move))
  | .executorDies _ | .cancelLoad | .cancelCommit _ _ _ | .cancelSignal _ | .staleSweep _ _
  | .abandonedSweep _ _ | .reapCommit _ _ _ | .reapDies _ => isFalse id

/-- **A move of the one executor**: of the executor and the store, nothing else takes part. -/
structure Moved (thinkingEnabled : Bool) (executor : Executor) (store : InteractionStore)
    (move : Move) (reading : Reading) (outcome : WriteOutcome) (performed : Executor.Performed)
    (store' : InteractionStore) : Prop where
  /-- The move tells the truth about the store. -/
  sees : executor.Sees store move
  /-- What the move comes to. -/
  perform : executor.perform move reading thinkingEnabled = some performed
  /-- Without a commit the store is as it was. -/
  silent : performed.commit = none → store' = store
  /-- A commit has its outcome. -/
  write : ∀ c, performed.commit = some c → store.write c outcome = some store'

/-- The executor after a move. -/
def afterMove (performed : Executor.Performed) (outcome : WriteOutcome) : Executor :=
  if performed.commit ≠ none ∧ outcome = .rolledBack then performed.refused else performed.stored

variable {thinkingEnabled : Bool} {world world' : World} {executor : Executor}

/-- With one executor, a move is that executor's. -/
theorem move_alone {index : Nat} {move : Move} {reading : Reading} {outcome : WriteOutcome}
    (hone : world.executors = [executor])
    (h : world.move thinkingEnabled index move reading outcome = some world') :
    ∃ performed, world'.executors = [afterMove performed outcome]
      ∧ Moved thinkingEnabled executor world.store move reading outcome performed
          world'.store := by
  unfold World.move at h
  rw [hone] at h
  cases index with
  | succ index => simp at h
  | zero =>
    simp only [List.getElem?_cons_zero] at h
    split at h
    · rename_i hsees
      split at h
      · cases h
      · rename_i performed hperformed
        refine ⟨performed, ?_⟩
        split at h
        · rename_i hnone
          cases h
          exact ⟨by simp [afterMove, hnone], hsees.2, hperformed, fun _ => rfl,
            fun c hc => by rw [hnone] at hc; cases hc⟩
        · rename_i c hc
          obtain ⟨store, hstore, rfl⟩ := Option.map_eq_some_iff.mp h
          refine ⟨by simp [afterMove, hc], hsees.2, hperformed, fun hnone => ?_, fun c' hc' => ?_⟩
          · rw [hc] at hnone
            cases hnone
          · rw [hc, Option.some.injEq] at hc'
            exact hc' ▸ hstore
    · cases h

/-- **The worlds of a run by itself**: nothing, an unclaimed question, or one executor. -/
inductive Solo (I : Executor → InteractionStore → Prop) (world : World) : Prop where
  | idle (store : world.store = .empty) (executors : world.executors = [])
  | asked (row : InteractionRecord) (unclaimed : world.store.Unclaimed row)
      (executors : world.executors = [])
  | running (executor : Executor) (executors : world.executors = [executor])
      (holds : I executor world.store)

/-- **The rule for a run by itself.** What the claim establishes, and each move of the one executor
keeps, holds whenever there is an executor. It has to say that the row is not `pending`. -/
theorem alone_invariant {G : World → SessionAction → Prop} {I : Executor → InteractionStore → Prop}
    (halone : ∀ {w : World} {action : SessionAction}, G w action → w.Alone action)
    (hclaimed : ∀ {store : InteractionStore} {row : InteractionRecord} {now : Instant},
      store.Unclaimed row →
        I (.spawn { row with status := .running, updatedAt := now })
          { store with interaction := some { row with status := .running, updatedAt := now } })
    (hsettled : ∀ {executor : Executor} {store : InteractionStore}, I executor store →
      ∃ row, store.interaction = some row ∧ row.status ≠ .pending)
    (hmoved : ∀ {w : World} {executor : Executor} {store' : InteractionStore} {index : Nat}
      {move : Move} {reading : Reading} {outcome : WriteOutcome} {performed : Executor.Performed},
      w.executors = [executor] → I executor w.store → G w (.move index move reading outcome) →
        Moved thinkingEnabled executor w.store move reading outcome performed store' →
        I (afterMove performed outcome) store')
    (h : Machine.Reach (interactionMachine thinkingEnabled) G world) : Solo I world := by
  refine h.invariant (.idle rfl rfl) ?_
  intro w w' action hw hg hstep
  cases action with
  | start question now =>
    simp only [interactionMachine, World.step, World.start] at hstep
    split at hstep
    · rename_i hnone
      cases hw with
      | idle hstore hexecutors =>
        obtain ⟨store, hwrite, rfl⟩ := Option.map_eq_some_iff.mp hstep
        obtain ⟨committed, hcommit, rfl⟩ := Option.map_eq_some_iff.mp hwrite
        obtain ⟨hrow, -, hevents, -⟩ := InteractionStore.commit_eq_some hcommit
        refine .asked (question.record now) ⟨hrow, rfl, rfl, rfl, ?_⟩ hexecutors
        rw [InteractionStore.writeUsageEvents_events, hevents, hstore]
        rfl
      | asked row hunclaimed hexecutors =>
        rw [hunclaimed.row_eq] at hnone
        cases hnone
      | running executor hexecutors hI =>
        obtain ⟨row, hrow, -⟩ := hsettled hI
        rw [hrow] at hnone
        cases hnone
    · cases hstep
  | claim now =>
    simp only [interactionMachine, World.step, World.claim, Option.some.injEq] at hstep
    subst hstep
    split
    · rename_i claimed store hclaim
      obtain ⟨row, hrow, hpending, rfl, rfl⟩ := InteractionStore.claimRun_eq_some hclaim
      cases hw with
      | idle hstore hexecutors =>
        rw [hstore] at hrow
        cases hrow
      | asked row' hunclaimed hexecutors =>
        have heq : row' = row := by
          rw [hunclaimed.row_eq] at hrow
          exact Option.some.inj hrow
        subst heq
        exact .running _ (by rw [hexecutors]; rfl) (hclaimed hunclaimed)
      | running executor hexecutors hI =>
        obtain ⟨row', hrow', hstatus⟩ := hsettled hI
        rw [hrow, Option.some.injEq] at hrow'
        exact absurd (hrow' ▸ hpending) hstatus
    · exact hw
  | move index move reading outcome =>
    simp only [interactionMachine, World.step] at hstep
    cases hw with
    | idle _ hexecutors | asked _ _ hexecutors => simp [World.move, hexecutors] at hstep
    | running executor hexecutors hI =>
      obtain ⟨performed, hexecutors', hmove⟩ := move_alone hexecutors hstep
      exact .running _ hexecutors' (hmoved hexecutors hI hg hmove)
  | executorDies | cancelLoad | cancelCommit | cancelSignal | staleSweep | abandonedSweep
  | reapCommit | reapDies => exact absurd (halone hg) id

end World
