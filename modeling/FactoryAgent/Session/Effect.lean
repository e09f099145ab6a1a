import FactoryAgent.Session.Interleaving

/-!
# What one action can do

Every action of the machine has one of a few effects on the durable store (`World.Effect`): none, a
won claim, a sweep's compare-and-set, an accepted commit of an executor or of a cancel call, or an
accepted terminal commit of a sweep. The commits of the third kind have one shape
(`InteractionCommit.Appends`), whoever wrote them: they number their events from the counter the
writer holds. `World.step_effect` derives the effects once, together with the invariant of the parties
(`World.Started`) that it needs; what is said about the parties elsewhere is read off the effects.
-/

/-! ## The shape of a writer's commit -/

/-- **The commit of a writer** that holds the counter `counter` for the interaction `key`. -/
structure InteractionCommit.Appends (key : String) (counter nextId : Nat) (c : InteractionCommit) :
    Prop where
  numbered : c.events.map (·.sequence) = List.range' (counter + 1) c.events.length
  watermark : c.interaction.lastEventSequence = counter + c.events.length
  identity : c.interaction.interactionId = key
  active : c.interaction.status ≠ .pending
  terminals : (c.events.filter (·.name.isTerminal)).length
    = if c.lifecycle = true ∧ c.interaction.status.isTerminal = true then 1 else 0
  terminalLast : ∀ e ∈ c.events, e.name.isTerminal = true →
    e.sequence = c.interaction.lastEventSequence
  owned : ∀ m ∈ c.messages, m.interactionId = key
  fresh : ∀ m ∈ c.messages, nextId ≤ m.messageId ∧ m.messageId < nextId + 4
  distinct : c.messages.Pairwise (fun a b => a.messageId ≠ b.messageId)
  /-- A message number is ahead of the counter only where the interaction ends. -/
  numbers : ¬ (c.lifecycle = true ∧ c.interaction.status.isTerminal = true) →
    ∀ m ∈ c.messages, m.sequence ≤ c.interaction.lastEventSequence
  answers : ∀ m ∈ c.messages, m.isAnswer = true →
    c.lifecycle = true ∧ c.interaction.status = .completed

/-- The commits of an executor are a writer's. -/
theorem RunState.Emits.appends {before after : RunState} {key : String} {nextId : Nat}
    {c : InteractionCommit} (h : before.Emits after nextId c) (hbefore : before.Coherent key) :
    c.Appends key before.sequence nextId where
  numbered := h.numbered
  watermark := h.watermark.trans h.counter
  identity := h.identity.trans hbefore.identity
  active := h.active
  terminals := h.terminals
  terminalLast := fun e he ht => (h.terminalLast e he ht).trans h.watermark.symm
  owned := fun m hm => (h.messages hbefore.marked m hm).1.trans hbefore.identity
  fresh := h.fresh
  distinct := h.distinct
  numbers := fun _ m hm => h.watermark ▸ (h.messages hbefore.marked m hm).2
  answers := h.answers

/-- The commit of a cancel call is a writer's. -/
theorem InteractionRecord.cancelCommit_appends (copy : InteractionRecord) (reading : Reading) :
    (copy.cancelCommit reading).Appends copy.interactionId copy.lastEventSequence
      reading.nextId where
  numbered := rfl
  watermark := rfl
  identity := rfl
  active := by simp [cancelCommit, cancelled]
  terminals := by
    simp [cancelCommit, cancelled, EventName.isTerminal, InteractionStatus.isTerminal]
  terminalLast := by simp [cancelCommit]
  owned := by simp [cancelCommit, cancelled, InteractionRecord.message]
  fresh := by simp [cancelCommit, InteractionRecord.message]
  distinct := List.pairwise_singleton _ _
  numbers := by simp [cancelCommit, cancelled, InteractionStatus.isTerminal]
  answers := by simp [cancelCommit, InteractionRecord.message, MessageRecord.isAnswer]

/-! ## Accepted writes -/

/-- **What an accepted commit leaves**, where its messages are new. -/
structure InteractionStore.Accepted (store : InteractionStore) (c : InteractionCommit)
    (store' : InteractionStore) : Prop where
  row : store'.interaction = store.rowAfter c
  messages : store'.messages.rows = store.messages.rows ++ c.messages
  events : store'.events = store.events.upsertAll c.events

/-- An accepted transaction with new messages. -/
theorem InteractionStore.accepted_of_commit {store store' : InteractionStore}
    {c : InteractionCommit}
    (hfresh : ∀ row ∈ store.messages.rows, ∀ m ∈ c.messages, row.messageId ≠ m.messageId)
    (hdistinct : c.messages.Pairwise (fun a b => a.messageId ≠ b.messageId))
    (h : store.commit c = some store') : store.Accepted c store' := by
  obtain ⟨hrow, hmessages, hevents, -⟩ := commit_eq_some h
  exact ⟨hrow, MessageTable.rows_of_upsertAll hfresh hdistinct hmessages, hevents⟩

/-- **A write with its outcome**: nothing, or an accepted commit. -/
theorem InteractionStore.write_eq_some {store store' : InteractionStore} {c : InteractionCommit}
    {outcome : WriteOutcome}
    (hfresh : ∀ row ∈ store.messages.rows, ∀ m ∈ c.messages, row.messageId ≠ m.messageId)
    (hdistinct : c.messages.Pairwise (fun a b => a.messageId ≠ b.messageId))
    (h : store.write c outcome = some store') :
    (outcome = .rolledBack ∧ store' = store) ∨
    (outcome ≠ .rolledBack ∧ store.Accepted c store') := by
  cases outcome with
  | rolledBack =>
    cases h
    exact Or.inl ⟨rfl, rfl⟩
  | unmetered => exact Or.inr ⟨by simp, accepted_of_commit hfresh hdistinct h⟩
  | stored =>
    obtain ⟨committed, hcommitted, rfl⟩ := Option.map_eq_some_iff.mp h
    obtain ⟨hrow, hmessages, hevents⟩ := accepted_of_commit hfresh hdistinct hcommitted
    exact Or.inr ⟨by simp, hrow, hmessages, hevents⟩

/-! ## The parties -/

namespace World

/-- **The invariant of the parties** once the question is stored: every party works for the
interaction `key`, each sweep that holds a row holds a failed one, and the identifiers of the messages
are used up. -/
structure Started (key : String) (world : World) : Prop where
  row : ∃ row, world.store.interaction = some row ∧ row.interactionId = key
  executors : ∀ executor ∈ world.executors, executor.Coherent key
  cancels : ∀ copy ∈ world.cancels, copy.interactionId = key
  reaps : ∀ reap ∈ world.reaps,
    reap.record.interactionId = key ∧ reap.record.status = .failed ∧ reap.record.state = .failed
  messages : ∀ m ∈ world.store.messages.rows, m.interactionId = key ∧ m.messageId < world.nextId

/-- The world before the question is stored. -/
structure Idle (world : World) : Prop where
  row : world.store.interaction = none
  messages : world.store.messages.rows = []
  events : world.store.events.rows = []
  executors : world.executors = []
  cancels : world.cancels = []
  reaps : world.reaps = []

/-- The commit that an action of an executor or of a cancel call gets accepted, with the counter the
writer holds. -/
def attempts (thinkingEnabled : Bool) (world : World) :
    SessionAction → Option (Nat × InteractionCommit)
  | .move index move reading outcome =>
    if outcome = .rolledBack then none
    else
      match world.executors[index]? with
      | none => none
      | some executor =>
        match executor.perform move reading thinkingEnabled with
        | none => none
        | some performed => performed.commit.map (fun c => (executor.run.sequence, c))
  | .cancelCommit index reading outcome =>
    if outcome = .rolledBack then none
    else
      match world.cancels[index]? with
      | none => none
      | some copy =>
        if copy.state.canTransition .cancelled then
          some (copy.lastEventSequence, copy.cancelCommit reading)
        else none
  | _ => none

/-- **The effects of an action** on the store, the executors and the rows that sweeps hold. -/
inductive Effect (thinkingEnabled : Bool) (key : String) (world world' : World) :
    SessionAction → Prop where
  /-- Nothing durable happens. -/
  | quiet {action : SessionAction} (store : world'.store = world.store)
      (executors : world'.executors.length = world.executors.length)
      (reaps : world'.reaps = world.reaps) : Effect thinkingEnabled key world world' action
  /-- A connection wins the claim. -/
  | claimed {now : Instant} {row : InteractionRecord}
      (row_eq : world.store.interaction = some row) (pending : row.status = .pending)
      (store : world'.store = { world.store with
        interaction := some { row with status := .running, updatedAt := now } })
      (executors : world'.executors.length = world.executors.length + 1)
      (reaps : world'.reaps = world.reaps) : Effect thinkingEnabled key world world' (.claim now)
  /-- A sweep fails a stale run. -/
  | stale {staleBefore now : Instant} {row : InteractionRecord}
      (row_eq : world.store.interaction = some row) (running : row.status = .running)
      (store : world'.store = { world.store with
        interaction := some (InteractionStore.reapedRow row "executor_lost" now) })
      (executors : world'.executors.length = world.executors.length)
      (reaps : world'.reaps = world.reaps
        ++ [.ofStale (InteractionStore.reapedRow row "executor_lost" now)]) :
      Effect thinkingEnabled key world world' (.staleSweep staleBefore now)
  /-- A sweep fails an abandoned question. -/
  | abandoned {abandonedBefore now : Instant} {row : InteractionRecord}
      (row_eq : world.store.interaction = some row) (pending : row.status = .pending)
      (store : world'.store = { world.store with
        interaction := some (InteractionStore.reapedRow row "abandoned" now) })
      (executors : world'.executors.length = world.executors.length)
      (reaps : world'.reaps = world.reaps
        ++ [.ofAbandoned (InteractionStore.reapedRow row "abandoned" now)]) :
      Effect thinkingEnabled key world world' (.abandonedSweep abandonedBefore now)
  /-- The store accepts a commit of an executor or of a cancel call. -/
  | wrote {action : SessionAction} {counter : Nat} {c : InteractionCommit}
      (attempt : world.attempts thinkingEnabled action = some (counter, c))
      (appends : c.Appends key counter world.nextId)
      (store : world.store.Accepted c world'.store)
      (executors : world'.executors.length = world.executors.length)
      (reaps : world'.reaps = world.reaps) : Effect thinkingEnabled key world world' action
  /-- The store accepts the terminal event of a row that a sweep failed. -/
  | reaped {index : Nat} {reading : Reading} {outcome : WriteOutcome} {reap : Reap}
      (reap_eq : world.reaps[index]? = some reap)
      (store : world.store.Accepted (reap.commit reading) world'.store)
      (executors : world'.executors.length = world.executors.length)
      (reaps : world'.reaps = world.reaps.eraseIdx index) :
      Effect thinkingEnabled key world world' (.reapCommit index reading outcome)
  /-- A sweep ends without the terminal event of a row it failed. -/
  | lost {index : Nat} {action : SessionAction}
      (action_eq : action = .reapDies index
        ∨ ∃ reading, action = .reapCommit index reading .rolledBack)
      (store : world'.store = world.store)
      (executors : world'.executors.length = world.executors.length)
      (reaps : world'.reaps = world.reaps.eraseIdx index) :
      Effect thinkingEnabled key world world' action

variable {thinkingEnabled : Bool} {key : String} {world world' : World}

/-- The parties that only the row and the store's tables change. -/
theorem Started.with_row (h : world.Started key) {store : InteractionStore}
    {row : InteractionRecord} (hrow : store.interaction = some row) (hid : row.interactionId = key)
    (hmessages : store.messages = world.store.messages) :
    Started key { world with store := store } where
  row := ⟨row, hrow, hid⟩
  executors := h.executors
  cancels := h.cancels
  reaps := h.reaps
  messages := fun m hm => h.messages m (hmessages ▸ hm)

/-- The identifiers of new messages are not in the table. -/
theorem Started.fresh (h : world.Started key) {messages : List MessageRecord} {nextId : Nat}
    (hnext : nextId = world.nextId) (hnew : ∀ m ∈ messages, nextId ≤ m.messageId) :
    ∀ row ∈ world.store.messages.rows, ∀ m ∈ messages, row.messageId ≠ m.messageId := by
  intro row hrow m hm
  have hold := (h.messages row hrow).2
  have := hnew m hm
  omega

/-- The message table after an accepted commit. -/
theorem Started.accepted (h : world.Started key) {c : InteractionCommit} {store : InteractionStore}
    (hstore : world.store.Accepted c store)
    (howned : ∀ m ∈ c.messages, m.interactionId = key)
    (hfresh : ∀ m ∈ c.messages, m.messageId < world.nextId + 4) :
    ∀ m ∈ store.messages.rows, m.interactionId = key ∧ m.messageId < world.nextId + 4 := by
  intro m hm
  rw [hstore.messages] at hm
  rcases List.mem_append.mp hm with hm | hm
  · obtain ⟨hid, hlt⟩ := h.messages m hm
    exact ⟨hid, by omega⟩
  · exact ⟨howned m hm, hfresh m hm⟩

/-- The row after an accepted commit is the interaction's own. -/
theorem Started.accepted_row (h : world.Started key) {c : InteractionCommit}
    {store : InteractionStore} (hstore : world.store.Accepted c store)
    (hid : c.interaction.interactionId = key) :
    ∃ row, store.interaction = some row ∧ row.interactionId = key := by
  obtain ⟨row, hrow, hkey⟩ := h.row
  rw [hstore.row, InteractionStore.rowAfter]
  split
  · exact ⟨c.interaction, rfl, hid⟩
  · rw [hrow]
    exact ⟨row.touch c.interaction, rfl, hkey⟩

/-! ## Action by action -/

theorem claim_effect {now : Instant} (h : world.Started key) :
    (world.claim now).Started key
      ∧ Effect thinkingEnabled key world (world.claim now) (.claim now) := by
  unfold claim
  split
  · rename_i claimed store hclaim
    obtain ⟨row, hrow, hpending, rfl, rfl⟩ := InteractionStore.claimRun_eq_some hclaim
    obtain ⟨row', hrow', hid⟩ := h.row
    have hkey : row.interactionId = key := by
      rw [hrow, Option.some.injEq] at hrow'
      exact hrow' ▸ hid
    refine ⟨⟨⟨_, rfl, hkey⟩, fun executor he => ?_, h.cancels, h.reaps, h.messages⟩,
      .claimed hrow hpending rfl (by simp) rfl⟩
    rcases List.mem_append.mp he with he | he
    · exact h.executors executor he
    · rw [List.mem_singleton.mp he, ← hkey]
      exact Executor.coherent_spawn rfl rfl
  · exact ⟨h, .quiet rfl rfl rfl⟩

theorem cancelLoad_effect (h : world.Started key) :
    world.cancelLoad.Started key
      ∧ Effect thinkingEnabled key world world.cancelLoad .cancelLoad := by
  obtain ⟨row, hrow, hid⟩ := h.row
  unfold cancelLoad
  rw [hrow]
  dsimp only
  split
  · exact ⟨h, .quiet rfl rfl rfl⟩
  · refine ⟨⟨h.row, h.executors, fun copy hcopy => ?_, h.reaps, h.messages⟩, .quiet rfl rfl rfl⟩
    rcases List.mem_append.mp hcopy with hcopy | hcopy
    · exact h.cancels copy hcopy
    · rw [List.mem_singleton.mp hcopy]
      exact hid

theorem staleSweep_effect {staleBefore now : Instant} (h : world.Started key) :
    (world.staleSweep staleBefore now).Started key
      ∧ Effect thinkingEnabled key world (world.staleSweep staleBefore now)
          (.staleSweep staleBefore now) := by
  unfold staleSweep
  split
  · rename_i reaped store hsweep
    obtain ⟨row, hrow, hrunning, -, rfl, rfl⟩ := InteractionStore.failStaleRun_eq_some hsweep
    obtain ⟨row', hrow', hid⟩ := h.row
    have hkey : row.interactionId = key := by
      rw [hrow, Option.some.injEq] at hrow'
      exact hrow' ▸ hid
    refine ⟨⟨⟨_, rfl, hkey⟩, h.executors, h.cancels, fun reap hreap => ?_, h.messages⟩,
      .stale hrow hrunning rfl rfl rfl⟩
    rcases List.mem_append.mp hreap with hreap | hreap
    · exact h.reaps reap hreap
    · rw [List.mem_singleton.mp hreap]
      exact ⟨hkey, rfl, rfl⟩
  · exact ⟨h, .quiet rfl rfl rfl⟩

theorem abandonedSweep_effect {abandonedBefore now : Instant} (h : world.Started key) :
    (world.abandonedSweep abandonedBefore now).Started key
      ∧ Effect thinkingEnabled key world (world.abandonedSweep abandonedBefore now)
          (.abandonedSweep abandonedBefore now) := by
  unfold abandonedSweep
  split
  · rename_i reaped store hsweep
    obtain ⟨row, hrow, hpending, -, rfl, rfl⟩ := InteractionStore.failAbandonedRun_eq_some hsweep
    obtain ⟨row', hrow', hid⟩ := h.row
    have hkey : row.interactionId = key := by
      rw [hrow, Option.some.injEq] at hrow'
      exact hrow' ▸ hid
    refine ⟨⟨⟨_, rfl, hkey⟩, h.executors, h.cancels, fun reap hreap => ?_, h.messages⟩,
      .abandoned hrow hpending rfl rfl rfl⟩
    rcases List.mem_append.mp hreap with hreap | hreap
    · exact h.reaps reap hreap
    · rw [List.mem_singleton.mp hreap]
      exact ⟨hkey, rfl, rfl⟩
  · exact ⟨h, .quiet rfl rfl rfl⟩

theorem reapDies_effect {index : Nat} (h : world.Started key)
    (hstep : world.reapDies index = some world') :
    world'.Started key ∧ Effect thinkingEnabled key world world' (.reapDies index) := by
  unfold reapDies at hstep
  split at hstep <;> cases hstep
  exact ⟨⟨h.row, h.executors, h.cancels, fun reap hreap => h.reaps reap (List.mem_of_mem_eraseIdx hreap),
    h.messages⟩, .lost (Or.inl rfl) rfl rfl rfl⟩

theorem executorDies_effect {index : Nat} (h : world.Started key)
    (hstep : world.executorDies index = some world') :
    world'.Started key ∧ Effect thinkingEnabled key world world' (.executorDies index) := by
  obtain ⟨executor, hexecutor, rfl⟩ := Option.map_eq_some_iff.mp hstep
  have hcoherent := h.executors executor (List.mem_of_getElem? hexecutor)
  refine ⟨⟨h.row, fun e he => ?_, h.cancels, h.reaps, h.messages⟩,
    .quiet rfl (List.length_set ..) rfl⟩
  rcases List.mem_or_eq_of_mem_set he with he | rfl
  · exact h.executors e he
  · exact Executor.Coherent.of_run hcoherent.run rfl (by simp) (by simp [Point.ending?])

theorem cancelSignal_effect {index : Nat} (h : world.Started key)
    (hstep : world.cancelSignal index = some world') :
    world'.Started key ∧ Effect thinkingEnabled key world world' (.cancelSignal index) := by
  unfold cancelSignal at hstep
  split at hstep
  · cases hstep
  · rename_i executor hexecutor
    have hcoherent := h.executors executor (List.mem_of_getElem? hexecutor)
    split at hstep <;> cases hstep
    refine ⟨⟨h.row, fun e he => ?_, h.cancels, h.reaps, h.messages⟩,
      .quiet rfl (List.length_set ..) rfl⟩
    rcases List.mem_or_eq_of_mem_set he with he | rfl
    · exact h.executors e he
    · exact ⟨hcoherent.run, hcoherent.working, hcoherent.recorded, hcoherent.ending⟩

theorem cancelCommit_effect {index : Nat} {reading : Reading} {outcome : WriteOutcome}
    (h : world.Started key) (hstep : world.cancelCommit index reading outcome = some world') :
    world'.Started key
      ∧ Effect thinkingEnabled key world world' (.cancelCommit index reading outcome) := by
  unfold cancelCommit at hstep
  split at hstep
  · cases hstep
  rename_i copy hcopy
  have hid := h.cancels copy (List.mem_of_getElem? hcopy)
  have hrest : ∀ c ∈ world.cancels.eraseIdx index, c.interactionId = key :=
    fun c hc => h.cancels c (List.mem_of_mem_eraseIdx hc)
  split at hstep
  · rename_i hnext
    split at hstep
    · rename_i hlegal
      obtain ⟨store, hwrite, rfl⟩ := Option.map_eq_some_iff.mp hstep
      have happends := copy.cancelCommit_appends reading
      rw [hid, hnext] at happends
      rcases InteractionStore.write_eq_some
        (h.fresh rfl (fun m hm => (happends.fresh m hm).1)) happends.distinct hwrite with
        ⟨rfl, rfl⟩ | ⟨haccepted, hstore⟩
      · exact ⟨⟨h.row, h.executors, hrest, h.reaps, fun m hm =>
          ⟨(h.messages m hm).1, Nat.lt_add_right 4 (h.messages m hm).2⟩⟩, .quiet rfl rfl rfl⟩
      · refine ⟨⟨h.accepted_row hstore happends.identity, h.executors, hrest, h.reaps,
          h.accepted hstore happends.owned (fun m hm => (happends.fresh m hm).2)⟩,
          .wrote ?_ happends hstore rfl rfl⟩
        simp [attempts, haccepted, hcopy, hlegal]
    · cases hstep
      exact ⟨⟨h.row, h.executors, hrest, h.reaps, h.messages⟩, .quiet rfl rfl rfl⟩
  · cases hstep

theorem reapCommit_effect {index : Nat} {reading : Reading} {outcome : WriteOutcome}
    (h : world.Started key) (hstep : world.reapCommit index reading outcome = some world') :
    world'.Started key
      ∧ Effect thinkingEnabled key world world' (.reapCommit index reading outcome) := by
  unfold reapCommit at hstep
  split at hstep
  · cases hstep
  rename_i reap hreap
  have hheld := h.reaps reap (List.mem_of_getElem? hreap)
  have hrest : ∀ r ∈ world.reaps.eraseIdx index, _ :=
    fun r hr => h.reaps r (List.mem_of_mem_eraseIdx hr)
  split at hstep
  · rename_i hnext
    obtain ⟨store, hwrite, rfl⟩ := Option.map_eq_some_iff.mp hstep
    have hnew : ∀ m ∈ (reap.commit reading).messages,
        m.interactionId = key ∧ m.messageId = world.nextId + 2 := by
      intro m hm
      rw [List.mem_singleton.mp hm]
      exact ⟨hheld.1, by rw [← hnext]; rfl⟩
    rcases InteractionStore.write_eq_some
      (h.fresh rfl (fun m hm => by have := (hnew m hm).2; omega))
      (List.pairwise_singleton _ _) hwrite with ⟨rfl, rfl⟩ | ⟨-, hstore⟩
    · exact ⟨⟨h.row, h.executors, h.cancels, hrest, fun m hm =>
        ⟨(h.messages m hm).1, Nat.lt_add_right 4 (h.messages m hm).2⟩⟩,
        .lost (Or.inr ⟨reading, rfl⟩) rfl rfl rfl⟩
    · exact ⟨⟨h.accepted_row hstore hheld.1, h.executors, h.cancels, hrest,
        h.accepted hstore (fun m hm => (hnew m hm).1)
          (fun m hm => by have := (hnew m hm).2; omega)⟩, .reaped hreap hstore rfl rfl⟩
  · cases hstep

theorem move_effect {index : Nat} {move : Move} {reading : Reading} {outcome : WriteOutcome}
    (h : world.Started key)
    (hstep : world.move thinkingEnabled index move reading outcome = some world') :
    world'.Started key
      ∧ Effect thinkingEnabled key world world' (.move index move reading outcome) := by
  unfold World.move at hstep
  split at hstep
  · cases hstep
  rename_i executor hexecutor
  have hcoherent := h.executors executor (List.mem_of_getElem? hexecutor)
  split at hstep
  · rename_i hsees
    split at hstep
    · cases hstep
    rename_i performed hperform
    have hsound := Executor.perform_sound hcoherent hperform
    have hset : ∀ {e : Executor}, e.Coherent key →
        ∀ e' ∈ world.executors.set index e, e'.Coherent key := by
      intro e he e' he'
      rcases List.mem_or_eq_of_mem_set he' with he' | rfl
      · exact h.executors e' he'
      · exact he
    split at hstep
    · cases hstep
      exact ⟨⟨h.row, hset hsound.stored, h.cancels, h.reaps, h.messages⟩,
        .quiet rfl (List.length_set ..) rfl⟩
    · rename_i c hcommit
      obtain ⟨store, hwrite, rfl⟩ := Option.map_eq_some_iff.mp hstep
      have happends := (hsound.commit c hcommit).appends hcoherent.run
      rw [hsees.1] at happends
      rcases InteractionStore.write_eq_some
        (h.fresh rfl (fun m hm => (happends.fresh m hm).1)) happends.distinct hwrite with
        ⟨rfl, rfl⟩ | ⟨haccepted, hstore⟩
      · refine ⟨⟨h.row, hset ?_, h.cancels, h.reaps, fun m hm =>
          ⟨(h.messages m hm).1, Nat.lt_add_right 4 (h.messages m hm).2⟩⟩,
          .quiet rfl (List.length_set ..) rfl⟩
        exact hsound.refused
      · refine ⟨⟨h.accepted_row hstore happends.identity, hset ?_, h.cancels, h.reaps,
          h.accepted hstore happends.owned (fun m hm => (happends.fresh m hm).2)⟩,
          .wrote ?_ happends hstore (List.length_set ..) rfl⟩
        · rw [if_neg haccepted]
          exact hsound.stored
        · simp [attempts, haccepted, hexecutor, hperform, hcommit]
  · cases hstep

/-- **What one action can do** once the question is stored, with the invariant it keeps. -/
theorem step_effect {action : SessionAction} (h : world.Started key)
    (hstep : world.step thinkingEnabled action = some world') :
    world'.Started key ∧ Effect thinkingEnabled key world world' action := by
  obtain ⟨row, hrow, -⟩ := h.row
  cases action with
  | start question now => simp [step, start, hrow] at hstep
  | claim now =>
    cases hstep
    exact claim_effect h
  | move index move reading outcome => exact move_effect h hstep
  | executorDies index => exact executorDies_effect h hstep
  | cancelLoad =>
    cases hstep
    exact cancelLoad_effect h
  | cancelCommit index reading outcome => exact cancelCommit_effect h hstep
  | cancelSignal index => exact cancelSignal_effect h hstep
  | staleSweep staleBefore now =>
    cases hstep
    exact staleSweep_effect h
  | abandonedSweep abandonedBefore now =>
    cases hstep
    exact abandonedSweep_effect h
  | reapCommit index reading outcome => exact reapCommit_effect h hstep
  | reapDies index => exact reapDies_effect h hstep

/-! ## The start -/

/-- The world right after the question was stored. -/
structure Asked (question : Question) (now : Instant) (world : World) : Prop where
  row : world.store.interaction = some (question.record now)
  messages : world.store.messages.rows = (question.commit now (world.nextId - 4)).messages
  events : world.store.events.rows = []
  executors : world.executors = []
  cancels : world.cancels = []
  reaps : world.reaps = []
  used : 4 ≤ world.nextId

/-- A stored question starts the parties. -/
theorem Asked.started {question : Question} {now : Instant} (h : Asked question now world) :
    world.Started question.interactionId where
  row := ⟨_, h.row, rfl⟩
  executors := by simp [h.executors]
  cancels := by simp [h.cancels]
  reaps := by simp [h.reaps]
  messages := fun m hm => by
    have hused := h.used
    rw [h.messages] at hm
    rw [List.mem_singleton.mp hm]
    exact ⟨rfl, by simp only [InteractionRecord.message]; omega⟩

/-- **Before the question is stored** the only thing that can happen is that it is stored. -/
theorem step_idle {action : SessionAction} (h : world.Idle)
    (hstep : world.step thinkingEnabled action = some world') :
    world'.Idle ∨ ∃ question now, action = .start question now ∧ Asked question now world' := by
  cases action with
  | start question now =>
    simp only [step, start, h.row, if_true] at hstep
    obtain ⟨store, hwrite, rfl⟩ := Option.map_eq_some_iff.mp hstep
    have haccepted : world.store.Accepted (question.commit now world.nextId) store := by
      rcases InteractionStore.write_eq_some (by simp [h.messages]) (List.pairwise_singleton _ _)
        hwrite with ⟨houtcome, -⟩ | ⟨-, haccepted⟩
      · cases houtcome
      · exact haccepted
    refine Or.inr ⟨question, now, rfl, haccepted.row, ?_, ?_, h.executors, h.cancels, h.reaps,
      Nat.le_add_left 4 _⟩
    · rw [haccepted.messages, h.messages]
      simp
    · rw [haccepted.events]
      exact h.events
  | claim now =>
    left
    cases hstep
    simpa [claim, InteractionStore.claimRun, h.row] using h
  | move index move reading outcome => simp [step, World.move, h.executors] at hstep
  | executorDies index => simp [step, executorDies, h.executors] at hstep
  | cancelLoad =>
    left
    cases hstep
    simpa [cancelLoad, h.row] using h
  | cancelCommit index reading outcome => simp [step, cancelCommit, h.cancels] at hstep
  | cancelSignal index => simp [step, cancelSignal, h.executors] at hstep
  | staleSweep staleBefore now =>
    left
    cases hstep
    simpa [staleSweep, InteractionStore.failStaleRun, h.row] using h
  | abandonedSweep abandonedBefore now =>
    left
    cases hstep
    simpa [abandonedSweep, InteractionStore.failAbandonedRun, h.row] using h
  | reapCommit index reading outcome => simp [step, reapCommit, h.reaps] at hstep
  | reapDies index => simp [step, reapDies, h.reaps] at hstep

/-! ## What an accepted commit leaves -/

/-- No event is past the watermark. -/
def Bounded (world : World) : Prop :=
  ∀ row, world.store.interaction = some row →
    ∀ event ∈ world.store.events.rows, event.sequence ≤ row.lastEventSequence

section Accepted

variable {c : InteractionCommit} {counter nextId : Nat} {store : InteractionStore}
variable {row : InteractionRecord}

/-- The row after an accepted commit carries the commit's watermark, and the commit's status where it
is a lifecycle commit. -/
theorem accepted_row (hrow : world.store.interaction = some row)
    (hstore : world.store.Accepted c store) :
    ∃ row', store.interaction = some row'
      ∧ row'.lastEventSequence = c.interaction.lastEventSequence
      ∧ row'.status = if c.lifecycle = true then c.interaction.status else row.status := by
  rw [hstore.row, InteractionStore.rowAfter]
  split
  · exact ⟨c.interaction, rfl, rfl, rfl⟩
  · rw [hrow]
    exact ⟨row.touch c.interaction, rfl, rfl, rfl⟩

/-- The events of a commit in step are put after every row. -/
theorem accepted_events (hbounded : world.Bounded) (happends : c.Appends key counter nextId)
    (hrow : world.store.interaction = some row) (hcounter : row.lastEventSequence ≤ counter)
    (hstore : world.store.Accepted c store) :
    store.events.rows = world.store.events.rows ++ c.events := by
  rw [hstore.events]
  exact EventLog.rows_upsertAll
    (fun event hevent => Nat.le_trans (hbounded row hrow event hevent) hcounter) happends.numbered

/-- The events of a commit are not past its watermark. -/
theorem events_le_watermark (happends : c.Appends key counter nextId) :
    ∀ event ∈ c.events, counter < event.sequence
      ∧ event.sequence ≤ c.interaction.lastEventSequence := by
  intro event hevent
  have hmem : event.sequence ∈ c.events.map (·.sequence) := List.mem_map_of_mem hevent
  rw [happends.numbered, List.mem_range'_1] at hmem
  have := happends.watermark
  omega

/-- The log stays bounded. -/
theorem bounded_of_accepted (hbounded : world.Bounded) (happends : c.Appends key counter nextId)
    (hrow : world.store.interaction = some row) (hcounter : row.lastEventSequence ≤ counter)
    (hstore : world.store.Accepted c world'.store) : world'.Bounded := by
  obtain ⟨row', hrow', hlast, -⟩ := accepted_row hrow hstore
  have hevents := accepted_events hbounded happends hrow hcounter hstore
  intro r hr event hevent
  rw [hrow', Option.some.injEq] at hr
  rw [hevents] at hevent
  rw [← hr, hlast]
  rcases List.mem_append.mp hevent with hevent | hevent
  · have hold := hbounded row hrow event hevent
    have hnew := happends.watermark
    omega
  · exact (events_le_watermark happends event hevent).2

end Accepted

/-! ## Invariants and histories of the parties -/

variable {G : World → SessionAction → Prop} {I : String → World → Prop}

/-- **The invariant rule of the parties.** What holds when the question is stored, and is kept by
every effect within the guard, holds in every state reached within the guard. -/
theorem invariant_of_effects
    (hstart : ∀ {question now w}, Asked question now w → I question.interactionId w)
    (hstep : ∀ {key w w' a}, w.Started key → I key w → G w a →
      Effect thinkingEnabled key w w' a → I key w')
    (h : Machine.Reach (interactionMachine thinkingEnabled) G world) :
    world.Idle ∨ ∃ key, world.Started key ∧ I key world := by
  refine Machine.Reach.invariant (I := fun w => w.Idle ∨ ∃ key, w.Started key ∧ I key w)
    (Or.inl ⟨rfl, rfl, rfl, rfl, rfl, rfl⟩) ?_ h
  rintro w w' a (hidle | ⟨key, hstarted, hinv⟩) hguard hw
  · rcases step_idle hidle hw with hidle' | ⟨question, now, -, hasked⟩
    · exact Or.inl hidle'
    · exact Or.inr ⟨_, hasked.started, hstart hasked⟩
  · obtain ⟨hstarted', heffect⟩ := step_effect hstarted hw
    exact Or.inr ⟨key, hstarted', hstep hstarted hinv hguard heffect⟩

/-- **The history rule of the parties.** A reflexive and transitive relation that every effect within
the guard respects relates a state to each later one. -/
theorem history_of_effects {R : World → World → Prop} {key : String}
    (hrefl : ∀ w, R w w) (htrans : ∀ {u v w}, R u v → R v w → R u w)
    (hinv : ∀ {w w' a}, w.Started key → I key w → G w a →
      Effect thinkingEnabled key w w' a → I key w')
    (hstep : ∀ {w w' a}, w.Started key → I key w → G w a →
      Effect thinkingEnabled key w w' a → R w w')
    (hstarted : world.Started key) (hI : I key world)
    (h : Machine.Steps (interactionMachine thinkingEnabled) G world world') : R world world' := by
  refine Machine.Steps.lift (I := fun w => w.Started key ∧ I key w) hrefl htrans ?_ ?_
    ⟨hstarted, hI⟩ h
  · rintro u v a ⟨hu, hIu⟩ hguard huv
    obtain ⟨hv, heffect⟩ := step_effect hu huv
    exact ⟨hv, hinv hu hIu hguard heffect⟩
  · rintro u v a ⟨hu, hIu⟩ hguard huv
    exact hstep hu hIu hguard (step_effect hu huv).2

end World
