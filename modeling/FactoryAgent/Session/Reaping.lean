import FactoryAgent.Session.Effect

/-!
# When the sweeps are safe

A sweep fails a row in one transaction and commits its terminal event in the next one. The event takes
the number that the compare-and-set reserved; the error message takes a number too, in another table
with a key of its own, where the question already holds number 1. The abandoned sweep leaves that
number alone. The stale sweep does not: it takes it for granted that a running row has stored its
`started` event, so that the reserved number is past 1. A run that died between its claim and that
event has not, the message collides with the question, and the commit fails. The row is failed by
then, so no sweep looks at it again.

`Recoverable` is the condition under which a failed row gets its terminal event: each run that a stale
sweep fails has stored an event, no sweep loses the row it holds, and no other commit is accepted out
of step.
-/

/-- Whether an action loses the row that a sweep holds: the sweep dies, or its commit is rolled
back. -/
def SessionAction.losesReap : SessionAction → Bool
  | .reapDies _ | .reapCommit _ _ .rolledBack => true
  | _ => false

/-- Whether an action is the compare-and-set on stale runs. -/
def SessionAction.isStaleSweep : SessionAction → Bool
  | .staleSweep _ _ => true
  | _ => false

namespace World

variable {thinkingEnabled : Bool} {key : String} {world world' : World} {action : SessionAction}

/-- **The guard.** -/
def Recoverable (thinkingEnabled : Bool) (world : World) (action : SessionAction) : Prop :=
  (∀ attempt ∈ world.attempts thinkingEnabled action, ∀ row ∈ world.store.interaction,
    row.lastEventSequence ≤ attempt.1 ∧ row.status.isTerminal = false)
  ∧ (action.isStaleSweep = true → ∀ row ∈ world.store.interaction,
      row.status = .running → 1 ≤ row.lastEventSequence)
  ∧ action.losesReap = false

instance : Decidable (world.Recoverable thinkingEnabled action) := by
  unfold Recoverable
  infer_instance

/-- **The phases of an interaction** as the sweeps see it. -/
inductive Phase (world : World) : Prop where
  /-- The row is not terminal. Message numbers are up to the watermark, the question's apart. -/
  | ongoing {row : InteractionRecord} (row_eq : world.store.interaction = some row)
      (ongoing : row.status.isTerminal = false) (reaps : world.reaps = [])
      (terminals : world.store.events.terminals = [])
      (messages : ∀ m ∈ world.store.messages.rows, m.sequence ≤ max 1 row.lastEventSequence)
  /-- A sweep holds the failed row, and both numbers it is going to use are free. -/
  | held {reap : Reap} (row_eq : world.store.interaction = some reap.record)
      (failed : reap.record.status = .failed) (reaps : world.reaps = [reap])
      (terminals : world.store.events.terminals = [])
      (events : ∀ e ∈ world.store.events.rows, e.sequence < reap.record.lastEventSequence)
      (messages : ∀ m ∈ world.store.messages.rows, m.sequence < reap.messageSequence)
  /-- The row is terminal, and its one terminal event has the number of the watermark. -/
  | ended {row : InteractionRecord} {event : SessionEvent}
      (row_eq : world.store.interaction = some row) (ended : row.status.isTerminal = true)
      (reaps : world.reaps = []) (terminals : world.store.events.terminals = [event])
      (last : event.sequence = row.lastEventSequence)

/-- The phases depend on the store and on the held rows only. -/
theorem Phase.of_store (h : world.Phase) (hstore : world'.store = world.store)
    (hreaps : world'.reaps = world.reaps) : world'.Phase := by
  cases h with
  | ongoing hrow hongoing hnone hterminals hmessages =>
    exact .ongoing (hstore ▸ hrow) hongoing (hreaps.trans hnone) (hstore ▸ hterminals)
      (hstore ▸ hmessages)
  | held hrow hfailed hheld hterminals hevents hmessages =>
    exact .held (hstore ▸ hrow) hfailed (hreaps.trans hheld) (hstore ▸ hterminals)
      (hstore ▸ hevents) (hstore ▸ hmessages)
  | ended hrow hended hnone hterminals hlast =>
    exact .ended (hstore ▸ hrow) hended (hreaps.trans hnone) (hstore ▸ hterminals) hlast

/-- A row that is not terminal is in the first phase. -/
theorem Phase.of_not_terminal (h : world.Phase) {row : InteractionRecord}
    (hrow : world.store.interaction = some row) (hopen : row.status.isTerminal = false) :
    world.reaps = [] ∧ world.store.events.terminals = []
      ∧ ∀ m ∈ world.store.messages.rows, m.sequence ≤ max 1 row.lastEventSequence := by
  cases h with
  | ongoing hrow' hongoing hnone hterminals hmessages =>
    rw [hrow, Option.some.injEq] at hrow'
    exact ⟨hnone, hterminals, hrow' ▸ hmessages⟩
  | held hrow' hfailed hheld hterminals hevents hmessages =>
    rw [hrow, Option.some.injEq] at hrow'
    rw [hrow', hfailed] at hopen
    cases hopen
  | ended hrow' hended hnone hterminals hlast =>
    rw [hrow, Option.some.injEq] at hrow'
    rw [hrow', hended] at hopen
    cases hopen

/-- The terminal event of a reaped row is put at the end, and is the only one. -/
theorem terminals_reaped {reap : Reap} {reading : Reading} {store : InteractionStore}
    (hevents_eq : store.events = world.store.events.upsertAll (reap.commit reading).events)
    (hterminals : world.store.events.terminals = [])
    (hevents : ∀ e ∈ world.store.events.rows, e.sequence < reap.record.lastEventSequence) :
    ∃ event, store.events.terminals = [event]
      ∧ event.sequence = reap.record.lastEventSequence := by
  have hrows : store.events.rows = world.store.events.rows ++ (reap.commit reading).events := by
    rw [hevents_eq]
    exact EventLog.rows_upsert_of_lt hevents
  have hlast : (reap.commit reading).events.filter (·.name.isTerminal)
      = (reap.commit reading).events := rfl
  rw [EventLog.terminals] at hterminals
  rw [EventLog.terminals, hrows, List.filter_append, hterminals, List.nil_append, hlast]
  exact ⟨_, rfl, rfl⟩

/-- A commit in step on a row that is not terminal leaves it in the first phase, or ends it. -/
theorem Phase.of_accepted {c : InteractionCommit} {counter nextId : Nat}
    {row : InteractionRecord} (hbounded : world.Bounded)
    (hrow : world.store.interaction = some row) (hopen : row.status.isTerminal = false)
    (h : world.Phase) (hcounter : row.lastEventSequence ≤ counter)
    (happends : c.Appends key counter nextId) (hstore : world.store.Accepted c world'.store)
    (hreaps : world'.reaps = world.reaps) : world'.Phase := by
  obtain ⟨hnone, hterminals, hmessages⟩ := h.of_not_terminal hrow hopen
  obtain ⟨row', hrow', hlast, hstatus⟩ := accepted_row hrow hstore
  have hevents := accepted_events hbounded happends hrow hcounter hstore
  have hterminals' : world'.store.events.terminals = c.events.filter (·.name.isTerminal) := by
    rw [EventLog.terminals] at hterminals ⊢
    rw [hevents, List.filter_append, hterminals, List.nil_append]
  have hcount := happends.terminals
  by_cases hends : c.lifecycle = true ∧ c.interaction.status.isTerminal = true
  · rw [if_pos hends] at hcount
    obtain ⟨event, hevent⟩ := List.length_eq_one_iff.mp hcount
    have hmem : event ∈ c.events ∧ event.name.isTerminal = true := by
      have : event ∈ c.events.filter (·.name.isTerminal) := by simp [hevent]
      exact List.mem_filter.mp this
    refine .ended hrow' ?_ (hreaps.trans hnone) (hterminals'.trans hevent) ?_
    · rw [hstatus, if_pos hends.1]
      exact hends.2
    · rw [happends.terminalLast event hmem.1 hmem.2, hlast]
  · rw [if_neg hends] at hcount
    refine .ongoing hrow' ?_ (hreaps.trans hnone) (hterminals'.trans (List.length_eq_zero_iff.mp hcount))
      (fun m hm => ?_)
    · rw [hstatus]
      split
      · rename_i hlifecycle
        cases hterminal : c.interaction.status.isTerminal with
        | false => rfl
        | true => exact absurd ⟨hlifecycle, hterminal⟩ hends
      · exact hopen
    · rw [hstore.messages] at hm
      have hwatermark := happends.watermark
      rcases List.mem_append.mp hm with hm | hm
      · have := hmessages m hm
        omega
      · have := happends.numbers hends m hm
        omega

/-- A sweep's compare-and-set leads to a held row, where the message takes a number past the
watermark and past the question. -/
theorem Phase.of_swept {reap : Reap} {row : InteractionRecord} {category : String} {now : Instant}
    (hbounded : world.Bounded) (h : world.Phase) (hrow : world.store.interaction = some row)
    (hopen : row.status.isTerminal = false)
    (hreap : reap.record = InteractionStore.reapedRow row category now)
    (hnumber : max 1 row.lastEventSequence < reap.messageSequence)
    (hstore : world'.store = { world.store with interaction := some reap.record })
    (hreaps : world'.reaps = world.reaps ++ [reap]) : world'.Bounded ∧ world'.Phase := by
  obtain ⟨hnone, hterminals, hmessages⟩ := h.of_not_terminal hrow hopen
  have hlast : reap.record.lastEventSequence = row.lastEventSequence + 1 := by rw [hreap]; rfl
  have hevents : ∀ e ∈ world'.store.events.rows,
      e.sequence < reap.record.lastEventSequence := by
    intro e he
    rw [hstore] at he
    have := hbounded row hrow e he
    omega
  refine ⟨fun r hr e he => ?_, .held (by rw [hstore]) (by rw [hreap]; rfl)
    (by rw [hreaps, hnone]; rfl) (by rw [hstore]; exact hterminals) hevents (fun m hm => ?_)⟩
  · rw [hstore, Option.some.injEq] at hr
    exact hr ▸ Nat.le_of_lt (hevents e he)
  · rw [hstore] at hm
    have := hmessages m hm
    omega

/-- **Every effect within the guard keeps the log bounded and the interaction in a phase.** -/
theorem Phase.of_effect (hstarted : world.Started key) (hbounded : world.Bounded)
    (h : world.Phase) (hguard : world.Recoverable thinkingEnabled action)
    (heffect : Effect thinkingEnabled key world world' action) :
    world'.Bounded ∧ world'.Phase := by
  obtain ⟨hstep, hstale, hkept⟩ := hguard
  cases heffect with
  | quiet hstore hexecutors hreaps =>
    exact ⟨by rw [Bounded, hstore]; exact hbounded, h.of_store hstore hreaps⟩
  | @claimed now row hrow hpending hstore hexecutors hreaps =>
    have hopen : row.status.isTerminal = false := by rw [hpending]; rfl
    obtain ⟨hnone, hterminals, hmessages⟩ := h.of_not_terminal hrow hopen
    refine ⟨fun r hr => ?_, .ongoing (by rw [hstore]) rfl (hreaps.trans hnone)
      (by rw [hstore]; exact hterminals) (by rw [hstore]; exact hmessages)⟩
    rw [hstore, Option.some.injEq] at hr
    rw [hstore, ← hr]
    exact hbounded row hrow
  | @stale staleBefore now row hrow hrunning hstore hexecutors hreaps =>
    have hstored := hstale rfl row hrow hrunning
    refine h.of_swept hbounded hrow (by rw [hrunning]; rfl) rfl ?_ hstore hreaps
    simp only [Reap.ofStale, InteractionStore.reapedRow]
    omega
  | @abandoned abandonedBefore now row hrow hpending hstore hexecutors hreaps =>
    refine h.of_swept hbounded hrow (by rw [hpending]; rfl) rfl ?_ hstore hreaps
    simp only [Reap.ofAbandoned, InteractionStore.reapedRow]
    omega
  | @wrote _ counter c hattempt happends hstore hexecutors hreaps =>
    obtain ⟨row, hrow, -⟩ := hstarted.row
    obtain ⟨hcounter, hopen⟩ := hstep _ hattempt row hrow
    exact ⟨bounded_of_accepted hbounded happends hrow hcounter hstore,
      h.of_accepted hbounded hrow hopen hcounter happends hstore hreaps⟩
  | @reaped index reading outcome reap hreap hstore hexecutors hreaps =>
    cases h with
    | ongoing hrow hongoing hnone hterminals hmessages => simp [hnone] at hreap
    | ended hrow hended hnone hterminals hlast => simp [hnone] at hreap
    | @held held hrow hfailed hheld hterminals hevents hmessages =>
      have hindex : index = 0 ∧ held = reap := by
        rw [hheld] at hreap
        cases index with
        | zero => exact ⟨rfl, Option.some.inj hreap⟩
        | succ index => simp at hreap
      obtain ⟨rfl, rfl⟩ := hindex
      have hrow' : world'.store.interaction = some held.record := hstore.row
      obtain ⟨event, hevent, hlast⟩ := terminals_reaped hstore.events hterminals hevents
      refine ⟨fun r hr e he => ?_,
        .ended hrow' (by rw [hfailed]; rfl) (by rw [hreaps, hheld]; rfl) hevent hlast⟩
      rw [hrow', Option.some.injEq] at hr
      rw [hstore.events, show (held.commit reading).events = [_] from rfl] at he
      rcases EventLog.mem_put he with rfl | he
      · exact Nat.le_of_eq (by rw [← hr])
      · exact hr ▸ Nat.le_of_lt (hevents e he)
  | lost haction hstore hexecutors hreaps =>
    rcases haction with rfl | ⟨reading, rfl⟩ <;> cases hkept

/-- **Every state reached within the guard is bounded and in a phase**, once the question is
stored. -/
theorem phase_of_reach
    (h : Machine.Reach (interactionMachine thinkingEnabled) (Recoverable thinkingEnabled) world) :
    world.Idle ∨ ∃ key, world.Started key ∧ world.Bounded ∧ world.Phase := by
  refine invariant_of_effects (I := fun _ w => w.Bounded ∧ w.Phase) (fun hasked => ?_)
    (fun hstarted h hguard heffect => h.2.of_effect hstarted h.1 hguard heffect) h
  refine ⟨fun row hrow event hevent => ?_, .ongoing hasked.row rfl hasked.reaps ?_ (fun m hm => ?_)⟩
  · rw [hasked.events] at hevent
    cases hevent
  · rw [EventLog.terminals, hasked.events]
    rfl
  · rw [hasked.messages] at hm
    rw [List.mem_singleton.mp hm]
    exact Nat.le_max_left _ _

/-- **The terminal commit of a held row is accepted**: neither of its keys is taken. It keeps every
message, and its event is the one terminal event. -/
theorem reap_accepted {reap : Reap} {reading : Reading} (hstarted : world.Started key)
    (hphase : world.Phase) (hreap : reap ∈ world.reaps) (hnext : reading.nextId = world.nextId) :
    ∃ store, world.store.commit (reap.commit reading) = some store
      ∧ store.interaction = some reap.record
      ∧ (∀ m ∈ world.store.messages.rows, m ∈ store.messages.rows)
      ∧ ∃ event, store.events.terminals = [event]
          ∧ event.sequence = reap.record.lastEventSequence := by
  cases hphase with
  | ongoing hrow hongoing hnone hterminals hmessages => simp [hnone] at hreap
  | ended hrow hended hnone hterminals hlast => simp [hnone] at hreap
  | held hrow hfailed hheld hterminals hevents hmessages =>
    rw [hheld] at hreap
    obtain rfl := List.mem_singleton.mp hreap
    have hfree : (world.store.messages.upsert
        (reap.record.message (reading.nextId + 2) .system .error reap.messageSequence reap.text
          reading.now)).isSome := by
      refine MessageTable.upsert_isSome (fun m hm hkey => ?_)
      have hnumber := hmessages m hm
      rw [Prod.mk.injEq] at hkey
      simp only [InteractionRecord.message] at hkey
      omega
    obtain ⟨table, htable⟩ := Option.isSome_iff_exists.mp hfree
    have hall : world.store.messages.upsertAll (reap.commit reading).messages = some table := by
      rw [show (reap.commit reading).messages = [_] from rfl, MessageTable.upsertAll, htable]
      rfl
    have hcommit : ∃ store, world.store.commit (reap.commit reading) = some store := by
      unfold InteractionStore.commit
      rw [if_neg (by simp [InteractionStore.rowAfter, Reap.commit]), hall]
      exact ⟨_, rfl⟩
    obtain ⟨store, hstore⟩ := hcommit
    have haccepted := InteractionStore.accepted_of_commit
      (hstarted.fresh hnext (fun m hm => by
        rw [List.mem_singleton.mp hm]
        exact Nat.le_add_right _ 2))
      (List.pairwise_singleton _ _) hstore
    refine ⟨store, hstore, haccepted.row, fun m hm => ?_,
      terminals_reaped haccepted.events hterminals hevents⟩
    rw [haccepted.messages]
    exact List.mem_append_left _ hm

/-- **The sweeps are safe within the guard.** In every reachable state the store accepts the terminal
commit of each row that a sweep holds; it keeps all messages, the question among them, and leaves one
terminal event, with the number of the watermark. And a failed row that no sweep holds any more has
exactly that one terminal event. -/
theorem reaped_terminal_stored
    (h : Machine.Reach (interactionMachine thinkingEnabled) (Recoverable thinkingEnabled) world) :
    (∀ reap ∈ world.reaps, ∀ reading : Reading, reading.nextId = world.nextId →
      ∃ store, world.store.commit (reap.commit reading) = some store
        ∧ store.interaction = some reap.record
        ∧ (∀ m ∈ world.store.messages.rows, m ∈ store.messages.rows)
        ∧ ∃ event, store.events.terminals = [event]
            ∧ event.sequence = reap.record.lastEventSequence)
      ∧ (∀ row, world.store.interaction = some row → row.status = .failed → world.reaps = [] →
          ∃ event, world.store.events.terminals = [event]
            ∧ event.sequence = row.lastEventSequence) := by
  rcases phase_of_reach h with hidle | ⟨key, hstarted, -, hphase⟩
  · refine ⟨by simp [hidle.reaps], fun row hrow => ?_⟩
    rw [hidle.row] at hrow
    cases hrow
  · refine ⟨fun reap hreap reading hnext => reap_accepted hstarted hphase hreap hnext,
      fun row hrow hfailed hnone => ?_⟩
    cases hphase with
    | ongoing hrow' hongoing hreaps hterminals hmessages =>
      rw [hrow, Option.some.injEq] at hrow'
      rw [← hrow', hfailed] at hongoing
      cases hongoing
    | held hrow' hfailed' hheld hterminals hevents hmessages => simp [hheld] at hnone
    | ended hrow' hended hreaps hterminals hlast =>
      rw [hrow, Option.some.injEq] at hrow'
      exact ⟨_, hterminals, hrow' ▸ hlast⟩

/-! ### Runs inside and outside the guard -/

/-- A narrated run whose executor died is failed by a stale sweep. -/
def lostRun : List SessionAction := Scenario.narrated ++ [.executorDies 0, .staleSweep 100 200]

/-- The stale sweep of the lost run stores its terminal event. -/
theorem reaped_terminal_stored_lost :
    (∀ reap ∈ (Scenario.world lostRun).reaps, ∀ reading : Reading,
      reading.nextId = (Scenario.world lostRun).nextId →
      ∃ store, (Scenario.world lostRun).store.commit (reap.commit reading) = some store
        ∧ store.interaction = some reap.record
        ∧ (∀ m ∈ (Scenario.world lostRun).store.messages.rows, m ∈ store.messages.rows)
        ∧ ∃ event, store.events.terminals = [event]
            ∧ event.sequence = reap.record.lastEventSequence)
      ∧ (Scenario.world lostRun).reaps.length = 1 :=
  ⟨(reaped_terminal_stored (Machine.reach_after lostRun rfl)).1, rfl⟩

/-- A claimed run whose executor died before it stored any event is failed by a stale sweep. -/
def unstartedRun : List SessionAction :=
  [.start Scenario.question 0, .claim 1, .executorDies 0, .staleSweep 100 200]

/-- **The terminal commit of a stale sweep violates the message key**, which the question holds. The
commit is rolled back, and the row is failed without a terminal event. -/
theorem reaped_terminal_rejected :
    ∃ s t, ∃ reap ∈ s.reaps, Machine.Reach (interactionMachine true) Machine.free s
      ∧ s.store.commit (reap.commit (Scenario.reading 200 4)) = none
      ∧ Machine.Steps (interactionMachine true) Machine.free s t
      ∧ t.store.interaction.map (·.status) = some .failed ∧ t.reaps = []
      ∧ t.store.events.terminals = [] :=
  ⟨Scenario.world unstartedRun,
    Scenario.world (unstartedRun ++ [.reapCommit 0 (Scenario.reading 200 4) .rolledBack]),
    _, List.mem_cons_self, Machine.reach_after unstartedRun rfl, rfl,
    Machine.steps_after unstartedRun _ rfl, rfl, rfl, rfl⟩

end World
