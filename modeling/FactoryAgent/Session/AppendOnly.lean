import FactoryAgent.Session.Effect

/-!
# When the event log is append-only

Event numbers are allocated by two writers: an executor counts in memory, and a cancel call takes the
number after the watermark of the copy it loaded. The table does not notice when they collide, because
its upsert replaces the row of a taken number. The usual collision needs no bad luck at all: a cancel
call commits its terminal event, the executor stops at its next stop point, and the commit that closes
its transcript takes the very number of the terminal event.

The log is append-only along the runs in which every accepted commit is *in step*: its writer's
counter is not behind the durable watermark, and a lifecycle commit finds a row that is not terminal.
-/

namespace World

variable {thinkingEnabled : Bool} {key : String} {world world' : World} {action : SessionAction}

/-- **The guard**: an accepted commit is in step with the durable row. -/
def InStep (thinkingEnabled : Bool) (world : World) (action : SessionAction) : Prop :=
  ∀ attempt ∈ world.attempts thinkingEnabled action, ∀ row ∈ world.store.interaction,
    row.lastEventSequence ≤ attempt.1
      ∧ (attempt.2.lifecycle = true → row.status.isTerminal = false)

instance : Decidable (world.InStep thinkingEnabled action) := by
  unfold InStep
  infer_instance

/-- The runs without sweeps: cancel calls and connections race with the executor. -/
def Unswept (_ : World) (action : SessionAction) : Prop := action.isSweep = false

instance : Decidable (world.Unswept action) := inferInstanceAs (Decidable (_ = _))

/-- The runs without sweeps in which every accepted commit is in step. -/
def UnsweptInStep (thinkingEnabled : Bool) (world : World) (action : SessionAction) : Prop :=
  world.Unswept action ∧ world.InStep thinkingEnabled action

instance : Decidable (world.UnsweptInStep thinkingEnabled action) :=
  inferInstanceAs (Decidable (_ ∧ _))

/-- **The log was only appended to**: every slot kept its event, and the watermark did not move
back. -/
def AppendOnly (before after : World) : Prop :=
  (∀ n event, before.store.events.at? n = some event → after.store.events.at? n = some event)
    ∧ ∀ row, before.store.interaction = some row →
        ∃ row', after.store.interaction = some row' ∧ row.lastEventSequence ≤ row'.lastEventSequence

/-- **One terminal event for a terminal row**, and none before. -/
def Terminated (world : World) : Prop :=
  ∀ row, world.store.interaction = some row →
    world.store.events.terminals.length = if row.status.isTerminal = true then 1 else 0

theorem AppendOnly.refl (world : World) : AppendOnly world world :=
  ⟨fun _ _ h => h, fun row hrow => ⟨row, hrow, Nat.le_refl _⟩⟩

theorem AppendOnly.trans {u v w : World} (huv : AppendOnly u v) (hvw : AppendOnly v w) :
    AppendOnly u w := by
  refine ⟨fun n event h => hvw.1 n event (huv.1 n event h), fun row hrow => ?_⟩
  obtain ⟨row', hrow', hle⟩ := huv.2 row hrow
  obtain ⟨row'', hrow'', hle'⟩ := hvw.2 row' hrow'
  exact ⟨row'', hrow'', Nat.le_trans hle hle'⟩

/-- More rows at the end of the log keep every slot. -/
theorem at?_of_append {log log' : EventLog} {events : List SessionEvent}
    (h : log'.rows = log.rows ++ events) {n : Nat} {event : SessionEvent}
    (hat : log.at? n = some event) : log'.at? n = some event := by
  obtain ⟨hmem, hseq⟩ := EventLog.at?_eq_some_iff.mp hat
  exact EventLog.at?_eq_some_iff.mpr ⟨h ▸ List.mem_append_left _ hmem, hseq⟩

/-- **The invariant of a log in step**: no row is held by a sweep, no event is past the watermark, and
a row is terminal exactly if the log has a terminal event. -/
structure LogInStep (world : World) : Prop where
  reaps : world.reaps = []
  bounded : world.Bounded
  terminated : world.Terminated

/-- A row that changed its status from one that is not terminal to another, with the same log. -/
theorem LogInStep.with_row (h : world.LogInStep) {row row' : InteractionRecord}
    (hrow : world.store.interaction = some row)
    (hstore : world'.store = { world.store with interaction := some row' })
    (hreaps : world'.reaps = world.reaps) (hlast : row'.lastEventSequence = row.lastEventSequence)
    (hstatus : row'.status.isTerminal = row.status.isTerminal) : world'.LogInStep := by
  refine ⟨hreaps.trans h.reaps, fun r hr => ?_, fun r hr => ?_⟩
  · rw [hstore, Option.some.injEq] at hr
    rw [hstore, ← hr, hlast]
    exact h.bounded row hrow
  · rw [hstore, Option.some.injEq] at hr
    rw [hstore, ← hr, hstatus]
    exact h.terminated row hrow

theorem LogInStep.of_effect (hstarted : world.Started key) (h : world.LogInStep)
    (hguard : world.UnsweptInStep thinkingEnabled action)
    (heffect : Effect thinkingEnabled key world world' action) : world'.LogInStep := by
  obtain ⟨row, hrow, -⟩ := hstarted.row
  cases heffect with
  | quiet hstore hexecutors hreaps =>
    exact ⟨hreaps.trans h.reaps, by rw [Bounded, hstore]; exact h.bounded,
      by rw [Terminated, hstore]; exact h.terminated⟩
  | claimed hrow' hpending hstore hexecutors hreaps =>
    exact h.with_row hrow' hstore hreaps rfl (by rw [hpending]; rfl)
  | stale hrow' hrunning hstore hexecutors hreaps => cases hguard.1
  | abandoned hrow' hpending hstore hexecutors hreaps => cases hguard.1
  | @wrote _ counter c hattempt happends hstore hexecutors hreaps =>
    obtain ⟨hcounter, hopen⟩ := hguard.2 _ hattempt row hrow
    have hevents := accepted_events h.bounded happends hrow hcounter hstore
    obtain ⟨row', hrow', hlast, hstatus⟩ := accepted_row hrow hstore
    refine ⟨hreaps.trans h.reaps, bounded_of_accepted h.bounded happends hrow hcounter hstore,
      fun r hr => ?_⟩
    · rw [hrow', Option.some.injEq] at hr
      rw [EventLog.terminals, hevents, List.filter_append, List.length_append,
        happends.terminals, ← hr, hstatus]
      have hold := h.terminated row hrow
      rw [EventLog.terminals] at hold
      rw [hold]
      cases hlifecycle : c.lifecycle with
      | false => simp
      | true => simp [hopen hlifecycle]
  | reaped hreap hstore hexecutors hreaps => cases hguard.1
  | lost haction hstore hexecutors hreaps =>
    rcases haction with rfl | ⟨reading, rfl⟩ <;> cases hguard.1

/-- **Every effect in step appends.** -/
theorem appendOnly_of_effect (hstarted : world.Started key) (h : world.LogInStep)
    (hguard : world.UnsweptInStep thinkingEnabled action)
    (heffect : Effect thinkingEnabled key world world' action) : AppendOnly world world' := by
  obtain ⟨row, hrow, -⟩ := hstarted.row
  cases heffect with
  | quiet hstore hexecutors hreaps =>
    rw [AppendOnly, hstore]
    exact AppendOnly.refl world
  | claimed hrow' hpending hstore hexecutors hreaps =>
    rw [AppendOnly, hstore]
    refine ⟨fun _ _ hat => hat, fun r hr => ⟨_, rfl, ?_⟩⟩
    rw [hrow', Option.some.injEq] at hr
    exact Nat.le_of_eq (by rw [hr])
  | stale hrow' hrunning hstore hexecutors hreaps => cases hguard.1
  | abandoned hrow' hpending hstore hexecutors hreaps => cases hguard.1
  | @wrote _ counter c hattempt happends hstore hexecutors hreaps =>
    obtain ⟨hcounter, -⟩ := hguard.2 _ hattempt row hrow
    have hevents := accepted_events h.bounded happends hrow hcounter hstore
    obtain ⟨row', hrow', hlast, -⟩ := accepted_row hrow hstore
    refine ⟨fun n event hat => at?_of_append hevents hat, fun r hr => ⟨row', hrow', ?_⟩⟩
    rw [hrow, Option.some.injEq] at hr
    have hwatermark := happends.watermark
    dsimp only at hcounter
    rw [← hr]
    omega
  | reaped hreap hstore hexecutors hreaps => cases hguard.1
  | lost haction hstore hexecutors hreaps =>
    rcases haction with rfl | ⟨reading, rfl⟩ <;> cases hguard.1

/-- In every reachable state in step the log is, once the question is stored. -/
theorem logInStep_of_reach
    (h : Machine.Reach (interactionMachine thinkingEnabled) (UnsweptInStep thinkingEnabled) world) :
    world.Idle ∨ ∃ key, world.Started key ∧ world.LogInStep := by
  refine invariant_of_effects (I := fun _ w => w.LogInStep) (fun hasked => ?_)
    (fun hstarted h hguard heffect => h.of_effect hstarted hguard heffect) h
  refine ⟨hasked.reaps, fun row hrow event hevent => ?_, fun row hrow => ?_⟩
  · rw [hasked.events] at hevent
    cases hevent
  · rw [hasked.row, Option.some.injEq] at hrow
    rw [EventLog.terminals, hasked.events, ← hrow]
    rfl

theorem terminated_of_reach
    (h : Machine.Reach (interactionMachine thinkingEnabled) (UnsweptInStep thinkingEnabled) world) :
    world.Terminated := by
  rcases logInStep_of_reach h with hidle | ⟨key, -, h⟩
  · intro row hrow
    rw [hidle.row] at hrow
    cases hrow
  · exact h.terminated

/-- **The log is append-only in step.** Along every run of cancel calls, connections and the executor
in which each accepted commit is in step, no slot of the log changes its event, the watermark does not
move back, and a terminal row has exactly one terminal event. -/
theorem log_append_only {s t : World}
    (hs : Machine.Reach (interactionMachine thinkingEnabled) (UnsweptInStep thinkingEnabled) s)
    (ht : Machine.Steps (interactionMachine thinkingEnabled) (UnsweptInStep thinkingEnabled) s t) :
    AppendOnly s t ∧ Terminated s ∧ Terminated t := by
  refine ⟨?_, terminated_of_reach hs, terminated_of_reach (ht.reach hs)⟩
  rcases logInStep_of_reach hs with hidle | ⟨key, hstarted, h⟩
  · refine ⟨fun n event hat => ?_, fun row hrow => ?_⟩
    · have hmem := (EventLog.at?_eq_some_iff.mp hat).1
      rw [hidle.events] at hmem
      cases hmem
    · rw [hidle.row] at hrow
      cases hrow
  · exact history_of_effects (I := fun _ w => w.LogInStep) AppendOnly.refl
      (fun huv hvw => huv.trans hvw)
      (fun hu hI hguard heffect => hI.of_effect hu hguard heffect)
      (fun hu hI hguard heffect => appendOnly_of_effect hu hI hguard heffect) hstarted h ht

/-! ### Runs inside and outside the guard -/

/-- The commit of a cancel call that loaded the latest row appends the terminal event. -/
theorem log_append_only_cancelled :
    AppendOnly (Scenario.world Scenario.narrated) (Scenario.world Scenario.cancelled)
      ∧ Terminated (Scenario.world Scenario.narrated)
      ∧ Terminated (Scenario.world Scenario.cancelled) :=
  log_append_only (Machine.reach_after Scenario.narrated rfl) (Machine.steps_after Scenario.narrated _ rfl)

/-- **The terminal event is overwritten.** The cancel call stored it under number 4, and the end
marker of the transcript that the stopped executor closes takes the same number. -/
theorem terminal_event_overwritten :
    ∃ s t, Machine.Reach (interactionMachine true) Unswept s
      ∧ Machine.Steps (interactionMachine true) Unswept s t
      ∧ (s.store.events.at? 4).map (·.name) = some .cancelled
      ∧ (t.store.events.at? 4).map (·.name) = some .thinking
      ∧ ¬ AppendOnly s t ∧ ¬ Terminated t := by
  refine ⟨Scenario.world Scenario.cancelled,
    Scenario.world (Scenario.cancelled ++ Scenario.stopping), Machine.reach_after _ rfl,
    Machine.steps_after Scenario.cancelled _ rfl, rfl, rfl, fun happend => ?_, fun hterminated => ?_⟩
  · have hslot := happend.1 4 _ rfl
    have hname : ((Scenario.world (Scenario.cancelled ++ Scenario.stopping)).store.events.at? 4).map
        (·.name) = some .thinking := rfl
    rw [hslot] at hname
    cases hname
  · have hnone := hterminated _ rfl
    exact absurd hnone (by decide)

end World
