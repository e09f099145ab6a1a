import FactoryAgent.Session.Effect

/-!
# When a terminal row absorbs

A terminal row is meant to be final: `touch_interaction_run` moves only the watermark so that a late
progress commit cannot resurrect a cancelled run, and the two sweeps are compare-and-set statements.
But a lifecycle commit is an unconditional upsert of a record in memory, and a stop point, or the load
of a cancel call, looks at the status in an earlier transaction. A terminal that another party writes
in between is overwritten.

So a terminal row absorbs exactly along the runs in which no lifecycle commit of an executor or of a
cancel call is accepted while the row is terminal already (`LifecycleFresh`).
-/

namespace World

variable {thinkingEnabled : Bool} {key : String} {world world' : World} {action : SessionAction}

/-- **The guard**: a lifecycle commit that is accepted finds a row that is not terminal. -/
def LifecycleFresh (thinkingEnabled : Bool) (world : World) (action : SessionAction) : Prop :=
  ∀ attempt ∈ world.attempts thinkingEnabled action, attempt.2.lifecycle = true →
    ∀ row ∈ world.store.interaction, row.status.isTerminal = false

instance : Decidable (world.LifecycleFresh thinkingEnabled action) := by
  unfold LifecycleFresh
  infer_instance

/-- **A terminal row absorbed**: it kept its status and its state, and no answer was added. -/
def Absorbed (before after : World) : Prop :=
  ∀ row, before.store.interaction = some row → row.status.isTerminal = true →
    ∃ row', after.store.interaction = some row' ∧ row'.status = row.status ∧ row'.state = row.state
      ∧ ∀ m ∈ after.store.messages.rows, m.isAnswer = true → m ∈ before.store.messages.rows

theorem Absorbed.refl (world : World) : Absorbed world world :=
  fun row hrow _ => ⟨row, hrow, rfl, rfl, fun _ hm _ => hm⟩

theorem Absorbed.trans {u v w : World} (huv : Absorbed u v) (hvw : Absorbed v w) :
    Absorbed u w := by
  intro row hrow hterminal
  obtain ⟨row', hrow', hstatus, hstate, hanswers⟩ := huv row hrow hterminal
  obtain ⟨row'', hrow'', hstatus', hstate', hanswers'⟩ := hvw row' hrow' (hstatus ▸ hterminal)
  exact ⟨row'', hrow'', hstatus'.trans hstatus, hstate'.trans hstate,
    fun m hm ha => hanswers m (hanswers' m hm ha) ha⟩

/-- An unchanged store absorbs. -/
theorem Absorbed.of_store (h : world'.store = world.store) : Absorbed world world' := by
  intro row hrow _
  rw [h]
  exact ⟨row, hrow, rfl, rfl, fun _ hm _ => hm⟩

/-- **While a sweep holds a row, the row is failed.** -/
def ReapsFailed (world : World) : Prop :=
  world.reaps ≠ [] → ∃ row, world.store.interaction = some row
    ∧ row.status = .failed ∧ row.state = .failed

/-- A commit within the guard keeps a failed row failed: it is informational. -/
theorem informational_of_fresh {counter : Nat} {c : InteractionCommit} {row : InteractionRecord}
    (hfresh : world.LifecycleFresh thinkingEnabled action)
    (hattempt : world.attempts thinkingEnabled action = some (counter, c))
    (hrow : world.store.interaction = some row) (hterminal : row.status.isTerminal = true) :
    c.lifecycle = false := by
  cases hlifecycle : c.lifecycle with
  | false => rfl
  | true =>
    have := hfresh (counter, c) hattempt hlifecycle row hrow
    simp [hterminal] at this

theorem ReapsFailed.of_effect (hstarted : world.Started key) (h : world.ReapsFailed)
    (hfresh : world.LifecycleFresh thinkingEnabled action)
    (heffect : Effect thinkingEnabled key world world' action) : world'.ReapsFailed := by
  intro hne
  cases heffect with
  | quiet hstore hexecutors hreaps =>
    rw [hstore]
    exact h (hreaps ▸ hne)
  | claimed hrow hpending hstore hexecutors hreaps =>
    obtain ⟨row, hrow', hfailed, -⟩ := h (hreaps ▸ hne)
    rw [hrow, Option.some.injEq] at hrow'
    rw [hrow', hfailed] at hpending
    cases hpending
  | stale hrow hrunning hstore hexecutors hreaps => exact ⟨_, by rw [hstore], rfl, rfl⟩
  | abandoned hrow hpending hstore hexecutors hreaps => exact ⟨_, by rw [hstore], rfl, rfl⟩
  | wrote hattempt happends hstore hexecutors hreaps =>
    obtain ⟨row, hrow, hfailed, hstate⟩ := h (hreaps ▸ hne)
    have hinformational := informational_of_fresh hfresh hattempt hrow (by rw [hfailed]; rfl)
    rw [hstore.row, InteractionStore.rowAfter, if_neg (by simp [hinformational]), hrow]
    exact ⟨_, rfl, hfailed, hstate⟩
  | reaped hreap hstore hexecutors hreaps =>
    have hheld := hstarted.reaps _ (List.mem_of_getElem? hreap)
    rw [hstore.row]
    exact ⟨_, rfl, hheld.2⟩
  | lost haction hstore hexecutors hreaps =>
    rw [hstore]
    refine h (fun hnil => hne ?_)
    rw [hreaps, hnil]
    rfl

/-- **Within the guard, every effect absorbs.** -/
theorem absorbed_of_effect (hstarted : world.Started key) (h : world.ReapsFailed)
    (hfresh : world.LifecycleFresh thinkingEnabled action)
    (heffect : Effect thinkingEnabled key world world' action) : Absorbed world world' := by
  cases heffect with
  | quiet hstore hexecutors hreaps => exact Absorbed.of_store hstore
  | lost haction hstore hexecutors hreaps => exact Absorbed.of_store hstore
  | claimed hrow hpending hstore hexecutors hreaps =>
    intro row hrow' hterminal
    rw [hrow, Option.some.injEq] at hrow'
    simp [← hrow', hpending, InteractionStatus.isTerminal] at hterminal
  | stale hrow hrunning hstore hexecutors hreaps =>
    intro row hrow' hterminal
    rw [hrow, Option.some.injEq] at hrow'
    simp [← hrow', hrunning, InteractionStatus.isTerminal] at hterminal
  | abandoned hrow hpending hstore hexecutors hreaps =>
    intro row hrow' hterminal
    rw [hrow, Option.some.injEq] at hrow'
    simp [← hrow', hpending, InteractionStatus.isTerminal] at hterminal
  | wrote hattempt happends hstore hexecutors hreaps =>
    -- an informational commit moves the watermark, and only a lifecycle commit carries an answer
    intro row hrow hterminal
    have hinformational := informational_of_fresh hfresh hattempt hrow hterminal
    rw [hstore.row, InteractionStore.rowAfter, if_neg (by simp [hinformational]), hrow]
    refine ⟨_, rfl, rfl, rfl, fun m hm hanswer => ?_⟩
    rw [hstore.messages] at hm
    rcases List.mem_append.mp hm with hm | hm
    · exact hm
    · simp [(happends.answers m hm hanswer).1] at hinformational
  | reaped hreap hstore hexecutors hreaps =>
    -- the sweep writes back the row it failed, with an error message
    intro row hrow hterminal
    have hheld := hstarted.reaps _ (List.mem_of_getElem? hreap)
    obtain ⟨row', hrow', hfailed, hstate⟩ :=
      h (fun hnil => by simp [hnil] at hreap)
    rw [hrow, Option.some.injEq] at hrow'
    refine ⟨_, by rw [hstore.row]; rfl, ?_, ?_, fun m hm hanswer => ?_⟩
    · rw [hrow', hfailed]
      exact hheld.2.1
    · rw [hrow', hstate]
      exact hheld.2.2
    · rw [hstore.messages] at hm
      rcases List.mem_append.mp hm with hm | hm
      · exact hm
      · rw [List.mem_singleton.mp hm] at hanswer
        simp [InteractionRecord.message, MessageRecord.isAnswer] at hanswer

/-- **Terminal absorption.** Along every run whose accepted lifecycle commits find a row that is not
terminal, a terminal row keeps its status and its state, and no answer is added to it. -/
theorem terminal_absorbs {s t : World}
    (hs : Machine.Reach (interactionMachine thinkingEnabled) (LifecycleFresh thinkingEnabled) s)
    (ht : Machine.Steps (interactionMachine thinkingEnabled) (LifecycleFresh thinkingEnabled) s t) :
    Absorbed s t := by
  rcases invariant_of_effects (I := fun _ w => w.ReapsFailed)
    (fun hasked hne => absurd hasked.reaps hne)
    (fun hstarted hreaps hfresh heffect => hreaps.of_effect hstarted hfresh heffect) hs with
    hidle | ⟨key, hstarted, hreaps⟩
  · intro row hrow
    rw [hidle.row] at hrow
    cases hrow
  · exact history_of_effects (I := fun _ w => w.ReapsFailed) Absorbed.refl
      (fun huv hvw => huv.trans hvw)
      (fun hu hreaps hfresh heffect => hreaps.of_effect hu hfresh heffect)
      (fun hu hreaps hfresh heffect => absorbed_of_effect hu hreaps hfresh heffect)
      hstarted hreaps ht

/-! ### Runs inside and outside the guard -/

/-- The executor of a cancelled run stops, and the row stays cancelled. -/
theorem terminal_absorbs_cancelled :
    Absorbed (Scenario.world Scenario.cancelled)
      (Scenario.world (Scenario.cancelled ++ Scenario.stopping)) :=
  terminal_absorbs (Machine.reach_after Scenario.cancelled rfl) (Machine.steps_after Scenario.cancelled _ rfl)

/-- A chat answer is about to be committed when a cancel call, which loaded the row while the question
was parsed, commits. -/
def overtakenRun : List SessionAction :=
  Scenario.narrated ++
    [.cancelLoad, Scenario.moves (.request (.chat "您好")) 5 16, Scenario.moves .close 5 16,
     Scenario.moves .record 5 20, .cancelCommit 0 (Scenario.reading 6 24) .stored]

/-- **A terminal row is overwritten.** The row is `cancelled`, and the commit of the answer makes it
`completed` and adds the answer. -/
theorem terminal_overwritten :
    ∃ s t, Machine.Reach (interactionMachine true) Machine.free s
      ∧ Machine.Steps (interactionMachine true) Machine.free s t
      ∧ s.store.interaction.map (·.status) = some .cancelled
      ∧ t.store.interaction.map (·.status) = some .completed
      ∧ (s.store.messages.rows.filter (·.isAnswer)).length
          < (t.store.messages.rows.filter (·.isAnswer)).length
      ∧ ¬ Absorbed s t := by
  refine ⟨Scenario.world overtakenRun,
    Scenario.world (overtakenRun ++ [Scenario.moves .finish 7 28]),
    Machine.reach_after overtakenRun rfl, Machine.steps_after overtakenRun _ rfl, rfl, rfl, by decide,
    fun habsorbed => ?_⟩
  obtain ⟨row, hrow, hstatus, -⟩ := habsorbed _ rfl rfl
  have hcompleted : (Scenario.world (overtakenRun ++ [Scenario.moves .finish 7 28])).store.interaction.map
      (·.status) = some .completed := rfl
  rw [hrow, Option.map_some, hstatus] at hcompleted
  cases hcompleted

end World
