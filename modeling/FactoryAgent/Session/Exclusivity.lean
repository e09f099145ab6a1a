import FactoryAgent.Session.Effect

/-!
# The claim is won at most once

`claim_run` is a conditional update, but every other writer replaces the row by a record it holds in
memory. What keeps a run from being claimed twice is that none of these records is `pending` when it
is written: an executor's record is the one its claim returned, a cancel call writes `cancelled` over
whatever it loaded, and a sweep writes back the row it failed. So a row that is settled – past
`pending` – stays settled, in every interleaving and whatever happens to the writers.
-/

namespace World

variable {thinkingEnabled : Bool} {key : String} {world world' : World}

/-- The row is past `pending`. -/
def Settled (world : World) : Prop :=
  ∃ row, world.store.interaction = some row ∧ row.status ≠ .pending

/-- A settled row cannot be claimed. -/
theorem Settled.claimRun (h : world.Settled) (now : Instant) : world.store.claimRun now = none := by
  obtain ⟨row, hrow, hstatus⟩ := h
  unfold InteractionStore.claimRun
  rw [hrow]
  exact if_neg hstatus

/-- An accepted commit whose record is not `pending` settles the row, or leaves it settled. -/
theorem Settled.of_accepted {store : InteractionStore} {c : InteractionCommit}
    (h : world.Settled) (hstore : world.store.Accepted c store)
    (hactive : c.interaction.status ≠ .pending) :
    ∃ row, store.interaction = some row ∧ row.status ≠ .pending := by
  obtain ⟨row, hrow, hstatus⟩ := h
  rw [hstore.row, InteractionStore.rowAfter]
  split
  · exact ⟨c.interaction, rfl, hactive⟩
  · rw [hrow]
    exact ⟨row.touch c.interaction, rfl, hstatus⟩

/-- **A settled row stays settled, and no executor is added.** -/
theorem Settled.of_effect {action : SessionAction} (hstarted : world.Started key)
    (h : world.Settled)
    (heffect : Effect thinkingEnabled key world world' action) :
    world'.Settled ∧ world'.executors.length = world.executors.length := by
  cases heffect with
  | quiet hstore hexecutors hreaps => exact ⟨by rwa [Settled, hstore], hexecutors⟩
  | claimed hrow hpending hstore hexecutors hreaps =>
    obtain ⟨row, hrow', hstatus⟩ := h
    rw [hrow, Option.some.injEq] at hrow'
    exact absurd (hrow' ▸ hpending) hstatus
  | stale hrow hrunning hstore hexecutors hreaps =>
    exact ⟨⟨_, by rw [hstore], by simp [InteractionStore.reapedRow]⟩, hexecutors⟩
  | abandoned hrow hpending hstore hexecutors hreaps =>
    exact ⟨⟨_, by rw [hstore], by simp [InteractionStore.reapedRow]⟩, hexecutors⟩
  | wrote hattempt happends hstore hexecutors hreaps =>
    exact ⟨h.of_accepted hstore happends.active, hexecutors⟩
  | reaped hreap hstore hexecutors hreaps =>
    have hfailed := (hstarted.reaps _ (List.mem_of_getElem? hreap)).2.1
    exact ⟨h.of_accepted hstore (by simp [Reap.commit, hfailed]), hexecutors⟩
  | lost haction hstore hexecutors hreaps => exact ⟨by rwa [Settled, hstore], hexecutors⟩

/-- There is at most one executor, and where there is one the row is settled. -/
def Exclusive (world : World) : Prop :=
  world.executors.length ≤ 1 ∧ (world.executors ≠ [] → world.Settled)

/-- A claim is won by the first executor; every other effect keeps their number. -/
theorem Exclusive.of_effect {action : SessionAction} (hstarted : world.Started key)
    (h : world.Exclusive) (heffect : Effect thinkingEnabled key world world' action) :
    world'.Exclusive := by
  by_cases hsettled : world.Settled
  · obtain ⟨hsettled', hlength⟩ := hsettled.of_effect hstarted heffect
    exact ⟨hlength ▸ h.1, fun _ => hsettled'⟩
  · have hnone : world.executors = [] :=
      Classical.byContradiction (fun hne => hsettled (h.2 hne))
    cases heffect with
    | claimed hrow hpending hstore hexecutors hreaps =>
      refine ⟨by rw [hexecutors, hnone]; exact Nat.le_refl 1, fun _ => ⟨_, by rw [hstore], ?_⟩⟩
      simp
    | quiet hstore hexecutors hreaps
    | stale hrow hrunning hstore hexecutors hreaps
    | abandoned hrow hpending hstore hexecutors hreaps
    | wrote hattempt happends hstore hexecutors hreaps
    | reaped hreap hstore hexecutors hreaps
    | lost haction hstore hexecutors hreaps =>
      have hnone' : world'.executors = [] := by
        rw [hnone] at hexecutors
        exact List.length_eq_zero_iff.mp hexecutors
      exact ⟨by simp [hnone'], fun hne => absurd hnone' hne⟩

/-- **The claim is won at most once.** Over all interleavings of all parties there is at most one
executor, one for each won claim. Once a run was claimed, or its row is past `pending` for any other
reason – cancelled, swept – every later claim is lost and no executor is started any more. -/
theorem claim_won_at_most_once {thinkingEnabled : Bool} {s t : World}
    (hs : Machine.Reach (interactionMachine thinkingEnabled) Machine.free s)
    (ht : Machine.Steps (interactionMachine thinkingEnabled) Machine.free s t) :
    s.executors.length ≤ 1
      ∧ ((s.executors ≠ [] ∨ ∃ row ∈ s.store.interaction, row.status ≠ .pending) →
          t.executors.length = s.executors.length ∧ ∀ now, t.store.claimRun now = none) := by
  rcases invariant_of_effects (I := fun _ w => w.Exclusive)
    (fun hasked => ⟨by simp [hasked.executors], fun hne => absurd hasked.executors hne⟩)
    (fun hstarted hexclusive _ heffect => hexclusive.of_effect hstarted heffect) hs with
    hidle | ⟨key, hstarted, hexclusive⟩
  · refine ⟨by simp [hidle.executors], fun h => ?_⟩
    rcases h with hne | ⟨row, hrow, -⟩
    · exact absurd hidle.executors hne
    · rw [hidle.row] at hrow
      cases hrow
  · refine ⟨hexclusive.1, fun h => ?_⟩
    have hsettled : s.Settled := by
      rcases h with hne | ⟨row, hrow, hstatus⟩
      · exact hexclusive.2 hne
      · exact ⟨row, hrow, hstatus⟩
    have hlater : s.Settled → t.Settled ∧ t.executors.length = s.executors.length :=
      history_of_effects (I := fun _ _ => True)
        (R := fun u v => u.Settled → v.Settled ∧ v.executors.length = u.executors.length)
        (fun u hu => ⟨hu, rfl⟩)
        (fun huv hvw hu => ⟨(hvw (huv hu).1).1, (hvw (huv hu).1).2.trans (huv hu).2⟩)
        (fun _ _ _ _ => trivial)
        (fun hu _ _ heffect hsettled => hsettled.of_effect hu heffect)
        hstarted trivial ht
    obtain ⟨hsettled', hlength⟩ := hlater hsettled
    exact ⟨hlength, hsettled'.claimRun⟩

/-- A narrated run has its one executor, and a second connection loses the claim. -/
theorem claim_won_at_most_once_narrated :
    (Scenario.world Scenario.narrated).executors.length ≤ 1
      ∧ (Scenario.world Scenario.narrated).store.claimRun 9 = none := by
  have hreach : Machine.Reach (interactionMachine true) Machine.free
      (Scenario.world Scenario.narrated) := Machine.reach_after Scenario.narrated rfl
  obtain ⟨hone, hsettled⟩ := claim_won_at_most_once hreach .refl
  exact ⟨hone, (hsettled (Or.inl (by decide))).2 9⟩

end World
