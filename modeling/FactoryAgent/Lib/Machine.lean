/-!
# Machines and what holds along their runs

A system of several parties that act on shared state is a *machine*: a state, and a partial step
function that says what an action does to it. The action names the party and everything that is not
determined by the state – the clock a party reads, an answer of a collaborator, whether a write went
through – so that the step itself is a function and a run is a list of actions.

Two kinds of facts are proved about a machine. An *invariant* holds in every reachable state
(`Reach.invariant`). A *history property* relates two states of one run, the earlier one and the
later one (`Steps.lift`): nothing is lost, nothing is undone, a counter never moves back.

Both come with a **guard** `G`, a condition on the state before a step and on the action. A run is
*within* the guard when each of its steps meets it. With the trivial guard these are all the runs;
with a proper one they are the runs in which some race does not happen, which is how one says exactly
when a system with a race behaves.
-/

/-- **A machine**: a state to start from and a partial step function. An action that is not enabled
has no step. -/
structure Machine (σ α : Type) where
  /-- The state every run starts from. -/
  init : σ
  /-- What an action does, where it is enabled. -/
  step : σ → α → Option σ

namespace Machine

variable {σ α : Type} {m : Machine σ α} {G : σ → α → Prop}

/-- The guard that forbids nothing. -/
def free (_ : σ) (_ : α) : Prop := True

/-- **The states reachable within a guard.** -/
inductive Reach (m : Machine σ α) (G : σ → α → Prop) : σ → Prop where
  | init : Reach m G m.init
  | step {s t : σ} {a : α} : Reach m G s → G s a → m.step s a = some t → Reach m G t

/-- **The later states of a run**, from a given one on and within a guard. -/
inductive Steps (m : Machine σ α) (G : σ → α → Prop) (s : σ) : σ → Prop where
  | refl : Steps m G s s
  | tail {t u : σ} {a : α} : Steps m G s t → G t a → m.step t a = some u → Steps m G s u

/-- **The invariant rule.** What holds initially and is preserved by each guarded step holds in
every reachable state. -/
theorem Reach.invariant {I : σ → Prop} (h0 : I m.init)
    (hstep : ∀ {s t : σ} {a : α}, I s → G s a → m.step s a = some t → I t)
    {s : σ} (h : Reach m G s) : I s := by
  induction h with
  | init => exact h0
  | step _ hg hs ih => exact hstep ih hg hs

/-- A run continued from a reachable state reaches only reachable states. -/
theorem Steps.reach {s t : σ} (h : Steps m G s t) (hs : Reach m G s) : Reach m G t := by
  induction h with
  | refl => exact hs
  | tail _ hg ht ih => exact ih.step hg ht

/-- What holds at one state of a run and is preserved by each guarded step holds from there on. -/
theorem Steps.invariant {I : σ → Prop}
    (hstep : ∀ {s t : σ} {a : α}, I s → G s a → m.step s a = some t → I t)
    {s t : σ} (hs : I s) (h : Steps m G s t) : I t := by
  induction h with
  | refl => exact hs
  | tail _ hg hu ih => exact hstep ih hg hu

/-- **The history rule.** A reflexive and transitive relation that each guarded step from a state
with the invariant `I` respects relates any state of a run to any later one. -/
theorem Steps.lift {I : σ → Prop} {R : σ → σ → Prop} (hrefl : ∀ s, R s s)
    (htrans : ∀ {s t u}, R s t → R t u → R s u)
    (hI : ∀ {s t : σ} {a : α}, I s → G s a → m.step s a = some t → I t)
    (hR : ∀ {s t : σ} {a : α}, I s → G s a → m.step s a = some t → R s t)
    {s t : σ} (hs : I s) (h : Steps m G s t) : R s t := by
  have key : I t ∧ R s t := by
    induction h with
    | refl => exact ⟨hs, hrefl s⟩
    | tail _ hg hu ih => exact ⟨hI ih.1 hg hu, htrans ih.2 (hR ih.1 hg hu)⟩
  exact key.2

/-- Loosening the guard only adds reachable states. -/
theorem Reach.mono {G' : σ → α → Prop} (hG : ∀ s a, G s a → G' s a) {s : σ}
    (h : Reach m G s) : Reach m G' s := by
  induction h with
  | init => exact .init
  | step _ hg hs ih => exact ih.step (hG _ _ hg) hs

/-! ## Concrete runs -/

instance (s : σ) (a : α) : Decidable (free s a) := isTrue trivial

/-- Carry out a list of actions in order, stopping where the guard does not hold. -/
def run (m : Machine σ α) (G : σ → α → Prop) [∀ s a, Decidable (G s a)] :
    σ → List α → Option σ
  | s, [] => some s
  | s, a :: as => if G s a then (m.step s a).bind (fun t => m.run G t as) else none

section Run

variable [∀ s a, Decidable (G s a)]

theorem steps_of_run {s t : σ} {as : List α} (h : m.run G s as = some t) : Steps m G s t := by
  suffices hgen : ∀ {u : σ}, Steps m G u s → Steps m G u t from hgen .refl
  induction as generalizing s with
  | nil =>
    intro u hu
    rw [run, Option.some.injEq] at h
    exact h ▸ hu
  | cons a as ih =>
    intro u hu
    rw [run] at h
    split at h
    · rename_i hg
      obtain ⟨v, hv, hrest⟩ := Option.bind_eq_some_iff.mp h
      exact ih hrest (hu.tail hg hv)
    · cases h

/-- **A list of actions that can be carried out reaches a reachable state.** -/
theorem reach_of_run {s : σ} {as : List α} (h : m.run G m.init as = some s) : Reach m G s :=
  (steps_of_run h).reach .init

/-- A run within a guard is a run. -/
theorem run_free {s t : σ} {as : List α} (h : m.run G s as = some t) :
    m.run free s as = some t := by
  induction as generalizing s with
  | nil => exact h
  | cons a as ih =>
    rw [run] at h ⊢
    split at h
    · rw [if_pos (show free s a from trivial)]
      obtain ⟨v, hv, hrest⟩ := Option.bind_eq_some_iff.mp h
      rw [hv]
      exact ih hrest
    · cases h

/-- The state after a list of actions from the start, where they can be carried out. -/
def after (m : Machine σ α) (as : List α) : σ := (m.run free m.init as).getD m.init

/-- A list of actions that can be carried out leads to the state after it. -/
theorem run_after (as : List α) (h : (m.run free m.init as).isSome = true) :
    m.run free m.init as = some (m.after as) := by
  obtain ⟨s, hs⟩ := Option.isSome_iff_exists.mp h
  rw [after, hs, Option.getD_some]

/-- The state after a list of actions that can be carried out within a guard is reachable within
it. -/
theorem reach_after (as : List α) (h : (m.run G m.init as).isSome = true) :
    Reach m G (m.after as) := by
  obtain ⟨s, hs⟩ := Option.isSome_iff_exists.mp h
  have heq : m.after as = s := by rw [after, run_free hs, Option.getD_some]
  exact heq ▸ reach_of_run hs

/-- The state after more actions is a later one. -/
theorem steps_after (as more : List α) (h : m.run G (m.after as) more = some (m.after (as ++ more))) :
    Steps m G (m.after as) (m.after (as ++ more)) := steps_of_run h

end Run

/-- **The rule for histories.** What holds before the first action and is preserved by each action, of the
actions so far and the state they lead to, holds of every run. -/
theorem run_history {I : List α → σ → Prop} (h0 : I [] m.init)
    (hstep : ∀ {as : List α} {s t : σ} {a : α}, I as s → m.step s a = some t → I (as ++ [a]) t)
    {as : List α} {s : σ} (h : m.run free m.init as = some s) : I as s := by
  suffices hgen : ∀ (more : List α) {before : List α} {u : σ}, I before u → m.run free u more = some s →
      I (before ++ more) s from hgen as h0 h
  intro more
  induction more with
  | nil =>
    intro before u hu hrun
    cases hrun
    rwa [List.append_nil]
  | cons a more ih =>
    intro before u hu hrun
    rw [run, if_pos (show free u a from trivial)] at hrun
    obtain ⟨v, hv, hrest⟩ := Option.bind_eq_some_iff.mp hrun
    have hlast := ih (hstep hu hv) hrest
    rwa [List.append_assoc] at hlast

end Machine
