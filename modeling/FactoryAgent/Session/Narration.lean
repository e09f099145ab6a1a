import FactoryAgent.Lib.Machine
import Mathlib.Tactic.ByContra

/-!
# Narrated steps

`application/session/narration.py`: a step is awaited in a task of its own while a generator gives out what there is to
say about the wait, and its outcome is carried in a slot. An exception of the step is kept in the slot; a cancellation
is not, so a step that was cancelled inside leaves the slot as it was at first, and a missing value is returned for it.
Without narration the cancellation reaches the caller. Apart from that the outcome is that of the step where the
generator runs to its end (`narrated_outcome_iff`).

The frames of the narration are left out: what matters of them is where the generator waits, where it gives out an
event, and how it may end there.
-/

namespace Narration

variable {α ε : Type}

/-! ## Outcomes -/

/-- **How a step ends.** -/
inductive Ending (α ε : Type) where
  | value (value : α)
  /-- an `Exception` -/
  | exception (error : ε)
  /-- a `CancelledError`, which is no `Exception` -/
  | cancelled
  deriving DecidableEq, Repr

/-- **What a caller gets**: a value, which may be missing, or what is raised. -/
inductive Outcome (α ε : Type) where
  | returned (value : Option α)
  | raised (error : ε)
  | cancelled
  deriving DecidableEq, Repr

/-- **What awaiting a step directly gives.** -/
def Ending.direct : Ending α ε → Outcome α ε
  | .value result => .returned (some result)
  | .exception error => .raised error
  | .cancelled => .cancelled

/-- `WorkSlot` -/
structure WorkSlot (α ε : Type) where
  value : Option α
  error : Option ε
  deriving DecidableEq, Repr

/-- A slot without an outcome. -/
def WorkSlot.empty : WorkSlot α ε :=
  ⟨none, none⟩

/-- `settled` -/
def WorkSlot.settled (slot : WorkSlot α ε) : Outcome α ε :=
  match slot.error with
  | some error => .raised error
  | none => .returned slot.value

/-- **What `_settle` leaves in the slot** of a step that ends. -/
def WorkSlot.settle (slot : WorkSlot α ε) : Ending α ε → WorkSlot α ε
  | .value result => { slot with value := some result }
  | .exception error => { slot with error := some error }
  | .cancelled => slot

/-- **A step without narration**: `_settle` is awaited, and a cancellation passes through. -/
def narrateOff (ending : Ending α ε) : Outcome α ε :=
  match ending with
  | .cancelled => .cancelled
  | ending => (WorkSlot.empty.settle ending).settled

/-! ## The generator -/

/-- **How the generator ends**: it has run to its end, its consumer has closed it, or something is raised in it. -/
inductive Exit (ε : Type) where
  | exhausted
  | closed
  | raised (error : ε)
  | cancelled
  deriving DecidableEq, Repr

/-- **Where the generator is.** -/
inductive Driver (ε : Type) where
  /-- in `asyncio.wait` -/
  | waiting
  /-- giving out what a tick made due -/
  | flushing
  /-- giving out what is left after the step -/
  | sweeping
  /-- waiting for the step that it has cancelled, on its way out -/
  | stopping (exit : Exit ε)
  | ended (exit : Exit ε)
  deriving DecidableEq, Repr

/-- **A narrated step**: how the step has ended, if it has, the slot, and the generator. -/
structure State (α ε : Type) where
  look : Option (Ending α ε)
  slot : WorkSlot α ε
  driver : Driver ε
  deriving DecidableEq, Repr

/-- What happens. -/
inductive Action (α ε : Type) where
  /-- the step ends by itself -/
  | stepEnds
  /-- `asyncio.wait` returns -/
  | tick
  /-- everything due is given out -/
  | flushed
  /-- everything left is given out -/
  | swept
  /-- the generator is closed at an event, or something is raised in it -/
  | interrupted (exit : Exit ε)
  /-- the step ends after it was cancelled by the generator, in whatever way -/
  | stopped (ending : Ending α ε)
  deriving DecidableEq, Repr

/-- The step has ended. -/
def State.finish (s : State α ε) (ending : Ending α ε) : State α ε :=
  { s with look := some ending, slot := s.slot.settle ending }

/-- **The `finally` of the generator**: a step that has not ended is cancelled and awaited. -/
def State.leave (s : State α ε) (exit : Exit ε) : State α ε :=
  if s.look.isSome then { s with driver := .ended exit } else { s with driver := .stopping exit }

/-- Whether the generator may end in a way where it is: it is closed only at an event. -/
def Driver.mayEnd : Driver ε → Exit ε → Bool
  | .waiting, .cancelled => true
  | .flushing, .exhausted | .sweeping, .exhausted => false
  | .flushing, _ | .sweeping, _ => true
  | _, _ => false

/-- **One step of `_narrate_over`** with narration, over a step that ends by itself in some way. -/
def step (natural : Ending α ε) (s : State α ε) : Action α ε → Option (State α ε)
  | .stepEnds =>
    match s.look, s.driver with
    | none, .waiting | none, .flushing => some (s.finish natural)
    | _, _ => none
  | .tick =>
    match s.driver with
    | .waiting => some { s with driver := .flushing }
    | _ => none
  | .flushed =>
    match s.driver with
    | .flushing => some { s with driver := if s.look.isSome then .sweeping else .waiting }
    | _ => none
  | .swept =>
    match s.driver with
    | .sweeping => some (s.leave .exhausted)
    | _ => none
  | .interrupted exit => if s.driver.mayEnd exit then some (s.leave exit) else none
  | .stopped ending =>
    match s.driver with
    | .stopping exit => some { s.finish ending with driver := .ended exit }
    | _ => none

/-- **The machine of a narrated step.** -/
def machine (natural : Ending α ε) : Machine (State α ε) (Action α ε) where
  init := ⟨none, .empty, .waiting⟩
  step := step natural

/-- **What the caller gets**, once the generator has ended: what is raised in it, or what `settled` gives. -/
def State.outcome? (s : State α ε) : Option (Outcome α ε) :=
  match s.driver with
  | .ended .exhausted | .ended .closed => some s.slot.settled
  | .ended (.raised error) => some (.raised error)
  | .ended .cancelled => some .cancelled
  | _ => none

/-! ## What holds -/

/-- What a way for the generator to end gives for a step with an ending. -/
def Exit.Keeps (natural ending : Ending α ε) : Exit ε → Prop
  | .exhausted | .closed => natural ≠ .cancelled ∧ ending = natural
  | .raised error => natural = .exception error
  | .cancelled => natural = .cancelled

/-- **A step of the machine that does not lose the outcome.** At the end of the generator the step was not cancelled,
and it has ended by itself or, cancelled by the generator, as it would have. What is raised in the generator is what the
step raises. -/
def KeepsOutcome (natural : Ending α ε) (s : State α ε) : Action α ε → Prop
  | .swept => natural ≠ .cancelled
  | .interrupted exit => s.look.isSome = true → exit.Keeps natural natural
  | .stopped ending =>
    match s.driver with
    | .stopping exit => exit.Keeps natural ending
    | _ => True
  | .stepEnds | .tick | .flushed => True

/-- **The invariant**: the slot holds the ending of the step where it has ended by itself, and nothing where it has not
ended. -/
structure Inv (natural : Ending α ε) (s : State α ε) : Prop where
  running : s.look = none → s.slot = .empty
  finished : ∀ ending, s.look = some ending → s.slot = WorkSlot.empty.settle ending
  bySelf : (∀ exit, s.driver ≠ .ended exit) → ∀ ending, s.look = some ending → ending = natural
  sweeping : s.driver = .sweeping → s.look.isSome = true
  stopping : ∀ exit, s.driver = .stopping exit → s.look = none

/-- **A slot gives what awaiting a step gives** exactly where it holds its ending, which is no cancellation. -/
theorem settled_settle_iff {natural ending : Ending α ε} :
    (WorkSlot.empty.settle ending).settled = natural.direct ↔ natural ≠ .cancelled ∧ ending = natural := by
  cases ending with
  | value result =>
    cases natural <;> simp [WorkSlot.settle, WorkSlot.settled, WorkSlot.empty, Ending.direct]
  | exception error =>
    cases natural <;> simp [WorkSlot.settle, WorkSlot.settled, WorkSlot.empty, Ending.direct]
  | cancelled =>
    cases natural <;> simp [WorkSlot.settle, WorkSlot.settled, WorkSlot.empty, Ending.direct]

/-- What the caller gets at the end of the generator is the outcome of the step exactly where its end keeps it. -/
theorem outcome_iff (natural : Ending α ε) {ending : Ending α ε} {s : State α ε} {exit : Exit ε} (hdriver : s.driver = .ended exit)
    (hslot : s.slot = WorkSlot.empty.settle ending) :
    ∃ outcome, s.outcome? = some outcome ∧ (outcome = natural.direct ↔ exit.Keeps natural ending) := by
  unfold State.outcome?
  rw [hdriver]
  cases exit with
  | exhausted => exact ⟨_, rfl, by rw [hslot]; exact settled_settle_iff⟩
  | closed => exact ⟨_, rfl, by rw [hslot]; exact settled_settle_iff⟩
  | raised error => exact ⟨_, rfl, by cases natural <;> simp [Exit.Keeps, Ending.direct, eq_comm]⟩
  | cancelled => exact ⟨_, rfl, by cases natural <;> simp [Exit.Keeps, Ending.direct]⟩

/-- **What leaving does**: it ends the generator after the step has ended, and waits for it otherwise. -/
theorem leave_cases (s : State α ε) (exit : Exit ε) :
    (s.look.isSome = true ∧ s.leave exit = { s with driver := .ended exit }) ∨
    (s.look = none ∧ s.leave exit = { s with driver := .stopping exit }) := by
  unfold State.leave
  cases hlook : s.look with
  | none => exact .inr ⟨rfl, rfl⟩
  | some ending => exact .inl ⟨rfl, rfl⟩

/-- Nothing has happened to a step at first. -/
theorem inv_init (natural : Ending α ε) : Inv natural (machine natural).init where
  running _ := rfl
  finished _ h := nomatch h
  bySelf _ _ h := nomatch h
  sweeping h := nomatch h
  stopping _ h := nomatch h

/-- The invariant of a generator that moves on without ending. -/
theorem Inv.move {natural : Ending α ε} {s : State α ε} (h : Inv natural s) (hopen : ∀ exit, s.driver ≠ .ended exit)
    (driver : Driver ε) (hsweeping : driver = .sweeping → s.look.isSome = true)
    (hstopping : ∀ exit, driver = .stopping exit → s.look = none) : Inv natural { s with driver := driver } where
  running := h.running
  finished := h.finished
  bySelf _ := h.bySelf hopen
  sweeping := hsweeping
  stopping := hstopping

/-- The invariant of a generator that leaves. -/
theorem Inv.leave {natural : Ending α ε} {s : State α ε} (h : Inv natural s) (hopen : ∀ exit, s.driver ≠ .ended exit)
    (exit : Exit ε) : Inv natural (s.leave exit) := by
  rcases leave_cases s exit with ⟨-, heq⟩ | ⟨hlook, heq⟩
  · rw [heq]
    exact h.move hopen _ (fun h => nomatch h) fun _ h => nomatch h
  · rw [heq]
    exact h.move hopen _ (fun h => nomatch h) fun _ _ => hlook

/-- A generator that may end has not ended. -/
theorem not_ended_of_mayEnd {driver : Driver ε} {exit : Exit ε} (h : driver.mayEnd exit = true) (other : Exit ε) :
    driver ≠ .ended other := by
  rintro rfl
  cases h

/-- **Every step keeps the invariant.** -/
theorem inv_step {natural : Ending α ε} {s s' : State α ε} {action : Action α ε} (h : Inv natural s)
    (hstep : step natural s action = some s') : Inv natural s' := by
  cases action with
  | stepEnds =>
    have hends : s.look = none → (s.driver = .waiting ∨ s.driver = .flushing) → Inv natural (s.finish natural) := by
      intro hlook hdriver
      exact
        { running := fun hnone => nomatch hnone
          finished := fun ending heq => by
            cases heq
            show s.slot.settle natural = _
            rw [h.running hlook]
          bySelf := fun _ ending heq => (Option.some.inj heq).symm
          sweeping := fun _ => rfl
          stopping := fun exit hstopping => by
            rcases hdriver with hdriver | hdriver <;> exact nomatch hdriver.symm.trans hstopping }
    simp only [step] at hstep
    split at hstep
    · next hlook hdriver => exact Option.some.inj hstep ▸ hends hlook (.inl hdriver)
    · next hlook hdriver => exact Option.some.inj hstep ▸ hends hlook (.inr hdriver)
    · cases hstep
  | tick =>
    simp only [step] at hstep
    split at hstep
    · next hdriver =>
      cases hstep
      exact h.move (by rw [hdriver]; exact fun _ => nofun) _ (fun h => nomatch h) fun _ h => nomatch h
    · cases hstep
  | flushed =>
    simp only [step] at hstep
    split at hstep
    · next hdriver =>
      cases hstep
      refine h.move (by rw [hdriver]; exact fun _ => nofun) _ (fun hsweeping => ?_) fun exit hstopping => ?_
      · by_contra hlook
        rw [if_neg hlook] at hsweeping
        cases hsweeping
      · split at hstopping <;> cases hstopping
    · cases hstep
  | swept =>
    simp only [step] at hstep
    split at hstep
    · next hdriver =>
      cases hstep
      exact h.leave (by rw [hdriver]; exact fun _ => nofun) .exhausted
    · cases hstep
  | interrupted exit =>
    simp only [step] at hstep
    split at hstep
    · next hmay =>
      cases hstep
      exact h.leave (not_ended_of_mayEnd hmay) exit
    · cases hstep
  | stopped ending =>
    simp only [step] at hstep
    split at hstep
    · next exit hdriver =>
      cases hstep
      exact
        { running := fun hnone => nomatch hnone
          finished := fun ending' heq => by
            cases heq
            show s.slot.settle ending = _
            rw [h.running (h.stopping exit hdriver)]
          bySelf := fun hopen => absurd rfl (hopen exit)
          sweeping := fun _ => rfl
          stopping := fun _ hstopping => nomatch hstopping }
    · cases hstep

/-- What the caller gets when the generator leaves a step that has ended by itself. -/
theorem leave_outcome_iff {natural : Ending α ε} {s : State α ε} {exit : Exit ε} {outcome : Outcome α ε}
    (h : Inv natural s) (hopen : ∀ exit, s.driver ≠ .ended exit) (houtcome : (s.leave exit).outcome? = some outcome) :
    s.look.isSome = true ∧ (outcome = natural.direct ↔ exit.Keeps natural natural) := by
  rcases leave_cases s exit with ⟨hlook, heq⟩ | ⟨-, heq⟩
  · obtain ⟨ending, hending⟩ := Option.isSome_iff_exists.mp hlook
    obtain rfl := h.bySelf hopen ending hending
    have hdriver : (s.leave exit).driver = .ended exit := by rw [heq]
    have hslot : (s.leave exit).slot = WorkSlot.empty.settle ending := by
      rw [heq]
      exact h.finished ending hending
    obtain ⟨outcome', hsome, hiff⟩ := outcome_iff ending hdriver hslot
    rw [houtcome] at hsome
    cases hsome
    exact ⟨hlook, hiff⟩
  · rw [heq] at houtcome
    cases houtcome

/-- There is an outcome when the generator has ended. -/
theorem ended_of_outcome {s : State α ε} {outcome : Outcome α ε} (h : s.outcome? = some outcome) :
    ∃ exit, s.driver = .ended exit := by
  unfold State.outcome? at h
  split at h
  · exact ⟨_, ‹_›⟩
  · exact ⟨_, ‹_›⟩
  · exact ⟨_, ‹_›⟩
  · exact ⟨_, ‹_›⟩
  · cases h

/-- **The step that ends the generator keeps the outcome** exactly where it does not lose it. -/
theorem outcome_step_iff {natural : Ending α ε} {s s' : State α ε} {action : Action α ε} {outcome : Outcome α ε}
    (h : Inv natural s) (hstep : step natural s action = some s') (houtcome : s'.outcome? = some outcome) :
    outcome = natural.direct ↔ KeepsOutcome natural s action := by
  obtain ⟨last, hlast⟩ := ended_of_outcome houtcome
  cases action with
  | stepEnds =>
    simp only [step] at hstep
    split at hstep
    · next hdriver =>
      cases hstep
      exact nomatch hdriver.symm.trans hlast
    · next hdriver =>
      cases hstep
      exact nomatch hdriver.symm.trans hlast
    · cases hstep
  | tick =>
    simp only [step] at hstep
    split at hstep
    · cases hstep
      cases hlast
    · cases hstep
  | flushed =>
    simp only [step] at hstep
    split at hstep
    · cases hstep
      dsimp only at hlast
      split at hlast <;> cases hlast
    · cases hstep
  | swept =>
    simp only [step] at hstep
    split at hstep
    · next hdriver =>
      cases hstep
      have hleave := leave_outcome_iff h (by rw [hdriver]; exact fun _ => nofun) houtcome
      exact hleave.2.trans ⟨fun hkeeps => hkeeps.1, fun hkeeps => ⟨hkeeps, rfl⟩⟩
    · cases hstep
  | interrupted exit =>
    simp only [step] at hstep
    split at hstep
    · next hmay =>
      cases hstep
      have hleave := leave_outcome_iff h (not_ended_of_mayEnd hmay) houtcome
      exact hleave.2.trans ⟨fun hkeeps _ => hkeeps, fun hkeeps => hkeeps hleave.1⟩
    · cases hstep
  | stopped ending =>
    simp only [step] at hstep
    split at hstep
    · next exit hdriver =>
      cases hstep
      have hslot : s.slot.settle ending = WorkSlot.empty.settle ending := by rw [h.running (h.stopping exit hdriver)]
      obtain ⟨outcome', hsome, hiff⟩ := outcome_iff natural
        (show ({ s.finish ending with driver := .ended exit } : State α ε).driver = .ended exit from rfl) hslot
      rw [houtcome] at hsome
      cases hsome
      unfold KeepsOutcome
      rw [hdriver]
      exact hiff
    · cases hstep

/-- **Narrated steps keep their outcome** without narration always, and with narration exactly where no step loses it:
the step was not cancelled inside, and the generator runs to its end, or is closed after the step has ended, or raises
what the step raises. -/
theorem narrated_outcome_iff (natural : Ending α ε) :
    narrateOff natural = natural.direct ∧
    (∀ s outcome, Machine.Reach (machine natural) (KeepsOutcome natural) s → s.outcome? = some outcome →
      outcome = natural.direct) ∧
    ∀ s s' action outcome, Machine.Reach (machine natural) Machine.free s → step natural s action = some s' →
      s'.outcome? = some outcome → (outcome = natural.direct ↔ KeepsOutcome natural s action) := by
  have hinv : ∀ {G : State α ε → Action α ε → Prop} {s}, Machine.Reach (machine natural) G s → Inv natural s :=
    fun hreach => hreach.invariant (inv_init natural) fun h _ hstep => inv_step h hstep
  refine ⟨?_, ?_, ?_⟩
  · cases natural <;> rfl
  · intro s outcome hreach houtcome
    cases hreach with
    | init => cases houtcome
    | step hbefore hguard hstep => exact (outcome_step_iff (hinv hbefore) hstep houtcome).mpr hguard
  · exact fun s s' action outcome hreach hstep houtcome => outcome_step_iff (hinv hreach) hstep houtcome

/-- **A cancelled step gives a missing value** with narration. -/
theorem narrated_outcome_missing :
    ∃ s, Machine.Reach (machine (Ending.cancelled : Ending Nat String)) Machine.free s ∧
      s.outcome? = some (.returned none) ∧ s.outcome? ≠ some (Ending.cancelled : Ending Nat String).direct := by
  refine ⟨_, Machine.reach_after [.stepEnds, .tick, .flushed, .swept] (by decide), by decide, by decide⟩

end Narration
