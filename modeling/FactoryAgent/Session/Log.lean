import Mathlib.Data.List.Chain
import FactoryAgent.Session.Emission

/-!
# The log of an interaction in order

What the event log of one run is meant to look like: the events are numbered `1..n`, one of them is
terminal and it is the last, the frames of the transcript number themselves and stop before the
outcome, and every change of state is a legal transition (`InteractionStore.Disciplined`,
`InteractionStore.Ended`). Frames and announced states are followed event by event, so each part has a
lemma about a log with more events.
-/

namespace SessionEvent

/-- A frame of the transcript. -/
def isThinking (event : SessionEvent) : Bool := decide (event.name = .thinking)

/-- The result and the terminal events. -/
def isOutcome (event : SessionEvent) : Bool :=
  decide (event.name = .result) || event.name.isTerminal

/-- The end marker of the transcript. -/
def isDone (event : SessionEvent) : Bool :=
  decide (event.data.lookup "done" = some (.flag true))

end SessionEvent

/-- **The frames of a log number themselves** `1..count`, and only the last can be the end marker. -/
structure Framed (rows : List SessionEvent) (count : Nat) : Prop where
  numbered : (rows.filter (·.isThinking)).map (·.data.lookup "seq")
    = (List.range' 1 count).map (fun n => some (.number n))
  doneLast : (rows.filter (·.isThinking)).Pairwise (fun frame _ => frame.isDone = false)

/-- **The states that the phase events announce** are reached from `PARSING` by legal transitions, one
after the other, and the last of them is the given one. -/
inductive Announces : List SessionEvent → SessionState → Prop where
  | parsing : Announces [] .parsing
  | phase {rows : List SessionEvent} {source target : SessionState} {event : SessionEvent} :
      Announces rows source → event.name = .phase →
      event.data.lookup "state" = some (.text target.value) → source.canTransition target = true →
      Announces (rows ++ [event]) target
  | other {rows : List SessionEvent} {state : SessionState} {event : SessionEvent} :
      Announces rows state → event.name ≠ .phase → Announces (rows ++ [event]) state

/-- **The discipline of the log**, at any moment of a run. -/
structure InteractionStore.Disciplined (store : InteractionStore) : Prop where
  /-- The events are numbered `1..n`. -/
  contiguous : store.events.rows.map (·.sequence) = List.range' 1 store.events.rows.length
  /-- The watermark of the row is `n`. -/
  watermark : ∀ row ∈ store.interaction, row.lastEventSequence = store.events.rows.length
  /-- Nothing follows a terminal event. -/
  terminalLast : store.events.rows.Pairwise (fun event _ => event.name.isTerminal = false)
  /-- No frame follows the result or a terminal event. -/
  framesFirst : store.events.rows.Pairwise
    (fun event later => event.isOutcome = true → later.isThinking = false)
  /-- The frames number themselves. -/
  frames : ∃ count, Framed store.events.rows count
  /-- The row is in the state announced last, or a legal transition ahead of it. -/
  legal : ∀ row ∈ store.interaction, ∃ state, Announces store.events.rows state
    ∧ (row.state = state ∨ state.canTransition row.state = true)

/-- **The log ended**: exactly one of its events is terminal, and it is the last. -/
def InteractionStore.Ended (store : InteractionStore) : Prop :=
  ∃ events terminal, store.events.rows = events ++ [terminal] ∧ terminal.name.isTerminal = true
    ∧ ∀ event ∈ events, event.name.isTerminal = false

/-! ## Longer logs -/

variable {rows events : List SessionEvent} {count : Nat} {state : SessionState}

/-- Other events leave the frames as they are. -/
theorem Framed.append (h : Framed rows count) (hevents : ∀ event ∈ events, event.isThinking = false) :
    Framed (rows ++ events) count := by
  have hnone : events.filter (·.isThinking) = [] :=
    List.filter_eq_nil_iff.mpr (fun event he => by simp [hevents event he])
  have hsame : (rows ++ events).filter (·.isThinking) = rows.filter (·.isThinking) := by
    rw [List.filter_append, hnone, List.append_nil]
  exact ⟨hsame ▸ h.numbered, hsame ▸ h.doneLast⟩

/-- One more frame takes the next number, where no frame was the end marker. -/
theorem Framed.frame {event : SessionEvent} (h : Framed rows count)
    (hundone : ∀ row ∈ rows, row.isThinking = true → row.isDone = false)
    (hthinking : event.isThinking = true)
    (hseq : event.data.lookup "seq" = some (.number (count + 1 : Nat))) :
    Framed (rows ++ [event]) (count + 1) := by
  have hmore : (rows ++ [event]).filter (·.isThinking) = rows.filter (·.isThinking) ++ [event] := by
    rw [List.filter_append, List.filter_cons_of_pos hthinking, List.filter_nil]
  refine ⟨?_, ?_⟩
  · rw [hmore, List.map_append, h.numbered, List.range'_concat, List.map_append]
    simp [hseq, Nat.add_comm]
  · rw [hmore, List.pairwise_append]
    refine ⟨h.doneLast, List.pairwise_singleton _ _, fun row hrow _ _ => ?_⟩
    obtain ⟨hmem, hframe⟩ := List.mem_filter.mp hrow
    exact hundone row hmem hframe

/-- Other events announce nothing. -/
theorem Announces.append (h : Announces rows state) (hevents : ∀ event ∈ events, event.name ≠ .phase) :
    Announces (rows ++ events) state := by
  induction events generalizing rows with
  | nil => rwa [List.append_nil]
  | cons event events ih =>
    rw [List.append_cons]
    exact ih (h.other (hevents event List.mem_cons_self))
      (fun e he => hevents e (List.mem_cons_of_mem event he))

/-- A legal transition goes through. -/
theorem InteractionRecord.advance_of_canTransition (record : InteractionRecord)
    {target : SessionState} (h : record.state.canTransition target = true) (reason : String)
    (now : Instant) : record.advance target reason now = some { record with state := target } := by
  unfold advance SessionStateMachine.transitionTo
  dsimp only
  rw [if_pos h]

/-- **The events of transitions announce them**, and legal transitions all go through. -/
theorem RunState.phaseEvents_announces (run : RunState) (reading : Reading)
    {transitions : List (SessionState × String)}
    (hlegal : (run.record.state :: transitions.map (·.1)).IsChain
      (fun source target => source.canTransition target = true))
    (hrows : Announces rows run.record.state) :
    ∃ events run', run.phaseEvents reading transitions = .ok (events, run')
      ∧ run'.record.state = (transitions.map (·.1)).getLastD run.record.state
      ∧ Announces (rows ++ events) run'.record.state := by
  induction transitions generalizing run rows with
  | nil => exact ⟨[], run, rfl, rfl, by rwa [List.append_nil]⟩
  | cons transition transitions ih =>
    obtain ⟨target, reason⟩ := transition
    obtain ⟨hfirst, hrest⟩ := List.isChain_cons_cons.mp hlegal
    have hadvance := run.record.advance_of_canTransition hfirst reason reading.now
    let step := run.stageEventUncommitted .phase
      [("state", .text target.value), ("reason", .text reason),
       ("stage", .text target.stageLabel), ("status", .text "ok")]
      { run.record with state := target } reading
    have hstep : Announces (rows ++ [step.1]) step.2.record.state :=
      hrows.phase rfl rfl hfirst
    obtain ⟨events, run', hevents, hstate, hannounces⟩ := ih step.2 hrest hstep
    refine ⟨step.1 :: events, run', ?_, ?_, ?_⟩
    · rw [phaseEvents, hadvance]
      dsimp only
      rw [hevents]
    · rw [List.map_cons, List.getLastD_cons]
      exact hstate
    · rw [List.append_cons]
      exact hannounces
