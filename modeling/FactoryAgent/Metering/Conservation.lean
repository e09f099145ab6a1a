import FactoryAgent.Metering.Interaction

/-!
# Which metered calls are delivered

A recorded call is pending until a commit drains it. It is then delivered if the commit is successful,
and lost if the commit raises, because what was drained is nowhere else; and it is lost if the context
is closed while it is pending. A lost call stays lost. So the calls of an interaction are all
delivered, each once, exactly if no step of the run loses a pending call (`MeteredInteraction.Lossless`).
`start` closes its context without a commit, so it loses every call that `authorize` made.
-/

namespace MeteredInteraction

/-- Whether a move of the run makes a commit. -/
def commits (thinkingEnabled : Bool) (s : MeteredInteraction) (move : Move) (now : Instant)
    (elapsedMs : Nat) : Bool :=
  match s.phase with
  | .running executor =>
    (executor.perform move (s.reading now elapsedMs) thinkingEnabled).any (·.commit.isSome)
  | _ => false

/-- **A step that loses no pending call**: a context is closed with an empty buffer, and a commit that
raises had nothing to drain. -/
def Lossless (thinkingEnabled : Bool) (s : MeteredInteraction) : MeteredAction → Prop
  | .authorized _ | .close => s.vars.pending = []
  | .move move now elapsedMs false =>
    s.commits thinkingEnabled move now elapsedMs = true → s.vars.pending = []
  | _ => True

instance (thinkingEnabled : Bool) (s : MeteredInteraction) (action : MeteredAction) :
    Decidable (s.Lossless thinkingEnabled action) := by
  unfold Lossless
  split <;> infer_instance

/-- How often a call is pending or delivered. -/
def tally (s : MeteredInteraction) (event : UsageEvent) : Nat :=
  s.delivered.count event + s.vars.pending.count event

/-- **Each recorded call is in the usage events of one successful commit, once.** -/
def Conserved (s : MeteredInteraction) : Prop :=
  ∀ event ∈ s.recorded, s.delivered.count event = 1

instance (s : MeteredInteraction) : Decidable s.Conserved := by
  unfold Conserved
  infer_instance

/-! ## What one step does to the calls -/

/-- **The effect of a step** on the recorded, the pending and the delivered calls. -/
inductive MeterEffect (s s' : MeteredInteraction) (lossless : Prop) : Prop where
  /-- Nothing, or a delivery of events of other kinds. -/
  | quiet (own : List UsageEvent) (hown : ∀ event ∈ own, event.eventType ≠ .mesCallCompleted)
      (hrecorded : s'.recorded = s.recorded) (hdelivered : s'.delivered = s.delivered ++ own)
      (hpending : s'.vars.pending = s.vars.pending) (hnext : s.nextId ≤ s'.nextId)
      (hlossless : lossless)
  /-- A new call is recorded. -/
  | recorded (event : UsageEvent) (hid : event.eventId = s.nextId)
      (htype : event.eventType = .mesCallCompleted)
      (hrecorded : s'.recorded = s.recorded ++ [event]) (hdelivered : s'.delivered = s.delivered)
      (hpending : s'.vars.pending = s.vars.pending ++ [event]) (hnext : s'.nextId = s.nextId + 1)
      (hlossless : lossless)
  /-- The pending calls are delivered. -/
  | delivered (own : List UsageEvent)
      (hown : ∀ event ∈ own, event.eventType ≠ .mesCallCompleted)
      (hrecorded : s'.recorded = s.recorded)
      (hdelivered : s'.delivered = s.delivered ++ (own ++ s.vars.pending))
      (hpending : s'.vars.pending = []) (hnext : s.nextId ≤ s'.nextId) (hlossless : lossless)
  /-- The pending calls are lost. -/
  | dropped (hrecorded : s'.recorded = s.recorded) (hdelivered : s'.delivered = s.delivered)
      (hpending : s'.vars.pending = []) (hnext : s.nextId ≤ s'.nextId)
      (hlossless : lossless ↔ s.vars.pending = [])

/-- **A metered interaction in order**: the run's own list holds no MES call, and nothing is pending
where no context is open. -/
structure InOrder (s : MeteredInteraction) : Prop where
  own : ∀ executor, s.phase = .running executor → executor.run.OwnEvents
  closed : s.phase.isOpen = false → s.vars.pending = []

variable {thinkingEnabled : Bool} {s s' : MeteredInteraction}

/-- A running interaction is in order if the run's own list is. -/
theorem InOrder.running {executor : Executor} {vars : UsageVars} {recorded : List UsageEvent}
    {committed : List InteractionCommit} {nextId : Nat} (hown : executor.run.OwnEvents) :
    InOrder ⟨.running executor, vars, recorded, committed, nextId⟩ where
  own := fun _ he => by
    cases he
    exact hown
  closed := fun ho => nomatch ho

/-- Calls are made under an open context. -/
theorem isOpen_of_calls (h : s.calls = true) : s.phase.isOpen = true := by
  unfold calls at h
  split at h
  · rename_i hphase
    rw [hphase]
    rfl
  · rename_i hphase
    rw [hphase]
    rfl
  · cases h

theorem move_effect {m : Move} {now : Instant} {elapsedMs : Nat} {stored : Bool}
    (hs : s.InOrder) (h : s.move thinkingEnabled m now elapsedMs stored = some s') :
    s'.InOrder ∧ s.MeterEffect s' (s.Lossless thinkingEnabled (.move m now elapsedMs stored)) := by
  unfold move at h
  split at h
  · rename_i executor hphase
    split at h
    · rename_i hmove
      obtain ⟨performed, hperformed, heq⟩ := Option.map_eq_some_iff.mp h
      obtain ⟨hstored, hrefused, hcommit⟩ :=
        Executor.perform_delivers (hs.own executor hphase) hmove hperformed
      cases hc : performed.commit with
      | none =>
        rw [hc] at heq
        cases heq
        refine ⟨.running hstored, .quiet [] (by simp) rfl (by simp [delivered]) rfl (Nat.le_refl _)
          ?_⟩
        cases stored with
        | true => trivial
        | false =>
          intro hcommits
          simp [commits, hphase, hperformed, hc] at hcommits
      | some c =>
        rw [hc] at heq
        cases heq
        obtain ⟨own, hevents, hother⟩ := hcommit c hc
        cases stored with
        | true =>
          refine ⟨.running hstored, .delivered own hother rfl ?_ (UsageVars.pending_drained _)
            (Nat.le_add_right _ _) trivial⟩
          simp [delivered, hevents, reading]
        | false =>
          refine ⟨.running hrefused, .dropped rfl rfl (UsageVars.pending_drained _)
            (Nat.le_add_right _ _) ⟨fun hlossless => ?_, fun hempty _ => hempty⟩⟩
          exact hlossless (by simp [commits, hphase, hperformed, hc])
    · cases h
  · cases h

/-- The commit of `start` carries no MES call. -/
theorem own_of_question (question : Question) (now : Instant) (nextId : Nat) :
    ∀ event ∈ (question.commit now nextId).usageEvents, event.eventType ≠ .mesCallCompleted := by
  simp [Question.commit, interactionStartedEvent, UsageContext.wrap]

/-- **Every step has an effect**, and it is lossless unless pending calls are lost. -/
theorem step_effect {action : MeteredAction} (hs : s.InOrder)
    (h : s.step thinkingEnabled action = some s') :
    s'.InOrder ∧ s.MeterEffect s' (s.Lossless thinkingEnabled action) := by
  cases action with
  | start question =>
    simp only [step, start] at h
    split at h
    · rename_i hphase
      have hpending := hs.closed (by rw [hphase]; rfl)
      cases h
      exact ⟨⟨fun _ he => (nomatch he), fun ho => (nomatch ho)⟩,
        .quiet [] (by simp) rfl (by simp [delivered]) hpending.symm (Nat.le_add_right _ _) trivial⟩
    · cases h
  | call record now =>
    simp only [step, call] at h
    split at h
    · rename_i context hcontext hcalls
      rw [Bool.and_eq_true] at hcalls
      have hopen : s.vars.mesEvents.isSome = true := ((Bool.and_eq_true _ _).mp hcalls.2).2
      cases h
      refine ⟨⟨hs.own, fun ho => ?_⟩, .recorded _ rfl rfl rfl rfl
        (UsageVars.pending_recordMesCall hcontext hopen _ _ _) rfl trivial⟩
      rw [isOpen_of_calls hcalls.1] at ho
      cases ho
    · cases h
  | authorized granted =>
    simp only [step, authorized] at h
    split at h
    · cases h
      refine ⟨⟨fun _ he => ?_, fun _ => rfl⟩, .dropped rfl rfl rfl (Nat.le_refl _) Iff.rfl⟩
      cases granted <;> cases he
    · cases h
  | accept now stored =>
    simp only [step, accept] at h
    split at h
    · rename_i question firstId hphase
      have hpending := hs.closed (by rw [hphase]; rfl)
      cases stored <;> cases h
      · exact ⟨⟨fun _ he => (nomatch he), fun _ => hpending⟩,
          .quiet [] (by simp) rfl (by simp [delivered]) rfl (Nat.le_refl _) trivial⟩
      · exact ⟨⟨fun _ he => (nomatch he), fun _ => hpending⟩,
          .quiet _ (own_of_question question now firstId) rfl (by simp [delivered]) rfl
            (Nat.le_refl _) trivial⟩
    · cases h
  | claim claimed =>
    simp only [step, claim] at h
    split at h
    · rename_i hphase
      have hpending := hs.closed (by rw [hphase]; rfl)
      cases h
      exact ⟨.running (fun _ he => absurd he List.not_mem_nil),
        .quiet [] (by simp) rfl (by simp [delivered]) hpending.symm (Nat.le_add_right _ _) trivial⟩
    · cases h
  | move m now elapsedMs stored => exact move_effect hs h
  | cancelled =>
    simp only [step, cancelled] at h
    split at h
    · rename_i executor hphase
      cases h
      exact ⟨.running (hs.own executor hphase),
        .quiet [] (by simp) rfl (by simp [delivered]) rfl (Nat.le_refl _) trivial⟩
    · cases h
  | close =>
    simp only [step, close] at h
    split at h
    · split at h
      · cases h
        exact ⟨⟨fun _ he => (nomatch he), fun _ => rfl⟩,
          .dropped rfl rfl rfl (Nat.le_refl _) Iff.rfl⟩
      · cases h
    · cases h

/-! ## Counting the calls -/

/-- **The calls are tracked**: what is pending or delivered was recorded, and no more than once; and
the identifiers of the recorded calls are used. -/
structure Tracked (s : MeteredInteraction) : Prop where
  inOrder : s.InOrder
  fresh : ∀ event ∈ s.recorded, event.eventType = .mesCallCompleted ∧ event.eventId < s.nextId
  pending : ∀ event ∈ s.vars.pending, event ∈ s.recorded
  delivered : ∀ event ∈ s.delivered, event.eventType = .mesCallCompleted → event ∈ s.recorded
  once : ∀ event ∈ s.recorded, s.tally event ≤ 1

/-- A call is not among events of other kinds. -/
theorem count_own {own : List UsageEvent}
    (hown : ∀ event ∈ own, event.eventType ≠ .mesCallCompleted) {event : UsageEvent}
    (htype : event.eventType = .mesCallCompleted) : own.count event = 0 :=
  List.count_eq_zero.mpr (fun h => hown event h htype)

/-- **The tally of a recorded call** only changes where it is lost. -/
theorem tally_of_effect {lossless : Prop} (hs : s.Tracked) (heffect : s.MeterEffect s' lossless)
    {event : UsageEvent} (hevent : event ∈ s.recorded) :
    (lossless → s'.tally event = s.tally event) ∧ s'.tally event ≤ s.tally event := by
  obtain ⟨htype, hid⟩ := hs.fresh event hevent
  cases heffect with
  | quiet own hown hrecorded hdelivered hpending hnext hlossless =>
    have heq : s'.tally event = s.tally event := by
      simp [tally, hdelivered, hpending, count_own hown htype]
    exact ⟨fun _ => heq, Nat.le_of_eq heq⟩
  | recorded new hnew _ hrecorded hdelivered hpending hnext hlossless =>
    have hne : new ≠ event := fun he => by
      rw [he] at hnew
      omega
    have heq : s'.tally event = s.tally event := by
      simp [tally, hdelivered, hpending, hne]
    exact ⟨fun _ => heq, Nat.le_of_eq heq⟩
  | delivered own hown hrecorded hdelivered hpending hnext hlossless =>
    have heq : s'.tally event = s.tally event := by
      simp [tally, hdelivered, hpending, count_own hown htype]
    exact ⟨fun _ => heq, Nat.le_of_eq heq⟩
  | dropped hrecorded hdelivered hpending hnext hlossless =>
    refine ⟨fun h => ?_, ?_⟩
    · simp [tally, hdelivered, hpending, hlossless.mp h]
    · simp [tally, hdelivered, hpending]

/-- Recorded calls stay recorded. -/
theorem recorded_of_effect {lossless : Prop} (heffect : s.MeterEffect s' lossless)
    {event : UsageEvent} (hevent : event ∈ s.recorded) : event ∈ s'.recorded := by
  cases heffect with
  | quiet own hown hrecorded hdelivered hpending hnext hlossless => exact hrecorded ▸ hevent
  | recorded new hnew _ hrecorded hdelivered hpending hnext hlossless =>
    exact hrecorded ▸ List.mem_append_left _ hevent
  | delivered own hown hrecorded hdelivered hpending hnext hlossless => exact hrecorded ▸ hevent
  | dropped hrecorded hdelivered hpending hnext hlossless => exact hrecorded ▸ hevent

/-- A call that is not recorded yet is neither pending nor delivered. -/
theorem Tracked.tally_eq_zero (hs : s.Tracked) {event : UsageEvent}
    (htype : event.eventType = .mesCallCompleted) (hnew : event ∉ s.recorded) :
    s.tally event = 0 := by
  have hdelivered : s.delivered.count event = 0 :=
    List.count_eq_zero.mpr (fun h => hnew (hs.delivered event h htype))
  have hpending : s.vars.pending.count event = 0 :=
    List.count_eq_zero.mpr (fun h => hnew (hs.pending event h))
  rw [tally, hdelivered, hpending]

/-- **Every step keeps the calls tracked.** -/
theorem Tracked.of_effect {lossless : Prop} (hs : s.Tracked) (hs' : s'.InOrder)
    (heffect : s.MeterEffect s' lossless) : s'.Tracked := by
  have hold : ∀ event ∈ s.recorded, s'.tally event ≤ 1 := fun event hevent =>
    Nat.le_trans (tally_of_effect hs heffect hevent).2 (hs.once event hevent)
  have hkept : ∀ event ∈ s.recorded, event ∈ s'.recorded :=
    fun event hevent => recorded_of_effect heffect hevent
  cases heffect with
  | quiet own hown hrecorded hdelivered hpending hnext hlossless =>
    refine ⟨hs', fun e he => ?_, fun e he => ?_, fun e he htype => ?_, fun e he => ?_⟩
    · obtain ⟨htype, hid⟩ := hs.fresh e (hrecorded ▸ he)
      exact ⟨htype, Nat.lt_of_lt_of_le hid hnext⟩
    · exact hkept e (hs.pending e (hpending ▸ he))
    · rcases List.mem_append.mp (hdelivered ▸ he) with he | he
      · exact hkept e (hs.delivered e he htype)
      · exact absurd htype (hown e he)
    · exact hold e (hrecorded ▸ he)
  | recorded new hnew hnewType hrecorded hdelivered hpending hnext hlossless =>
    have hunrecorded : new ∉ s.recorded := fun h => by
      have hid := (hs.fresh new h).2
      omega
    refine ⟨hs', fun e he => ?_, fun e he => ?_, fun e he htype => ?_, fun e he => ?_⟩
    · rcases List.mem_append.mp (hrecorded ▸ he) with he | he
      · obtain ⟨htype, hid⟩ := hs.fresh e he
        exact ⟨htype, by omega⟩
      · rw [List.mem_singleton.mp he]
        exact ⟨hnewType, by omega⟩
    · rcases List.mem_append.mp (hpending ▸ he) with he | he
      · exact hkept e (hs.pending e he)
      · rw [hrecorded]
        exact List.mem_append_right _ he
    · exact hkept e (hs.delivered e (hdelivered ▸ he) htype)
    · rcases List.mem_append.mp (hrecorded ▸ he) with he | he
      · exact hold e he
      · rw [List.mem_singleton.mp he]
        have hzero := hs.tally_eq_zero hnewType hunrecorded
        simp only [tally] at hzero
        simp [tally, hdelivered, hpending]
        omega
  | delivered own hown hrecorded hdelivered hpending hnext hlossless =>
    refine ⟨hs', fun e he => ?_, fun e he => ?_, fun e he htype => ?_, fun e he => ?_⟩
    · obtain ⟨htype, hid⟩ := hs.fresh e (hrecorded ▸ he)
      exact ⟨htype, Nat.lt_of_lt_of_le hid hnext⟩
    · simp [hpending] at he
    · rcases List.mem_append.mp (hdelivered ▸ he) with he | he
      · exact hkept e (hs.delivered e he htype)
      · rcases List.mem_append.mp he with he | he
        · exact absurd htype (hown e he)
        · exact hkept e (hs.pending e he)
    · exact hold e (hrecorded ▸ he)
  | dropped hrecorded hdelivered hpending hnext hlossless =>
    refine ⟨hs', fun e he => ?_, fun e he => ?_, fun e he htype => ?_, fun e he => ?_⟩
    · obtain ⟨htype, hid⟩ := hs.fresh e (hrecorded ▸ he)
      exact ⟨htype, Nat.lt_of_lt_of_le hid hnext⟩
    · simp [hpending] at he
    · exact hkept e (hs.delivered e (hdelivered ▸ he) htype)
    · exact hold e (hrecorded ▸ he)

theorem tracked_initial : initial.Tracked where
  inOrder := ⟨fun _ h => (nomatch h), fun _ => rfl⟩
  fresh := fun _ h => absurd h List.not_mem_nil
  pending := fun _ h => absurd h List.not_mem_nil
  delivered := fun _ h => absurd h List.not_mem_nil
  once := fun _ h => absurd h List.not_mem_nil

/-! ## Whole runs -/

/-- Every recorded call is pending or delivered. -/
def Balanced (s : MeteredInteraction) : Prop := ∀ event ∈ s.recorded, s.tally event = 1

/-- A recorded call is neither pending nor delivered. -/
def Lost (s : MeteredInteraction) (event : UsageEvent) : Prop :=
  event ∈ s.recorded ∧ s.tally event = 0

/-- **A lossless step keeps the calls balanced.** -/
theorem Balanced.of_effect {lossless : Prop} (hs : s.Tracked) (hbalanced : s.Balanced)
    (heffect : s.MeterEffect s' lossless) (hlossless : lossless) : s'.Balanced := by
  intro event hevent
  by_cases hold : event ∈ s.recorded
  · rw [(tally_of_effect hs heffect hold).1 hlossless]
    exact hbalanced event hold
  · cases heffect with
    | quiet own hown hrecorded hdelivered hpending hnext hlossless =>
      exact absurd (hrecorded ▸ hevent) hold
    | recorded new hnew htype hrecorded hdelivered hpending hnext hlossless =>
      have heq : event = new := by
        rcases List.mem_append.mp (hrecorded ▸ hevent) with he | he
        · exact absurd he hold
        · exact List.mem_singleton.mp he
      subst heq
      have hzero := hs.tally_eq_zero htype hold
      simp only [tally] at hzero
      simp [tally, hdelivered, hpending]
      omega
    | delivered own hown hrecorded hdelivered hpending hnext hlossless =>
      exact absurd (hrecorded ▸ hevent) hold
    | dropped hrecorded hdelivered hpending hnext hlossless =>
      exact absurd (hrecorded ▸ hevent) hold

/-- **A step that is not lossless loses a call.** -/
theorem exists_lost {lossless : Prop} (hs : s.Tracked) (heffect : s.MeterEffect s' lossless)
    (hlossy : ¬ lossless) : ∃ event, s'.Lost event := by
  cases heffect with
  | quiet own hown hrecorded hdelivered hpending hnext hlossless => exact absurd hlossless hlossy
  | recorded new hnew htype hrecorded hdelivered hpending hnext hlossless =>
    exact absurd hlossless hlossy
  | delivered own hown hrecorded hdelivered hpending hnext hlossless =>
    exact absurd hlossless hlossy
  | dropped hrecorded hdelivered hpending hnext hlossless =>
    obtain ⟨event, hevent⟩ := List.exists_mem_of_ne_nil _ (fun h => hlossy (hlossless.mpr h))
    have honce := hs.once event (hs.pending event hevent)
    have hpos : 0 < s.vars.pending.count event := List.count_pos_iff.mpr hevent
    refine ⟨event, hrecorded ▸ hs.pending event hevent, ?_⟩
    unfold tally at honce
    have hzero : s.delivered.count event = 0 := by omega
    rw [tally, hdelivered, hpending, hzero, List.count_nil]

/-- **A lost call stays lost.** -/
theorem Lost.of_effect {lossless : Prop} {event : UsageEvent} (hs : s.Tracked)
    (hlost : s.Lost event) (heffect : s.MeterEffect s' lossless) : s'.Lost event := by
  refine ⟨recorded_of_effect heffect hlost.1, ?_⟩
  have hle := (tally_of_effect hs heffect hlost.1).2
  rw [hlost.2] at hle
  exact Nat.le_zero.mp hle

/-- What is lost at some state of a run is lost at its end. -/
theorem Lost.of_run {actions : List MeteredAction} {event : UsageEvent} (hs : s.Tracked)
    (hlost : s.Lost event)
    (h : (meteringMachine thinkingEnabled).run Machine.free s actions = some s') :
    s'.Lost event := by
  have hboth : s'.Tracked ∧ s'.Lost event :=
    Machine.Steps.invariant (I := fun t => t.Tracked ∧ t.Lost event)
      (fun {t u a} ht _ hstep => by
        obtain ⟨hinOrder, heffect⟩ := step_effect ht.1.inOrder hstep
        exact ⟨ht.1.of_effect hinOrder heffect, ht.2.of_effect ht.1 heffect⟩)
      ⟨hs, hlost⟩ (Machine.steps_of_run h)
  exact hboth.2

/-- **A run is lossless, or it ends with a lost call.** -/
theorem balanced_or_lost {actions : List MeteredAction} (hs : s.Tracked) (hbalanced : s.Balanced)
    (h : (meteringMachine thinkingEnabled).run Machine.free s actions = some s') :
    ((meteringMachine thinkingEnabled).run (Lossless thinkingEnabled) s actions = some s'
        ∧ s'.Balanced)
      ∨ ((meteringMachine thinkingEnabled).run (Lossless thinkingEnabled) s actions = none
        ∧ ∃ event, s'.Lost event) := by
  induction actions generalizing s with
  | nil =>
    cases h
    exact Or.inl ⟨rfl, hbalanced⟩
  | cons action actions ih =>
    rw [Machine.run, if_pos (show Machine.free s action from trivial)] at h
    obtain ⟨t, hstep, hrest⟩ := Option.bind_eq_some_iff.mp h
    obtain ⟨hinOrder, heffect⟩ := step_effect hs.inOrder hstep
    have ht : t.Tracked := hs.of_effect hinOrder heffect
    rw [Machine.run]
    by_cases hlossless : s.Lossless thinkingEnabled action
    · rw [if_pos hlossless, hstep]
      exact ih ht (hbalanced.of_effect hs heffect hlossless) hrest
    · rw [if_neg hlossless]
      obtain ⟨event, hlost⟩ := exists_lost hs heffect hlossless
      exact Or.inr ⟨rfl, event, hlost.of_run ht hrest⟩

/-- **The calls of an interaction are conserved exactly in the lossless runs.** Once no buffer is
open any more, each recorded call is in the usage events of one successful commit if and only if no
step lost a pending call: every context was closed with an empty buffer, and every commit that raised
had nothing to drain. -/
theorem conserved_iff_lossless {thinkingEnabled : Bool} {actions : List MeteredAction}
    {s : MeteredInteraction}
    (h : (meteringMachine thinkingEnabled).run Machine.free initial actions = some s)
    (hclosed : s.vars.mesEvents = none) :
    s.Conserved ↔
      ((meteringMachine thinkingEnabled).run (Lossless thinkingEnabled) initial actions).isSome
        = true := by
  have hempty : s.vars.pending = [] := by rw [UsageVars.pending, hclosed]; rfl
  rcases balanced_or_lost tracked_initial (fun _ hevent => absurd hevent List.not_mem_nil) h with
    ⟨hrun, hbalanced⟩ | ⟨hrun, event, hevent, hzero⟩
  · refine ⟨fun _ => by rw [hrun]; rfl, fun _ event hevent => ?_⟩
    have hone := hbalanced event hevent
    rwa [tally, hempty, List.count_nil, Nat.add_zero] at hone
  · refine ⟨fun hconserved => ?_, fun hsome => by rw [hrun] at hsome; cases hsome⟩
    have hone := hconserved event hevent
    rw [tally, hempty, List.count_nil, Nat.add_zero, hone] at hzero
    cases hzero

/-! ## Two runs -/

namespace Scenario

/-- A question, and the call of a directory lookup. -/
def question : Question := ⟨"i-1", "s-1", "t-1", "u-1", "employee", "本月产量", 0⟩

/-- A call of the adapter. -/
def lookup : MesCallRecord := ⟨"EmployeeQuery", 1, 1, 40, true, none, some 0, some 40⟩

/-- `start` authorizes the caller, with these calls in between, and commits. -/
def asks (calls : List MesCallRecord) : List MeteredAction :=
  [.start question] ++ calls.map (fun record => .call record 1)
    ++ [.authorized true, .accept 2 true]

/-- The run is claimed, makes a call while it parses, and answers. -/
def answers : List MeteredAction :=
  [.claim { question.record 2 with status := .running }, .move (.stopPoint none) 3 0 true,
   .move .started 3 0 true, .move (.stopPoint none) 3 0 true,
   .move (.announce "parse_started") 3 0 true, .call lookup 4,
   .move (.request (.chat "好的")) 5 0 true, .move .close 5 0 true, .move .finish 5 0 true,
   .move .history 5 0 true, .close]

/-- The metering after a list of actions. -/
def metered (actions : List MeteredAction) : MeteredInteraction :=
  (meteringMachine true).after actions

end Scenario

/-- The call of the run is delivered, once. -/
theorem conserved_iff_lossless_answers :
    (Scenario.metered (Scenario.asks [] ++ Scenario.answers)).Conserved := by
  have hrun := Machine.run_after (m := meteringMachine true)
    (Scenario.asks [] ++ Scenario.answers) (by decide)
  exact (conserved_iff_lossless hrun (by decide)).mpr (by decide)

/-- **A call of `authorize` in `start` is lost.** -/
theorem lookup_not_delivered :
    ¬ ∀ (actions : List MeteredAction) (s : MeteredInteraction),
      (meteringMachine true).run Machine.free initial actions = some s →
        s.vars.mesEvents = none → s.Conserved := by
  intro hall
  have hrun := Machine.run_after (m := meteringMachine true)
    (Scenario.asks [Scenario.lookup]) (by decide)
  have hconserved := hall _ _ hrun (by decide)
  exact absurd hconserved (by decide)

end MeteredInteraction
