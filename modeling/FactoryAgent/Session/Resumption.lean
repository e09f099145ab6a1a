import FactoryAgent.Lib.Increasing
import FactoryAgent.Session.Effect
import FactoryAgent.Session.Stream

/-!
# What a reconnecting client receives

A client has received the log up to the number it holds, and a connection serves it the log past that
number. That is an invariant of every interleaving as long as the log grows in order and the number
the client sends is one that the log has reached: each read of the store yields the entries past the
connection's number, each frame moves the number to the entry's own, and an entry that is committed
later has a greater number.

One frame breaks it. The follow-timeout frame is not stored but carries a number, the next one, and
the client sends that number when it connects again. The event that takes this number later is never
replayed to it (`event_missed`).
-/

/-! ## The log in order -/

namespace World

variable {thinkingEnabled : Bool} {key : String} {world world' : World} {action : SessionAction}

/-- The durable watermark, 0 before the question is stored. -/
def watermark (world : World) : Nat := (world.store.interaction.map (·.lastEventSequence)).getD 0

/-- **The commits of the executor are in order**: no sweep acts, and an accepted commit has a counter
that is not behind the watermark. -/
def InOrder (thinkingEnabled : Bool) (world : World) (action : SessionAction) : Prop :=
  action.isSweep = false ∧ ∀ attempt ∈ world.attempts thinkingEnabled action,
    ∀ row ∈ world.store.interaction, row.lastEventSequence ≤ attempt.1

instance : Decidable (world.InOrder thinkingEnabled action) := by
  unfold InOrder
  infer_instance

/-- **The log grew**: by events past the watermark, and the watermark did not move back. -/
structure Grown (before after : World) : Prop where
  rows : ∃ more, after.store.events.rows = before.store.events.rows ++ more
    ∧ ∀ event ∈ more, before.watermark < event.sequence
  watermark : before.watermark ≤ after.watermark
  stored : before.store.interaction.isSome = true → after.store.interaction.isSome = true

theorem Grown.of_events (hevents : world'.store.events = world.store.events)
    (hwatermark : world.watermark ≤ world'.watermark)
    (hstored : world.store.interaction.isSome = true → world'.store.interaction.isSome = true) :
    Grown world world' :=
  ⟨⟨[], by rw [hevents, List.append_nil], by simp⟩, hwatermark, hstored⟩

/-- A terminal row has a terminal event in its log. -/
def Concluded (world : World) : Prop :=
  ∀ row, world.store.interaction = some row → row.status.isTerminal = true →
    ∃ event ∈ world.store.events.rows, event.name.isTerminal = true

/-- **The invariant of a log in order.** -/
structure LogInOrder (world : World) : Prop where
  reaps : world.reaps = []
  bounded : world.Bounded
  concluded : world.Concluded

theorem watermark_of_row {row : InteractionRecord} (h : world.store.interaction = some row) :
    world.watermark = row.lastEventSequence := by
  rw [watermark, h]
  rfl

/-- **Every effect in order grows the log.** -/
theorem LogInOrder.of_effect (hstarted : world.Started key) (h : world.LogInOrder)
    (hguard : world.InOrder thinkingEnabled action)
    (heffect : Effect thinkingEnabled key world world' action) :
    world'.LogInOrder ∧ Grown world world' := by
  obtain ⟨row, hrow, -⟩ := hstarted.row
  cases heffect with
  | quiet hstore hexecutors hreaps =>
    refine ⟨⟨hreaps.trans h.reaps, by rw [Bounded, hstore]; exact h.bounded,
      by rw [Concluded, hstore]; exact h.concluded⟩, Grown.of_events (by rw [hstore]) ?_ ?_⟩
    · exact Nat.le_of_eq (by rw [watermark, watermark, hstore])
    · rw [hstore]
      exact id
  | @claimed now row' hrow' hpending hstore hexecutors hreaps =>
    refine ⟨⟨hreaps.trans h.reaps, fun r hr => ?_, fun r hr hterminal => ?_⟩,
      Grown.of_events (by rw [hstore]) ?_ ?_⟩
    · rw [hstore, Option.some.injEq] at hr
      rw [hstore, ← hr]
      exact h.bounded row' hrow'
    · rw [hstore, Option.some.injEq] at hr
      rw [← hr] at hterminal
      cases hterminal
    · rw [watermark_of_row hrow', watermark, hstore]
      exact Nat.le_refl _
    · rw [hstore]
      exact fun _ => rfl
  | stale hrow' hrunning hstore hexecutors hreaps => cases hguard.1
  | abandoned hrow' hpending hstore hexecutors hreaps => cases hguard.1
  | @wrote _ counter c hattempt happends hstore hexecutors hreaps =>
    have hcounter : row.lastEventSequence ≤ counter := hguard.2 _ hattempt row hrow
    have hevents := accepted_events h.bounded happends hrow hcounter hstore
    obtain ⟨row', hrow', hlast, hstatus⟩ := accepted_row hrow hstore
    have hwatermark := happends.watermark
    refine ⟨⟨hreaps.trans h.reaps, bounded_of_accepted h.bounded happends hrow hcounter hstore,
      fun r hr hterminal => ?_⟩, ⟨⟨c.events, hevents, fun event hevent => ?_⟩, ?_, ?_⟩⟩
    · -- a lifecycle commit with a terminal status brings its event, any other keeps the row's
      rw [hrow', Option.some.injEq] at hr
      rw [← hr, hstatus] at hterminal
      rw [hevents]
      by_cases hlifecycle : c.lifecycle = true
      · rw [if_pos hlifecycle] at hterminal
        have hcount := happends.terminals
        rw [if_pos ⟨hlifecycle, hterminal⟩] at hcount
        obtain ⟨event, hevent⟩ := List.length_eq_one_iff.mp hcount
        have hmem : event ∈ c.events.filter (·.name.isTerminal) := hevent ▸ List.mem_cons_self
        obtain ⟨hmem, hname⟩ := List.mem_filter.mp hmem
        exact ⟨event, List.mem_append_right _ hmem, hname⟩
      · rw [if_neg hlifecycle] at hterminal
        obtain ⟨event, hmem, hname⟩ := h.concluded row hrow hterminal
        exact ⟨event, List.mem_append_left _ hmem, hname⟩
    · rw [watermark_of_row hrow]
      exact Nat.lt_of_le_of_lt hcounter (events_le_watermark happends event hevent).1
    · rw [watermark_of_row hrow, watermark_of_row hrow']
      omega
    · rw [hrow']
      exact fun _ => rfl
  | reaped hreap hstore hexecutors hreaps => cases hguard.1
  | lost haction hstore hexecutors hreaps =>
    rcases haction with rfl | ⟨reading, rfl⟩ <;> cases hguard.1

/-- The interaction is not asked yet, or its log is in order. -/
def Serving (world : World) : Prop := world.Idle ∨ ∃ key, world.Started key ∧ world.LogInOrder

/-- **A step of another party in order grows the log.** -/
theorem Serving.step (h : world.Serving) (hguard : world.InOrder thinkingEnabled action)
    (hstep : world.step thinkingEnabled action = some world') :
    world'.Serving ∧ Grown world world' := by
  rcases h with hidle | ⟨key, hstarted, horder⟩
  · have hnone : world.watermark = 0 := by
      rw [watermark, hidle.row]
      rfl
    have hgrown : world'.store.events.rows = [] → Grown world world' := fun hrows =>
      ⟨⟨[], by rw [hrows, hidle.events]; rfl, by simp⟩, by rw [hnone]; exact Nat.zero_le _,
        by simp [hidle.row]⟩
    rcases step_idle hidle hstep with hidle' | ⟨question, now, -, hasked⟩
    · exact ⟨Or.inl hidle', hgrown hidle'.events⟩
    · refine ⟨Or.inr ⟨_, hasked.started, hasked.reaps, fun r hr event hevent => ?_,
        fun r hr hterminal => ?_⟩, hgrown hasked.events⟩
      · rw [hasked.events] at hevent
        cases hevent
      · rw [hasked.row, Option.some.injEq] at hr
        rw [← hr] at hterminal
        cases hterminal
  · obtain ⟨hstarted', heffect⟩ := step_effect hstarted hstep
    obtain ⟨horder', hgrown⟩ := horder.of_effect hstarted hguard heffect
    exact ⟨Or.inr ⟨key, hstarted', horder'⟩, hgrown⟩

/-- A claim grows the log by nothing. -/
theorem Serving.claim (h : world.Serving) (now : Instant) :
    (world.claim now).Serving ∧ Grown world (world.claim now) := by
  have hguard : world.InOrder true (.claim now) := ⟨rfl, fun _ hattempt => by cases hattempt⟩
  have hstep : world.step true (.claim now) = some (world.claim now) := rfl
  exact h.step hguard hstep

/-- No event of a log in order is past the watermark. -/
theorem Serving.le_watermark (h : world.Serving) :
    ∀ event ∈ world.store.events.rows, event.sequence ≤ world.watermark := by
  intro event hevent
  rcases h with hidle | ⟨key, hstarted, horder⟩
  · rw [hidle.events] at hevent
    cases hevent
  · obtain ⟨row, hrow, -⟩ := hstarted.row
    rw [watermark_of_row hrow]
    exact horder.bounded row hrow event hevent

end World

/-! ## The client and its connection -/

/-- Whether a connection has delivered its replay. -/
def Stage.pastReplay : Stage → Bool
  | .loading | .replaying | .replayed (_ :: _) _ _ => false
  | _ => true

namespace Streaming

open Increasing

variable {thinkingEnabled : Bool} {limits : FollowLimits} {x y : Streaming}

/-- The entries of the log up to a number. -/
def upTo (n : Nat) (world : World) : List SessionEvent :=
  Increasing.upTo (·.sequence) n world.store.events.rows

/-- The number up to which a client has the log: the `id` of its last frame, and one less where that
was a follow-timeout frame. -/
def mark (client : Client) : Nat :=
  if client.timedOut then client.lastId.getD 0 - 1 else client.lastId.getD 0

/-- What was received, with the frames that are left, is the log up to some number. -/
def Continues (world : World) (received pending : List SessionEvent) : Prop :=
  ∃ n, n ≤ world.watermark ∧ received ++ pending = upTo n world

/-- What was received is the log up to a number. -/
def Reached (world : World) (received : List SessionEvent) (n : Nat) : Prop :=
  n ≤ world.watermark ∧ received = upTo n world

/-- **A connection serves the log in order**, whatever stage it is at. -/
def Serves (world : World) (received : List SessionEvent) (connection : Connection) : Prop :=
  match connection.stage with
  | .replayed pending _ next =>
    next ≤ world.watermark ∧ received ++ pending = upTo next world
  | .tailed pending => Continues world received pending
  | .followed pending _ _ =>
    Continues world received pending ∧ Reached world received connection.after
  | .finished => True
  | _ => Reached world received connection.after

/-- **The invariant of a client and its connection.** -/
structure InStep (x : Streaming) : Prop where
  serving : x.world.Serving
  client : Reached x.world x.client.received (mark x.client)
  connection : ∀ connection, x.connection = some connection →
    Serves x.world x.client.received connection

/-- The executor commits in order. -/
def Ordered (thinkingEnabled : Bool) (x : Streaming) : StreamAction → Prop
  | .other action => x.world.InOrder thinkingEnabled action
  | _ => True

/-- **The guard.** The executor commits in order, and the client does not connect with the `id` of a
follow-timeout frame. -/
def Resumes (thinkingEnabled : Bool) (x : Streaming) (action : StreamAction) : Prop :=
  x.Ordered thinkingEnabled action ∧ (action = .connect → x.client.timedOut = false)

instance (action : StreamAction) : Decidable (x.Ordered thinkingEnabled action) := by
  unfold Ordered
  split <;> infer_instance

instance (action : StreamAction) : Decidable (x.Resumes thinkingEnabled action) := by
  unfold Resumes
  infer_instance

/-! ### The log grows -/

section Grown

variable {world world' : World} {received pending : List SessionEvent} {n : Nat}

/-- What is up to a number that the log has reached stays the same. -/
theorem upTo_of_grown (h : World.Grown world world') (hn : n ≤ world.watermark) :
    upTo n world' = upTo n world := by
  obtain ⟨more, hrows, hmore⟩ := h.rows
  unfold upTo
  rw [hrows]
  exact upTo_append (fun event hevent => Nat.lt_of_le_of_lt hn (hmore event hevent))

theorem Reached.of_grown (h : Reached world received n) (hgrown : World.Grown world world') :
    Reached world' received n :=
  ⟨Nat.le_trans h.1 hgrown.watermark, h.2.trans (upTo_of_grown hgrown h.1).symm⟩

theorem Continues.of_grown (h : Continues world received pending)
    (hgrown : World.Grown world world') : Continues world' received pending := by
  obtain ⟨n, hn, heq⟩ := h
  exact ⟨n, Nat.le_trans hn hgrown.watermark, heq.trans (upTo_of_grown hgrown hn).symm⟩

theorem Serves.of_grown {connection : Connection} (h : Serves world received connection)
    (hgrown : World.Grown world world') : Serves world' received connection := by
  obtain ⟨after, stage⟩ := connection
  cases stage with
  | replayed pending terminal next =>
    obtain ⟨hnext, hall⟩ := h
    exact ⟨Nat.le_trans hnext hgrown.watermark, hall.trans (upTo_of_grown hgrown hnext).symm⟩
  | tailed pending => exact Continues.of_grown h hgrown
  | followed pending quiet waited => exact ⟨h.1.of_grown hgrown, h.2.of_grown hgrown⟩
  | finished => trivial
  | loading | replaying | reloading | tailing | claiming | following waited | waiting waited
  | heartbeat waited | timedOut => exact Reached.of_grown h hgrown

end Grown

/-! ### Reads and frames -/

section Frames

variable {world : World} {received pending : List SessionEvent} {n : Nat} {event : SessionEvent}

/-- **A read past the number makes up the whole log.** -/
theorem Reached.read (h : Reached world received n) :
    received ++ world.store.listEvents n = world.store.events.rows := by
  rw [h.2]
  exact upTo_append_past world.store.events.sorted n

/-- The log is what is up to its watermark. -/
theorem upTo_watermark (hserving : world.Serving) :
    upTo world.watermark world = world.store.events.rows := upTo_eq_self hserving.le_watermark

theorem Reached.continues (h : Reached world received n) (hserving : world.Serving) :
    Continues world received (world.store.listEvents n) :=
  ⟨world.watermark, Nat.le_refl _, h.read.trans (upTo_watermark hserving).symm⟩

/-- **A frame moves the client to the number of its event.** -/
theorem Continues.deliver (h : Continues world received (event :: pending)) :
    Reached world (received ++ [event]) event.sequence
      ∧ Continues world (received ++ [event]) pending := by
  obtain ⟨n, hn, heq⟩ := h
  refine ⟨⟨Nat.le_trans (key_le_of_split heq) hn,
    upTo_key_of_split world.store.events.sorted heq⟩, n, hn, ?_⟩
  rw [List.append_assoc]
  exact heq

/-- The number after a replay: that of its last frame, or the one before. -/
theorem Reached.replayed (h : Reached world received n) (hserving : world.Serving) :
    let next := (((world.store.listEvents n).getLast?.map (·.sequence)).getD n)
    next ≤ world.watermark ∧ received ++ world.store.listEvents n = upTo next world := by
  refine ⟨?_, h.read.trans (upTo_getLast_past world.store.events.sorted n).symm⟩
  cases hlast : (world.store.listEvents n).getLast? with
  | none => exact h.1
  | some event =>
    exact hserving.le_watermark event (List.mem_filter.mp (List.mem_of_getLast? hlast)).1

end Frames

/-! ### The steps -/

/-- Another party acts. -/
theorem InStep.other {action : SessionAction} {world : World} (h : x.InStep)
    (hguard : x.world.InOrder thinkingEnabled action)
    (hstep : x.world.step thinkingEnabled action = some world) :
    InStep { x with world := world } := by
  obtain ⟨hserving, hgrown⟩ := h.serving.step hguard hstep
  exact ⟨hserving, h.client.of_grown hgrown,
    fun connection hconnection => (h.connection connection hconnection).of_grown hgrown⟩

/-- The client connects with the number it has the log up to. -/
theorem InStep.connect (h : x.InStep) (hresumes : x.client.timedOut = false) :
    InStep { x with
      connection := some ⟨parseLastEventId x.client.lastEventId, .loading⟩ } := by
  refine ⟨h.serving, h.client, fun connection hconnection => ?_⟩
  cases hconnection
  have hmark : parseLastEventId x.client.lastEventId = mark x.client := by
    unfold mark Client.lastEventId
    rw [hresumes]
    cases x.client.lastId with
    | none => rfl
    | some id => exact parseLastEventId_frameId id
  show Reached x.world x.client.received (parseLastEventId x.client.lastEventId)
  rw [hmark]
  exact h.client

/-- A connection moves to another stage. -/
theorem InStep.moved {connection : Connection} (h : x.InStep)
    (hserves : Serves x.world x.client.received connection) :
    InStep { x with connection := some connection } :=
  ⟨h.serving, h.client, fun c hc => by
    cases hc
    exact hserves⟩

/-- **A step of a connection that yields no frame.** -/
theorem InStep.proceed {connection : Connection} {now : Instant} {progressed : Bool}
    (h : x.InStep) (hconnection : x.connection = some connection)
    (hstep : x.proceed limits connection now progressed = some y) : y.InStep := by
  have hserves := h.connection connection hconnection
  obtain ⟨after, stage⟩ := connection
  cases stage with
  | loading =>
    cases hstep
    refine h.moved ?_
    cases x.world.store.interaction.isSome with
    | true => exact hserves
    | false => trivial
  | replaying =>
    cases hstep
    exact h.moved (Reached.replayed hserves h.serving)
  | replayed pending terminal next =>
    cases pending with
    | nil =>
      cases hstep
      refine h.moved ?_
      cases terminal with
      | true => trivial
      | false => exact ⟨hserves.1, (List.append_nil _).symm.trans hserves.2⟩
    | cons event pending => cases hstep
  | reloading =>
    cases hstep
    refine h.moved ?_
    cases x.world.store.interaction with
    | none => trivial
    | some row =>
      dsimp only
      cases row.status.isTerminal <;> exact hserves
  | tailing =>
    cases hstep
    exact h.moved (Reached.continues hserves h.serving)
  | tailed pending =>
    cases pending with
    | nil =>
      cases hstep
      exact h.moved trivial
    | cons event pending => cases hstep
  | claiming =>
    cases hstep
    obtain ⟨hserving, hgrown⟩ := h.serving.claim now
    have hclaimed : InStep { x with world := x.world.claim now } :=
      ⟨hserving, h.client.of_grown hgrown,
        fun c hc => (h.connection c hc).of_grown hgrown⟩
    exact hclaimed.moved (Reached.of_grown hserves hgrown)
  | following waited =>
    cases hstep
    refine h.moved ?_
    unfold Connection.follow
    split
    · exact ⟨Reached.continues hserves h.serving, hserves⟩
    · exact hserves
  | followed pending quiet waited =>
    cases pending with
    | nil =>
      unfold Streaming.proceed at hstep
      dsimp only at hstep
      split at hstep
      · cases hstep
        refine h.moved ?_
        cases quiet <;> exact hserves.2
      · cases hstep
    | cons event pending => cases hstep
  | waiting waited =>
    cases hstep
    refine h.moved ?_
    cases progressed <;> exact hserves
  | heartbeat waited => cases hstep
  | timedOut => cases hstep
  | finished => cases hstep

/-- The client receives the next stored event. -/
theorem InStep.receive {connection : Connection} {event : SessionEvent}
    {pending : List SessionEvent} (h : x.InStep)
    (hcontinues : Continues x.world x.client.received (event :: pending))
    (hserves : Serves x.world (x.client.received ++ [event]) connection) :
    InStep { x with client := x.client.receive event, connection := some connection } :=
  ⟨h.serving, hcontinues.deliver.1, fun c hc => by
    cases hc
    exact hserves⟩

/-- **A frame reaches the client.** -/
theorem InStep.deliver {connection : Connection} (h : x.InStep)
    (hconnection : x.connection = some connection)
    (hstep : x.deliver limits connection = some y) : y.InStep := by
  have hserves := h.connection connection hconnection
  obtain ⟨after, stage⟩ := connection
  cases stage with
  | replayed pending terminal next =>
    cases pending with
    | nil => cases hstep
    | cons event pending =>
      cases hstep
      obtain ⟨hnext, hall⟩ := hserves
      refine h.receive ⟨next, hnext, hall⟩ ⟨hnext, ?_⟩
      rw [List.append_assoc]
      exact hall
  | tailed pending =>
    cases pending with
    | nil => cases hstep
    | cons event pending =>
      cases hstep
      exact h.receive hserves (Continues.deliver hserves).2
  | followed pending quiet waited =>
    cases pending with
    | nil => cases hstep
    | cons event pending =>
      cases hstep
      obtain ⟨hreached, hcontinues⟩ := hserves.1.deliver
      refine h.receive hserves.1 ?_
      cases event.name.isTerminal with
      | true => trivial
      | false => exact ⟨hcontinues, hreached⟩
  | heartbeat waited =>
    cases hstep
    refine ⟨h.serving, hserves, fun c hc => ?_⟩
    cases hc
    exact hserves
  | timedOut =>
    cases hstep
    refine ⟨h.serving, ?_, fun c hc => ?_⟩
    · exact hserves
    · cases hc
      trivial
  | loading | replaying | reloading | tailing | claiming | following waited | waiting waited
  | finished => cases hstep

/-- **Every step within the guard keeps the client in step.** -/
theorem InStep.step {action : StreamAction} (h : x.InStep)
    (hguard : x.Resumes thinkingEnabled action)
    (hstep : x.step thinkingEnabled limits action = some y) : y.InStep := by
  cases action with
  | other action =>
    obtain ⟨world, hworld, rfl⟩ := Option.map_eq_some_iff.mp hstep
    exact h.other hguard.1 hworld
  | connect =>
    unfold Streaming.step at hstep
    dsimp only at hstep
    split at hstep <;> cases hstep
    exact h.connect (hguard.2 rfl)
  | disconnect =>
    cases hstep
    exact ⟨h.serving, h.client, fun c hc => by cases hc⟩
  | proceed now progressed =>
    obtain ⟨connection, hconnection, hproceed⟩ := Option.bind_eq_some_iff.mp hstep
    exact h.proceed hconnection hproceed
  | deliver =>
    obtain ⟨connection, hconnection, hdeliver⟩ := Option.bind_eq_some_iff.mp hstep
    exact h.deliver hconnection hdeliver

theorem inStep_of_reach
    (h : Machine.Reach (streamMachine thinkingEnabled limits) (Resumes thinkingEnabled) x) :
    x.InStep := by
  refine Machine.Reach.invariant ⟨Or.inl ⟨rfl, rfl, rfl, rfl, rfl, rfl⟩, ⟨Nat.le_refl 0, rfl⟩,
    fun c hc => by cases hc⟩ (fun hI hguard hstep => hI.step hguard hstep) h

/-! ## The next connection of a finished interaction -/

/-- The steps that leave the client's connection alone. -/
def Undisturbed (thinkingEnabled : Bool) (x : Streaming) (action : StreamAction) : Prop :=
  x.Resumes thinkingEnabled action ∧ action ≠ .connect ∧ action ≠ .disconnect

/-- **A fresh connection delivers a log**: whatever the other parties do, the client has received it
once the replay is over; and left alone the connection ends, with exactly this log received. -/
structure Delivers (thinkingEnabled : Bool) (limits : FollowLimits) (log : List SessionEvent)
    (x : Streaming) : Prop where
  always : ∀ y, Machine.Steps (streamMachine thinkingEnabled limits) (Undisturbed thinkingEnabled)
    x y → ∀ connection, y.connection = some connection → connection.stage.pastReplay = true →
      log <+: y.client.received
  ends : ∃ y, Machine.Steps (streamMachine thinkingEnabled limits) (Undisturbed thinkingEnabled)
    x y ∧ y.connection.map (·.stage) = some .finished ∧ y.client.received = log

/-- What a stage promises of a log: to read it, to deliver the rest of it, or to have delivered it. -/
def Promises (log received : List SessionEvent) : Stage → Prop
  | .loading | .replaying => True
  | .replayed pending _ _ => log <+: received ++ pending
  | _ => log <+: received

/-- A log of the past is on its way to the client. -/
structure Underway (log : List SessionEvent) (x : Streaming) : Prop where
  logged : log <+: x.world.store.events.rows
  stored : x.world.store.interaction.isSome = true
  connection : ∃ connection, x.connection = some connection
    ∧ Promises log x.client.received connection.stage

/-- A step of the connection keeps the promise. -/
theorem Underway.proceed {log : List SessionEvent} {connection : Connection} {now : Instant}
    {progressed : Bool} (hinstep : x.InStep) (h : Underway log x)
    (hconnection : x.connection = some connection)
    (hstep : x.proceed limits connection now progressed = some y) : Underway log y := by
  have hserves := hinstep.connection connection hconnection
  obtain ⟨c, hc, hpromises⟩ := h.connection
  rw [hconnection, Option.some.injEq] at hc
  obtain ⟨after, stage⟩ := connection
  subst hc
  cases stage with
  | loading =>
    cases hstep
    refine ⟨h.logged, h.stored, _, rfl, ?_⟩
    rw [h.stored]
    trivial
  | replaying =>
    cases hstep
    refine ⟨h.logged, h.stored, _, rfl, ?_⟩
    show log <+: x.client.received ++ x.world.store.listEvents after
    rw [Reached.read hserves]
    exact h.logged
  | replayed pending terminal next =>
    cases pending with
    | nil =>
      cases hstep
      have hlog : log <+: x.client.received := by
        rw [← List.append_nil x.client.received]
        exact hpromises
      refine ⟨h.logged, h.stored, _, rfl, ?_⟩
      cases terminal <;> exact hlog
    | cons event pending => cases hstep
  | reloading =>
    cases hstep
    refine ⟨h.logged, h.stored, _, rfl, ?_⟩
    cases x.world.store.interaction with
    | none => exact hpromises
    | some row =>
      dsimp only
      cases row.status.isTerminal <;> exact hpromises
  | tailing =>
    cases hstep
    exact ⟨h.logged, h.stored, _, rfl, hpromises⟩
  | tailed pending =>
    cases pending with
    | nil =>
      cases hstep
      exact ⟨h.logged, h.stored, _, rfl, hpromises⟩
    | cons event pending => cases hstep
  | claiming =>
    cases hstep
    obtain ⟨-, hgrown⟩ := hinstep.serving.claim now
    obtain ⟨more, hrows, -⟩ := hgrown.rows
    exact ⟨hrows ▸ h.logged.trans (List.prefix_append _ _), hgrown.stored h.stored, _, rfl, hpromises⟩
  | following waited =>
    cases hstep
    refine ⟨h.logged, h.stored, _, rfl, ?_⟩
    unfold Connection.follow
    split <;> exact hpromises
  | followed pending quiet waited =>
    cases pending with
    | nil =>
      unfold Streaming.proceed at hstep
      dsimp only at hstep
      split at hstep
      · cases hstep
        refine ⟨h.logged, h.stored, _, rfl, ?_⟩
        cases quiet <;> exact hpromises
      · cases hstep
    | cons event pending => cases hstep
  | waiting waited =>
    cases hstep
    refine ⟨h.logged, h.stored, _, rfl, ?_⟩
    cases progressed <;> exact hpromises
  | heartbeat waited => cases hstep
  | timedOut => cases hstep
  | finished => cases hstep

/-- A frame keeps the promise. -/
theorem Underway.deliver {log : List SessionEvent} {connection : Connection}
    (h : Underway log x) (hconnection : x.connection = some connection)
    (hstep : x.deliver limits connection = some y) : Underway log y := by
  obtain ⟨c, hc, hpromises⟩ := h.connection
  rw [hconnection, Option.some.injEq] at hc
  obtain ⟨after, stage⟩ := connection
  subst hc
  have hlonger : ∀ event : SessionEvent, log <+: x.client.received →
      log <+: x.client.received ++ [event] := fun event hlog => hlog.trans (List.prefix_append _ _)
  cases stage with
  | replayed pending terminal next =>
    cases pending with
    | nil => cases hstep
    | cons event pending =>
      cases hstep
      refine ⟨h.logged, h.stored, _, rfl, ?_⟩
      show log <+: x.client.received ++ [event] ++ pending
      rw [List.append_assoc]
      exact hpromises
  | tailed pending =>
    cases pending with
    | nil => cases hstep
    | cons event pending =>
      cases hstep
      exact ⟨h.logged, h.stored, _, rfl, hlonger event hpromises⟩
  | followed pending quiet waited =>
    cases pending with
    | nil => cases hstep
    | cons event pending =>
      cases hstep
      refine ⟨h.logged, h.stored, _, rfl, ?_⟩
      cases event.name.isTerminal <;> exact hlonger event hpromises
  | heartbeat waited =>
    cases hstep
    exact ⟨h.logged, h.stored, _, rfl, hpromises⟩
  | timedOut =>
    cases hstep
    exact ⟨h.logged, h.stored, _, rfl, hpromises⟩
  | loading | replaying | reloading | tailing | claiming | following waited | waiting waited
  | finished => cases hstep

/-- **The promise is kept** as long as the client stays connected. -/
theorem Underway.step {log : List SessionEvent} {action : StreamAction} (hinstep : x.InStep)
    (h : Underway log x) (hguard : x.Undisturbed thinkingEnabled action)
    (hstep : x.step thinkingEnabled limits action = some y) : Underway log y := by
  obtain ⟨hresumes, hconnect, hdisconnect⟩ := hguard
  cases action with
  | other action =>
    obtain ⟨world, hworld, rfl⟩ := Option.map_eq_some_iff.mp hstep
    obtain ⟨-, hgrown⟩ := hinstep.serving.step hresumes.1 hworld
    obtain ⟨more, hrows, -⟩ := hgrown.rows
    exact ⟨hrows ▸ h.logged.trans (List.prefix_append _ _), hgrown.stored h.stored, h.connection⟩
  | connect => exact absurd rfl hconnect
  | disconnect => exact absurd rfl hdisconnect
  | proceed now progressed =>
    obtain ⟨connection, hconnection, hproceed⟩ := Option.bind_eq_some_iff.mp hstep
    exact h.proceed hinstep hconnection hproceed
  | deliver =>
    obtain ⟨connection, hconnection, hdeliver⟩ := Option.bind_eq_some_iff.mp hstep
    exact h.deliver hconnection hdeliver

/-- Once the replay is over, the promise is fulfilled. -/
theorem Promises.fulfilled {log received : List SessionEvent} {stage : Stage}
    (h : Promises log received stage) (hpast : stage.pastReplay = true) : log <+: received := by
  cases stage with
  | replayed pending terminal next =>
    cases pending with
    | nil =>
      rw [← List.append_nil received]
      exact h
    | cons event pending => cases hpast
  | loading | replaying => cases hpast
  | reloading | tailing | tailed pending | claiming | following waited
  | followed pending quiet waited | waiting waited | heartbeat waited | timedOut | finished =>
    exact h

/-! ### The connection left alone -/

variable {start : Streaming}

/-- The states that a connection reaches from a start without being disturbed. -/
abbrev Onward (thinkingEnabled : Bool) (limits : FollowLimits) :=
  Machine.Steps (streamMachine thinkingEnabled limits) (Undisturbed thinkingEnabled)

/-- A step of the connection goes on undisturbed. -/
theorem onward_proceed {connection : Connection} (h : Onward thinkingEnabled limits start x)
    (hconnection : x.connection = some connection)
    (hstep : x.proceed limits connection 0 false = some y) :
    Onward thinkingEnabled limits start y := by
  refine h.tail (a := .proceed 0 false) ⟨⟨trivial, by simp⟩, by simp, by simp⟩ ?_
  show x.connection.bind _ = some y
  rw [hconnection]
  exact hstep

/-- The frames of a replay are delivered one by one. -/
theorem onward_deliver {after next : Nat} {terminal : Bool} {pending : List SessionEvent}
    (h : Onward thinkingEnabled limits start x)
    (hconnection : x.connection = some ⟨after, .replayed pending terminal next⟩) :
    ∃ y, Onward thinkingEnabled limits start y ∧ y.world = x.world
      ∧ y.connection = some ⟨after, .replayed [] terminal next⟩
      ∧ y.client.received = x.client.received ++ pending := by
  induction pending generalizing x with
  | nil => exact ⟨x, h, rfl, hconnection, (List.append_nil _).symm⟩
  | cons event pending ih =>
    have hnext : Onward thinkingEnabled limits start
        { x with
          client := x.client.receive event
          connection := some ⟨after, .replayed pending terminal next⟩ } := by
      refine h.tail (a := .deliver) ⟨⟨trivial, by simp⟩, by simp, by simp⟩ ?_
      show x.connection.bind _ = some _
      rw [hconnection]
      rfl
    obtain ⟨y, hy, hworld, hstage, hreceived⟩ := ih hnext rfl
    refine ⟨y, hy, hworld, hstage, ?_⟩
    rw [hreceived]
    exact List.append_assoc _ _ _

/-- **Left alone, a connection to a terminal row delivers the log and ends.** -/
theorem ends_of_terminal {row : InteractionRecord} {after : Nat}
    (hrow : start.world.store.interaction = some row) (hterminal : row.status.isTerminal = true)
    (hconnection : start.connection = some ⟨after, .loading⟩)
    (hreached : Reached start.world start.client.received after) :
    ∃ y, Onward thinkingEnabled limits start y ∧ y.connection.map (·.stage) = some .finished
      ∧ y.client.received = start.world.store.events.rows := by
  let log := start.world.store.listEvents after
  let next := (log.getLast?.map (·.sequence)).getD after
  have hloaded : Onward thinkingEnabled limits start
      (start.moveTo ⟨after, .loading⟩ .replaying) :=
    onward_proceed .refl hconnection (by simp [proceed, hrow])
  have hread : Onward thinkingEnabled limits start
      (start.moveTo ⟨after, .loading⟩ (.replayed log (log.any (·.name.isTerminal)) next)) :=
    onward_proceed hloaded rfl rfl
  obtain ⟨y, hy, hworld, hstage, hreceived⟩ := onward_deliver hread rfl
  have hall : y.client.received = start.world.store.events.rows :=
    hreceived.trans hreached.read
  let ended : Stage := if log.any (·.name.isTerminal) then .finished else .reloading
  have hended : Onward thinkingEnabled limits start { y with connection := some ⟨next, ended⟩ } :=
    onward_proceed hy hstage rfl
  cases hterminals : log.any (·.name.isTerminal) with
  | true =>
    rw [show ended = .finished by simp [ended, hterminals]] at hended
    exact ⟨_, hended, rfl, hall⟩
  | false =>
    -- the terminal event was received before; the row is loaded again, and the tail is empty
    rw [show ended = .reloading by simp [ended, hterminals]] at hended
    have hreloaded : Onward thinkingEnabled limits start (y.moveTo ⟨next, .reloading⟩ .tailing) :=
      onward_proceed hended rfl (by simp [proceed, moveTo, hworld, hrow, hterminal])
    have hnone : start.world.store.listEvents next = [] :=
      past_eq_nil start.world.store.events.sorted
        (upTo_getLast_past start.world.store.events.sorted after)
    have htailed : Onward thinkingEnabled limits start (y.moveTo ⟨next, .reloading⟩ (.tailed [])) :=
      onward_proceed hreloaded rfl (by simp [proceed, moveTo, hworld, hnone])
    exact ⟨y.moveTo ⟨next, .reloading⟩ .finished, onward_proceed htailed rfl rfl, rfl, hall⟩

/-- **Reconnecting clients miss nothing.** Along every run in which the executor commits in order and
the client never connects with the `id` of a follow-timeout frame, the stored events that the client
received over all its connections are a beginning of the log. Once the row is terminal, its log has a
terminal event, and the next connection delivers the log. -/
theorem client_misses_nothing
    (h : Machine.Reach (streamMachine thinkingEnabled limits) (Resumes thinkingEnabled) x) :
    x.client.received <+: x.world.store.events.rows
      ∧ ∀ row, x.world.store.interaction = some row → row.status.isTerminal = true →
        (∃ event ∈ x.world.store.events.rows, event.name.isTerminal = true)
          ∧ (x.connection = none → x.client.timedOut = false →
              Delivers thinkingEnabled limits x.world.store.events.rows
                { x with
                  connection := some ⟨parseLastEventId x.client.lastEventId, .loading⟩ }) := by
  have hinstep := inStep_of_reach h
  refine ⟨hinstep.client.2 ▸ upTo_prefix x.world.store.events.sorted _,
    fun row hrow hterminal => ⟨?_, fun hnone hresumes => ?_⟩⟩
  · rcases hinstep.serving with hidle | ⟨key, -, horder⟩
    · rw [hidle.row] at hrow
      cases hrow
    · exact horder.concluded row hrow hterminal
  · have hconnected := hinstep.connect hresumes
    refine ⟨fun y hy connection hconnection hpast => ?_,
      ends_of_terminal hrow hterminal rfl (hconnected.connection _ rfl)⟩
    have hunderway : Underway x.world.store.events.rows { x with
        connection := some ⟨parseLastEventId x.client.lastEventId, .loading⟩ } :=
      ⟨List.prefix_refl _, by rw [hrow]; rfl, _, rfl, trivial⟩
    obtain ⟨-, hlater⟩ := Machine.Steps.invariant
      (I := fun z => z.InStep ∧ Underway x.world.store.events.rows z)
      (fun hz hguard hstep => ⟨hz.1.step hguard.1 hstep, hz.2.step hz.1 hguard hstep⟩)
      ⟨hconnected, hunderway⟩ hy
    obtain ⟨c, hc, hpromises⟩ := hlater.connection
    rw [hconnection, Option.some.injEq] at hc
    exact (hc ▸ hpromises).fulfilled hpast

/-! ### Runs inside and outside the guard -/

/-- Limits under which one heartbeat exhausts the follow budget. -/
def shortLimits : FollowLimits := ⟨1, 0, 1000⟩

/-- A client connects, wins the claim and waits for one heartbeat. -/
def waitingRun : List StreamAction :=
  [.other (.start Scenario.question 0), .connect, .proceed 1 false, .proceed 1 false,
   .proceed 1 false, .proceed 1 false, .proceed 1 false, .proceed 1 false, .proceed 1 false,
   .proceed 1 false, .deliver]

/-- The executor stores its `started` event and announces the parse. -/
def startedRun : List StreamAction :=
  [.other (Scenario.moves (.stopPoint none) 2 4), .other (Scenario.moves .started 2 4),
   .other (Scenario.moves (.stopPoint none) 3 8),
   .other (Scenario.moves (.announce "parse_started") 3 8)]

/-- The client connects again, and the replay begins. -/
def resumedRun : List StreamAction :=
  [.disconnect, .connect, .proceed 9 false, .proceed 9 false, .deliver]

/-- A client that was disconnected after a heartbeat has a beginning of the log. -/
theorem client_misses_nothing_resumed :
    ((streamMachine true shortLimits).after (waitingRun ++ startedRun ++ resumedRun)).client.received
      <+: ((streamMachine true shortLimits).after
            (waitingRun ++ startedRun ++ resumedRun)).world.store.events.rows :=
  (client_misses_nothing (Machine.reach_after (waitingRun ++ startedRun ++ resumedRun) rfl)).1

/-- **The event that takes the number of a follow-timeout frame is missed.** The follow budget is
exhausted before the executor stores anything, the frame carries number 1, and the reconnecting client
gets event 2 first. -/
theorem event_missed :
    ∃ x, Machine.Reach (streamMachine true shortLimits) (Ordered true) x
      ∧ x.client.received.map (·.sequence) = [2]
      ∧ x.world.store.events.rows.map (·.sequence) = [1, 2]
      ∧ ¬ x.client.received <+: x.world.store.events.rows :=
  ⟨(streamMachine true shortLimits).after
      (waitingRun ++ [.proceed 1 false, .deliver] ++ startedRun ++ resumedRun),
    Machine.reach_after _ rfl, rfl, rfl, by decide⟩

end Streaming
