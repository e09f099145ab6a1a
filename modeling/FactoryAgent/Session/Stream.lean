import FactoryAgent.Api.Sse
import FactoryAgent.Session.Interleaving

/-!
# The stream of a client

A client follows an interaction over any number of connections, one at a time. A connection is the
generator of `stream`, with `_replay_tail` and `_follow` inside; its reads of the store are separate
transactions, and between two of them, or between two frames, anything else may happen. The frames it
yields reach the client one by one, unless the client is gone by then. The client remembers the `id`
of the last frame it received, whatever frame that was, and sends it when it connects again.

The other parties are those of `interactionMachine`. The stale check inside `_follow` is a sweep; a
connection whose check finds a stale run is not continued here.
-/

/-- The limits of `_follow`, in one unit of time. -/
structure FollowLimits where
  heartbeatSeconds : Nat
  followTimeoutSeconds : Nat
  staleRunningSeconds : Nat
  deriving DecidableEq

/-- **Where a connection stands.** -/
inductive Stage where
  /-- The first load of the row. -/
  | loading
  /-- The replay is about to be read. -/
  | replaying
  /-- The replay was read: the frames left, whether a terminal event was among them, and the number of
  the last one. -/
  | replayed (pending : List SessionEvent) (terminal : Bool) (next : Nat)
  /-- The second load of the row. -/
  | reloading
  /-- The row is terminal; the tail is about to be read. -/
  | tailing
  /-- The tail was read: the frames left. -/
  | tailed (pending : List SessionEvent)
  /-- The claim. -/
  | claiming
  /-- The head of the loop of `_follow`, with the time waited so far. -/
  | following (waited : Nat)
  /-- Events were read: the frames left, and whether there were none. -/
  | followed (pending : List SessionEvent) (quiet : Bool) (waited : Nat)
  /-- The wait for progress after a read without events. -/
  | waiting (waited : Nat)
  /-- A heartbeat frame is due. -/
  | heartbeat (waited : Nat)
  /-- The follow-timeout frame is due. -/
  | timedOut
  /-- The generator returned. -/
  | finished
  deriving DecidableEq

/-- A connection: `after_sequence`, and where it stands. -/
structure Connection where
  after : Nat
  stage : Stage
  deriving DecidableEq

/-- **A client**: the number of the last frame it received, the stored events it received over all its
connections, and whether that last frame was a follow-timeout frame. -/
structure Client where
  lastId : Option Nat
  received : List SessionEvent
  timedOut : Bool
  deriving DecidableEq

/-- The interaction, a client of it and the client's connection. -/
structure Streaming where
  world : World
  client : Client
  connection : Option Connection
  deriving DecidableEq

/-- The steps of the other parties, of the client and of its connection. -/
inductive StreamAction where
  /-- One of the other parties acts. -/
  | other (action : SessionAction)
  /-- The client connects with the `id` of the last frame it received. -/
  | connect
  /-- The client is gone. -/
  | disconnect
  /-- The connection takes its next step that yields no frame; a wait for progress ends with progress
  or without. -/
  | proceed (now : Instant) (progressed : Bool)
  /-- The connection yields its next frame, and the client receives it. -/
  | deliver
  deriving DecidableEq

/-- The `Last-Event-ID` a client sends. -/
def Client.lastEventId (client : Client) : Option String := client.lastId.map frameId

/-- A stored event reaches the client. -/
def Client.receive (client : Client) (event : SessionEvent) : Client :=
  { lastId := some event.sequence, received := client.received ++ [event], timedOut := false }

/-- The head of the loop of `_follow`. -/
def Connection.follow (connection : Connection) (limits : FollowLimits) (waited : Nat)
    (store : InteractionStore) : Connection :=
  if waited ≤ limits.followTimeoutSeconds then
    let events := store.listEvents connection.after
    { connection with stage := .followed events events.isEmpty waited }
  else { connection with stage := .timedOut }

namespace Streaming

/-- The state with another stage of its connection. -/
def moveTo (streaming : Streaming) (connection : Connection) (stage : Stage) : Streaming :=
  { streaming with connection := some { connection with stage := stage } }

/-- **A step of a connection that yields no frame.** -/
def proceed (streaming : Streaming) (limits : FollowLimits) (connection : Connection)
    (now : Instant) (progressed : Bool) : Option Streaming :=
  let store := streaming.world.store
  match connection.stage with
  | .loading =>
    some (streaming.moveTo connection (if store.interaction.isSome then .replaying else .finished))
  | .replaying =>
    let replayed := store.listEvents connection.after
    some (streaming.moveTo connection (.replayed replayed (replayed.any (·.name.isTerminal))
      ((replayed.getLast?.map (·.sequence)).getD connection.after)))
  | .replayed [] terminal next =>
    some { streaming with
      connection := some ⟨next, if terminal then .finished else .reloading⟩ }
  | .reloading =>
    some (streaming.moveTo connection
      (match store.interaction with
        | some row => if row.status.isTerminal then .tailing else .claiming
        | none => .finished))
  | .tailing => some (streaming.moveTo connection (.tailed (store.listEvents connection.after)))
  | .tailed [] => some (streaming.moveTo connection .finished)
  | .claiming =>
    some { streaming with
      world := streaming.world.claim now
      connection := some { connection with stage := .following 0 } }
  | .following waited =>
    some { streaming with connection := some (connection.follow limits waited store) }
  | .followed [] quiet waited =>
    if (store.failStaleRun (now - limits.staleRunningSeconds) now "executor_lost").isNone then
      some (streaming.moveTo connection (if quiet then .waiting waited else .following waited))
    else none
  | .waiting waited =>
    some (streaming.moveTo connection (if progressed then .following waited else .heartbeat waited))
  | _ => none

/-- **A frame of a connection reaches the client.** A terminal event ends `_follow`. -/
def deliver (streaming : Streaming) (limits : FollowLimits) (connection : Connection) :
    Option Streaming :=
  match connection.stage with
  | .replayed (event :: pending) terminal next =>
    some { streaming with
      client := streaming.client.receive event
      connection := some { connection with stage := .replayed pending terminal next } }
  | .tailed (event :: pending) =>
    some { streaming with
      client := streaming.client.receive event
      connection := some { connection with stage := .tailed pending } }
  | .followed (event :: pending) quiet waited =>
    some { streaming with
      client := streaming.client.receive event
      connection := some ⟨event.sequence,
        if event.name.isTerminal then .finished else .followed pending quiet waited⟩ }
  | .heartbeat waited =>
    some { streaming with
      client := { streaming.client with lastId := some connection.after, timedOut := false }
      connection := some { connection with
        stage := .following (waited + limits.heartbeatSeconds) } }
  | .timedOut =>
    some { streaming with
      client := { streaming.client with lastId := some (connection.after + 1), timedOut := true }
      connection := some { connection with stage := .finished } }
  | _ => none

/-- **One step.** -/
def step (thinkingEnabled : Bool) (limits : FollowLimits) (streaming : Streaming) :
    StreamAction → Option Streaming
  | .other action =>
    (streaming.world.step thinkingEnabled action).map (fun world =>
      { streaming with world := world })
  | .connect =>
    if streaming.connection = none then
      some { streaming with
        connection := some ⟨parseLastEventId streaming.client.lastEventId, .loading⟩ }
    else none
  | .disconnect => some { streaming with connection := none }
  | .proceed now progressed =>
    streaming.connection.bind (fun connection =>
      streaming.proceed limits connection now progressed)
  | .deliver => streaming.connection.bind (fun connection => streaming.deliver limits connection)

end Streaming

/-- **An interaction and a client of it.** -/
def streamMachine (thinkingEnabled : Bool) (limits : FollowLimits) :
    Machine Streaming StreamAction :=
  ⟨⟨World.initial, ⟨none, [], false⟩, none⟩, Streaming.step thinkingEnabled limits⟩
