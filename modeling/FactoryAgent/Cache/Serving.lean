import FactoryAgent.Cache.Realtime
import FactoryAgent.Cache.Store
import FactoryAgent.Lib.Machine

/-!
# Serving many callers

`ResultCacheExecutor` of `data_api/result_cache.py`, as any number of calls run at once over one store. A call probes
the candidate windows of its question; where nothing is found it takes the lock of the question, probes again, and has
an owner fetch the snapshot that is missing. What is found is served as the view of its caller, and in shadow mode the
MES is asked as well. What cannot be served is evicted, and the MES is asked instead. Between two awaits of a call the
others go on, entries expire or are lost, other processes and the prefetch write theirs, and a call may be abandoned.

Whatever happens, an answer from the cache is the view of one fetch that was complete and narrowed to nobody
(`serving_run`): of its own tenant, for the same parameters, over a window that covers the question, and no older than
the policy allows. Nothing that was fetched for one caller is ever kept for others unless it is such a fetch, and no two
calls fetch the same snapshot at once. Every answer says how often the MES was asked for it, and shows a caller who
groups nothing only what it may see.

Alerts and traces change nothing and are left out. What the store is given may land without an answer: `put` is where it
lands, and `reported` where the call goes on.
-/

namespace Serving

open LocalTime (Zone)
open Windows (Moment localCalendarDates)

variable {Key Lock : Type}

/-! ## The executor -/

/-- **What the executor is made with**: the cache and its mode, the zone of its days, the check of a step, whether there
are owners to fetch snapshots, the digest that locks go by, and the comparison of totals with the default tolerance. -/
structure Config (Key Lock : Type) where
  cache : V2ResultCache String Key
  mode : ResultCacheMode
  zone : Zone
  validateStep : Request → Bool
  snapshotProvider : Bool
  lockKey : String → Operation → Params → Lock
  defaultClose : Decimal → Decimal → Bool

/-- How realtime answers are computed. -/
def Config.settings (config : Config Key Lock) : Settings :=
  ⟨config.cache.context, config.cache.close, config.zone⟩

/-- **A fetch from the MES that a call awaits**, and the calls that a first one took. -/
structure Fetching where
  native : Bool
  ask : Ask
  spent : Option Nat

/-- The first fetch of `_fetch_realtime`. -/
def Request.firstFetch (request : Request) (operation : Operation) : Fetching :=
  ⟨request.nativeProgress operation false, request.ask operation (request.nativeProgress operation false), none⟩

/-- The fetch of the detail, after groups that were not enough. -/
def Request.detailFetch (request : Request) (operation : Operation) (groups : Fetched) : Fetching :=
  ⟨false, request.ask operation false, some groups.callCount⟩

/-- A result with the calls that came before it. -/
def Fetched.charged (fetched : Fetched) (spent : Nat) : Fetched :=
  { fetched with sourceCallCount := some (spent + fetched.callCount) }

/-- The result of the last fetch. -/
def Fetching.finished (fetching : Fetching) (result : Fetched) : Fetched :=
  match fetching.spent with
  | none => result
  | some spent => result.charged spent

/-- **The answer to a call**: from the cache, and in shadow mode what the MES returned; or from the MES. -/
inductive Answer where
  | served (result : ResourceFetchResult) (shadow : Option Fetched)
  | realtime (result : Fetched)

/-- How often the MES was asked, as the answer says. -/
def Answer.callCount : Answer → Nat
  | .served result _ => result.sourceCallCount
  | .realtime result => result.callCount

/-- The rows that an answer carries. -/
def Answer.tables : Answer → List (List Row)
  | .served result shadow => result.rows :: shadow.toList.map Fetched.rows
  | .realtime result => [result.rows]

/-- **What a call awaits that may be answered from the cache**: the store, with or without the lock, for the candidates
that are left; the lock; the fetch of an owner; the store, for the snapshot; the store, for an eviction; the MES, for
what is to be verified or instead of the cache; or the store, for what the MES returned. -/
inductive Phase where
  | probing (locked : Bool) (left : List (String × String))
  | waiting
  | snapshotting
  | publishing (fetched : Fetched) (landed : Bool)
  | evicting (window : String × String) (spent : Nat)
  | verifying (served : ResourceFetchResult) (window : String × String) (fetching : Fetching)
  | falling (spent : Nat) (fetching : Fetching)
  | storing (spent : Nat) (result : Fetched) (landed : Bool)

/-- **Where a call is.** -/
inductive Stage where
  | arrived
  | direct
  | live (operation : Operation) (fetching : Fetching)
  | asking (operation : Operation) (window : String × String) (phase : Phase)
  | ended (answer : Answer)
  | raised
  | abandoned

/-- **A call.** Noted of it are how often the MES was asked, what its owner fetch and its last fetch returned, and when
its snapshot was read; `remembered` is the window of `_served_hits`. -/
structure Call where
  request : Request
  stage : Stage := .arrived
  made : Nat := 0
  snapshot : Option Fetched := none
  last : Option Fetched := none
  readAt : Nat := 0
  remembered : Option (String × String) := none

/-- Who fetched what is published. -/
inductive Origin where
  | owner (fetched : Fetched)
  | caller (request : Request) (fetched : Fetched)
  | elsewhere

/-- **A write that landed**: what was written for whom, and when. -/
structure Publication (policy : ResultCachePolicy) where
  tenant : String
  operation : Operation
  rows : List Row
  footer : Option Footer
  params : Params
  window : String × String
  source : String
  generatedAt : String
  today : Today policy
  writtenAt : Nat
  origin : Origin

/-- **What the calls share**: the store, the locks and the clock; and, of the whole run, the writes that landed. -/
structure World (config : Config Key Lock) where
  store : ResultStore Key
  locked : Lock → Bool
  now : Nat
  calls : List Call
  published : List (Publication config.cache.policy)

/-- What the store answers: what it has; that it cannot be reached; or the lookup raises. -/
inductive Lookup where
  | answered
  | unavailable
  | failed
  deriving DecidableEq

/-- **What happens to a call.** -/
inductive CallEvent (policy : ResultCachePolicy) where
  | begin (today : Today policy)
  | looked (lookup : Lookup)
  | acquired (today : Today policy)
  | snapshotted (result : Option Fetched) (generatedAt : String)
  | put (today : Today policy) (generatedAt : String)
  | reported (confirmed : Bool) (generatedAt : String)
  | evicted (landed : Bool)
  | fetched (result : Option Fetched)
  | judged (agrees landed : Bool)
  | abandoned

/-- **What happens**: time passes, an entry is lost, something is published elsewhere, a call arrives, or something
happens to a call. -/
inductive Event (Key : Type) (policy : ResultCachePolicy) where
  | wait (seconds : Nat)
  | lose (key : Key)
  | published (publication : Publication policy)
  | arrive (request : Request)
  | act (index : Nat) (event : CallEvent policy)

/-! ## A call -/

namespace Call

variable (config : Config Key Lock) (call : Call)

/-- A call comes to a stage. -/
def moves (stage : Stage) : Call :=
  { call with stage }

/-- The question of a call to a snapshot. -/
def view (window : String × String) : ViewRequest :=
  ⟨call.request.filters, call.request.role, call.request.params, window⟩

/-- The tenant of a call. -/
def tenant : String :=
  call.request.filters.tenantId

/-- The key that a snapshot is kept under for a call. -/
def key (operation : Operation) (window : String × String) : Key :=
  config.cache.buildKey call.tenant (keyParams operation call.request.params window)

/-- The lock of a question. -/
def lock (operation : Operation) (window : String × String) : Lock :=
  config.lockKey call.tenant operation (normalizeParams call.request.params window)

/-- **The lock that a call holds.** -/
def held : Option Lock :=
  match call.stage with
  | .asking operation window (.probing true _)
  | .asking operation window .snapshotting
  | .asking operation window (.publishing _ _) => some (call.lock config operation window)
  | _ => none

/-- **`execute_full_step` begins.** -/
def begin (today : Today config.cache.policy) : Call :=
  if !config.validateStep call.request then call.moves .raised
  else if call.request.params.keys.any fun key => decide (Text.lower key ∈ forbiddenRequestParams) then
    call.moves .raised
  else
    match cacheableGrain call.request.operationId, call.request.start with
    | some operation, some start =>
      if config.mode.reads then
        match localCalendarDates config.zone start call.request.stop with
        | none => call.moves .raised
        | some window =>
          call.moves (.asking operation window (.probing false (candidateWindows config.cache.policy today window)))
      else call.moves (.live operation (call.request.firstFetch operation))
    | _, _ => call.moves .direct

/-- The MES is asked instead of the cache. -/
def falls (operation : Operation) (window : String × String) (spent : Nat) : Call :=
  call.moves (.asking operation window (.falling spent (call.request.firstFetch operation)))

/-- **A hit is served**, or evicted where it cannot be. What the validator raises is not caught. -/
def adopt {operation : Operation} (window : String × String) (hit : CacheHit operation) (spent : Nat) : Call :=
  match hit.serve config.cache.context (call.view window) with
  | .error _ => call.moves (.asking operation window (.evicting hit.window spent))
  | .ok served =>
    match call.request.validates served with
    | none => call.moves .raised
    | some false => call.moves (.asking operation window (.evicting hit.window spent))
    | some true =>
      if config.mode.verifies then
        call.moves (.asking operation window (.verifying served hit.window (call.request.firstFetch operation)))
      else call.moves (.ended (.served served none))

/-- A probe has found nothing under any candidate. -/
def missed (operation : Operation) (window : String × String) (locked : Bool) : Call :=
  if locked then call.moves (.asking operation window .snapshotting)
  else if config.snapshotProvider && call.request.allowOwnerSnapshot then
    call.moves (.asking operation window .waiting)
  else call.falls operation window 0

/-- **A snapshot as it was fetched**; `none` is a raised `ProgressDerivationError`. -/
def freshHit (operation : Operation) (window : String × String) (fetched : Fetched) (generatedAt : String) :
    Option (CacheHit operation) :=
  match h : detailRows fetched.rows operation with
  | .error _ => none
  | .ok detail => some {
      rows := detail
      footer := fetched.footer
      generatedAt
      source := "query"
      window
      sourceCallCount := fetched.callCount
      normalized := fun hprogress row hrow => by
        subst hprogress
        exact (isNormalized_of_detailRows h row hrow).isText }

/-- What the MES returned for a call is noted. -/
def notes (fetched : Fetched) : Call :=
  { call with made := call.made + fetched.callCount, last := some fetched }

/-- **A fetch of `_fetch_realtime` ends.** -/
def receives (operation : Operation) (fetching : Fetching) (fetched : Fetched) (again : Fetching → Stage)
    (done : Call → Fetched → Call) : Call :=
  match call.request.received config.settings operation fetching.native fetched with
  | .again => (call.notes fetched).moves (again (call.request.detailFetch operation fetched))
  | .raised => (call.notes fetched).moves .raised
  | .result result => done (call.notes fetched) (fetching.finished result)

/-- The answer of the MES, with the calls of a snapshot that was of no use. -/
def charge (spent : Nat) (result : Fetched) : Answer :=
  .realtime (if spent = 0 then result else result.charged spent)

/-- **`_maybe_write`**, or the end. -/
def keeps (operation : Operation) (window : String × String) (spent : Nat) (result : Fetched) : Call :=
  match call.request.writeReason config.mode result with
  | none => call.moves (.asking operation window (.storing spent result false))
  | some _ => call.moves (.ended (charge spent result))

/-- **What was verified is returned**, with both results. -/
def verified (served : ResourceFetchResult) (window : String × String) (shadow : Fetched) : Call :=
  { call.moves (.ended (.served { served with
      sourceCallCount := served.sourceCallCount + shadow.callCount } (some shadow))) with
    remembered := some window }

end Call

/-! ## The store and the locks -/

namespace World

variable {config : Config Key Lock} [DecidableEq Key] [DecidableEq Lock] (world : World config)

/-- **A write lands**, unless the gate refuses it. -/
def publish (publication : Publication config.cache.policy) : Bool × World config :=
  let written := config.cache.write world.store publication.today world.now publication.tenant publication.operation
    publication.rows publication.footer publication.params publication.window publication.generatedAt
    publication.source true
  (written.1, { world with
    store := written.2
    published := if written.1 then world.published ++ [{ publication with writtenAt := world.now }]
      else world.published })

/-- An entry is gone. -/
def remove (key : Key) : World config :=
  { world with store := fun other => if other = key then none else world.store other }

/-- `V2ResultCache.evict`, where it lands. -/
def evict (call : Call) (operation : Operation) (window : String × String) (landed : Bool) : World config :=
  if landed then world.remove (call.key config operation window) else world

/-- A lock is taken. -/
def acquire (lock : Lock) : World config :=
  { world with locked := Function.update world.locked lock true }

/-- A lock is released. -/
def release (lock : Lock) : World config :=
  { world with locked := Function.update world.locked lock false }

/-- The lock of a question is released, where it is held. -/
def releaseIf (call : Call) (operation : Operation) (window : String × String) (locked : Bool) : World config :=
  if locked then world.release (call.lock config operation window) else world

end World

section Step

variable (config : Config Key Lock) [DecidableEq Key] [DecidableEq Lock] (world : World config) (call : Call)

/-- The store answers a lookup. -/
def look (lookup : Lookup) : Option (World config × Call) :=
  match call.stage with
  | .asking operation window (.probing locked (candidate :: left)) =>
    let next : World config × Call :=
      if left = [] then
        (world, call.missed config operation window locked)
      else (world, call.moves (.asking operation window (.probing locked left)))
    match lookup with
    | .failed => some (world, call.missed config operation window locked)
    | .unavailable => some next
    | .answered =>
      match (world.store.get world.now (call.key config operation candidate)).bind
          fun stored => stored.read operation call.request.params candidate with
      | none => some next
      | some hit => some (world.releaseIf call operation window locked,
          { call with readAt := world.now }.adopt config window hit 0)
  | _ => none

/-- The lock is free, and taken. -/
def acquire (today : Today config.cache.policy) : Option (World config × Call) :=
  match call.stage with
  | .asking operation window .waiting =>
    if world.locked (call.lock config operation window) then none
    else some (world.acquire (call.lock config operation window),
      call.moves (.asking operation window (.probing true (candidateWindows config.cache.policy today window))))
  | _ => none

/-- A snapshot that was fetched is served. -/
def serveFresh (operation : Operation) (window : String × String) (fetched : Fetched) (generatedAt : String) :
    World config × Call :=
  (world.releaseIf call operation window true,
    match Call.freshHit operation window fetched generatedAt with
    | none => call.falls operation window fetched.callCount
    | some hit => call.adopt config window hit fetched.callCount)

/-- **The fetch of an owner ends**, `_fetch_snapshot`. -/
def snapshotted (result : Option Fetched) (generatedAt : String) : Option (World config × Call) :=
  match call.stage with
  | .asking operation window .snapshotting =>
    match result with
    | none => some (world.releaseIf call operation window true, call.falls operation window 0)
    | some fetched =>
      let called := { call with made := call.made + fetched.callCount, snapshot := some fetched }
      if !fetched.complete then
        some (world.releaseIf call operation window true, called.falls operation window fetched.callCount)
      else if config.mode.writes then
        some (world, called.moves (.asking operation window (.publishing fetched false)))
      else if !footerReconciles config.cache.context config.defaultClose fetched.rows fetched.footer then
        some (world.releaseIf call operation window true, called.falls operation window fetched.callCount)
      else some (serveFresh config world called operation window fetched generatedAt)
  | _ => none

/-- **What is written lands**, of an owner or of the caller. -/
def put (today : Today config.cache.policy) (generatedAt : String) : Option (World config × Call) :=
  match call.stage with
  | .asking operation window (.publishing fetched false) =>
    let written := world.publish ⟨call.tenant, operation, fetched.rows, fetched.footer,
      detailParams call.request.params, window, "query", generatedAt, today, world.now, .owner fetched⟩
    some (written.2, call.moves (.asking operation window (.publishing fetched written.1)))
  | .asking operation window (.storing spent result false) =>
    call.last.map fun fetched =>
      let written := world.publish ⟨call.tenant, operation, result.rows, result.footer,
        call.request.params, window, "query", generatedAt, today, world.now, .caller call.request fetched⟩
      (written.2, call.moves (.asking operation window (.storing spent result written.1)))
  | _ => none

/-- The store says whether it took what was written. -/
def reported (confirmed : Bool) (generatedAt : String) : Option (World config × Call) :=
  match call.stage with
  | .asking operation window (.publishing fetched landed) =>
    if landed && confirmed then some (serveFresh config world call operation window fetched generatedAt)
    else some (world.releaseIf call operation window true, call.falls operation window fetched.callCount)
  | .asking _ _ (.storing spent result _) => some (world, call.moves (.ended (Call.charge spent result)))
  | _ => none

/-- What could not be served was evicted. -/
def evicted (landed : Bool) : Option (World config × Call) :=
  match call.stage with
  | .asking operation window (.evicting hitWindow spent) =>
    some (world.evict call operation hitWindow landed, call.falls operation window spent)
  | _ => none

/-- **A fetch from the MES ends.** -/
def fetched (result : Option Fetched) : Option Call :=
  match call.stage, result with
  | .direct, none | .live _ _, none | .asking _ _ (.verifying _ _ _), none | .asking _ _ (.falling _ _), none =>
    some (call.moves .raised)
  | .direct, some fetched => some ((call.notes fetched).moves (.ended (.realtime fetched)))
  | .live operation fetching, some fetched =>
    some (call.receives config operation fetching fetched (.live operation) fun called result =>
      called.moves (.ended (.realtime result)))
  | .asking operation window (.verifying served hitWindow fetching), some fetched =>
    some (call.receives config operation fetching fetched
      (fun fetching => .asking operation window (.verifying served hitWindow fetching))
      fun called shadow => called.verified served hitWindow shadow)
  | .asking operation window (.falling spent fetching), some fetched =>
    some (call.receives config operation fetching fetched
      (fun fetching => .asking operation window (.falling spent fetching))
      fun called result => called.keeps config operation window spent result)
  | _, _ => none

/-- **The kernel has compared what was verified**: `release_cached_result`, or `discard_cached_result`. -/
def judged (agrees landed : Bool) : Option (World config × Call) :=
  match call.stage, cacheableGrain call.request.operationId, call.remembered with
  | .ended _, some operation, some hitWindow =>
    some (if agrees then world else world.evict call operation hitWindow landed, { call with remembered := none })
  | _, _, _ => none

/-- A call is abandoned, and lets go of its lock. -/
def abandoned : Option (World config × Call) :=
  match call.stage with
  | .ended _ | .raised | .abandoned => none
  | _ => some (match call.held config with
      | some lock => world.release lock
      | none => world, call.moves .abandoned)

/-- What happens to a call. -/
def act : CallEvent config.cache.policy → Option (World config × Call)
  | .begin today =>
    match call.stage with
    | .arrived => some (world, call.begin config today)
    | _ => none
  | .looked lookup => look config world call lookup
  | .acquired today => acquire config world call today
  | .snapshotted result generatedAt => snapshotted config world call result generatedAt
  | .put today generatedAt => put config world call today generatedAt
  | .reported confirmed generatedAt => reported config world call confirmed generatedAt
  | .evicted landed => evicted config world call landed
  | .fetched result => (fetched config call result).map fun called => (world, called)
  | .judged agrees landed => judged config world call agrees landed
  | .abandoned => abandoned config world call

/-- **What happens.** What is published elsewhere has no call here. -/
def step : Event Key config.cache.policy → Option (World config)
  | .wait seconds => some { world with now := world.now + seconds }
  | .lose key => some (world.remove key)
  | .published publication => some (world.publish { publication with origin := .elsewhere }).2
  | .arrive request => some { world with calls := world.calls ++ [{ request }] }
  | .act index event =>
    world.calls[index]?.bind fun call =>
      (act config world call event).map fun after =>
        { after.1 with calls := world.calls.set index after.2 }

/-- The executor before any call. -/
def start : World config :=
  ⟨.empty, fun _ => false, 0, [], []⟩

/-- **The executor.** -/
def machine : Machine (World config) (Event Key config.cache.policy) :=
  ⟨start config, step config⟩

end Step

end Serving
