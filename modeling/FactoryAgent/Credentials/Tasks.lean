import FactoryAgent.Credentials.Authorization
import FactoryAgent.Lib.Machine

/-!
# The tasks that share one adapter

Any number of asyncio tasks authenticate callers, authorize them, bind a credential and send MES
requests through the one `HongzhaoMesAdapter` of the process. What they share is the gateway and the
`_bundle` field of the adapter; `CURRENT_BUNDLE` is a context variable, so each task has its own, and
a task that is created inside a binding starts with a copy of it.

An action is what one task does up to its next await. The token endpoint may answer anything, at any
time and in any order. The world records which bundles were exchanged, and the requests that were
sent; the request body and the bearer header of one request come from one bundle.

Not modelled: the check of the tenant registry, which only refuses; the run budget; and the contents
of a request and of its answer.
-/

/-- The settings of the adapter and of the gateway. -/
structure MesSettings where
  maxRetries : Nat
  refreshThresholdSeconds : Int
  exchangeThresholdSeconds : Int

/-- **A request as it was sent**: for whom, under which authorization, within a binding or not, and
with which bundle. -/
structure SentRequest where
  caller : Option TrustedCredential
  authorization : Option ResolvedAuthorization
  bound : Bool
  bundle : MesCredentialBundle
  deriving DecidableEq

/-- **What the tasks share.** -/
structure MesShared where
  gateway : TokenGateway
  /-- The `_bundle` field of the adapter. -/
  bundle : MesCredentialBundle
  /-- The bundles that were exchanged, with the encrypted credential of each. -/
  issued : List (String × MesCredentialBundle)
  sent : List SentRequest
  deriving DecidableEq

/-- How far the authorization of a task is. -/
inductive Authorizing where
  | unauthorized
  | lookingUp (membership : TenantMembership)
  | authorized (authorization : ResolvedAuthorization)
  deriving DecidableEq

/-- The authorization, once there is one. -/
def Authorizing.resolved : Authorizing → Option ResolvedAuthorization
  | .authorized authorization => some authorization
  | _ => none

/-- **What a task awaits.** -/
inductive Activity where
  | idle
  /-- `authenticate` awaits the exchange. -/
  | exchanging (encrypted : String)
  /-- `GatewayTokenRefresher.refresh` of the bundle awaits the exchange for the entry; the flag says
  whether a request was sent before. -/
  | refreshing (bundle : MesCredentialBundle) (entry : LiveEntry) (retried : Bool)
  /-- `_send` has attempts left with the bundle it read. -/
  | sending (bundle : MesCredentialBundle) (attemptsLeft : Nat) (retried : Bool)
  deriving DecidableEq

/-- **A task.** `current` is its `CURRENT_BUNDLE`. -/
structure MesTask where
  caller : Option TrustedCredential
  authorizing : Authorizing
  current : Option MesCredentialBundle
  activity : Activity
  deriving DecidableEq

/-- How one attempt of `_send` ended. No branch of `_map_status` raises `UnauthenticatedError`; the
clause of `execute` that catches it is modelled all the same. -/
inductive AttemptOutcome where
  | transportFailed
  | answered
  | unauthenticated
  deriving DecidableEq

/-- **What one task does up to its next await.** -/
inductive TaskAction where
  | authenticate (encrypted : String) (now : Instant)
  | exchanged (response : Option MesCredentialBundle)
  | authorize
  | lookedUp (deptIds : List String)
  | bind
  | unbind
  | execute (now : Instant)
  | refreshed (response : Option MesCredentialBundle)
  | attempt (outcome : AttemptOutcome)
  deriving DecidableEq

/-! ## The shared part -/

namespace MesShared

/-- The bundle that an answer of the token endpoint becomes: a new object. -/
def numbered (shared : MesShared) (response : MesCredentialBundle) : MesCredentialBundle :=
  { response with exchange := shared.issued.length + 1 }

/-- The exchange of an encrypted credential for a bundle is recorded. -/
def issue (shared : MesShared) (encrypted : String) (bundle : MesCredentialBundle) : MesShared :=
  { shared with issued := shared.issued ++ [(encrypted, bundle)] }

/-- **The bundle is a caller's own**: it was exchanged for a credential of that caller. -/
def Own (shared : MesShared) (caller : TrustedCredential) (bundle : MesCredentialBundle) : Prop :=
  (∃ encrypted, (encrypted, bundle) ∈ shared.issued) ∧ bundle.caller = caller

end MesShared

/-! ## One task -/

namespace MesTask

variable (settings : MesSettings) (shared : MesShared) (task : MesTask)

/-- A request that has just arrived. -/
def arrived : MesTask := ⟨none, .unauthorized, none, .idle⟩

/-- Refused: the exception leaves the call. -/
def refused : MesTask := { task with activity := .idle }

/-- `_active_bundle`. -/
def activeBundle : MesCredentialBundle := task.current.getD shared.bundle

/-- Whether a request may be made: within a binding, or by the directory lookup of `authorize`. -/
def mayRequest : Bool :=
  match task.authorizing with
  | .lookingUp _ => true
  | _ => task.current.isSome

/-- `authenticate` up to the exchange. -/
def authenticate (encrypted : String) (now : Instant) : Option (MesShared × MesTask) :=
  if task.caller = none ∧ task.activity = .idle ∧ Role.stripped encrypted ≠ "" then
    match shared.gateway.cached encrypted now settings.exchangeThresholdSeconds with
    | some entry => some (shared, { task with caller := some entry.principal.credential })
    | none => some (shared, { task with activity := .exchanging encrypted })
  else none

/-- The rest of `authenticate`. -/
def exchanged (response : Option MesCredentialBundle) : Option (MesShared × MesTask) :=
  match task.activity, response with
  | .exchanging _, none => some (shared, task.refused)
  | .exchanging encrypted, some response =>
    let bundle := shared.numbered response
    match shared.gateway.authenticated encrypted bundle with
    | none => some (shared.issue encrypted bundle, task.refused)
    | some (principal, gateway) =>
      some ({ shared.issue encrypted bundle with gateway := gateway },
        { task with caller := some principal.credential, activity := .idle })
  | _, _ => none

/-- `authorize` up to the directory lookup, which it makes outside any binding. -/
def authorize : Option (MesShared × MesTask) :=
  match task.caller, task.activity, task.current with
  | some caller, .idle, none =>
    (shared.gateway.resolveMembership caller).map (fun membership =>
      (shared, { task with
        authorizing := match membership.currentDepts with
          | some deptIds => .authorized ⟨membership, deptIds⟩
          | none => .lookingUp membership }))
  | _, _, _ => none

/-- The rest of `authorize`, once the directory answered. -/
def lookedUp (deptIds : List String) : Option (MesShared × MesTask) :=
  match task.authorizing, task.activity with
  | .lookingUp membership, .idle =>
    some (shared, { task with authorizing := .authorized ⟨membership, deptIds⟩ })
  | _, _ => none

/-- The start of `bind_for`, in an authorized run. -/
def bind : Option (MesShared × MesTask) :=
  match task.caller, task.authorizing, task.activity, task.current with
  | some caller, .authorized _, .idle, none =>
    (shared.gateway.entryOf caller).map (fun entry =>
      (shared, { task with current := some entry.bundle }))
  | _, _, _, _ => none

/-- The end of `bind_for`. -/
def unbind : Option (MesShared × MesTask) :=
  if task.activity = .idle ∧ task.current ≠ none then some (shared, { task with current := none })
  else none

/-- `_refresh_bundle` up to the exchange: refused without a bound bundle, or without an entry of its
caller. -/
def refresh (retried : Bool) : MesTask :=
  match task.current with
  | none => task.refused
  | some bundle =>
    match shared.gateway.entryOf bundle.caller with
    | none => task.refused
    | some entry => { task with activity := .refreshing bundle entry retried }

/-- `_send` up to its first attempt. -/
def send (bundle : MesCredentialBundle) (retried : Bool) : MesTask :=
  { task with activity := .sending bundle (settings.maxRetries + 1) retried }

/-- `execute` up to the refresh or to the first attempt. -/
def execute (now : Instant) : Option (MesShared × MesTask) :=
  if task.activity = .idle ∧ task.mayRequest then
    if (task.activeBundle shared).needsRefresh now settings.refreshThresholdSeconds then
      some (shared, task.refresh shared false)
    else some (shared, task.send settings (task.activeBundle shared) false)
  else none

/-- The rest of `_refresh_bundle`. Where the refreshed bundle has other identity facts the bound one
is restored and the request refused; else the refreshed one is bound, and becomes the bundle of the
adapter. The rebinding in `refresh_bundle` itself is overwritten in both cases. -/
def refreshed (response : Option MesCredentialBundle) : Option (MesShared × MesTask) :=
  match task.activity, response with
  | .refreshing _ _ _, none => some (shared, task.refused)
  | .refreshing bundle entry retried, some response =>
    let fresh := shared.numbered response
    let shared := shared.issue entry.encryptedCredential fresh
    match shared.gateway.refreshed entry bundle.caller fresh with
    | none => some (shared, task.refused)
    | some gateway =>
      if fresh.scopeChanged bundle then
        some ({ shared with gateway := gateway },
          { task with current := some bundle, activity := .idle })
      else
        some ({ shared with gateway := gateway, bundle := fresh },
          { task with current := some fresh }.send settings fresh retried)
  | _, _ => none

/-- One attempt of `_send`, which is recorded. A failed credential is refreshed once, and the request
sent once more. -/
def attempt (outcome : AttemptOutcome) : Option (MesShared × MesTask) :=
  match task.activity with
  | .sending bundle (attemptsLeft + 1) retried =>
    let shared := { shared with sent := shared.sent ++
      [⟨task.caller, task.authorizing.resolved, task.current.isSome, bundle⟩] }
    match outcome with
    | .transportFailed =>
      some (shared, { task with
        activity := if attemptsLeft = 0 then .idle else .sending bundle attemptsLeft retried })
    | .answered => some (shared, task.refused)
    | .unauthenticated =>
      some (shared, if retried then task.refused else task.refresh shared true)
  | _ => none

/-- **One action of one task.** -/
def act : TaskAction → Option (MesShared × MesTask)
  | .authenticate encrypted now => task.authenticate settings shared encrypted now
  | .exchanged response => task.exchanged shared response
  | .authorize => task.authorize shared
  | .lookedUp deptIds => task.lookedUp shared deptIds
  | .bind => task.bind shared
  | .unbind => task.unbind shared
  | .execute now => task.execute settings shared now
  | .refreshed response => task.refreshed settings shared response
  | .attempt outcome => task.attempt shared outcome

/-- The bundle that the request under way is sent with, or else the next one. -/
def requestBundle : MesCredentialBundle :=
  match task.activity with
  | .sending bundle _ _ => bundle
  | _ => task.activeBundle shared

end MesTask

/-! ## All tasks -/

/-- **The tasks and what they share.** -/
structure MesWorld where
  shared : MesShared
  tasks : List MesTask
  deriving DecidableEq

/-- An action of the world. -/
inductive MesAction where
  /-- A request arrives. -/
  | arrive
  /-- A task creates another one, which starts with a copy of its context. -/
  | fork (index : Nat)
  /-- A task acts. -/
  | act (index : Nat) (action : TaskAction)
  deriving DecidableEq

namespace MesWorld

/-- The bundle the adapter is composed with: a placeholder. It never expires. -/
def unconfigured : MesCredentialBundle where
  exchange := 0
  accessToken := "unconfigured"
  appKey := "unconfigured"
  sign := "unconfigured"
  timestamp := 0
  expiresAt := 253402300799999999
  user := "unconfigured"
  uname := "unconfigured"
  roles := []
  dept := ""
  boundDepts := []

/-- The world before anything happened. -/
def initial : MesWorld := ⟨⟨.empty, unconfigured, [], []⟩, []⟩

/-- `asyncio.create_task`: the new task copies the context of an idle one. -/
def fork (world : MesWorld) (index : Nat) : Option MesWorld :=
  match world.tasks[index]? with
  | none => none
  | some task =>
    if task.activity = .idle then some { world with tasks := world.tasks ++ [task] } else none

/-- A task acts. -/
def act (settings : MesSettings) (world : MesWorld) (index : Nat) (action : TaskAction) :
    Option MesWorld :=
  match world.tasks[index]? with
  | none => none
  | some task => (task.act settings world.shared action).map (fun acted =>
      ⟨acted.1, world.tasks.set index acted.2⟩)

/-- **One action of the world.** -/
def step (settings : MesSettings) (world : MesWorld) : MesAction → Option MesWorld
  | .arrive => some { world with tasks := world.tasks ++ [.arrived] }
  | .fork index => world.fork index
  | .act index action => world.act settings index action

end MesWorld

/-- **The machine of the tasks that share an adapter.** -/
def mesMachine (settings : MesSettings) : Machine MesWorld MesAction :=
  ⟨MesWorld.initial, MesWorld.step settings⟩

namespace MesWorld

/-! ## Runs of the machine -/

namespace Scenario

/-- What the token endpoint answers for a user of a plant. -/
def token (plant user role dept : String) (expiresAt : Instant) : MesCredentialBundle :=
  ⟨0, plant ++ "/token", plant, "sign", 1, expiresAt, user, user, [role], dept, []⟩

/-- The settings of the deployment. -/
def settings : MesSettings := ⟨2, 300, 300⟩

/-- A request arrives, as task `index`, and its credential is exchanged. -/
def arrives (index : Nat) (encrypted : String) (bundle : MesCredentialBundle) : List MesAction :=
  [.arrive, .act index (.authenticate encrypted 0), .act index (.exchanged (some bundle))]

/-- The world after a list of actions. -/
def world (actions : List MesAction) : MesWorld := (mesMachine settings).after actions

end Scenario

/-! ## What one action can do -/

variable {settings : MesSettings} {world world' : MesWorld}

/-- **Every step leaves the other tasks as they are.** An action of a task changes that task and what
the tasks share; otherwise a task is added, a new one or the copy of an idle one. -/
theorem step_cases {action : MesAction} (h : world.step settings action = some world') :
    (∃ index act task acted, action = .act index act ∧ world.tasks[index]? = some task
      ∧ task.act settings world.shared act = some acted
      ∧ world' = ⟨acted.1, world.tasks.set index acted.2⟩)
    ∨ (∃ task, (task = .arrived ∨ task ∈ world.tasks)
      ∧ world' = ⟨world.shared, world.tasks ++ [task]⟩) := by
  cases action with
  | arrive => exact Or.inr ⟨_, Or.inl rfl, (Option.some.inj h).symm⟩
  | fork index =>
    simp only [step, fork] at h
    split at h
    · cases h
    · rename_i task htask
      split at h
      · exact Or.inr ⟨task, Or.inr (List.mem_of_getElem? htask), (Option.some.inj h).symm⟩
      · cases h
  | act index act =>
    simp only [step, MesWorld.act] at h
    split at h
    · cases h
    · rename_i task htask
      obtain ⟨acted, hacted, heq⟩ := Option.map_eq_some_iff.mp h
      exact Or.inl ⟨index, act, task, acted, rfl, htask, hacted, heq.symm⟩

/-- **The invariant rule for tasks.** What holds of the shared part and of every task, holds of a
task that arrives, is kept by the actions of a task, and does not depend on the other tasks' actions,
holds in every reachable world. -/
theorem invariant_of_acts {G : MesWorld → MesAction → Prop} {S : MesShared → Prop}
    {T : MesShared → MesTask → Prop} (hinit : S initial.shared)
    (harrived : ∀ shared, T shared .arrived)
    (hact : ∀ {world : MesWorld} {index action task shared' task'}, G world (.act index action) →
      world.tasks[index]? = some task → S world.shared → T world.shared task →
      task.act settings world.shared action = some (shared', task') →
      S shared' ∧ T shared' task' ∧ ∀ other, T world.shared other → T shared' other)
    {world : MesWorld} (h : Machine.Reach (mesMachine settings) G world) :
    S world.shared ∧ ∀ task ∈ world.tasks, T world.shared task := by
  refine h.invariant (I := fun w => S w.shared ∧ ∀ task ∈ w.tasks, T w.shared task)
    ⟨hinit, fun _ ht => absurd ht List.not_mem_nil⟩ ?_
  rintro s t action ⟨hshared, htasks⟩ hguard hstep
  obtain ⟨index, act, task, ⟨shared', task'⟩, rfl, htask, hacted, rfl⟩ | ⟨task, htask, rfl⟩ :=
    step_cases hstep
  · obtain ⟨hS, hT, hothers⟩ :=
      hact hguard htask hshared (htasks task (List.mem_of_getElem? htask)) hacted
    refine ⟨hS, fun other hother => ?_⟩
    rcases List.mem_or_eq_of_mem_set hother with hmem | rfl
    · exact hothers other (htasks other hmem)
    · exact hT
  · refine ⟨hshared, fun other hother => ?_⟩
    rcases List.mem_append.mp hother with hmem | hmem
    · exact htasks other hmem
    · rw [List.mem_singleton] at hmem
      subst hmem
      rcases htask with rfl | hmem
      · exact harrived s.shared
      · exact htasks other hmem

end MesWorld
