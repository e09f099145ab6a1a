import FactoryAgent.Credentials.Requests

/-!
# Credential isolation

Inside a binding a task reads its own context variable, which only its own refreshes change, and a
refresh that answers for another identity is refused. So a bound request carries a bundle that was
exchanged for its caller. Outside any binding a request carries the bundle of the adapter, and each
accepted refresh of any caller replaces that one: the directory lookup that `authorize` makes for a
caller without a department is sent with the placeholder, or with the credential of whoever refreshed
last.
-/

/-- **No request outside a binding**: `execute` is only called by a task that is bound. -/
def BoundRequests (world : MesWorld) : MesAction → Prop
  | .act index (.execute _) => ∀ task ∈ world.tasks[index]?, task.current ≠ none
  | _ => True

instance (world : MesWorld) (action : MesAction) : Decidable (BoundRequests world action) := by
  unfold BoundRequests
  split <;> infer_instance

/-- **A request is its caller's own**: it was made within a binding, with a bundle that was exchanged
for a credential of its caller. -/
def SentRequest.Own (shared : MesShared) (request : SentRequest) : Prop :=
  request.bound = true ∧ ∃ caller, request.caller = some caller ∧ shared.Own caller request.bundle

/-- A binding makes the requests a caller's own, and a refresh keeps them so. -/
theorem ownRule : RequestRule BoundRequests SentRequest.Own where
  mono := by
    rintro shared shared' request hissued ⟨hbound, caller, hcaller, hown⟩
    exact ⟨hbound, caller, hcaller, hown.mono hissued⟩
  bound := by
    intro world index task caller authorization entry _ _ hfiled _ _ hentry
    exact ⟨rfl, caller, rfl, (hfiled caller entry hentry).1⟩
  refreshed := by
    rintro shared shared' caller authorization bundle fresh encrypted ⟨-, c, hc, -, howner⟩ - hmem
      hsame -
    exact ⟨rfl, c, hc, ⟨encrypted, hmem⟩, hsame.trans howner⟩
  unbound := by
    intro world index task now hguard htask hcurrent
    exact absurd hcurrent (hguard task htask)

namespace MesWorld

/-- The bundle of a bound task depends on no other task. -/
theorem requestBundle_of_bound {task : MesTask} (hbound : task.current ≠ none)
    (shared shared' : MesShared) : task.requestBundle shared' = task.requestBundle shared := by
  obtain ⟨bundle, hcurrent⟩ := Option.ne_none_iff_exists'.mp hbound
  unfold MesTask.requestBundle MesTask.activeBundle
  rw [hcurrent]
  rfl

namespace Scenario

/-- The answer to the first user's refresh. -/
def answer : TaskAction := .refreshed (some (token "plant-a" "7" "02" "001" 7200000000))

/-- A manager of one plant is authorized and bound, and its token, about to expire, is refreshed
before its request is sent. -/
def refreshing : List MesAction :=
  arrives 0 "a" (token "plant-a" "7" "02" "001" 200000000) ++
  [.act 0 .authorize, .act 0 .bind, .act 0 (.execute 0), .act 0 answer,
   .act 0 (.attempt .answered)]

/-- Then a user of another plant whose token carries no department is authorized. -/
def lookup : List MesAction :=
  arrives 1 "b" (token "plant-b" "9" "00" "" 7200000000) ++
  [.act 1 .authorize, .act 1 (.execute 0), .act 1 (.attempt .answered)]

/-- Two users of two plants are bound; the request of the second one has failed once, and the token
of the first one is being refreshed. -/
def bothBound : List MesAction :=
  arrives 0 "a" (token "plant-a" "7" "02" "001" 200000000) ++
  arrives 1 "b" (token "plant-b" "9" "00" "005" 7200000000) ++
  [.act 0 .authorize, .act 1 .authorize, .act 0 .bind, .act 1 .bind, .act 1 (.execute 0),
   .act 1 (.attempt .transportFailed), .act 0 (.execute 0)]

end Scenario

end MesWorld
