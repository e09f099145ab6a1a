import FactoryAgent.Credentials.Requests

/-!
# The scope and the credential agree

The data scope of an interaction is derived from the live entry of its caller when the stream is
opened; the credential is bound later, from whatever entry is live then. After that a refresh is
compared with the bound bundle, and an answer with another role or other departments ends the
interaction. So the request agrees with the scope exactly where the binding did.
-/

/-- **Agreeing bindings**: where an authorized caller is bound, its live entry still has the role and
the departments that the scope was derived from. -/
def AgreeingBindings (world : MesWorld) : MesAction → Prop
  | .act index .bind => ∀ task ∈ world.tasks[index]?, ∀ caller ∈ task.caller,
      ∀ authorization ∈ task.authorizing.resolved, ∀ entry ∈ world.shared.gateway.entryOf caller,
        entry.bundle.agrees authorization.membership = true
  | _ => True

/-- Bindings where the live entry has another role or other departments. -/
def DisagreeingBindings (world : MesWorld) : MesAction → Prop
  | .act index .bind => ∀ task ∈ world.tasks[index]?, ∀ caller ∈ task.caller,
      ∀ authorization ∈ task.authorizing.resolved, ∀ entry ∈ world.shared.gateway.entryOf caller,
        entry.bundle.agrees authorization.membership = false
  | _ => True

instance (world : MesWorld) (action : MesAction) : Decidable (AgreeingBindings world action) := by
  unfold AgreeingBindings
  split <;> infer_instance

/-- **A request within a binding agrees with its scope.** The bundle has the role and the departments
that the data scope was derived from. -/
def SentRequest.Agrees (request : SentRequest) : Prop :=
  request.bound = true → ∃ authorization, request.authorization = some authorization
    ∧ request.bundle.Agrees authorization.membership

/-- A request within a binding that disagrees with its scope. -/
def SentRequest.Disagrees (request : SentRequest) : Prop :=
  request.bound = true → ∃ authorization, request.authorization = some authorization
    ∧ ¬ request.bundle.Agrees authorization.membership

/-- An agreeing binding makes the requests agree, and a refresh keeps them so. -/
theorem agreementRule : RequestRule AgreeingBindings (fun _ request => request.Agrees) where
  mono := fun _ h => h
  bound := by
    intro world index task caller authorization entry hguard htask _ hcaller hauthorizing hentry _
    have hagrees := hguard task htask caller hcaller authorization
      (by simp [hauthorizing, Authorizing.resolved]) entry hentry
    exact ⟨authorization, rfl, MesCredentialBundle.agrees_iff.mp hagrees⟩
  refreshed := by
    intro shared shared' caller authorization bundle fresh encrypted h _ _ _ hsame _
    obtain ⟨a, ha, hagrees⟩ := h rfl
    exact ⟨a, ha, hagrees.of_not_scopeChanged hsame⟩
  unbound := by
    intro world index task now _ _ hcurrent hbound
    simp [MesTask.request, hcurrent] at hbound

/-- A disagreeing binding makes the requests disagree, and a refresh keeps them so. -/
theorem disagreementRule : RequestRule DisagreeingBindings (fun _ request => request.Disagrees) where
  mono := fun _ h => h
  bound := by
    intro world index task caller authorization entry hguard htask _ hcaller hauthorizing hentry _
    have hdisagrees := hguard task htask caller hcaller authorization
      (by simp [hauthorizing, Authorizing.resolved]) entry hentry
    refine ⟨authorization, rfl, fun hagrees => ?_⟩
    rw [MesCredentialBundle.agrees_iff.mpr hagrees] at hdisagrees
    cases hdisagrees
  refreshed := by
    intro shared shared' caller authorization bundle fresh encrypted h _ _ _ hsame _
    obtain ⟨a, ha, hdisagrees⟩ := h rfl
    exact ⟨a, ha, fun hagrees => hdisagrees (hagrees.of_not_scopeChanged
      (MesCredentialBundle.scopeChanged_symm hsame))⟩
  unbound := by
    intro world index task now _ _ hcurrent hbound
    simp [MesTask.request, hcurrent] at hbound

namespace MesWorld

variable {settings : MesSettings} {world : MesWorld}

/-- **Nothing else repairs a disagreement**: where every binding disagrees, so does each request
within one. -/
theorem requests_disagree
    (h : Machine.Reach (mesMachine settings) DisagreeingBindings world) :
    ∀ request ∈ world.shared.sent, request.bound = true →
      ∃ authorization, request.authorization = some authorization
        ∧ ¬ request.bundle.Agrees authorization.membership :=
  (requests disagreementRule h).1.sent

/-! ## A role that changes before the binding -/

namespace Scenario

/-- A stream is opened by an employee, and authorized. -/
def opened : List MesAction :=
  arrives 0 "a" (token "plant-a" "7" "00" "001" 7200000000) ++ [.act 0 .authorize]

/-- Another request of the same user brings another credential, whose exchange returns the role of
an owner. -/
def promoted : List MesAction := arrives 1 "a2" (token "plant-a" "7" "99" "001" 7200000000)

/-- The run of the stream binds the credential and fetches. -/
def fetches : List MesAction := [.act 0 .bind, .act 0 (.execute 0), .act 0 (.attempt .answered)]

end Scenario

end MesWorld
