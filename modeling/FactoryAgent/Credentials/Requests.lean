import FactoryAgent.Credentials.Tasks

/-!
# What holds of every request

A request is sent with a bundle that its task read before: the one of its binding, the one a refresh
replaced it by, or – outside any binding – the one of the adapter. So a property of requests holds of
all of them once it holds where a bundle is bound, is kept by a refresh, and holds of a request that
is begun outside a binding (`RequestRule`). The rule is proved here; the next modules apply it.
-/

namespace MesShared

/-- **Every live entry is filed** under the caller its bundle was exchanged for, with the principal of
its bundle. -/
def Filed (shared : MesShared) : Prop :=
  ∀ caller entry, shared.gateway.entryOf caller = some entry →
    shared.Own caller entry.bundle ∧ principalFromBundle entry.bundle = some entry.principal

variable {shared shared' : MesShared}

/-- A bundle that was exchanged stays so. -/
theorem Own.mono {caller : TrustedCredential} {bundle : MesCredentialBundle}
    (hissued : ∀ exchange ∈ shared.issued, exchange ∈ shared'.issued)
    (h : shared.Own caller bundle) : shared'.Own caller bundle :=
  ⟨h.1.imp (fun _ hmem => hissued _ hmem), h.2⟩

/-- The gateway is filed as long as it is only the rest that changes. -/
theorem Filed.mono (hissued : ∀ exchange ∈ shared.issued, exchange ∈ shared'.issued)
    (hgateway : shared'.gateway = shared.gateway) (h : shared.Filed) : shared'.Filed := by
  intro caller entry hentry
  rw [hgateway] at hentry
  exact ⟨(h caller entry hentry).1.mono hissued, (h caller entry hentry).2⟩

/-- Storing an exchanged bundle with its principal keeps the gateway filed. -/
theorem Filed.store (h : shared.Filed) (entry : LiveEntry)
    (hissued : ∀ exchange ∈ shared.issued, exchange ∈ shared'.issued)
    (hexchanged : ∃ encrypted, (encrypted, entry.bundle) ∈ shared'.issued)
    (hprincipal : principalFromBundle entry.bundle = some entry.principal)
    (hgateway : shared'.gateway = shared.gateway.store entry) : shared'.Filed := by
  intro caller e he
  rw [hgateway, TokenGateway.entryOf_store] at he
  split at he
  · rename_i hcaller
    cases he
    exact ⟨⟨hexchanged, (TokenGateway.principal_credential hprincipal).symm.trans hcaller.symm⟩,
      hprincipal⟩
  · exact ⟨(h caller e he).1.mono hissued, (h caller e he).2⟩

theorem issued_issue (encrypted : String) (bundle : MesCredentialBundle) :
    ∀ exchange ∈ shared.issued, exchange ∈ (shared.issue encrypted bundle).issued :=
  fun _ h => List.mem_append_left _ h

end MesShared

/-- The request that a task makes with a bundle. -/
def MesTask.request (task : MesTask) (bundle : MesCredentialBundle) : SentRequest :=
  ⟨task.caller, task.authorizing.resolved, task.current.isSome, bundle⟩

/-- **A rule for requests**: a property of requests that is established by a binding and by a request
outside any binding, and kept by a refresh. -/
structure RequestRule (G : MesWorld → MesAction → Prop) (Q : MesShared → SentRequest → Prop) :
    Prop where
  mono : ∀ {shared shared' request}, (∀ exchange ∈ shared.issued, exchange ∈ shared'.issued) →
    Q shared request → Q shared' request
  bound : ∀ {world : MesWorld} {index task caller authorization entry},
    G world (.act index .bind) → world.tasks[index]? = some task → world.shared.Filed →
    task.caller = some caller → task.authorizing = .authorized authorization →
    world.shared.gateway.entryOf caller = some entry →
    Q world.shared ⟨some caller, some authorization, true, entry.bundle⟩
  refreshed : ∀ {shared shared' : MesShared} {caller authorization bundle fresh encrypted},
    Q shared ⟨caller, authorization, true, bundle⟩ →
    (∀ exchange ∈ shared.issued, exchange ∈ shared'.issued) →
    (encrypted, fresh) ∈ shared'.issued → fresh.caller = bundle.caller →
    fresh.scopeChanged bundle = false → Q shared' ⟨caller, authorization, true, fresh⟩
  unbound : ∀ {world : MesWorld} {index task now},
    G world (.act index (.execute now)) → world.tasks[index]? = some task → task.current = none →
    Q world.shared (task.request world.shared.bundle)

/-- **A task whose bundles have the property.** -/
structure MesTask.Holds (Q : MesShared → SentRequest → Prop) (shared : MesShared) (task : MesTask) :
    Prop where
  exchanging : ∀ encrypted, task.activity = .exchanging encrypted → task.caller = none
  bound : ∀ bundle, task.current = some bundle →
    task.caller ≠ none ∧ (∃ a, task.authorizing = .authorized a) ∧ Q shared (task.request bundle)
  refreshing : ∀ bundle entry retried, task.activity = .refreshing bundle entry retried →
    task.current = some bundle
  sending : ∀ bundle attemptsLeft retried, task.activity = .sending bundle attemptsLeft retried →
    Q shared (task.request bundle)

namespace MesTask.Holds

variable {G : MesWorld → MesAction → Prop} {Q : MesShared → SentRequest → Prop}
variable {settings : MesSettings} {shared shared' : MesShared} {task task' : MesTask}

theorem arrived : MesTask.Holds Q shared .arrived where
  exchanging := fun _ h => nomatch h
  bound := fun _ h => nomatch h
  refreshing := fun _ _ _ h => nomatch h
  sending := fun _ _ _ h => nomatch h

/-- A task with nothing under way only has its binding. -/
theorem of_idle (hidle : task.activity = .idle)
    (hbound : ∀ bundle, task.current = some bundle →
      task.caller ≠ none ∧ (∃ a, task.authorizing = .authorized a)
        ∧ Q shared (task.request bundle)) : task.Holds Q shared where
  exchanging := fun _ h => by simp [hidle] at h
  bound := hbound
  refreshing := fun _ _ _ h => by simp [hidle] at h
  sending := fun _ _ _ h => by simp [hidle] at h

theorem refused (h : task.Holds Q shared) : task.refused.Holds Q shared := of_idle rfl h.bound

theorem mono (hrule : RequestRule G Q)
    (hissued : ∀ exchange ∈ shared.issued, exchange ∈ shared'.issued) (h : task.Holds Q shared) :
    task.Holds Q shared' where
  exchanging := h.exchanging
  bound := fun bundle hb => ⟨(h.bound bundle hb).1, (h.bound bundle hb).2.1,
    hrule.mono hissued (h.bound bundle hb).2.2⟩
  refreshing := h.refreshing
  sending := fun bundle n r hs => hrule.mono hissued (h.sending bundle n r hs)

/-- A refresh is only begun for the bound bundle. -/
theorem refresh (h : task.Holds Q shared) (retried : Bool) :
    (task.refresh shared' retried).Holds Q shared := by
  unfold MesTask.refresh
  split
  · exact h.refused
  · rename_i bundle hcurrent
    split
    · exact h.refused
    · exact {
        exchanging := fun _ he => nomatch he
        bound := h.bound
        refreshing := fun _ _ _ he => by cases he; exact hcurrent
        sending := fun _ _ _ he => nomatch he }

theorem send {bundle : MesCredentialBundle} (h : task.Holds Q shared)
    (hbundle : Q shared (task.request bundle)) (retried : Bool) :
    (task.send settings bundle retried).Holds Q shared where
  exchanging := fun _ he => nomatch he
  bound := h.bound
  refreshing := fun _ _ _ he => nomatch he
  sending := fun _ _ _ he => by cases he; exact hbundle

/-- A task without a caller has no binding. -/
theorem unbound (h : task.Holds Q shared) (hcaller : task.caller = none) : task.current = none := by
  cases hcurrent : task.current with
  | none => rfl
  | some bundle => exact absurd hcaller (h.bound bundle hcurrent).1

end MesTask.Holds

/-- **What the tasks share is in order**: the live entries are filed, and every request that was sent
has the property. -/
structure MesShared.InOrder (Q : MesShared → SentRequest → Prop) (shared : MesShared) : Prop where
  filed : shared.Filed
  sent : ∀ request ∈ shared.sent, Q shared request

namespace MesShared.InOrder

variable {G : MesWorld → MesAction → Prop} {Q : MesShared → SentRequest → Prop}
variable {shared shared' : MesShared}

/-- More exchanges leave it in order. -/
theorem mono (hrule : RequestRule G Q) (h : shared.InOrder Q)
    (hissued : ∀ exchange ∈ shared.issued, exchange ∈ shared'.issued) (hfiled : shared'.Filed)
    (hsent : shared'.sent = shared.sent) : shared'.InOrder Q :=
  ⟨hfiled, fun request hmem => hrule.mono hissued (h.sent request (hsent ▸ hmem))⟩

/-- An exchange that is not stored. -/
theorem issue (hrule : RequestRule G Q) (h : shared.InOrder Q) (encrypted : String)
    (bundle : MesCredentialBundle) : (shared.issue encrypted bundle).InOrder Q :=
  h.mono hrule (issued_issue encrypted bundle)
    (h.filed.mono (issued_issue encrypted bundle) rfl) rfl

end MesShared.InOrder

/-- **What an action of a task keeps**: the shared part stays in order, the exchanges stay recorded,
and the bundles of the task have the property. -/
structure MesTask.Kept (Q : MesShared → SentRequest → Prop) (shared shared' : MesShared)
    (task' : MesTask) : Prop where
  inOrder : shared'.InOrder Q
  issued : ∀ exchange ∈ shared.issued, exchange ∈ shared'.issued
  holds : task'.Holds Q shared'

namespace MesTask

variable {G : MesWorld → MesAction → Prop} {Q : MesShared → SentRequest → Prop}
variable {settings : MesSettings} {shared shared' : MesShared} {task task' : MesTask}

/-- An action that leaves the shared part as it is. -/
theorem Kept.same (hshared : shared.InOrder Q) (hholds : task'.Holds Q shared) :
    task'.Kept Q shared shared := ⟨hshared, fun _ h => h, hholds⟩

theorem kept_authenticate {encrypted : String} {now : Instant} (hshared : shared.InOrder Q)
    (h : task.Holds Q shared)
    (hact : task.authenticate settings shared encrypted now = some (shared', task')) :
    task'.Kept Q shared shared' := by
  unfold authenticate at hact
  split at hact
  · rename_i hnew
    have hcurrent := h.unbound hnew.1
    split at hact
    · cases hact
      exact .same hshared (.of_idle hnew.2.1 fun _ hb => by simp [hcurrent] at hb)
    · cases hact
      exact .same hshared {
        exchanging := fun _ _ => hnew.1
        bound := h.bound
        refreshing := fun _ _ _ he => nomatch he
        sending := fun _ _ _ he => nomatch he }
  · cases hact

theorem kept_exchanged (hrule : RequestRule G Q) {response : Option MesCredentialBundle}
    (hshared : shared.InOrder Q) (h : task.Holds Q shared)
    (hact : task.exchanged shared response = some (shared', task')) :
    task'.Kept Q shared shared' := by
  unfold exchanged at hact
  split at hact
  · cases hact
    exact .same hshared h.refused
  · rename_i encrypted response hactivity
    have hissued := @MesShared.issued_issue shared encrypted (shared.numbered response)
    have hcurrent := h.unbound (h.exchanging encrypted hactivity)
    dsimp only at hact
    split at hact
    · cases hact
      exact ⟨hshared.issue hrule _ _, hissued, (h.mono hrule hissued).refused⟩
    · rename_i principal gateway hgateway
      cases hact
      obtain ⟨p, hprincipal, heq⟩ := Option.map_eq_some_iff.mp hgateway
      cases heq
      exact ⟨hshared.mono hrule hissued (hshared.filed.store
          ⟨principal, shared.numbered response, encrypted⟩ hissued
          ⟨encrypted, List.mem_append_right _ (List.mem_singleton_self _)⟩ hprincipal rfl) rfl,
        hissued, .of_idle rfl fun _ hb => by simp [hcurrent] at hb⟩
  · cases hact

theorem kept_authorize (hshared : shared.InOrder Q)
    (hact : task.authorize shared = some (shared', task')) : task'.Kept Q shared shared' := by
  unfold authorize at hact
  split at hact
  · rename_i caller _ hidle hcurrent
    obtain ⟨membership, -, heq⟩ := Option.map_eq_some_iff.mp hact
    cases heq
    exact .same hshared (.of_idle hidle fun _ hb => by simp [hcurrent] at hb)
  · cases hact

theorem kept_lookedUp {deptIds : List String} (hshared : shared.InOrder Q)
    (h : task.Holds Q shared) (hact : task.lookedUp shared deptIds = some (shared', task')) :
    task'.Kept Q shared shared' := by
  unfold lookedUp at hact
  split at hact
  · rename_i membership hauthorizing hidle
    cases hact
    refine .same hshared (.of_idle hidle fun bundle hb => ?_)
    obtain ⟨-, ⟨a, ha⟩, -⟩ := h.bound bundle hb
    simp [hauthorizing] at ha
  · cases hact

theorem kept_unbind (hshared : shared.InOrder Q)
    (hact : task.unbind shared = some (shared', task')) : task'.Kept Q shared shared' := by
  unfold unbind at hact
  split at hact
  · rename_i hbound
    cases hact
    exact .same hshared (.of_idle hbound.1 fun _ hb => nomatch hb)
  · cases hact

theorem kept_refreshed (hrule : RequestRule G Q) {response : Option MesCredentialBundle}
    (hshared : shared.InOrder Q) (h : task.Holds Q shared)
    (hact : task.refreshed settings shared response = some (shared', task')) :
    task'.Kept Q shared shared' := by
  unfold refreshed at hact
  split at hact
  · cases hact
    exact .same hshared h.refused
  · rename_i bundle entry retried response hactivity
    have hissued := @MesShared.issued_issue shared entry.encryptedCredential
      (shared.numbered response)
    have hcurrent := h.refreshing bundle entry retried hactivity
    obtain ⟨hcaller, hauthorized, hbundle⟩ := h.bound bundle hcurrent
    have hmem : (entry.encryptedCredential, shared.numbered response)
        ∈ (shared.issue entry.encryptedCredential (shared.numbered response)).issued :=
      List.mem_append_right _ (List.mem_singleton_self _)
    dsimp only at hact
    split at hact
    · cases hact
      exact ⟨hshared.issue hrule _ _, hissued, (h.mono hrule hissued).refused⟩
    · rename_i gateway hgateway
      obtain ⟨principal, hprincipal, hsame, rfl⟩ := TokenGateway.refreshed_eq_some hgateway
      have hfiled : MesShared.Filed
          { shared.issue entry.encryptedCredential (shared.numbered response) with
            gateway := shared.gateway.store
              { entry with principal := principal, bundle := shared.numbered response } } :=
        hshared.filed.store _ hissued ⟨_, hmem⟩ hprincipal rfl
      have hbound : Q shared ⟨task.caller, task.authorizing.resolved, true, bundle⟩ := by
        simpa [request, hcurrent] using hbundle
      split at hact
      · cases hact
        refine ⟨hshared.mono hrule hissued hfiled rfl, hissued, .of_idle rfl fun b hb => ?_⟩
        cases hb
        exact ⟨hcaller, hauthorized, hrule.mono hissued hbound⟩
      · rename_i hsameScope
        cases hact
        have hsame' : (shared.numbered response).scopeChanged bundle = false := by
          simpa using hsameScope
        refine ⟨hshared.mono hrule hissued (hfiled.mono (fun _ he => he) rfl) rfl, hissued, ?_⟩
        exact {
          exchanging := fun _ he => nomatch he
          bound := fun b hb => by
            cases hb
            exact ⟨hcaller, hauthorized, hrule.refreshed hbound hissued hmem hsame hsame'⟩
          refreshing := fun _ _ _ he => nomatch he
          sending := fun _ _ _ he => by
            cases he
            exact hrule.refreshed hbound hissued hmem hsame hsame' }
  · cases hact

theorem kept_attempt (hrule : RequestRule G Q) {outcome : AttemptOutcome}
    (hshared : shared.InOrder Q) (h : task.Holds Q shared)
    (hact : task.attempt shared outcome = some (shared', task')) : task'.Kept Q shared shared' := by
  unfold attempt at hact
  split at hact
  · rename_i bundle attemptsLeft retried hactivity
    have hrequest := h.sending bundle (attemptsLeft + 1) retried hactivity
    have hissued : ∀ exchange ∈ shared.issued, exchange ∈
        { shared with sent := shared.sent ++ [task.request bundle] : MesShared }.issued :=
      fun _ hmem => hmem
    have hsent : MesShared.InOrder Q { shared with sent := shared.sent ++ [task.request bundle] } :=
      { filed := hshared.filed.mono hissued rfl
        sent := fun request hmem => by
          rcases List.mem_append.mp hmem with hmem | hmem
          · exact hrule.mono hissued (hshared.sent request hmem)
          · rw [List.mem_singleton.mp hmem]
            exact hrule.mono hissued hrequest }
    have hkept : ∀ {next : MesTask}, next.Holds Q shared →
        next.Kept Q shared { shared with sent := shared.sent ++ [task.request bundle] } :=
      fun hnext => ⟨hsent, hissued, hnext.mono hrule hissued⟩
    cases outcome with
    | transportFailed =>
      cases hact
      refine hkept ?_
      split
      · exact h.refused
      · exact {
          exchanging := fun _ he => nomatch he
          bound := h.bound
          refreshing := fun _ _ _ he => nomatch he
          sending := fun _ _ _ he => by cases he; exact hrequest }
    | answered =>
      cases hact
      exact hkept h.refused
    | unauthenticated =>
      cases hact
      refine hkept ?_
      split
      · exact h.refused
      · exact h.refresh true
  · cases hact

/-- **Every action of a task keeps the property.** -/
theorem kept (hrule : RequestRule G Q) {world : MesWorld} {index : Nat} {action : TaskAction}
    (hguard : G world (.act index action)) (htask : world.tasks[index]? = some task)
    (hshared : world.shared.InOrder Q) (h : task.Holds Q world.shared)
    (hact : task.act settings world.shared action = some (shared', task')) :
    task'.Kept Q world.shared shared' := by
  cases action with
  | authenticate encrypted now => exact kept_authenticate hshared h hact
  | exchanged response => exact kept_exchanged hrule hshared h hact
  | authorize => exact kept_authorize hshared hact
  | lookedUp deptIds => exact kept_lookedUp hshared h hact
  | bind =>
    simp only [act, bind] at hact
    split at hact
    · rename_i caller authorization hcaller hauthorizing hidle hcurrent
      obtain ⟨entry, hentry, heq⟩ := Option.map_eq_some_iff.mp hact
      cases heq
      refine .same hshared (.of_idle hidle fun bundle hb => ?_)
      cases hb
      refine ⟨by simp [hcaller], ⟨_, hauthorizing⟩, ?_⟩
      have hbundle := hrule.bound hguard htask hshared.filed hcaller hauthorizing hentry
      simpa [request, hcaller, hauthorizing, Authorizing.resolved] using hbundle
    · cases hact
  | unbind => exact kept_unbind hshared hact
  | execute now =>
    simp only [act, execute] at hact
    split at hact
    · split at hact
      · cases hact
        exact .same hshared (h.refresh false)
      · cases hact
        refine .same hshared (h.send ?_ false)
        cases hcurrent : task.current with
        | none =>
          rw [activeBundle, hcurrent]
          exact hrule.unbound hguard htask hcurrent
        | some bundle =>
          rw [activeBundle, hcurrent]
          exact (h.bound bundle hcurrent).2.2
    · cases hact
  | refreshed response => exact kept_refreshed hrule hshared h hact
  | attempt outcome => exact kept_attempt hrule hshared h hact

end MesTask

/-- **Every request has the property**, and so has the bundle of every task. -/
theorem MesWorld.requests {G : MesWorld → MesAction → Prop} {Q : MesShared → SentRequest → Prop}
    (hrule : RequestRule G Q) {settings : MesSettings} {world : MesWorld}
    (h : Machine.Reach (mesMachine settings) G world) :
    world.shared.InOrder Q ∧ ∀ task ∈ world.tasks, task.Holds Q world.shared :=
  invariant_of_acts (S := fun shared => shared.InOrder Q)
    (T := fun shared task => task.Holds Q shared)
    { filed := fun _ _ hentry => nomatch hentry
      sent := fun _ hmem => absurd hmem List.not_mem_nil }
    (fun _ => MesTask.Holds.arrived)
    (fun hguard htask hshared hholds hact =>
      have hkept := MesTask.kept hrule hguard htask hshared hholds hact
      ⟨hkept.inOrder, hkept.holds, fun _ hother => hother.mono hrule hkept.issued⟩) h
