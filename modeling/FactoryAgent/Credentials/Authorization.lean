import FactoryAgent.Credentials.Gateway

/-!
# Authorization from the token principal

`AuthorizationService.authorize` over the token-backed membership: the role and the bound departments
that the token endpoint returned for the caller, and the data scope derived from them. Only where the
token carries no department does it ask the directory, which is a MES request of its own.
-/

/-- **A membership**: the role and the departments a caller is bound to. -/
structure TenantMembership where
  userId : String
  tenantId : String
  employeeId : String
  displayName : String
  role : Role
  boundDeptIds : List String
  deriving DecidableEq, Repr

/-- The visible range of a caller. The version, a fresh token, and the instant of the evaluation are
left out. -/
structure DataScope where
  tenantId : String
  employeeIds : List String
  deptIds : List String
  mesFiltered : Bool
  deriving DecidableEq, Repr

/-- `_current_depts`, where it needs no directory. -/
def TenantMembership.currentDepts (membership : TenantMembership) : Option (List String) :=
  if membership.boundDeptIds ≠ [] then some membership.boundDeptIds else none

/-- The data scope of a membership with these departments. -/
def TenantMembership.dataScope (membership : TenantMembership) (deptIds : List String) :
    DataScope where
  tenantId := membership.tenantId
  employeeIds := [membership.employeeId]
  deptIds := deptIds
  mesFiltered := decide (membership.role = .owner)

/-- **An authorization**: a membership, and the departments of its scope. -/
structure ResolvedAuthorization where
  membership : TenantMembership
  deptIds : List String
  deriving DecidableEq, Repr

/-- The data scope of an authorization is derived from its membership. -/
def ResolvedAuthorization.dataScope (authorization : ResolvedAuthorization) : DataScope :=
  authorization.membership.dataScope authorization.deptIds

/-- `TokenBackedMembershipResolver.resolve`: the membership is the token principal. -/
def ResolvedPrincipal.membership (principal : ResolvedPrincipal) : TenantMembership where
  userId := principal.credential.userId
  tenantId := principal.credential.tenantId
  employeeId := principal.credential.userId
  displayName := principal.displayName
  role := principal.role
  boundDeptIds := principal.boundDeptIds

/-- `_resolve_membership`: the membership of the caller's live entry. One of somebody else is
rejected. -/
def TokenGateway.resolveMembership (gateway : TokenGateway) (caller : TrustedCredential) :
    Option TenantMembership :=
  ((gateway.entryOf caller).map (·.principal.membership)).filter (fun membership =>
    decide (membership.tenantId = caller.tenantId ∧ membership.userId = caller.userId))

/-! ## Comparing the facts of two bundles -/

/-- Whether two lists have the same members, as frozen sets compare. -/
def sameMembers (xs ys : List String) : Bool :=
  xs.all (fun x => decide (x ∈ ys)) && ys.all (fun y => decide (y ∈ xs))

theorem sameMembers_iff {xs ys : List String} :
    sameMembers xs ys = true ↔ ∀ x, x ∈ xs ↔ x ∈ ys := by
  simp only [sameMembers, Bool.and_eq_true, List.all_eq_true, decide_eq_true_eq]
  exact ⟨fun h x => ⟨h.1 x, h.2 x⟩, fun h => ⟨fun x => (h x).mp, fun x => (h x).mpr⟩⟩

namespace MesCredentialBundle

/-- The comparison of `GatewayTokenRefresher.refresh`: whether a refreshed bundle has other identity
facts than the one it replaces. -/
def scopeChanged (refreshed bundle : MesCredentialBundle) : Bool :=
  decide (refreshed.roles ≠ bundle.roles) || decide (refreshed.dept ≠ bundle.dept)
    || !sameMembers refreshed.effectiveBoundDepts bundle.effectiveBoundDepts

/-- The comparison does not depend on the order. -/
theorem scopeChanged_symm {refreshed bundle : MesCredentialBundle}
    (h : refreshed.scopeChanged bundle = false) : bundle.scopeChanged refreshed = false := by
  simp only [scopeChanged, Bool.or_eq_false_iff, decide_eq_false_iff_not, Decidable.not_not,
    Bool.not_eq_false', sameMembers_iff] at h ⊢
  exact ⟨⟨h.1.1.symm, h.1.2.symm⟩, fun dept => (h.2 dept).symm⟩

/-- **A bundle agrees with a membership**: it has its role and, as a set, its departments. -/
def Agrees (bundle : MesCredentialBundle) (membership : TenantMembership) : Prop :=
  ∃ principal ∈ principalFromBundle bundle, principal.role = membership.role
    ∧ ∀ dept, dept ∈ principal.boundDeptIds ↔ dept ∈ membership.boundDeptIds

/-- The same agreement, to be evaluated. -/
def agrees (bundle : MesCredentialBundle) (membership : TenantMembership) : Bool :=
  (principalFromBundle bundle).any (fun principal =>
    decide (principal.role = membership.role)
      && sameMembers principal.boundDeptIds membership.boundDeptIds)

theorem agrees_iff {bundle : MesCredentialBundle} {membership : TenantMembership} :
    bundle.agrees membership = true ↔ bundle.Agrees membership := by
  unfold agrees Agrees
  cases principalFromBundle bundle <;> simp [sameMembers_iff]

/-- What a principal says about its bundle. -/
theorem principalFromBundle_eq_some {bundle : MesCredentialBundle} {principal : ResolvedPrincipal} :
    principalFromBundle bundle = some principal ↔ ∃ code codes role, bundle.roles = code :: codes
      ∧ Role.fromMesCode code = some role
      ∧ principal = ⟨bundle.caller, bundle.uname, role,
          bundle.effectiveBoundDepts.filter (fun dept => decide (Role.stripped dept ≠ ""))⟩ := by
  unfold principalFromBundle
  cases bundle.roles with
  | nil => simp
  | cons code codes =>
    rw [Option.map_eq_some_iff]
    constructor
    · rintro ⟨role, hcode, rfl⟩
      exact ⟨code, codes, role, rfl, hcode, rfl⟩
    · rintro ⟨_, _, role, heq, hcode, rfl⟩
      cases heq
      exact ⟨role, hcode, rfl⟩

/-- A bundle with the facts of another one agrees with the same memberships. -/
theorem Agrees.of_not_scopeChanged {refreshed bundle : MesCredentialBundle}
    {membership : TenantMembership} (hsame : refreshed.scopeChanged bundle = false)
    (h : bundle.Agrees membership) : refreshed.Agrees membership := by
  simp only [scopeChanged, Bool.or_eq_false_iff, decide_eq_false_iff_not, Decidable.not_not,
    Bool.not_eq_false'] at hsame
  obtain ⟨⟨hroles, -⟩, hdepts⟩ := hsame
  obtain ⟨principal, hprincipal, hrole, hbound⟩ := h
  obtain ⟨code, codes, role, hcodes, hcode, rfl⟩ := principalFromBundle_eq_some.mp hprincipal
  refine ⟨_, principalFromBundle_eq_some.mpr ⟨code, codes, role, hroles.trans hcodes, hcode, rfl⟩,
    hrole, fun dept => ?_⟩
  rw [← hbound dept]
  simp only [List.mem_filter, sameMembers_iff.mp hdepts dept]

end MesCredentialBundle
