import FactoryAgent.Credentials.Authorization
import FactoryAgent.Domain.Queries
import FactoryAgent.Lib.Except

/-!
# Narrowing filters against a scope

`FilterNarrower.narrow` of `application/filters.py` and `StrictScopeVerifier.verify` of
`execution/executor.py`. The narrower intersects what a question asks for with the scope of its caller;
the verifier checks the result once more before a call. Both make an exception for a scope that the MES
filters itself.

The frozen sets of the source are lists, read by their members. `none` is the absence of a filter and
`some []` a filter that lets nothing through, and the two are never the same.
-/

/-! ## Scopes -/

namespace DataScope

/-- `narrow_to_employees`: an empty intersection is none. -/
def narrowToEmployees (scope : DataScope) (employeeIds : List String) : Option DataScope :=
  let narrowed := scope.employeeIds.filter (fun id => decide (id ∈ employeeIds))
  if narrowed = [] then none else some { scope with employeeIds := narrowed }

/-- `narrow_to_depts`: an empty intersection is none. -/
def narrowToDepts (scope : DataScope) (deptIds : List String) : Option DataScope :=
  let narrowed := scope.deptIds.filter (fun id => decide (id ∈ deptIds))
  if narrowed = [] then none else some { scope with deptIds := narrowed }

variable {scope narrowed : DataScope} {ids : List String}

/-- **A narrowed scope** has the members of both, and there are some. -/
theorem narrowToEmployees_eq_some (h : scope.narrowToEmployees ids = some narrowed) :
    narrowed.employeeIds ≠ [] ∧ ∀ id, id ∈ narrowed.employeeIds ↔ id ∈ scope.employeeIds ∧ id ∈ ids := by
  unfold narrowToEmployees at h
  dsimp only at h
  split at h
  · cases h
  · rename_i hne
    cases h
    exact ⟨hne, fun id => by simp [List.mem_filter]⟩

/-- The same for the departments. -/
theorem narrowToDepts_eq_some (h : scope.narrowToDepts ids = some narrowed) :
    narrowed.deptIds ≠ [] ∧ ∀ id, id ∈ narrowed.deptIds ↔ id ∈ scope.deptIds ∧ id ∈ ids := by
  unfold narrowToDepts at h
  dsimp only at h
  split at h
  · cases h
  · rename_i hne
    cases h
    exact ⟨hne, fun id => by simp [List.mem_filter]⟩

end DataScope

/-! ## The narrower -/

/-- A filter that cannot be proven inside the active scope. -/
structure FilterRejectionError where
  code : String
  message : String
  deriving DecidableEq, Repr

/-- **What a caller of `narrow` asks for.** -/
structure FilterRequest where
  employeeIds : Option (List String) := none
  deptIds : Option (List String) := none
  orderIds : Option (List String) := none
  styleIds : Option (List String) := none
  planIds : Option (List String) := none
  materialIds : Option (List String) := none
  /-- Employees that were resolved in the tenant. They are not intersected with the scope. -/
  tenantResolvedEmployeeIds : Option (List String) := none
  restrictToScopeEmployees : Bool := true
  bedCodes : Option (List String) := none
  deriving DecidableEq, Repr

/-- `_as_set`: an empty set of codes is no filter. -/
def asSet (values : Option (List String)) : Option (List String) :=
  values.filter (fun values => decide (values ≠ []))

namespace DataScope

/-- The employees of the narrowed filters. -/
def narrowedEmployees (scope : DataScope) (request : FilterRequest) :
    Except FilterRejectionError (Option (List String)) :=
  match request.employeeIds with
  | some employeeIds =>
    match scope.narrowToEmployees employeeIds with
    | none => .error ⟨"forbidden", "requested employees are outside the authorized scope"⟩
    | some narrowed => .ok (some narrowed.employeeIds)
  | none =>
    match request.tenantResolvedEmployeeIds with
    | some employeeIds => .ok (some employeeIds)
    | none =>
      if request.restrictToScopeEmployees then .ok (some scope.employeeIds)
      else .ok none

/-- The departments of the narrowed filters, and the requested ones among them. A scope that the MES
filters itself passes a request on as it is. -/
def narrowedDepts (scope : DataScope) (request : FilterRequest) :
    Except FilterRejectionError (List String × Option (List String)) :=
  match request.deptIds with
  | some deptIds =>
    if scope.mesFiltered then .ok (deptIds, some deptIds)
    else
      match scope.narrowToDepts deptIds with
      | none => .error ⟨"forbidden", "requested departments are outside the authorized scope"⟩
      | some narrowed => .ok (narrowed.deptIds, some narrowed.deptIds)
  | none => .ok (scope.deptIds, none)

/-- **`narrow`**: the filters of a question, or the rejection of one of its parts. -/
def narrow (scope : DataScope) (request : FilterRequest) :
    Except FilterRejectionError NarrowedFilters :=
  if request.bedCodes.any (fun codes => codes.any (fun code => code = "")) then
    .error ⟨"invalid_filter", "bed identifiers must be nonempty strings"⟩
  else do
    let employeeIds ← scope.narrowedEmployees request
    let depts ← scope.narrowedDepts request
    if request.employeeIds.isSome ∧ employeeIds.getD [] = [] then
      .error ⟨"forbidden", "employee filter intersects to empty"⟩
    else if request.deptIds.isSome ∧ depts.1 = [] then
      .error ⟨"forbidden", "department filter intersects to empty"⟩
    else
      .ok
        { tenantId := scope.tenantId
          employeeIds := employeeIds
          deptIds := some depts.1
          orderCodes := asSet request.orderIds
          styleCodes := asSet request.styleIds
          planCodes := asSet request.planIds
          materialIds := asSet request.materialIds
          requestedDeptIds := depts.2
          bedCodes := asSet request.bedCodes }

variable {scope : DataScope} {request : FilterRequest} {filters : NarrowedFilters}

/-- **What accepted filters are.** -/
theorem narrow_eq_ok (h : scope.narrow request = .ok filters) :
    ∃ employeeIds depts, scope.narrowedEmployees request = .ok employeeIds
      ∧ scope.narrowedDepts request = .ok depts
      ∧ (request.employeeIds.isSome = true → employeeIds.getD [] ≠ [])
      ∧ (request.deptIds.isSome = true → depts.1 ≠ [])
      ∧ filters =
          { tenantId := scope.tenantId
            employeeIds := employeeIds
            deptIds := some depts.1
            orderCodes := asSet request.orderIds
            styleCodes := asSet request.styleIds
            planCodes := asSet request.planIds
            materialIds := asSet request.materialIds
            requestedDeptIds := depts.2
            bedCodes := asSet request.bedCodes } := by
  unfold narrow at h
  split at h
  · cases h
  · obtain ⟨employeeIds, hemployees, h⟩ := Except.bind_eq_ok.mp h
    obtain ⟨depts, hdepts, h⟩ := Except.bind_eq_ok.mp h
    split at h
    · cases h
    · rename_i hsome
      split at h
      · cases h
      · rename_i hdept
        exact ⟨employeeIds, depts, hemployees, hdepts, fun hs he => hsome ⟨hs, he⟩,
          fun hs he => hdept ⟨hs, he⟩, (Except.ok.inj h).symm⟩

/-- The employees of accepted filters, where none were resolved in the tenant: some of the scope's, or
none were restricted to at all. -/
theorem mem_of_narrowedEmployees {employeeIds : Option (List String)}
    (hresolved : request.tenantResolvedEmployeeIds = none)
    (h : scope.narrowedEmployees request = .ok employeeIds) :
    ∀ ids ∈ employeeIds, ∀ id ∈ ids,
      id ∈ scope.employeeIds ∧ ∀ requested ∈ request.employeeIds, id ∈ requested := by
  unfold narrowedEmployees at h
  split at h
  · rename_i requested hrequested
    split at h
    · cases h
    · rename_i narrowed hnarrowed
      cases h
      rintro ids hids id hid
      cases hids
      obtain ⟨hscope, hmem⟩ := ((narrowToEmployees_eq_some hnarrowed).2 id).mp hid
      refine ⟨hscope, fun ids hids => ?_⟩
      rw [hrequested, Option.mem_some] at hids
      exact hids ▸ hmem
  · rename_i hrequested
    rw [hresolved] at h
    dsimp only at h
    split at h <;> cases h
    · rintro ids hids id hid
      cases hids
      exact ⟨hid, fun ids hids => by rw [hrequested] at hids; cases hids⟩
    · rintro ids hids
      cases hids

/-- Where employees were requested there is an employee filter. -/
theorem isSome_of_narrowedEmployees {employeeIds : Option (List String)}
    (hrequested : request.employeeIds.isSome = true)
    (h : scope.narrowedEmployees request = .ok employeeIds) : employeeIds.isSome = true := by
  unfold narrowedEmployees at h
  split at h
  · split at h <;> cases h
    rfl
  · rename_i hnone
    rw [hnone] at hrequested
    cases hrequested

/-- The departments of accepted filters are of the scope, unless the MES filters it itself. -/
theorem mem_of_narrowedDepts {depts : List String × Option (List String)}
    (hlocal : scope.mesFiltered = false) (h : scope.narrowedDepts request = .ok depts) :
    ∀ id ∈ depts.1, id ∈ scope.deptIds ∧ ∀ requested ∈ request.deptIds, id ∈ requested := by
  unfold narrowedDepts at h
  split at h
  · rename_i requested hrequested
    rw [hlocal, if_neg Bool.false_ne_true] at h
    split at h
    · cases h
    · rename_i narrowed hnarrowed
      cases h
      intro id hid
      obtain ⟨hscope, hmem⟩ := ((narrowToDepts_eq_some hnarrowed).2 id).mp hid
      refine ⟨hscope, fun ids hids => ?_⟩
      rw [hrequested, Option.mem_some] at hids
      exact hids ▸ hmem
  · rename_i hrequested
    cases h
    exact fun id hid => ⟨hid, fun ids hids => by rw [hrequested] at hids; cases hids⟩

end DataScope

/-! ## The verifier -/

/-- The refusal of the verifier. -/
structure ForbiddenError where
  message : String
  deriving DecidableEq, Repr

/-- Whether every member of a filter is one of the allowed values; no filter passes. -/
def within (values : Option (List String)) (allowed : List String) : Bool :=
  values.all (fun values => values.all (fun value => decide (value ∈ allowed)))

/-- **`StrictScopeVerifier.verify`.** -/
def StrictScopeVerifier.verify (scope : DataScope) (filters : NarrowedFilters) :
    Except ForbiddenError Unit :=
  if filters.tenantId ≠ scope.tenantId then
    .error ⟨"filter tenant does not match the active tenant"⟩
  else if scope.mesFiltered then .ok ()
  else if within filters.employeeIds scope.employeeIds = false then
    .error ⟨"employee filters exceed the authorized scope"⟩
  else if within filters.deptIds scope.deptIds = false then
    .error ⟨"department filters exceed the authorized scope"⟩
  else .ok ()

theorem within_iff {values : Option (List String)} {allowed : List String} :
    within values allowed = true ↔ ∀ ids ∈ values, ∀ id ∈ ids, id ∈ allowed := by
  cases values <;> simp [within]
