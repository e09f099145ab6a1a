import FactoryAgent.Domain.Session
import FactoryAgent.Scope.Capabilities
import FactoryAgent.Scope.Directory
import FactoryAgent.Scope.Filters

/-!
# From a turn to its filters

The denial chain of `application/session/pipeline.py`: what `_authorize_request`,
`_resolve_drill_filters` and the head of `_run_analysis` do before a runner is called. A turn is a
question in free text, a structured drill, or an analysis. It ends before any business call
(`TurnEnd`), or hands narrowed filters to a runner.

What the chain asks its collaborators is a `TurnReading`: the directory, the verdict of the scope guard
and of the checks of the time window. They can only end the turn.
-/

/-- A registered detail view of a result, with its page. -/
structure OrderViewSelection where
  viewId : String
  status : String := "all"
  page : Int := 1
  snapshotId : Option String := none
  deriving DecidableEq, Repr

/-- **A structured drill-down**, as a card action sends it. -/
structure DrillPayload where
  capabilityId : String
  deptIds : List String := []
  employeeUid : Option String := none
  timeExpression : Option String := none
  timeRangeStart : Option Instant := none
  timeRangeEnd : Option Instant := none
  orderCodes : List String := []
  styleCodes : List String := []
  planCodes : List String := []
  bedCodes : List String := []
  materialIds : List String := []
  orderView : Option OrderViewSelection := none
  groupPage : Int := 1
  groupPageSize : Int := 50
  dataSnapshotId : Option String := none
  deriving DecidableEq, Repr

/-- **A turn** that reached the authorization chain or the analysis. -/
inductive Turn where
  | freeText (capabilityId : String) (slots : IntentSlots)
  | drill (payload : DrillPayload)
  /-- `aboutCaller` is what the parse and the wording say; an employee asks about himself anyway. -/
  | analysis (aboutCaller : Bool) (slots : IntentSlots)
  deriving DecidableEq, Repr

/-- The ends of a turn without a business call. -/
inductive TurnEnd where
  | failed (category : String)
  | clarified (message : String)
  | chatted
  deriving DecidableEq, Repr

/-- What the chain asks its collaborators. -/
structure TurnReading where
  /-- The resolver of business filters, where one is configured. -/
  directory : Option DirectoryResolver
  /-- Whether the scope guard denies the question. -/
  scopeDenied : Bool
  /-- The category under which the time window is refused. -/
  windowRefused : Option String

namespace DirectoryResolver

/-- Whether the directory has the employee in a department of the scope. -/
def employsWithin (directory : DirectoryResolver) (scope : DataScope) (employeeId : String) :
    Except DirectoryError (Option Bool) := do
  let employee ← directory.findEmployeeById employeeId
  pure (employee.map (fun employee => employee.dept.any (fun dept => decide (dept ∈ scope.deptIds))))

end DirectoryResolver

/-! ## Drills -/

/-- The departments of a drill. Outside a scope that the MES filters they have to be bound. -/
def drillDepts (payload : DrillPayload) (scope : DataScope) :
    Except DirectoryError (Option (List String)) :=
  if payload.deptIds = [] then .ok none
  else if scope.mesFiltered = false ∧ payload.deptIds.any (fun id => decide (id ∉ scope.deptIds)) then
    .error ⟨"forbidden", "请求的车间/小组不在您可查询的范围内。"⟩
  else .ok (some payload.deptIds)

/-- The target employee of a drill: in the directory and, outside a scope that the MES filters, in a
bound department. -/
def drillEmployee (directory : Option DirectoryResolver) (payload : DrillPayload)
    (scope : DataScope) : Except DirectoryError (Option (List String)) :=
  match payload.employeeUid.filter (fun uid => decide (uid ≠ "")) with
  | none => .ok none
  | some uid =>
    match directory with
    | none => .error ⟨"not_found", "员工目录不可用，无法下钻查询该员工。"⟩
    | some directory => do
      match ← directory.employsWithin scope uid with
      | none => .error ⟨"not_found", "未找到该员工，无法下钻查询。"⟩
      | some bound =>
        if scope.mesFiltered = false ∧ bound = false then
          .error ⟨"forbidden", "该员工不在您可查询的车间范围内。"⟩
        else .ok (some [uid])

/-- **`_resolve_drill_filters`.** The bed codes of the payload are not among them. -/
def resolveDrillFilters (directory : Option DirectoryResolver) (payload : DrillPayload)
    (scope : DataScope) : Except DirectoryError ResolvedBusinessFilters := do
  let deptIds ← drillDepts payload scope
  let employeeIds ← drillEmployee directory payload scope
  pure
    { employeeIds := employeeIds
      deptIds := deptIds
      orderCodes := asFrozenset payload.orderCodes
      styleCodes := asFrozenset payload.styleCodes
      planCodes := asFrozenset payload.planCodes
      materialIds := asFrozenset payload.materialIds }

/-! ## Free text and drills: `_authorize_request` -/

/-- The request to the narrower. A personal capability asks for the caller, whoever was named; the
other ones pass on the employees that were resolved. -/
def ResolvedBusinessFilters.request (resolved : ResolvedBusinessFilters) (capability : Capability)
    (scope : DataScope) : FilterRequest :=
  let business : FilterRequest :=
    { deptIds := resolved.deptIds, orderIds := resolved.orderCodes, styleIds := resolved.styleCodes
      planIds := resolved.planCodes, materialIds := resolved.materialIds
      bedCodes := resolved.bedCodes }
  if capability = .anyEmployeePayroll then
    { business with tenantResolvedEmployeeIds := resolved.employeeIds }
  else if capability.isPersonal then { business with employeeIds := some scope.employeeIds }
  else
    { business with
      tenantResolvedEmployeeIds := resolved.employeeIds, restrictToScopeEmployees := false }

/-- The chain after the names were resolved: the narrower, and the time window. -/
def narrowTurn (reading : TurnReading) (scope : DataScope) (request : FilterRequest) :
    Except TurnEnd NarrowedFilters := do
  let filters ← (scope.narrow request).mapError (fun error => .failed ("filter_" ++ error.code))
  match reading.windowRefused with
  | some category => .error (.failed category)
  | none => pure filters

/-- The capability of a turn, where its caller may use it. -/
def authorizedCapability (authorization : ResolvedAuthorization) (capabilityId : String) :
    Except TurnEnd Capability :=
  match capabilityFor capabilityId with
  | none => .error (.failed "capability_unregistered")
  | some capability =>
    match authorizeCapability capability authorization.tenantContext authorization.dataScope with
    | .error _ => .error (.failed "forbidden")
    | .ok _ => .ok capability

/-- The capability of a turn that was authorized. -/
theorem capabilityFor_of_authorized {authorization : ResolvedAuthorization} {capabilityId : String} {capability : Capability}
    (h : authorizedCapability authorization capabilityId = .ok capability) :
    capabilityFor capabilityId = some capability := by
  unfold authorizedCapability at h
  split at h
  · cases h
  · rename_i hcapability
    split at h <;> cases h
    exact hcapability

/-- The narrowing inputs of a question in free text. -/
def freeTextFilters (directory : Option DirectoryResolver) (slots : IntentSlots) :
    Except TurnEnd ResolvedBusinessFilters :=
  match directory with
  | none => .ok {}
  | some directory =>
    (directory.resolve slots).mapError (fun error =>
      if error.code = "ambiguous" then .clarified error.message else .failed ("filter_" ++ error.code))

/-! ## Analyses: `_run_analysis` -/

/-- The check of an employee that an analysis of a group leader or a manager names. -/
def analysisEmployee (directory : DirectoryResolver) (scope : DataScope) (employeeId : String) :
    Except TurnEnd Unit := do
  match ← (directory.employsWithin scope employeeId).mapError (fun _ => .failed "executor_lost") with
  | some true => pure ()
  | _ => .error (.failed "analysis_scope_forbidden")

/-- The check of all the employees that an analysis names. -/
def analysisEmployees (directory : Option DirectoryResolver) (role : Role) (scope : DataScope)
    (employeeIds : List String) : Except TurnEnd Unit :=
  if role = .employee then
    if employeeIds.all (fun id => decide (id ∈ scope.employeeIds)) then .ok ()
    else .error (.failed "analysis_scope_forbidden")
  else if role = .groupLeader ∨ role = .manager then
    match directory with
    | none => .error (.failed "analysis_scope_unproven")
    | some directory => do
      let _ ← employeeIds.mapM (analysisEmployee directory scope)
      pure ()
  else .ok ()

/-- The names of an analysis, resolved where it names anybody. Each failure is a clarification. -/
def analysisNames (directory : Option DirectoryResolver) (slots : IntentSlots) :
    Except TurnEnd ResolvedBusinessFilters :=
  match directory with
  | none => .ok {}
  | some directory =>
    if slots.deptNames = [] ∧ slots.employeeNames = [] then .ok {}
    else (directory.resolve slots).mapError (fun error => .clarified error.message)

/-- The request of an analysis to the narrower. -/
def analysisRequest (scope : DataScope) (selfOnly : Bool) (resolved : ResolvedBusinessFilters)
    (slots : IntentSlots) : FilterRequest where
  employeeIds := if selfOnly then some scope.employeeIds else none
  tenantResolvedEmployeeIds := resolved.employeeIds
  deptIds := resolved.deptIds
  orderIds := asFrozenset slots.orderCodes
  styleIds := asFrozenset slots.styleCodes
  planIds := asFrozenset slots.planCodes
  materialIds := asFrozenset slots.materialIds
  bedCodes := asFrozenset slots.bedCodes
  restrictToScopeEmployees := selfOnly

/-! ## Turns -/

/-- Whether an analysis is about the caller alone. -/
def selfOnly (authorization : ResolvedAuthorization) (aboutCaller : Bool) : Bool :=
  decide (authorization.membership.role = .employee) || aboutCaller

/-- **The filters that a turn hands to its runner**, or its end before any business call. -/
def Turn.filters (reading : TurnReading) (authorization : ResolvedAuthorization) :
    Turn → Except TurnEnd NarrowedFilters
  | .freeText capabilityId slots => do
    let capability ← authorizedCapability authorization capabilityId
    if reading.scopeDenied then .error (.failed "scope_forbidden")
    else
      let resolved ← freeTextFilters reading.directory slots
      narrowTurn reading authorization.dataScope
        (resolved.request capability authorization.dataScope)
  | .drill payload => do
    let capability ← authorizedCapability authorization payload.capabilityId
    let resolved ← (resolveDrillFilters reading.directory payload
      authorization.dataScope).mapError (fun error => .failed ("filter_" ++ error.code))
    narrowTurn reading authorization.dataScope
      (resolved.request capability authorization.dataScope)
  | .analysis aboutCaller slots =>
    match reading.windowRefused with
    | some category => .error (.failed category)
    | none => do
      let resolved ← analysisNames reading.directory slots
      let _ ← resolved.employeeIds.elim (.ok ())
        (analysisEmployees reading.directory authorization.membership.role authorization.dataScope)
      (authorization.dataScope.narrow (analysisRequest authorization.dataScope
        (selfOnly authorization aboutCaller) resolved slots)).mapError
        (fun _ => .failed "analysis_scope_forbidden")

/-! ## What the narrower makes of the employees -/

namespace DataScope

variable {scope : DataScope} {filters : NarrowedFilters}

/-- Narrowing to the scope's own employees changes nothing. -/
theorem narrowToEmployees_self {narrowed : DataScope}
    (h : scope.narrowToEmployees scope.employeeIds = some narrowed) :
    narrowed.employeeIds = scope.employeeIds := by
  unfold narrowToEmployees at h
  dsimp only at h
  split at h
  · cases h
  · cases h
    exact List.filter_eq_self.mpr (fun id hid => decide_eq_true hid)

/-- The employee filter of a request for the scope's own employees. -/
theorem employeeIds_of_narrow_own {request : FilterRequest}
    (hown : request.employeeIds = some scope.employeeIds) (h : scope.narrow request = .ok filters) :
    filters.employeeIds = some scope.employeeIds := by
  obtain ⟨employeeIds, depts, hemployees, -, -, -, rfl⟩ := narrow_eq_ok h
  unfold narrowedEmployees at hemployees
  rw [hown] at hemployees
  dsimp only at hemployees
  split at hemployees
  · cases hemployees
  · rename_i narrowed hnarrowed
    rw [← Except.ok.inj hemployees, narrowToEmployees_self hnarrowed]

/-- The employee filter of a request for resolved employees. -/
theorem employeeIds_of_narrow_resolved {request : FilterRequest}
    (hnone : request.employeeIds = none) (h : scope.narrow request = .ok filters) :
    filters.employeeIds = match request.tenantResolvedEmployeeIds with
      | some ids => some ids
      | none => if request.restrictToScopeEmployees then some scope.employeeIds else none := by
  obtain ⟨employeeIds, depts, hemployees, -, -, -, rfl⟩ := narrow_eq_ok h
  unfold narrowedEmployees at hemployees
  rw [hnone] at hemployees
  cases hids : request.tenantResolvedEmployeeIds with
  | some ids =>
    rw [hids] at hemployees
    exact (Except.ok.inj hemployees).symm
  | none =>
    rw [hids] at hemployees
    dsimp only at hemployees ⊢
    by_cases hrestrict : request.restrictToScopeEmployees = true
    · rw [if_pos hrestrict] at hemployees ⊢
      exact (Except.ok.inj hemployees).symm
    · rw [if_neg hrestrict] at hemployees ⊢
      exact (Except.ok.inj hemployees).symm

end DataScope

/-! ## The employees of a turn -/

/-- The employees that the authorization chain asks for, from the resolved ones. -/
def chainEmployees (capability : Capability) (scope : DataScope)
    (resolved : Option (List String)) : Option (List String) :=
  if capability = .anyEmployeePayroll then some (resolved.getD scope.employeeIds)
  else if capability.isPersonal then some scope.employeeIds
  else resolved

/-- The filters of the chain are narrowed ones. -/
theorem narrow_of_narrowTurn {reading : TurnReading} {scope : DataScope} {request : FilterRequest}
    {filters : NarrowedFilters} (h : narrowTurn reading scope request = .ok filters) :
    scope.narrow request = .ok filters := by
  obtain ⟨narrowed, hnarrow, hwindow⟩ := Except.bind_eq_ok.mp h
  rw [Except.mapError_eq_ok] at hnarrow
  split at hwindow
  · cases hwindow
  · exact Except.pure_eq_ok.mp hwindow ▸ hnarrow

/-- **The employee filter of the chain** is what it asked for. -/
theorem employeeIds_of_narrowTurn {reading : TurnReading} {scope : DataScope}
    {capability : Capability} {resolved : ResolvedBusinessFilters} {filters : NarrowedFilters}
    (h : narrowTurn reading scope (resolved.request capability scope) = .ok filters) :
    filters.employeeIds = chainEmployees capability scope resolved.employeeIds := by
  have hnarrow := narrow_of_narrowTurn h
  unfold ResolvedBusinessFilters.request at hnarrow
  unfold chainEmployees
  dsimp only at hnarrow
  split at hnarrow
  · rename_i hany
    rw [if_pos hany, DataScope.employeeIds_of_narrow_resolved rfl hnarrow]
    cases resolved.employeeIds <;> rfl
  · rename_i hany
    rw [if_neg hany]
    split at hnarrow
    · rename_i hpersonal
      rw [if_pos hpersonal, DataScope.employeeIds_of_narrow_own rfl hnarrow]
    · rename_i hpersonal
      rw [if_neg hpersonal, DataScope.employeeIds_of_narrow_resolved rfl hnarrow]
      cases resolved.employeeIds <;> rfl

/-- The business filters of the chain are the resolved ones, whatever the capability. -/
theorem ResolvedBusinessFilters.request_business (resolved : ResolvedBusinessFilters)
    (capability : Capability) (scope : DataScope) :
    (resolved.request capability scope).deptIds = resolved.deptIds
      ∧ (resolved.request capability scope).orderIds = resolved.orderCodes
      ∧ (resolved.request capability scope).styleIds = resolved.styleCodes
      ∧ (resolved.request capability scope).planIds = resolved.planCodes
      ∧ (resolved.request capability scope).materialIds = resolved.materialIds
      ∧ (resolved.request capability scope).bedCodes = resolved.bedCodes := by
  unfold request
  dsimp only
  split
  · exact ⟨rfl, rfl, rfl, rfl, rfl, rfl⟩
  · split <;> exact ⟨rfl, rfl, rfl, rfl, rfl, rfl⟩

/-! ## A manager and two employees -/

namespace Turn

/-- A directory with a manager and an employee in one department, and an employee in another. -/
def twoDepartments : DirectoryResolver where
  listDepts := .ok [⟨"d-1", "裁剪", "CJ"⟩, ⟨"d-2", "后道", "HD"⟩]
  listEmployees := .ok [⟨"u-1", "甲", some "d-1"⟩, ⟨"u-2", "乙", some "d-1"⟩,
    ⟨"u-3", "丙", some "d-2"⟩]

/-- The manager of the first department. -/
def managerOfOne : ResolvedAuthorization where
  membership := ⟨"u-1", "t-1", "u-1", "甲", .manager, ["d-1"]⟩
  deptIds := ["d-1"]

/-- The directory, and nothing that ends the turn. -/
def plainReading : TurnReading := ⟨some twoDepartments, false, none⟩

end Turn
