import FactoryAgent.Credentials.Authorization

/-!
# The permission matrix

Which role may use which capability (`application/permission_matrix.py`), and the product capability
that a recipe belongs to (`application/capability_map.py`).
-/

/-- The capabilities of the product. -/
inductive Capability where
  | ownOutput
  | ownPayrollSummary
  | ownPayrollDetail
  | groupIncomeRank
  | orderProgress
  | orderOutput
  | workshopComparison
  | teamPayrollList
  | factoryOrderOverview
  | workshopOutputOverview
  | factoryPayrollStats
  | anyEmployeePayroll
  | factoryOutputDashboard
  deriving DecidableEq, Repr

namespace Capability

/-- The identifier of a capability. -/
def value : Capability → String
  | ownOutput => "FR-001"
  | ownPayrollSummary => "FR-002"
  | ownPayrollDetail => "FR-003"
  | groupIncomeRank => "FR-004"
  | orderProgress => "FR-005"
  | orderOutput => "FR-006"
  | workshopComparison => "FR-007"
  | teamPayrollList => "FR-008"
  | factoryOrderOverview => "FR-009"
  | workshopOutputOverview => "FR-010"
  | factoryPayrollStats => "FR-011"
  | anyEmployeePayroll => "FR-012"
  | factoryOutputDashboard => "FR-013"

/-- Every capability, in the order of the source. -/
def all : List Capability :=
  [ownOutput, ownPayrollSummary, ownPayrollDetail, groupIncomeRank, orderProgress, orderOutput,
   workshopComparison, teamPayrollList, factoryOrderOverview, workshopOutputOverview,
   factoryPayrollStats, anyEmployeePayroll, factoryOutputDashboard]

/-- The capability of an identifier; another text has none. -/
def ofValue (text : String) : Option Capability :=
  all.find? (fun capability => decide (capability.value = text))

/-- **An identifier is read back.** -/
theorem ofValue_value (capability : Capability) : ofValue capability.value = some capability := by
  cases capability <;> decide

/-- `CAPABILITY_ROLES`. -/
def roles : Capability → List Role
  | ownOutput | ownPayrollSummary | ownPayrollDetail => [.employee, .groupLeader, .manager, .owner]
  | groupIncomeRank | orderProgress | orderOutput | workshopComparison | teamPayrollList
  | workshopOutputOverview | anyEmployeePayroll => [.groupLeader, .manager, .owner]
  | factoryOrderOverview | factoryPayrollStats | factoryOutputDashboard => [.owner]

/-- The capabilities about the caller's own record. -/
def isPersonal : Capability → Bool
  | ownOutput | ownPayrollSummary | ownPayrollDetail => true
  | _ => false

end Capability

/-- `FR_BY_RECIPE`. -/
def frByRecipe : List (String × Capability) :=
  [("fr001_personal_output", .ownOutput),
   ("fr002_personal_wage_summary", .ownPayrollSummary),
   ("fr003_personal_wage_detail", .ownPayrollDetail),
   ("fr004_group_income_rank", .groupIncomeRank),
   ("fr005_order_progress", .orderProgress),
   ("fr006_order_output", .orderOutput),
   ("fr007_workshop_output_comparison", .workshopComparison),
   ("fr008_payroll_ranking", .teamPayrollList),
   ("fr009_factory_order_overview", .factoryOrderOverview),
   ("fr010_workshop_output_overview", .workshopOutputOverview),
   ("fr011_factory_payroll_stats", .factoryPayrollStats),
   ("fr012_employee_payroll", .anyEmployeePayroll),
   ("fr013_factory_output_dashboard", .factoryOutputDashboard),
   ("fr005_order_package_detail", .orderProgress),
   ("fr005_order_worktype_detail", .orderProgress)]

/-- `Capability(fr_id_for(recipe_id))`: the capability of a recipe, or of its own identifier. -/
def capabilityFor (recipeId : String) : Option Capability :=
  match frByRecipe.lookup recipeId with
  | some capability => some capability
  | none => Capability.ofValue recipeId

/-- The active tenant and the role of a caller, with its own employee id. -/
structure TenantContext where
  tenantId : String
  userId : String
  employeeId : String
  role : Role
  deriving DecidableEq, Repr

/-- The context of an authorization. -/
def ResolvedAuthorization.tenantContext (authorization : ResolvedAuthorization) :
    TenantContext where
  tenantId := authorization.membership.tenantId
  userId := authorization.membership.userId
  employeeId := authorization.membership.employeeId
  role := authorization.membership.role

/-- **`authorize_capability`**: the reason of a denial, or nothing. Every capability is registered. -/
def authorizeCapability (capability : Capability) (context : TenantContext) (scope : DataScope) :
    Except String Unit :=
  if scope.tenantId ≠ context.tenantId then
    .error "data scope does not belong to the active tenant"
  else if context.role ∉ capability.roles then
    .error "capability is not available for the current role"
  else .ok ()
