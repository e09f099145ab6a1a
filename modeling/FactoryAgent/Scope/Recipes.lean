import FactoryAgent.Scope.Turn

/-!
# The recipes and the drills they accept

The registry of `execution/recipes.py` as the files of `configs/knowledge/recipes` fill it, with what
the validation of a drill reads of a recipe: its API operations and its detail views. And
`SessionService._validate_drill`, which a request passes before its interaction is persisted.
-/

/-- An auxiliary output into the details of a card. -/
structure DetailView where
  auxId : String
  statusColumn : Option String := none
  deriving DecidableEq, Repr

/-- **A recipe**, as far as drills are validated against it. -/
structure Recipe where
  capabilityId : String
  /-- the operations of the steps of kind `api` -/
  operationIds : List String
  details : List DetailView := []
  deriving DecidableEq, Repr

/-- The recipes that are shipped with the service. -/
def shippedRecipes : List Recipe :=
  [{ capabilityId := "fr001_personal_output", operationIds := ["GongziClQuery"] },
   { capabilityId := "fr002_personal_wage_summary", operationIds := ["GongziClQuery"] },
   { capabilityId := "fr003_personal_wage_detail", operationIds := ["GongziClQuery"] },
   { capabilityId := "fr004_group_income_rank", operationIds := ["GongziClQuery", "EmployeeQuery"] },
   { capabilityId := "fr005_order_progress", operationIds := ["ScjdQuery"]
     details := [⟨"sheet_details", some "finish_state"⟩] },
   { capabilityId := "fr005_order_package_detail", operationIds := ["ScjdQuery"] },
   { capabilityId := "fr005_order_worktype_detail", operationIds := ["ScjdQuery"] },
   { capabilityId := "fr006_order_output", operationIds := ["GongziClQuery", "ScjdQuery"]
     details := [⟨"worktype_details", none⟩] },
   { capabilityId := "fr007_workshop_output_comparison", operationIds := ["GongziClQuery"] },
   { capabilityId := "fr008_payroll_ranking", operationIds := ["GongziClQuery"] },
   { capabilityId := "fr009_factory_order_overview", operationIds := ["ScjdQuery"]
     details := [⟨"sheet_details", some "finish_state"⟩] },
   { capabilityId := "fr010_workshop_output_overview", operationIds := ["GongziClQuery"] },
   { capabilityId := "fr011_factory_payroll_stats", operationIds := ["GongziClQuery", "EmployeeQuery"] },
   { capabilityId := "fr012_employee_payroll", operationIds := ["GongziClQuery"] },
   { capabilityId := "fr013_factory_output_dashboard"
     operationIds := ["GongziClQuery", "ScjdQuery", "EmployeeQuery"] },
   { capabilityId := "smoke_piecework_summary", operationIds := ["EmployeeQuery", "DeptQuery"] }]

/-- The capability of analyses. No recipe answers it. -/
def l2CapabilityId : String := "l2_analysis"

/-- The capability of small talk. -/
def chitchatCapabilityId : String := "chitchat"

/-- `RecipeRegistry.get`. -/
def recipeFor (capabilityId : String) : Option Recipe :=
  shippedRecipes.find? (fun recipe => decide (recipe.capabilityId = capabilityId))

/-- Whether a text holds two dots in a row. -/
def hasParentDir : List Char → Bool
  | '.' :: '.' :: _ => true
  | _ :: rest => hasParentDir rest
  | [] => false

namespace DrillPayload

/-- The business codes of a payload, dimension by dimension. -/
def businessCodes (payload : DrillPayload) : List (List String) :=
  [payload.orderCodes, payload.styleCodes, payload.planCodes, payload.bedCodes, payload.materialIds]

/-- The checks of the slots that do not look at the recipe. -/
def validateSlots (payload : DrillPayload) : Except String Unit :=
  if payload.deptIds.length > 20 then .error "drill dept_ids exceeds the maximum count"
  else if payload.deptIds.any (fun value => value = "" || decide (value.length > 64)) then
    .error "drill dept_ids contain an invalid value"
  else if payload.employeeUid.any (fun uid => !decide (0 < uid.length ∧ uid.length ≤ 64)) then
    .error "drill employee_uid is not acceptable"
  else if payload.timeExpression.any (fun expression => decide (expression.length > 64)) then
    .error "drill time_expression is not acceptable"
  else if payload.businessCodes.any (fun values => decide (values.length > 20)
      || values.any (fun value => value = "" || decide (value.length > 128))) then
    .error "drill business filters are not acceptable"
  else .ok ()

/-- The check of a detail view. -/
def validateView (payload : DrillPayload) (recipe : Recipe) (view : OrderViewSelection) :
    Except String Unit :=
  if payload.timeRangeStart.isNone ∨ payload.timeRangeEnd.isNone then
    .error "order view requires the original absolute time window"
  else if view.page > 1 ∧ view.snapshotId.isNone then
    .error "order detail pagination requires a snapshot"
  else
    match recipe.details.find? (fun detail => decide (detail.auxId = view.viewId)) with
    | none => .error "order detail view is not registered"
    | some detail =>
      if view.status ≠ "all" ∧ detail.statusColumn.isNone then
        .error "order detail view does not support status filtering"
      else .ok ()

/-- The checks of the page of the group list. -/
def validateGroupPage (payload : DrillPayload) (recipe : Recipe) : Except String Unit :=
  if ¬ (1 ≤ payload.groupPage ∧ payload.groupPage ≤ 100000) then
    .error "order group page is invalid"
  else if ¬ (1 ≤ payload.groupPageSize ∧ payload.groupPageSize ≤ 50) then
    .error "order group page size is invalid"
  else if payload.groupPage > 1 ∧ (payload.dataSnapshotId.isNone ∨ payload.timeRangeStart.isNone
      ∨ payload.timeRangeEnd.isNone) then
    .error "order group pagination requires snapshot and original time window"
  else if payload.groupPage > 1 ∧ payload.orderView.isSome then
    .error "order detail selection cannot paginate the group list"
  else if (payload.groupPage ≠ 1 ∨ payload.groupPageSize ≠ 50 ∨ payload.dataSnapshotId.isSome)
      ∧ recipe.details = [] then
    .error "capability does not support order group pagination"
  else .ok ()

/-- **`_validate_drill`.** -/
def validateDrill (payload : DrillPayload) : Except String Unit :=
  if payload.capabilityId = "" ∨ payload.capabilityId.toList.elem '/'
      ∨ hasParentDir payload.capabilityId.toList then
    .error "drill capability_id is not acceptable"
  else
    match recipeFor payload.capabilityId with
    | none => .error "drill capability is not registered"
    | some recipe => do
      payload.validateSlots
      if payload.materialIds ≠ [] ∧ "GongziClQuery" ∈ recipe.operationIds then
        .error "wage output does not support material filtering"
      else
        payload.orderView.elim (.ok ()) (payload.validateView recipe)
        payload.validateGroupPage recipe

variable {payload : DrillPayload}

/-- **A validated drill** is for a recipe, and its slots are in order. -/
theorem of_validateDrill (h : payload.validateDrill = .ok ()) :
    (∃ recipe ∈ shippedRecipes, recipe.capabilityId = payload.capabilityId)
      ∧ payload.validateSlots = .ok () := by
  unfold validateDrill at h
  split at h
  · cases h
  · split at h
    · cases h
    · rename_i recipe hrecipe
      obtain ⟨_, hslots, -⟩ := Except.bind_eq_ok.mp h
      have hfound := List.find?_some hrecipe
      exact ⟨⟨recipe, List.mem_of_find?_eq_some hrecipe, of_decide_eq_true hfound⟩, hslots⟩

/-- The employee of a validated drill has an id. -/
theorem employeeUid_ne_empty (h : payload.validateSlots = .ok ()) :
    ∀ uid ∈ payload.employeeUid, uid ≠ "" := by
  rintro uid huid rfl
  have hbad : payload.employeeUid.any
      (fun uid => !decide (0 < uid.length ∧ uid.length ≤ 64)) = true := by
    rw [Option.mem_def.mp huid]
    rfl
  unfold validateSlots at h
  rw [if_pos hbad] at h
  split at h
  · cases h
  · split at h <;> cases h

/-- No recipe answers small talk or an analysis: a validated drill is for neither. -/
theorem capabilityId_ne_of_validateDrill (h : payload.validateDrill = .ok ()) :
    payload.capabilityId ≠ chitchatCapabilityId ∧ payload.capabilityId ≠ l2CapabilityId := by
  obtain ⟨recipe, hrecipe, heq⟩ := (of_validateDrill h).1
  have hall : ∀ recipe ∈ shippedRecipes,
      recipe.capabilityId ≠ chitchatCapabilityId ∧ recipe.capabilityId ≠ l2CapabilityId := by
    decide
  exact heq ▸ hall recipe hrecipe

end DrillPayload
