import FactoryAgent.Cache.Rows
import FactoryAgent.Lib.Checks
import FactoryAgent.Lib.DepthFirst
import FactoryAgent.Lib.Text

/-!
# Recipes and what is checked of them

The recipes of `execution/recipes.py`, as `validate_recipe` reads them: the steps with their dependencies and
bindings, the result columns, the card and the auxiliary outputs. A recipe passes exactly where it is coherent
(`validateRecipe_eq_ok_iff`): its references resolve and its dependencies have no cycle, which the recursion of
`_reject_cycles` finds out.

Which characters are letters and digits is a parameter, for Python's `str.isalpha` and `str.isalnum` know all
of Unicode.
-/

/-- **The classes of characters** that Python's methods know. -/
structure CharClasses where
  isalpha : Char → Bool
  isalnum : Char → Bool

/-- The classes on ASCII. -/
def CharClasses.ascii : CharClasses := ⟨Char.isAlpha, Char.isAlphanum⟩

/-- `StepKind`. -/
inductive StepKind where
  | api
  | «local»
  deriving DecidableEq, Repr

/-- `ParamBinding`: a request parameter that takes the values of a column of a step. -/
structure ParamBinding where
  fromStep : String
  column : String
  deriving DecidableEq, Repr

/-- `RecipeStep`. -/
structure RecipeStep where
  stepId : String
  kind : StepKind := .api
  operationId : Option String := none
  dependsOn : List String := []
  parallelGroup : Option String := none
  optional : Bool := false
  compute : Option String := none
  params : Params := ∅
  paramBindings : List (String × ParamBinding) := []
  filterBindings : List (String × String) := []
  deriving DecidableEq

/-- `ColumnType`. -/
inductive ColumnType where
  | money
  | percent
  | date
  | quantity
  deriving DecidableEq, Repr

/-- `ResultColumn`. -/
structure ResultColumn where
  name : String
  sourceStep : String
  metric : Option String := none
  columnType : Option ColumnType := none
  /-- whether the `aggregation` is `sum`, and not `none` -/
  summed : Bool := true
  deriving DecidableEq, Repr

/-- `CardActionSpec`. -/
structure CardActionSpec where
  capabilityId : String
  bindFrom : List (String × String) := []
  deriving DecidableEq, Repr

/-- The kinds of auxiliary outputs. -/
inductive AuxKind where
  | chart
  | metrics
  | details
  deriving DecidableEq, Repr

/-- `AuxOutput`. -/
structure AuxOutput where
  auxId : String
  into : AuxKind
  compute : String
  dependsOn : List String := []
  chartUnit : Option String := none
  /-- the `total_key` of each of the `metrics` -/
  metricTotalKeys : List (Option String) := []
  title : Option String := none
  columns : List ResultColumn := []
  groupBy : Option String := none
  statusColumn : Option String := none
  hiddenColumns : List String := []
  filterBindings : List (String × String) := []
  actions : List CardActionSpec := []
  deriving DecidableEq, Repr

/-- `CardKind`. -/
inductive CardKind where
  | kpi
  | table
  | ranking
  deriving DecidableEq, Repr

/-- `CardSpec`. -/
structure CardSpec where
  kind : CardKind
  metrics : List String := []
  totals : List String := []
  previewMaxRows : Option Int := none
  previewMaxGroups : Int := 50
  groupBy : Option String := none
  groupNameFrom : Option String := none
  rankColumn : Option String := none
  /-- the column of the `alert_marker` -/
  alertColumn : Option String := none
  actions : List CardActionSpec := []
  hiddenColumns : List String := []
  deriving DecidableEq, Repr

/-- `CapabilityRecipe`. -/
structure CapabilityRecipe where
  capabilityId : String
  steps : List RecipeStep
  resultColumns : List ResultColumn := []
  /-- the metrics that have a version -/
  metricVersions : List (String × String) := []
  card : Option CardSpec := none
  auxOutputs : List AuxOutput := []
  deriving DecidableEq

/-- `BUSINESS_FILTER_KEYS`. -/
def businessFilterKeys : List String :=
  ["order_codes", "style_codes", "plan_codes", "material_ids", "requested_dept_ids"]

/-- `ALLOWED_DRILL_SLOT_KEYS`. -/
def allowedDrillSlotKeys : List String :=
  ["dept_ids", "employee_uid", "order_codes", "style_codes", "plan_codes", "material_ids"]

/-- Whether a column has one of `CARD_METRIC_TYPES`. -/
def ResultColumn.isCardMetric (column : ResultColumn) : Bool :=
  match column.columnType with
  | some .money | some .quantity | some .percent => true
  | some .date | none => false

/-- `MAX_PREVIEW_ROWS`. -/
def maxPreviewRows : Int := 100

/-- `MAX_PREVIEW_GROUPS`. -/
def maxPreviewGroups : Int := 200

/-- `_is_safe_identifier`. -/
def CharClasses.isSafeIdentifier (classes : CharClasses) (value : String) : Bool :=
  match value.toList with
  | [] => false
  | first :: rest =>
    (classes.isalpha first || first == '_') && rest.all (fun c => classes.isalnum c || c == '_')

namespace CapabilityRecipe

/-- The ids of the steps. -/
def stepIds (recipe : CapabilityRecipe) : List String := recipe.steps.map (·.stepId)

/-- The ids of the API steps. -/
def apiStepIds (recipe : CapabilityRecipe) : List String :=
  (recipe.steps.filter (fun step => decide (step.kind = .api))).map (·.stepId)

/-- The names of the result columns. -/
def columnNames (recipe : CapabilityRecipe) : List String := recipe.resultColumns.map (·.name)

/-- Whether a metric has a version, which no metric needs to have. -/
def hasVersion (recipe : CapabilityRecipe) (metric : Option String) : Bool :=
  metric.all (fun metric => recipe.metricVersions.any (fun version => version.1 == metric))

/-- The result column with a name: the last one, as in a dictionary. -/
def columnNamed? (recipe : CapabilityRecipe) (name : String) : Option ResultColumn :=
  recipe.resultColumns.reverse.find? (fun column => column.name == name)

end CapabilityRecipe

open Checks

/-! ## The steps -/

/-- The check of what a step does. -/
def RecipeStep.validateKind (step : RecipeStep) (registeredOperations : List String) : Except String Unit :=
  match step.kind with
  | .api =>
    require (∃ operation ∈ step.operationId, operation ∈ registeredOperations)
      ("step " ++ step.stepId ++ " references an unregistered API")
  | .local => require (step.compute.isSome = true) ("local step " ++ step.stepId ++ " requires a compute rule")

/-- The check of a binding. -/
def validateBinding (classes : CharClasses) (recipe : CapabilityRecipe) (stepId : String)
    (binding : String × ParamBinding) : Except String Unit := do
  require (binding.2.fromStep ∈ recipe.apiStepIds)
    ("step " ++ stepId ++ " param " ++ binding.1 ++ " binds from a non-API step")
  require (classes.isSafeIdentifier binding.2.fromStep = true
      ∧ classes.isSafeIdentifier binding.2.column = true)
    ("step " ++ stepId ++ " param " ++ binding.1 ++ " binds an unsafe identifier")

/-- **The checks of a step.** -/
def validateStep (classes : CharClasses) (recipe : CapabilityRecipe) (registeredOperations : List String)
    (step : RecipeStep) : Except String Unit := do
  step.validateKind registeredOperations
  each step.dependsOn fun dependency =>
    require (dependency ∈ recipe.stepIds)
      ("step " ++ step.stepId ++ " depends on unknown step " ++ dependency)
  each step.paramBindings (validateBinding classes recipe step.stepId)
  each step.filterBindings fun binding =>
    require (binding.2 ∈ businessFilterKeys)
      ("step " ++ step.stepId ++ " binds an unknown business filter " ++ binding.2)

/-- The dependencies of a step, by its id. -/
def CapabilityRecipe.edges (recipe : CapabilityRecipe) (stepId : String) : List String :=
  ((recipe.steps.reverse.find? (fun step => step.stepId == stepId)).map (·.dependsOn)).getD []

/-- **`_reject_cycles`.** -/
def rejectCycles (recipe : CapabilityRecipe) : Except String Unit :=
  require ((DepthFirst.search recipe.edges recipe.stepIds).isSome = true)
    "recipe contains a circular dependency"

/-- The check of a result column. -/
def validateColumn (recipe : CapabilityRecipe) (column : ResultColumn) : Except String Unit := do
  require (column.sourceStep ∈ recipe.stepIds)
    ("result column " ++ column.name ++ " references unknown step " ++ column.sourceStep)
  require (recipe.hasVersion column.metric = true)
    ("result column " ++ column.name ++ " uses a metric without a version")

/-! ## The card -/

/-- The result columns that a card refers to. -/
def CardSpec.references (card : CardSpec) : List String :=
  card.metrics ++ card.totals ++ card.groupBy.toList ++ card.rankColumn.toList ++ card.alertColumn.toList
    ++ card.groupNameFrom.toList

/-- The checks that depend on the kind of a card. -/
def CardSpec.validateKind (card : CardSpec) : Except String Unit :=
  match card.kind with
  | .kpi => do
    require (card.metrics ≠ []) "kpi card requires at least one metric"
    require (card.groupBy = none ∧ card.rankColumn = none ∧ card.alertColumn = none)
      "kpi card cannot declare a preview table"
  | .table | .ranking => do
    require (card.previewMaxRows.isSome = true) "table-bearing card requires preview_max_rows"
    require (∀ rows ∈ card.previewMaxRows, 1 ≤ rows ∧ rows ≤ maxPreviewRows)
      "card preview_max_rows must be within 1..100"
    require (¬ (card.kind = .ranking ∧ card.rankColumn = none)) "ranking card requires rank_column"

/-- The check of an action of the card. -/
def validateCardAction (classes : CharClasses) (recipe : CapabilityRecipe) (action : CardActionSpec) :
    Except String Unit := do
  require (classes.isSafeIdentifier action.capabilityId = true)
    "card action capability_id must be a plain identifier"
  each action.bindFrom fun binding => do
    require (binding.1 ∈ allowedDrillSlotKeys) ("card action binds an unknown drill slot " ++ binding.1)
    require (binding.2 ∈ recipe.columnNames) ("card action binds unknown result column " ++ binding.2)

/-- **`_validate_card`**, of a card that is there. -/
def validateCard (classes : CharClasses) (recipe : CapabilityRecipe) (card : CardSpec) :
    Except String Unit := do
  require (card.hiddenColumns ⊆ recipe.columnNames) "card has unknown hidden columns"
  each card.references fun name =>
    require (name ∈ recipe.columnNames) ("card references unknown result column " ++ name)
  card.validateKind
  require (1 ≤ card.previewMaxGroups ∧ card.previewMaxGroups ≤ maxPreviewGroups)
    "card preview_max_groups must be within 1..200"
  each card.metrics fun name =>
    require (∃ column ∈ recipe.columnNamed? name, column.isCardMetric = true)
      ("card metric " ++ name ++ " must be a numeric column (['money', 'percent', 'quantity'])")
  each card.actions (validateCardAction classes recipe)

/-! ## The auxiliary outputs -/

/-- The check of a column of a detail view. -/
def validateDetailColumn (classes : CharClasses) (recipe : CapabilityRecipe) (aux : AuxOutput)
    (column : ResultColumn) : Except String Unit := do
  require (classes.isSafeIdentifier column.name = true ∧ column.sourceStep ∈ recipe.stepIds)
    ("aux output " ++ aux.auxId ++ " has an invalid detail source")
  require (recipe.hasVersion column.metric = true)
    ("aux output " ++ aux.auxId ++ " has an unversioned metric")

/-- The check of an action of a detail view. -/
def validateDetailAction (classes : CharClasses) (names : List String) (action : CardActionSpec) :
    Except String Unit := do
  require (classes.isSafeIdentifier action.capabilityId = true) "detail action has an invalid capability"
  require (∀ binding ∈ action.bindFrom, binding.1 ∈ allowedDrillSlotKeys ∧ binding.2 ∈ names)
    "detail action has an invalid business binding"

/-- The checks of a detail view. -/
def AuxOutput.validateDetails (aux : AuxOutput) (classes : CharClasses) (recipe : CapabilityRecipe) :
    Except String Unit := do
  let names := aux.columns.map (·.name)
  require (aux.title.getD "" ≠ "" ∧ names ≠ [] ∧ names.Nodup)
    ("aux output " ++ aux.auxId ++ " requires unique detail columns and title")
  require (∃ group ∈ aux.groupBy, group ∈ names ∧ group ∈ recipe.columnNames)
    ("aux output " ++ aux.auxId ++ " requires a shared result group key")
  require (∀ status ∈ aux.statusColumn, status ∈ names)
    ("aux output " ++ aux.auxId ++ " has an unknown status column")
  require (aux.hiddenColumns ⊆ names) ("aux output " ++ aux.auxId ++ " has unknown hidden columns")
  each aux.columns (validateDetailColumn classes recipe aux)
  each aux.actions (validateDetailAction classes names)

/-- The checks that depend on the kind of an output. -/
def AuxOutput.validateKind (aux : AuxOutput) (classes : CharClasses) (recipe : CapabilityRecipe) :
    Except String Unit :=
  match aux.into with
  | .chart =>
    require (aux.chartUnit.isSome = true)
      ("aux output " ++ aux.auxId ++ " declares a chart without chart_unit")
  | .details => aux.validateDetails classes recipe
  | .metrics =>
    require (aux.metricTotalKeys ≠ [])
      ("aux output " ++ aux.auxId ++ " declares metrics without entries")

/-- A total that is no sum of rows: the first column of that name. -/
def CapabilityRecipe.isNonadditiveTotal (recipe : CapabilityRecipe) (totalKey : String) : Bool :=
  match recipe.resultColumns.find? (fun column => column.name == totalKey) with
  | none => false
  | some column => column.isCardMetric && !column.summed

/-- **The checks of an auxiliary output.** -/
def validateAuxOutput (classes : CharClasses) (recipe : CapabilityRecipe) (aux : AuxOutput) :
    Except String Unit := do
  each aux.dependsOn fun dependency =>
    require (dependency ∈ recipe.apiStepIds)
      ("aux output " ++ aux.auxId ++ " depends on unknown API step " ++ dependency)
  require (Text.strip aux.compute ≠ "") ("aux output " ++ aux.auxId ++ " requires a compute rule")
  each aux.filterBindings fun binding =>
    require (classes.isSafeIdentifier binding.1 = true ∧ binding.2 ∈ businessFilterKeys)
      ("aux output " ++ aux.auxId ++ " has an invalid filter binding")
  aux.validateKind classes recipe
  each aux.metricTotalKeys fun totalKey =>
    require (∀ key ∈ totalKey, recipe.isNonadditiveTotal key = true)
      ("aux output " ++ aux.auxId ++ " has an invalid nonadditive total")

/-- **`_validate_aux_outputs`.** -/
def validateAuxOutputs (classes : CharClasses) (recipe : CapabilityRecipe) : Except String Unit := do
  require (recipe.auxOutputs.map (·.auxId)).Nodup "recipe contains duplicate aux output IDs"
  each recipe.auxOutputs (validateAuxOutput classes recipe)

/-! ## The recipe -/

/-- **`validate_recipe`.** -/
def validateRecipe (classes : CharClasses) (recipe : CapabilityRecipe) (registeredOperations : List String) :
    Except String Unit := do
  require recipe.stepIds.Nodup "recipe contains duplicate step IDs"
  each recipe.steps (validateStep classes recipe registeredOperations)
  rejectCycles recipe
  each recipe.resultColumns (validateColumn recipe)
  each recipe.card.toList (validateCard classes recipe)
  validateAuxOutputs classes recipe

/-- **The references of a step resolve.** -/
structure RecipeStep.Coherent (step : RecipeStep) (classes : CharClasses) (recipe : CapabilityRecipe)
    (registeredOperations : List String) : Prop where
  registered : step.kind = .api → ∃ operation ∈ step.operationId, operation ∈ registeredOperations
  computed : step.kind = .local → step.compute.isSome = true
  dependencies : step.dependsOn ⊆ recipe.stepIds
  bound : ∀ binding ∈ step.paramBindings, binding.2.fromStep ∈ recipe.apiStepIds
  safe : ∀ binding ∈ step.paramBindings, classes.isSafeIdentifier binding.2.fromStep = true
    ∧ classes.isSafeIdentifier binding.2.column = true
  filters : ∀ binding ∈ step.filterBindings, binding.2 ∈ businessFilterKeys

/-- A step depends directly on another one. -/
def CapabilityRecipe.DependsOn (recipe : CapabilityRecipe) (stepId dependency : String) : Prop :=
  ∃ step ∈ recipe.steps, step.stepId = stepId ∧ dependency ∈ step.dependsOn

/-- **A coherent recipe**: the ids are distinct, the references resolve, no step depends on itself, and what
is shown of the result is in order. -/
structure CapabilityRecipe.Coherent (recipe : CapabilityRecipe) (classes : CharClasses)
    (registeredOperations : List String) : Prop where
  distinct : recipe.stepIds.Nodup
  steps : ∀ step ∈ recipe.steps, step.Coherent classes recipe registeredOperations
  acyclic : ∀ stepId, ¬ Relation.TransGen recipe.DependsOn stepId stepId
  sources : ∀ column ∈ recipe.resultColumns, column.sourceStep ∈ recipe.stepIds
  versions : ∀ column ∈ recipe.resultColumns, recipe.hasVersion column.metric = true
  card : ∀ card ∈ recipe.card, validateCard classes recipe card = .ok ()
  auxOutputs : validateAuxOutputs classes recipe = .ok ()

section Coherence

variable {classes : CharClasses} {recipe : CapabilityRecipe} {registeredOperations : List String}
  {step : RecipeStep}

/-- What a step does is checked. -/
theorem RecipeStep.validateKind_eq_ok_iff :
    step.validateKind registeredOperations = .ok () ↔
      (step.kind = .api → ∃ operation ∈ step.operationId, operation ∈ registeredOperations)
        ∧ (step.kind = .local → step.compute.isSome = true) := by
  unfold RecipeStep.validateKind
  cases hkind : step.kind <;> simp

/-- **The checks of a step** are that its references resolve. -/
theorem validateStep_eq_ok_iff :
    validateStep classes recipe registeredOperations step = .ok () ↔
      step.Coherent classes recipe registeredOperations := by
  unfold validateStep validateBinding
  simp only [then_eq_ok, each_eq_ok, require_eq_ok, RecipeStep.validateKind_eq_ok_iff]
  constructor
  · rintro ⟨⟨hregistered, hcomputed⟩, hdependencies, hbound, hfilters⟩
    exact ⟨hregistered, hcomputed, fun _ hmem => hdependencies _ hmem, fun _ hmem => (hbound _ hmem).1,
      fun _ hmem => (hbound _ hmem).2, hfilters⟩
  · intro h
    exact ⟨⟨h.registered, h.computed⟩, fun _ hmem => h.dependencies hmem,
      fun _ hmem => ⟨h.bound _ hmem, h.safe _ hmem⟩, h.filters⟩

/-- The edges of the search are the dependencies, where ids are distinct. -/
theorem mem_edges_iff (hdistinct : recipe.stepIds.Nodup) {stepId dependency : String} :
    dependency ∈ recipe.edges stepId ↔ recipe.DependsOn stepId dependency := by
  unfold CapabilityRecipe.edges
  constructor
  · intro h
    cases hfound : recipe.steps.reverse.find? (fun step => step.stepId == stepId) with
    | none =>
      rw [hfound] at h
      exact absurd h List.not_mem_nil
    | some step =>
      rw [hfound] at h
      have hid := List.find?_some hfound
      exact ⟨step, List.mem_reverse.mp (List.mem_of_find?_eq_some hfound), eq_of_beq hid, h⟩
  · rintro ⟨step, hstep, hid, hmem⟩
    have hsome : (recipe.steps.reverse.find? (fun step => step.stepId == stepId)).isSome = true :=
      List.find?_isSome.mpr ⟨step, List.mem_reverse.mpr hstep, beq_iff_eq.mpr hid⟩
    obtain ⟨found, hfound⟩ := Option.isSome_iff_exists.mp hsome
    have hfoundId := List.find?_some hfound
    have hsame : found = step := List.inj_on_of_nodup_map hdistinct
      (List.mem_reverse.mp (List.mem_of_find?_eq_some hfound)) hstep
      ((eq_of_beq hfoundId).trans hid.symm)
    rw [hfound, hsame]
    exact hmem

/-- **The search for cycles** passes where no step depends on itself. A dependency that is no step has none. -/
theorem rejectCycles_eq_ok_iff (hdistinct : recipe.stepIds.Nodup) :
    rejectCycles recipe = .ok () ↔ ∀ stepId, ¬ Relation.TransGen recipe.DependsOn stepId stepId := by
  have hedge : DepthFirst.Edge recipe.edges = recipe.DependsOn := by
    ext stepId dependency
    exact mem_edges_iff hdistinct
  have hclosed : ∀ stepId ∈ recipe.stepIds, ∀ dependency ∈ recipe.edges stepId,
      dependency ∈ recipe.stepIds ∨ recipe.edges dependency = [] := by
    intro stepId _ dependency _
    by_cases hknown : dependency ∈ recipe.stepIds
    · exact .inl hknown
    · refine .inr (List.eq_nil_iff_forall_not_mem.mpr fun other hother => hknown ?_)
      obtain ⟨step, hstep, hid, -⟩ := (mem_edges_iff hdistinct).mp hother
      exact List.mem_map.mpr ⟨step, hstep, hid⟩
  rw [rejectCycles, require_eq_ok, DepthFirst.search_isSome_iff hclosed, hedge]
  refine ⟨fun h stepId hcycle => ?_, fun h stepId _ => h stepId⟩
  obtain ⟨_, ⟨step, hstep, hid, -⟩, -⟩ := Relation.TransGen.head'_iff.mp hcycle
  exact h stepId (List.mem_map.mpr ⟨step, hstep, hid⟩) hcycle

/-- **A recipe passes exactly where it is coherent.** -/
theorem validateRecipe_eq_ok_iff :
    validateRecipe classes recipe registeredOperations = .ok () ↔
      recipe.Coherent classes registeredOperations := by
  unfold validateRecipe
  simp only [then_eq_ok, each_eq_ok, require_eq_ok, validateStep_eq_ok_iff, validateColumn]
  constructor
  · rintro ⟨hdistinct, hsteps, hacyclic, hcolumns, hcard, haux⟩
    exact ⟨hdistinct, hsteps, (rejectCycles_eq_ok_iff hdistinct).mp hacyclic,
      fun _ hmem => (hcolumns _ hmem).1, fun _ hmem => (hcolumns _ hmem).2,
      fun card hmem => hcard card (Option.mem_toList.mpr hmem), haux⟩
  · intro h
    exact ⟨h.distinct, h.steps, (rejectCycles_eq_ok_iff h.distinct).mpr h.acyclic,
      fun _ hmem => ⟨h.sources _ hmem, h.versions _ hmem⟩,
      fun card hmem => h.card card (Option.mem_toList.mp hmem), h.auxOutputs⟩

end Coherence
