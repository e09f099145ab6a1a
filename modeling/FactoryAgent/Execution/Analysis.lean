import FactoryAgent.Execution.AnalysisData
import FactoryAgent.Lib.Checks

/-!
# The analysis compiler

The analysis plan, and `StructuredAnalysisCompiler.compile` of `execution/analysis.py`, which checks a plan against
the loaded datasets and turns it into one SQL query over their tables. The query is kept as its clauses; its text
is their rendering, in which every identifier comes from the catalogue and every filter value is a parameter. The
type of the filter values is a parameter here, for only the database reads them. The titles of the result columns
are left out.
-/

variable {σ : Type}

/-! ## The plan -/

/-- `Metric.operation`. -/
inductive MetricOperation where
  | sum
  | count
  | countDistinct
  deriving DecidableEq, Repr

/-- The text of an operation. -/
def MetricOperation.name : MetricOperation → String
  | sum => "sum"
  | count => "count"
  | countDistinct => "count_distinct"

/-- `Filter.operator`. -/
inductive FilterOperator where
  | eq
  | in
  | gte
  | lt
  deriving DecidableEq, Repr

/-- `Metric`. -/
structure PlanMetric where
  metricId : String
  operation : MetricOperation

/-- `Filter`. -/
structure PlanFilter (σ : Type) where
  field : String
  operator : FilterOperator
  values : List σ

/-- `Sort`. -/
structure PlanSort where
  field : String
  descending : Bool

/-- `Join.cardinality`. -/
inductive Cardinality where
  | oneToOne
  | manyToOne
  deriving DecidableEq, Repr

/-- `Join`. -/
structure PlanJoin where
  leftRef : String
  rightRef : String
  leftKeys : List String
  rightKeys : List String
  cardinality : Cardinality

/-- `TimeBucket.unit`. -/
inductive BucketUnit where
  | day
  | week
  | month
  deriving DecidableEq, Repr

/-- `TimeBucket`. -/
structure PlanBucket where
  field : String
  unit : BucketUnit

/-- **`AnalysisPlan`.** -/
structure AnalysisPlan (σ : Type) where
  datasetRefs : List String
  groupBy : List String
  metrics : List PlanMetric
  filters : List (PlanFilter σ)
  orderBy : List PlanSort
  joins : List PlanJoin
  timeBucket : Option PlanBucket
  limit : Nat

/-- Whether the length of a field is within its bounds. -/
def lengthWithin (least most : Nat) (length : Nat) : Bool :=
  least ≤ length && length ≤ most

/-- The checks of `Metric`. -/
def PlanMetric.valid (metric : PlanMetric) : Bool :=
  lengthWithin 1 80 metric.metricId.length

/-- The checks of `Filter`: one value, but for `in`. -/
def PlanFilter.valid (filter : PlanFilter σ) : Bool :=
  lengthWithin 1 80 filter.field.length && lengthWithin 1 100 filter.values.length
    && (filter.operator == .in || filter.values.length == 1)

/-- The checks of `Join`: as many keys on the one side as on the other. -/
def PlanJoin.valid (join : PlanJoin) : Bool :=
  lengthWithin 1 120 join.leftRef.length && lengthWithin 1 120 join.rightRef.length
    && lengthWithin 1 4 join.leftKeys.length && lengthWithin 1 4 join.rightKeys.length
    && join.leftKeys.length == join.rightKeys.length

/-- **`AnalysisPlan.model_validate`**: the bounds of the fields, the checks of the parts, and
`validate_references`. -/
def AnalysisPlan.valid (plan : AnalysisPlan σ) : Bool :=
  lengthWithin 1 4 plan.datasetRefs.length && lengthWithin 0 8 plan.groupBy.length
    && lengthWithin 0 16 plan.metrics.length && plan.metrics.all PlanMetric.valid
    && lengthWithin 0 16 plan.filters.length && plan.filters.all PlanFilter.valid
    && lengthWithin 0 8 plan.orderBy.length && plan.orderBy.all (fun item => lengthWithin 1 80 item.field.length)
    && lengthWithin 0 3 plan.joins.length && plan.joins.all PlanJoin.valid
    && lengthWithin 1 10000 plan.limit
    && decide plan.datasetRefs.Nodup
    && plan.joins.all fun join => plan.datasetRefs.contains join.leftRef
      && plan.datasetRefs.contains join.rightRef && join.leftRef != join.rightRef

/-! ## The query -/

/-- A column of a table, `d0."field"`. -/
structure FieldRef where
  /-- The number of the alias of the table. -/
  tableAlias : Nat
  field : String
  deriving DecidableEq, Repr

/-- An expression of the select list. -/
inductive SelectExpr where
  | field (ref : FieldRef)
  /-- `CAST(date_trunc(unit, field) AS DATE)` -/
  | bucket (unit : BucketUnit) (ref : FieldRef)
  /-- `COALESCE(SUM(field), 0)`, `COUNT(DISTINCT NULLIF(field, ''))` or `COUNT(*)` -/
  | metric (operation : MetricOperation) (ref : FieldRef)
  deriving DecidableEq, Repr

/-- An expression of the select list, under its name. -/
structure SelectItem where
  expr : SelectExpr
  output : String

/-- `JOIN table AS alias ON left.key = alias.other AND …` -/
structure JoinClause where
  tableName : String
  tableAlias : Nat
  leftAlias : Nat
  keys : List (String × String)

/-- A condition of the `WHERE` clause, with its parameters. -/
structure WhereClause (σ : Type) where
  ref : FieldRef
  operator : FilterOperator
  values : List σ

/-- `ResultColumnMeta`. -/
structure ResultColumnMeta where
  name : String
  metricName : Option String
  metricVersion : Option String
  valueKind : String
  unit : Option String

/-- **`CompiledAnalysis`**, with its query as the clauses. -/
structure CompiledAnalysis (σ : Type) where
  select : List SelectItem
  /-- The table that is `d0`. -/
  fromTable : String
  joins : List JoinClause
  conditions : List (WhereClause σ)
  group : List SelectExpr
  order : List (String × Bool)
  limit : Nat
  columns : List ResultColumnMeta
  scanRows : Nat

/-! ## Joins -/

/-- `_JOINS`. -/
def permittedJoins : List (DatasetId × String × DatasetId × String) :=
  [(.reportedProduction, "style_id", .styles, "style_id"),
    (.productionProgress, "style_id", .styles, "style_id"),
    (.reportedProduction, "process_id", .processes, "process_id"),
    (.productionProgress, "process_id", .processes, "process_id"),
    (.styleProcesses, "style_id", .styles, "style_id"),
    (.styleColors, "style_id", .styles, "style_id"),
    (.styleSizes, "style_id", .styles, "style_id"),
    (.styleProcesses, "process_id", .processes, "process_id"),
    (.billProcesses, "process_id", .processes, "process_id"),
    (.styleProcesses, "type_id", .productionTypes, "type_id"),
    (.billProcesses, "type_id", .productionTypes, "type_id"),
    (.styles, "type_id", .styleTypes, "type_id")]

/-- The values of some keys in the rows of a dataset. -/
def LoadedDataset.keyValues (loaded : LoadedDataset) (keys : List String) : List (List AnalysisValue) :=
  loaded.rows.map fun row => keys.map (AnalysisRow.get row)

/-- Whether a key is missing. -/
def AnalysisValue.isMissing : AnalysisValue → Bool
  | text value => value == ""
  | null => true
  | decimal _ | integer _ | boolean _ => false

open Checks in
/-- **`_validate_join`.** -/
def validateJoin (left right : LoadedDataset) (leftKeys rightKeys : List String) (cardinality : Cardinality) :
    Except String Unit := do
  require (¬(left.datasetId ∈ factDatasets ∧ right.datasetId ∈ factDatasets)) "unavailable"
  require (leftKeys.length = 1
    ∧ (left.datasetId, leftKeys.headD "", right.datasetId, rightKeys.headD "") ∈ permittedJoins) "unavailable"
  require ((∀ key ∈ leftKeys, key ∈ left.columns) ∧ ∀ key ∈ rightKeys, key ∈ right.columns) "unavailable"
  let leftValues := left.keyValues leftKeys
  let rightValues := right.keyValues rightKeys
  require (∀ keys ∈ leftValues ++ rightValues, ∀ value ∈ keys, value.isMissing = false) "unavailable"
  require rightValues.Nodup "unavailable"
  require (cardinality = .oneToOne → leftValues.Nodup) "unavailable"
  require (leftValues ⊆ rightValues) "unavailable"

/-- A dataset by its reference, with the number of its alias. -/
def byReference (loaded : List LoadedDataset) (reference : String) : Except String (Nat × LoadedDataset) :=
  match loaded.zipIdx.find? (fun item => item.1.reference == reference) with
  | some (dataset, i) => .ok (i, dataset)
  | none => .error "invalid_action"

open Checks in
/-- **One join of the plan**, onto the datasets that are connected and the clauses so far. -/
def compileJoin (loaded : List LoadedDataset) (state : List String × List JoinClause) (join : PlanJoin) :
    Except String (List String × List JoinClause) := do
  require (join.leftRef ∈ state.1 ∧ join.rightRef ∉ state.1) "invalid_action"
  let left ← byReference loaded join.leftRef
  let right ← byReference loaded join.rightRef
  validateJoin left.2 right.2 join.leftKeys join.rightKeys join.cardinality
  return (state.1 ++ [right.2.reference],
    state.2 ++ [⟨right.2.tableName, right.1, left.1, join.leftKeys.zip join.rightKeys⟩])

/-! ## Fields -/

/-- `name.partition(".")`: the text before the first dot, whether there is one, and the text after it. -/
def partitionDot (name : String) : String × Bool × String :=
  (String.ofList (name.toList.takeWhile (· ≠ '.')), name.toList.contains '.',
    String.ofList ((name.toList.dropWhile (· ≠ '.')).drop 1))

/-- Whether a name is an identifier, `^[a-z][a-z0-9_]*$`. -/
def isIdentifier (name : String) : Bool :=
  match name.toList with
  | [] => false
  | c :: cs => c.isLower && cs.all fun c => c.isLower || c.isDigit || c == '_'

/-- The field that a name means, and the condition on the dataset it is of. -/
def namedField (name : String) : String × (LoadedDataset → Bool) :=
  let parts := partitionDot name
  let field := if parts.2.1 then parts.2.2 else name
  (field, fun item => item.columns.contains field && (!parts.2.1 || item.datasetId.name == parts.1))

/-- **`field_expression`**: the column that a name means, which has to be of one dataset. -/
def fieldExpression (loaded : List LoadedDataset) (allowSensitive : Bool) (name : String) :
    Except String (FieldRef × String) :=
  let field := (namedField name).1
  if isIdentifier field = false then .error "invalid_action"
  else
    match loaded.zipIdx.filter fun item => (namedField name).2 item.1 with
    | [(_, i)] =>
      if field ∈ sensitiveFields ∧ allowSensitive = false then .error "denied" else .ok (⟨i, field⟩, field)
    | [] =>
      if loaded.any fun item => item.datasetId.fields.contains field then .error "unavailable"
      else .error "invalid_action"
    | _ :: _ :: _ => .error "invalid_action"

/-! ## The select list -/

/-- What the loops over the plan build up. -/
structure SelectState where
  select : List SelectItem
  group : List SelectExpr
  columns : List ResultColumnMeta
  outputNames : List String

/-- `name.replace(".", "_")` -/
def outputName (name : String) : String :=
  String.ofList (name.toList.map fun c => if c = '.' then '_' else c)

/-- A column of the result that is no metric. -/
def textColumn (name : String) : ResultColumnMeta :=
  ⟨name, none, none, "text", none⟩

open Checks in
/-- One name of `group_by`. -/
def compileGroup (loaded : List LoadedDataset) (state : SelectState) (name : String) :
    Except String SelectState := do
  let expression ← fieldExpression loaded false name
  let output := outputName name
  require (output ∉ state.outputNames) "invalid_action"
  return ⟨state.select ++ [⟨.field expression.1, output⟩], state.group ++ [.field expression.1],
    state.columns ++ [textColumn output], state.outputNames ++ [output]⟩

open Checks in
/-- The time bucket. -/
def compileBucket (loaded : List LoadedDataset) (state : SelectState) (bucket : PlanBucket) :
    Except String SelectState := do
  let expression ← fieldExpression loaded false bucket.field
  require (expression.2 = "business_date") "invalid_action"
  return ⟨state.select ++ [⟨.bucket bucket.unit expression.1, "period"⟩],
    state.group ++ [.bucket bucket.unit expression.1], state.columns ++ [textColumn "period"],
    state.outputNames ++ ["period"]⟩

/-- `mappings` of `_metric_metadata`. -/
def metricMappings : List (String × String × String × String) :=
  [("quantity", "output_reported_qty", "customer-cl-v2", "件·工序"),
    ("payroll_amount", "output_reported_amount", "customer-cl-v2", "元"),
    ("issued_quantity", "progress_issued_qty", "customer-progress-v2", "件"),
    ("received_quantity", "progress_received_qty", "customer-progress-v2", "件")]

/-- **`_metric_metadata`**: the name, the version and the unit of a metric. -/
def metricMetadata (field : String) (operation : MetricOperation) : String × String × String :=
  match operation, metricMappings.lookup field with
  | .sum, some metadata => metadata
  | _, _ => ("configuration_" ++ field ++ "_" ++ operation.name, "factory-analytics-v2.1",
      if operation = .countDistinct then "种" else "条")

open Checks in
/-- What an operation asks of the field it is taken of. -/
def checkOperation (operation : MetricOperation) (field : String) (owner : LoadedDataset) : Except String Unit :=
  match operation with
  | .sum => require (field ∈ numericFields) "unavailable"
  | .countDistinct => require (¬(field ∈ numericFields ∨ field ∈ sensitiveFields)) "denied"
  | .count => require (¬(field ≠ "configuration_id" ∨ owner.datasetId ∈ factDatasets)) "unavailable"

open Checks in
/-- **One metric of the plan.** The owner is the dataset that the field is found in. -/
def compileMetric (host : AnalysisHost) (loaded : List LoadedDataset) (state : SelectState) (metric : PlanMetric) :
    Except String SelectState := do
  let expression ← fieldExpression loaded true metric.metricId
  let field := expression.2
  require (host.authorizeMetric field = true) "denied"
  match loaded.find? (namedField metric.metricId).2 with
  | none => .error "invalid_action"
  | some owner =>
    require (field ∈ owner.datasetId.metrics) "unavailable"
    let output := field ++ "_" ++ metric.operation.name
    require (output ∉ state.outputNames) "invalid_action"
    checkOperation metric.operation field owner
    let metadata := metricMetadata field metric.operation
    return ⟨state.select ++ [⟨.metric metric.operation expression.1, output⟩], state.group,
      state.columns ++ [⟨output, some metadata.1, some metadata.2.1,
        if field = "payroll_amount" then "money" else "quantity", some metadata.2.2⟩],
      state.outputNames ++ [output]⟩

/-- **Where nothing is selected**, the columns of the primary dataset are, without the sensitive ones. -/
def selectColumns (primary : LoadedDataset) (state : SelectState) : SelectState :=
  if state.select.isEmpty then
    let fields := primary.columns.filter fun field => !sensitiveFields.contains field
    ⟨fields.map fun field => ⟨.field ⟨0, field⟩, field⟩, state.group, state.columns ++ fields.map textColumn,
      state.outputNames ++ fields⟩
  else state

/-- One filter of the plan. -/
def compileFilter (loaded : List LoadedDataset) (filter : PlanFilter σ) : Except String (WhereClause σ) :=
  (fieldExpression loaded false filter.field).map fun expression => ⟨expression.1, filter.operator, filter.values⟩

open Checks in
/-- One item of `order_by`. -/
def compileOrder (outputNames : List String) (item : PlanSort) : Except String (String × Bool) := do
  require (outputName item.field ∈ outputNames) "invalid_action"
  return (outputName item.field, item.descending)

/-- A loaded dataset; a reference that is not known is refused. -/
def loadDataset (host : AnalysisHost) (reference : String) : Except String LoadedDataset :=
  match host.getDataset reference with
  | some dataset => .ok dataset
  | none => .error "unknown_reference"

/-- The order of the result: that of the plan, or the groups by their columns. -/
def orderClause (ordering : List (String × Bool)) (state : SelectState) : List (String × Bool) :=
  if ordering ≠ [] then ordering
  else if state.group ≠ [] then
    (state.columns.filter fun column => column.metricName.isNone).map fun column => (column.name, false)
  else []

/-- **The select list of a plan.** -/
def compileSelect (host : AnalysisHost) (loaded : List LoadedDataset) (primary : LoadedDataset)
    (plan : AnalysisPlan σ) : Except String SelectState := do
  let grouped ← plan.groupBy.foldlM (compileGroup loaded) ⟨[], [], [], []⟩
  let bucketed ← plan.timeBucket.elim (pure grouped) (compileBucket loaded grouped)
  let measured ← plan.metrics.foldlM (compileMetric host loaded) bucketed
  let state := selectColumns primary measured
  Checks.require (state.select ≠ []) "unavailable"
  return state

open Checks in
/-- **`StructuredAnalysisCompiler.compile`.** -/
def compileAnalysis (host : AnalysisHost) (plan : AnalysisPlan σ) : Except String (CompiledAnalysis σ) := do
  require (plan.valid = true) "invalid_action"
  let loaded ← plan.datasetRefs.mapM (loadDataset host)
  match loaded with
  | [] => .error "invalid_action"
  | primary :: _ =>
    let joined ← plan.joins.foldlM (compileJoin loaded) ([primary.reference], [])
    require (joined.1 ⊆ plan.datasetRefs ∧ plan.datasetRefs ⊆ joined.1) "invalid_action"
    let state ← compileSelect host loaded primary plan
    let conditions ← plan.filters.mapM (compileFilter loaded)
    let ordering ← plan.orderBy.mapM (compileOrder state.outputNames)
    return { select := state.select, fromTable := primary.tableName, joins := joined.2, conditions,
             group := state.group, order := orderClause ordering state, limit := plan.limit + 1,
             columns := state.columns, scanRows := (loaded.map fun item => item.rows.length).sum }
