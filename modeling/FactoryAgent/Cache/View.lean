import FactoryAgent.Cache.Progress
import FactoryAgent.Domain.Queries

/-!
# Views of a snapshot

A snapshot holds the detail rows of the whole tenant. What a caller gets is a view of it: the rows in
the caller's scope, cut to the window of the question, narrowed by its business filters, grouped as it
asks, and with the totals of just these rows.
-/

/-! ## Scope and time -/

/-- Whether a value is one of those that a filter lets through; an empty value never is. -/
def inScope (values : Option (List String)) (value : String) : Bool :=
  values.all (fun values => value ≠ "" && decide (value ∈ values))

/-- Whether a row is in the scope of a caller: by its department and by its employee. -/
def visibleTo (filters : NarrowedFilters) (role : Option Role) (row : Row) : Bool :=
  inScope (filters.effectiveDeptIds role) (row.field "dept")
    && inScope filters.employeeIds (row.field "uid")

/-- **The rows in the scope of a caller**, `scope_filtered_rows`. -/
def scopeFilteredRows (rows : List Row) (filters : NarrowedFilters) (role : Option Role) : List Row :=
  rows.filter (visibleTo filters role)

/-- Whether the wages are asked for by the time they were checked: `Flag` is `"1"`. -/
def flagged (params : Params) : Bool :=
  match params["Flag"]? with
  | some (.text value) => Text.strip value = "1"
  | _ => false

/-- The column that carries the date of a row, `time_anchor_column`. -/
def timeAnchorColumn (operation : Operation) (params : Params) : String :=
  match operation with
  | .progress => "rq"
  | .payroll => if flagged params then "check_time" else "inputdate"

/-- The date of a row: the first ten characters of its anchor. -/
def anchorOf (column : String) (row : Row) : String :=
  Text.prefixOf 10 (row.field column)

/-- The rows in a window of dates, both ends included, `time_sliced_rows`. -/
def timeSlicedRows (rows : List Row) (column : String) (window : String × String) : List Row :=
  rows.filter (fun row => anchorOf column row ≠ "" && decide (window.1 ≤ anchorOf column row)
    && decide (anchorOf column row ≤ window.2))

/-- Whether every row carries a calendar date, `_validate_time_anchors`. -/
def validateTimeAnchors (rows : List Row) (operation : Operation) (params : Params) :
    Except ViewError Unit :=
  if rows.all (fun row => IsoDate.isIsoDate (anchorOf (timeAnchorColumn operation params) row)) then
    .ok ()
  else .error (.invalidRequest "detail time anchor is invalid")

/-! ## Business filters -/

/-- `word in groupby`: of a list, or of a text. -/
def mentions (groupby : Option ParamValue) (word : String) : Bool :=
  match groupby with
  | some (.sequence values) => decide (word ∈ values)
  | some (.text value) => value.toList.tails.any word.toList.isPrefixOf
  | none => false

/-- The column of the order codes: a package view filters by sheets. -/
def orderColumn (operation : Operation) (params : Params) : String :=
  if operation = .progress ∧ mentions params["groupbyFields"]? "baohao" then "dh" else "jhdh"

/-- The columns of the style codes. -/
def styleFields : Operation → List String
  | .payroll => ["huohao", "bbreed"]
  | .progress => ["bbreed"]

/-- Whether a filter lets a value through. -/
def passes (values : Option (List String)) (value : String) : Bool :=
  values.all (fun values => decide (value ∈ values))

/-- Whether a row passes the business filters. -/
def matchesFilters (operation : Operation) (filters : NarrowedFilters) (params : Params)
    (row : Row) : Bool :=
  filters.styleCodes.all (fun values =>
      (styleFields operation).any (fun column => decide (row.field column ∈ values)))
    && passes filters.orderCodes (row.field (orderColumn operation params))
    && passes filters.planCodes (row.field "jhdh")
    && passes filters.materialIds (row.field "userid")
    && passes filters.bedCodes (row.field "chuanghao")

/-- The rows that pass the business filters, `_business_filtered_rows`. Rows without the bed column
cannot be filtered by beds. -/
def businessFilteredRows (rows : List Row) (operation : Operation) (filters : NarrowedFilters)
    (params : Params) : Except ViewError (List Row) :=
  if filters.bedCodes.isSome && rows.any (fun row => !row.contains "chuanghao") then
    .error (.invalidRequest "detail does not contain the requested bed dimension")
  else .ok (rows.filter (matchesFilters operation filters params))

/-- **The local view of detail rows**, `local_view_rows`: scope, then time, then business filters. -/
def localViewRows (rows : List Row) (operation : Operation) (filters : NarrowedFilters)
    (params : Params) (window : String × String) (role : Option Role) :
    Except ViewError (List Row) :=
  businessFilteredRows (timeSlicedRows (scopeFilteredRows rows filters role)
    (timeAnchorColumn operation params) window) operation filters params

/-! ## Grouping -/

/-- A value of a payroll group: a dimension, or the sum of a measure. -/
inductive GroupValue where
  | text (value : String)
  | number (value : Decimal)
  deriving DecidableEq, Repr

namespace GroupValue

/-- `str(value)`. -/
def str : GroupValue → String
  | text value => value
  | number value => value.toText

/-- `str(value or "0")`. -/
def orZero : GroupValue → String
  | text value => if value = "" then "0" else value
  | number value => if value.isZero then "0" else value.toText

end GroupValue

/-- A payroll group so far. -/
abbrev PayrollGroup := Std.ExtTreeMap String GroupValue

/-- The measures of payroll rows. -/
def payrollMeasures : List String := ["je", "sl", "sssl", "zpsl", "bs", "wgs", "wts", "fhsl"]

section Grouping

variable (context : DecimalContext)

/-- One measure of a group with the value of one more row, where the row has it. -/
def addMeasure (row : Row) (group : PayrollGroup) (measure : String) :
    Except ViewError PayrollGroup :=
  match row[measure]? with
  | none => .ok group
  | some cell =>
    match (do
      let total ← Decimal.parse ((group[measure]?.map GroupValue.orZero).getD "0")
      let amount ← Decimal.parse (cell.orElse "0")
      context.add total amount) with
    | some sum => .ok (group.insert measure (.number sum))
    | none => .error .invalidOperation

/-- The payroll groups so far, by their keys. -/
abbrev PayrollGroups := Std.ExtTreeMap (List String) PayrollGroup

/-- The groups with one more row. -/
def addPayrollRow (columns : List String) (groups : PayrollGroups) (row : Row) :
    Except ViewError PayrollGroups := do
  if columns.any (fun column => !row.contains column) then
    throw (.invalidRequest "payroll detail does not contain the requested dimensions")
  let key := columns.map row.field
  let group := groups.getD key
    (Std.ExtTreeMap.ofList (columns.map (fun column => (column, GroupValue.text (row.field column)))))
  let group ← payrollMeasures.foldlM (addMeasure context row) group
  return groups.insert key group

/-- **Payroll rows by these dimensions**, `_aggregate_payroll_rows`, the groups sorted by their
keys. -/
def aggregatePayrollRows (rows : List Row) (fields : List String) : Except ViewError (List Row) := do
  let groups ← rows.foldlM (addPayrollRow context fields.eraseDups) ∅
  return groups.values.map (fun group => group.map (fun _ value => Cell.text value.str))

/-- The fields to group by: a list of column names, where there are any. -/
def groupbyFields (params : Params) : Except ViewError (List String) :=
  match params["groupbyFields"]? with
  | none => .ok []
  | some (.sequence fields) => .ok fields
  | some (.text value) =>
    if value = "" then .ok [] else .error (.invalidRequest "groupbyFields must be a field sequence")

/-- The rows of a view as the question groups them. -/
def groupedRows (rows : List Row) (operation : Operation) (params : Params) :
    Except ViewError (List Row) := do
  let fields ← groupbyFields params
  match operation with
  | .progress => aggregateProgressRows context rows fields
  | .payroll => if fields = [] then return rows else aggregatePayrollRows context rows fields

end Grouping

/-! ## Serving -/

/-- The detail rows that views of an operation are taken of. -/
def detailRows (rows : List Row) : Operation → Except ViewError (List Row)
  | .progress => deriveProgressRows rows
  | .payroll => .ok rows

/-- **The rows of a view**, `_project_rows`: the whole snapshot is validated, and then cut to what the
caller asked for. -/
def projectRows (context : DecimalContext) (rows : List Row) (operation : Operation)
    (filters : NarrowedFilters) (role : Option Role) (params : Params) (window : String × String) :
    Except ViewError (List Row) := do
  let detail ← detailRows rows operation
  validateTimeAnchors detail operation params
  let view ← localViewRows detail operation filters params window role
  groupedRows context view operation params

/-- **A snapshot that can be served.** The rows of a progress snapshot were normalized, so their values
are texts. -/
structure CacheHit (operation : Operation) where
  rows : List Row
  footer : Option Footer
  generatedAt : String
  source : String
  /-- the window that the snapshot covers -/
  window : String × String
  sourceCallCount : Nat
  normalized : operation = .progress → ∀ row ∈ rows, row.IsText

/-- **What is served**: an answer, and where it comes from. -/
structure ResourceFetchResult where
  rows : List Row
  total : Nat
  pagesFetched : Nat
  complete : Bool
  footer : Option Footer
  cacheSource : String
  cacheGeneratedAt : String
  sourceCallCount : Nat
  deriving DecidableEq

/-- **An answer**: the rows, how many there are, and their totals. -/
structure ViewAnswer where
  rows : List Row
  total : Nat
  footer : Option Footer
  deriving DecidableEq

/-- The answer in a result. -/
def ResourceFetchResult.answer (result : ResourceFetchResult) : ViewAnswer :=
  ⟨result.rows, result.total, result.footer⟩

/-- **A question to the cache**: the filters and the role of the caller, the parameters, and the window
it asks for. -/
structure ViewRequest where
  filters : NarrowedFilters
  role : Option Role
  params : Params
  window : String × String

/-- `_serve_from_cache`: the view of a snapshot, or a refusal. -/
def CacheHit.serve (context : DecimalContext) {operation : Operation} (hit : CacheHit operation)
    (request : ViewRequest) : Except ViewError ResourceFetchResult := do
  let rows ← projectRows context hit.rows operation request.filters request.role request.params
    request.window
  return {
    rows := rows
    total := rows.length
    pagesFetched := 0
    complete := true
    footer := recomputedFooter context rows hit.footer
    cacheSource := hit.source
    cacheGeneratedAt := hit.generatedAt
    sourceCallCount := hit.sourceCallCount }
