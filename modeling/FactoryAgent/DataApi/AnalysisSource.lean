import FactoryAgent.Cache.Serving
import FactoryAgent.Credentials.Authorization
import FactoryAgent.Lib.IsoDateTime
import FactoryAgent.Lib.Replace

/-!
# Facts for analysis

`CachedFactSource` of `data_api/analysis_source.py`: the rows that an analysis works on. A question is checked against
the scope of its caller, and asked of the executor (`FactQuery.plan`). What comes back is read column by column: numbers
of at most eight decimals, the date, and texts. That is done twice. `requiredFieldsValid` says whether the columns that
were asked for can be read in every row of the scope, and stops at the first that cannot; the executor asks it before it
serves anything, and in shadow mode it is asked of what the MES returned. `project` reads all columns of all rows, and
notes those that were asked for and are missing or cannot be read.

A row that does not say whose it is raises, whoever asks. So do numbers with a million digits and days outside the years
of `datetime`; of those, only a projection notices days, and those in columns that were not asked for.
-/

namespace Facts

open LocalTime (Zone dayOf?)
open Windows (Moment)
open Serving (Fetched Answer)

/-- **What is raised**: `ForbiddenError`, `InvalidRequestError`, `KeyError`, `decimal.Overflow`, or the `OverflowError`
of a date. -/
inductive FactError where
  | forbidden (reason : String)
  | invalidRequest (reason : String)
  | keyError (key : String)
  | numberOverflow
  | dateOverflow
  deriving DecidableEq, Repr

/-- **`FactQuery`** -/
structure FactQuery where
  datasetId : String
  columns : List String
  filters : NarrowedFilters
  scope : DataScope
  role : Role
  start : Moment
  stop : Moment
  timeBasis : String := "reported"
  sourceType : String := "all"

/-- **`AnalysisValue`**, as far as facts have such values. -/
inductive AnalysisValue where
  | text (value : String)
  | number (value : Decimal)
  deriving DecidableEq, Repr

/-- The columns of a dataset, and the columns of the MES that they are read from. -/
abbrev Fields := List (String × String)

/-- `_COMMON` -/
def commonFields : Fields :=
  [("plan_code", "jhdh"), ("bed_code", "chuanghao"), ("style_id", "huohao"), ("style_code", "bbreed"),
    ("process_id", "worktype"), ("process_name", "wtname"), ("color", "color"), ("size", "chima"),
    ("department", "deptname")]

/-- `_FIELDS` -/
def datasetFields : String → Option Fields
  | "reported_production" => some (commonFields ++ [("business_date", "inputdate"), ("quantity", "sl"),
    ("payroll_amount", "je"), ("source_type", "type")])
  | "production_progress" => some (commonFields ++ [("business_date", "rq"), ("bill_code", "dh"),
    ("package_code", "baohao"), ("issued_quantity", "fhsl"), ("received_quantity", "sssl")])
  | _ => none

/-- `_NUMERIC` -/
def numericColumns : List String :=
  ["quantity", "payroll_amount", "issued_quantity", "received_quantity"]

/-- `_FLAGS` -/
def flags : List (String × String) :=
  [("reported", "0"), ("audited", "1"), ("pending", "")]

/-- `_TYPES` -/
def types : List (String × String) :=
  [("all", "0,1,2"), ("scan", "0"), ("hanging", "1"), ("manual", "2")]

/-! ## Values -/

section Values

open Decimal (digitCount coefficientAt roundedHalfEven rounded eqValue)

/-- `value.adjusted()` of a number that is not zero: the exponent of its first digit. -/
def adjusted (coefficient : Nat) (exponent : Int) : Int :=
  exponent + digitCount coefficient - 1

/-- **`abs(value) >= Decimal("1e20")`**, of a number that is not zero. `abs` rounds to the digits of the context, and
raises where the exponent leaves it. -/
def tooLarge (coefficient : Nat) (exponent : Int) : Except FactError Bool :=
  match rounded 28 false coefficient exponent with
  | .finite _ coefficient exponent =>
    -- `decimal.Overflow` is no `InvalidOperation`, so neither reading catches it
    if 999999 < adjusted coefficient exponent then .error .numberOverflow
    else .ok (decide (20 ≤ adjusted coefficient exponent))
  | _ => .ok false

/-- **`value.quantize(Decimal("0.00000001"))`**; `none` is a raised `InvalidOperation`. -/
def quantized (negative : Bool) (coefficient : Nat) (exponent : Int) : Option Decimal :=
  let units := if -8 ≤ exponent then coefficientAt coefficient exponent (-8)
    else roundedHalfEven coefficient (-8 - exponent).toNat
  if digitCount units ≤ 28 then some (.finite negative units (-8)) else none

/-- **The number of a fact**; `none` where there is none, or not one that is finite, below `1e20` and of at most eight
decimals. No number is read whose exponent is beyond what a `Decimal` can have. -/
def number? (value : Cell) : Except FactError (Option Decimal) :=
  match Decimal.parse value.str with
  | some (.finite negative coefficient exponent) =>
    if coefficient = 0 then .ok (some (.finite negative coefficient exponent))
    else if 999999999999999999 < adjusted coefficient exponent then .ok none
    else do
      if ← tooLarge coefficient exponent then return none
      return (quantized negative coefficient exponent).bind fun quantized =>
        let number := .finite negative coefficient exponent
        if eqValue number quantized then some number else none
  | _ => .ok none

/-- `datetime.fromisoformat(str(value).replace("Z", "+00:00"))`; `none` is a raised `ValueError`. -/
def date? (value : Cell) : Option DateTime :=
  DateTime.fromisoformat (String.ofList (Replace.replace ['Z'] "+00:00".toList value.str.toList))

/-- **The day of a date**, in the zone of the factory where the date has an offset; `none` is a raised
`OverflowError`. -/
def day? (zone : Zone) (date : DateTime) : Option String :=
  if date.offset.isSome then
    (dayOf? date.instant).bind fun _ => (dayOf? (zone.toLocal date.instant)).map Calendar.Date.isoformat
  else some (IsoDate.isoformat (date.year, date.month, date.day))

/-- **What a projection reads in a column**; `none` where the value is invalid. -/
def reading (zone : Zone) (column : String) (value : Cell) : Except FactError (Option AnalysisValue) :=
  if column ∈ numericColumns then (number? value).map (Option.map .number)
  else if column = "business_date" then
    match date? value with
    | none => .ok none
    | some date =>
      match day? zone date with
      -- `astimezone` raises no `ValueError`
      | none => .error .dateOverflow
      | some day => .ok (some (.text day))
  else
    match value with
    | .text value => .ok (some (.text value))
    | _ => .ok none

/-- **Whether a value is valid in a column.** -/
def valid (column : String) (value : Cell) : Except FactError Bool :=
  if column ∈ numericColumns then (number? value).map Option.isSome
  else if column = "business_date" then .ok (date? value).isSome
  else .ok value.isText

end Values

/-! ## Questions -/

namespace FactQuery

variable (query : FactQuery) (fields : Fields)

/-- An employee who asks about more than the scope has, or about nobody in particular. -/
def unbound : Bool :=
  query.role = .employee && query.filters.employeeIds.all fun ids =>
    ids = [] || !ids.all fun id => decide (id ∈ query.scope.employeeIds)

/-- A caller whom the MES does not narrow, and who asks about more than the scope has. -/
def outside : Bool :=
  !query.scope.mesFiltered
    && (query.filters.employeeIds.any (fun ids => !ids.all fun id => decide (id ∈ query.scope.employeeIds))
      || query.filters.requestedDeptIds.any fun ids => !ids.all fun id => decide (id ∈ query.scope.deptIds))

/-- `_scope_contains`, of the employee of a row. -/
def employeeContains (row : Row) : Except FactError Bool :=
  match query.filters.employeeIds with
  | none => .ok true
  | some ids =>
    match row["uid"]? with
    | none => .error (.forbidden "analysis_scope_unproven")
    | some uid =>
      if uid.str = "" then .error (.forbidden "analysis_scope_unproven") else .ok (decide (uid.str ∈ ids))

/-- The departments that rows may be of. -/
def departmentIds : Option (List String) :=
  match query.filters.requestedDeptIds with
  | some ids => some ids
  | none => if query.role = .manager ∨ query.role = .groupLeader then some query.scope.deptIds else none

/-- `_scope_contains`, of the department of a row. -/
def departmentContains (row : Row) : Except FactError Bool :=
  match query.departmentIds with
  | none => .ok true
  | some ids =>
    match row["dept"]? with
    | none => .error (.forbidden "analysis_scope_unproven")
    | some dept => .ok (decide (dept.str ∈ ids))

/-- **`_scope_contains`**: whether a row is in the scope; a row that does not say raises. -/
def scopeContains (row : Row) : Except FactError Bool := do
  if ← query.employeeContains row then query.departmentContains row else return false

/-! ## The validation -/

/-- A column of a row is there, and valid. -/
def columnValid (row : Row) (column : String) : Except FactError Bool :=
  match fields.lookup column with
  | none => .error (.keyError column)
  | some original =>
    match row[original]? with
    | none => .ok false
    | some value => valid column value

/-- The columns of a row are valid, up to the first that is not. -/
def columnsValid (row : Row) : List String → Except FactError Bool
  | [] => .ok true
  | column :: columns => do
    if ← columnValid fields row column then columnsValid row columns else return false

/-- **`_required_fields_valid`** -/
def requiredFieldsValid : List Row → Except FactError Bool
  | [] => .ok true
  | row :: rows => do
    if ← query.scopeContains row then
      if ← columnsValid fields row query.columns then requiredFieldsValid rows else return false
    else requiredFieldsValid rows

/-- The texts of a row, in the columns of the dataset. -/
def texts (row : Row) : List String :=
  fields.map fun field => ((row[field.2]?).map Cell.str).getD ""

/-- **`_approved_rows`**: the texts of the rows of the scope. -/
def approvedRows : List Row → Except FactError (List (List String))
  | [] => .ok []
  | row :: rows => do
    let inside ← query.scopeContains row
    let rest ← approvedRows rows
    return if inside then texts fields row :: rest else rest

/-! ## The question -/

/-- **What becomes of a question**: there is no date to go by; or the executor is asked. -/
inductive Plan where
  | unavailable
  | ask (fields : Fields) (operationId : String) (params : Params)

/-- The columns of wages; what was reviewed is dated by its review. -/
def anchored : Fields :=
  if query.timeBasis = "audited" then
    fields.map fun field => if field.1 = "business_date" then (field.1, "check_time") else field
  else fields

/-- **The checks of `fetch`**, before its first await. -/
def plan : Except FactError Plan :=
  if query.filters.tenantId ≠ query.scope.tenantId ∨ query.unbound = true ∨ query.outside = true then
    .error (.forbidden "analysis_scope_mismatch")
  else
    match datasetFields query.datasetId with
    | none => .error (.invalidRequest "analysis_dataset_invalid")
    | some fields =>
      if ∃ column ∈ query.columns, column ∉ fields.map Prod.fst then
        .error (.invalidRequest "analysis_dataset_invalid")
      else
        match flags.lookup query.timeBasis, types.lookup query.sourceType with
        | some flag, some type =>
          if query.datasetId = "reported_production" then
            -- what awaits its review has no date of a review
            if query.timeBasis = "pending" then .ok .unavailable
            else
              .ok (.ask (query.anchored fields) "GongziClQuery"
                (Std.ExtTreeMap.ofList [("Flag", ParamValue.text flag), ("Type", ParamValue.text type)]))
          else if query.timeBasis ≠ "reported" ∨ query.sourceType ≠ "all" then
            .error (.invalidRequest "analysis_semantics_invalid")
          else .ok (.ask fields "ScjdQuery" ∅)
        | _, _ => .error (.invalidRequest "analysis_semantics_invalid")

/-- **The request to the executor.** No owner fetches a snapshot for it. -/
def request (operationId : String) (params : Params) : Serving.Request where
  filters := query.filters
  role := some query.role
  operationId
  start := some query.start
  stop := query.stop
  params
  allowOwnerSnapshot := false
  resultValidator := some fun result => (query.requiredFieldsValid fields result.rows).toOption

end FactQuery

/-! ## Projections -/

/-- **Rows that were projected**, and the columns that were asked for and are missing, or invalid. -/
structure Projection where
  rows : List (Std.ExtTreeMap String AnalysisValue) := []
  missing : Std.ExtTreeSet String := ∅
  invalid : Std.ExtTreeSet String := ∅

/-- A row that is being projected. -/
structure Projecting where
  values : Std.ExtTreeMap String AnalysisValue := ∅
  missing : Std.ExtTreeSet String
  invalid : Std.ExtTreeSet String

namespace FactQuery

variable (query : FactQuery) (fields : Fields) (zone : Zone)

/-- A column of a row is projected. -/
def projectField (row : Row) (done : Projecting) (field : String × String) : Except FactError Projecting :=
  match row[field.2]? with
  | none =>
    .ok (if field.1 ∈ query.columns then { done with missing := done.missing.insert field.1 } else done)
  | some value => do
    match ← reading zone field.1 value with
    | some value => return { done with values := done.values.insert field.1 value }
    | none => return (if field.1 ∈ query.columns then { done with invalid := done.invalid.insert field.1 } else done)

/-- A row is projected, where it is in the scope. -/
def projectRow (done : Projection) (row : Row) : Except FactError Projection := do
  if ← query.scopeContains row then
    let projecting ← fields.foldlM (query.projectField zone row) ⟨∅, done.missing, done.invalid⟩
    return ⟨done.rows ++ [projecting.values], projecting.missing, projecting.invalid⟩
  else return done

/-- **The projection of rows.** -/
def project (rows : List Row) : Except FactError Projection :=
  rows.foldlM (query.projectRow fields zone) {}

end FactQuery

/-! ## Batches -/

/-- **`FactBatch`** -/
structure FactBatch where
  datasetId : String
  rows : List (Std.ExtTreeMap String AnalysisValue)
  complete : Bool
  missingFields : List String := []
  invalidFields : List String := []
  generatedAt : Option DateTime := none
  cacheSource : String := "live"
  sourceCalls : Nat := 0
  reason : Option String := none

/-- **A result as a batch is made of it.** -/
structure Source where
  rows : List Row
  complete : Bool
  cacheSource : Option String := none
  cacheGeneratedAt : Option String := none
  sourceCallCount : Option Nat
  reason : Option String := none

namespace FactQuery

variable (query : FactQuery) (fields : Fields) (zone : Zone)

/-- Whether what the cache served and what the MES returned show the same rows of the scope. What is not valid agrees
with nothing. -/
def agrees (valid : Bool) (served returned : List Row) : Except FactError Bool :=
  if valid then do
    let served ← query.approvedRows fields served
    let returned ← query.approvedRows fields returned
    return decide (served.Perm returned)
  else .ok false

/-- **What a batch is made of**; in shadow mode it is what the MES returned, and whether the two agree is told to the
executor: `release_cached_result`, or `discard_cached_result`. -/
def source : Answer → Except FactError (Source × Option Bool)
  | .realtime fetched => .ok ({
      rows := fetched.rows
      complete := fetched.complete
      sourceCallCount := fetched.sourceCallCount
      reason := fetched.reason }, none)
  | .served result none => .ok ({
      rows := result.rows
      complete := result.complete
      cacheSource := some result.cacheSource
      cacheGeneratedAt := some result.cacheGeneratedAt
      sourceCallCount := some result.sourceCallCount }, none)
  | .served result (some shadow) => do
    let valid ← query.requiredFieldsValid fields shadow.rows
    let agrees ← query.agrees fields valid result.rows shadow.rows
    return ({
      rows := shadow.rows
      complete := shadow.complete && valid
      sourceCallCount := some result.sourceCallCount
      reason := shadow.reason }, some agrees)

/-- `generated_at` -/
def generatedAt (now : DateTime) : Option String → Option DateTime
  | none => some now
  | some text => if text = "" then some now else DateTime.fromisoformat text

/-- **The end of `fetch`**, with the answer of the executor: the batch, and what the executor is told. -/
def finish (answer : Answer) (now : DateTime) : Except FactError (FactBatch × Option Bool) := do
  let (source, agrees) ← query.source fields answer
  let projection ← query.project fields zone source.rows
  return ({
    datasetId := query.datasetId
    rows := projection.rows
    complete := source.complete
    missingFields := projection.missing.toList
    invalidFields := projection.invalid.toList
    generatedAt := generatedAt now source.cacheGeneratedAt
    cacheSource := if source.cacheSource.any (· ≠ "") then "cache" else "live"
    sourceCalls := source.sourceCallCount.getD (if source.cacheSource.isNone then 1 else 0)
    reason := source.reason }, agrees)

/-- The batch of a question that cannot be asked. -/
def unavailable : FactBatch where
  datasetId := query.datasetId
  rows := []
  complete := false
  reason := some "unavailable_time_basis"

end FactQuery

end Facts
