import FactoryAgent.Lib.DecimalValue
import FactoryAgent.Lib.Except
import FactoryAgent.Lib.IsoDateTime

/-!
# The data of an analysis

The catalogue of the datasets (`ports/analysis_catalogue.py`), the values of their fields, and the datasets that a
conversation has loaded (`LoadedDataset` of `ports/analysis_data.py`). The rows of a loaded dataset are as
`_normalize` of `application/l2/provider.py` leaves them: every value of a column is of the type of the column
(`normalizeRows_isNormal`). The sandbox holds them in a table of their own.
-/

/-! ## The catalogue -/

/-- The keys of `DATASETS`. -/
inductive DatasetId where
  | reportedProduction
  | productionProgress
  | styles
  | styleTypes
  | productionTypes
  | processes
  | styleProcesses
  | styleColors
  | styleSizes
  | billProcesses
  | hangingLines
  deriving DecidableEq, Repr

/-- The text of a key. -/
def DatasetId.name : DatasetId → String
  | reportedProduction => "reported_production"
  | productionProgress => "production_progress"
  | styles => "styles"
  | styleTypes => "style_types"
  | productionTypes => "production_types"
  | processes => "processes"
  | styleProcesses => "style_processes"
  | styleColors => "style_colors"
  | styleSizes => "style_sizes"
  | billProcesses => "bill_processes"
  | hangingLines => "hanging_lines"

/-- `FACT_DATASETS`. -/
def factDatasets : List DatasetId := [.reportedProduction, .productionProgress]

/-- `_FACT_FIELDS`. -/
def factFields : List String :=
  ["plan_code", "bed_code", "style_id", "style_code", "process_id", "process_name", "color", "size", "department",
    "business_date"]

/-- The fields of a dataset, `DATASETS[…].fields`. -/
def DatasetId.fields : DatasetId → List String
  | reportedProduction => factFields ++ ["quantity", "payroll_amount", "source_type"]
  | productionProgress => factFields ++ ["bill_code", "package_code", "issued_quantity", "received_quantity"]
  | styles => ["style_id", "style_code", "name", "type_id", "unit"]
  | styleTypes => ["type_id", "parent_type_id", "name", "deleted"]
  | productionTypes => ["type_id", "name", "deleted", "counts_cutting", "counts_stock"]
  | processes => ["process_id", "name", "type_name", "vehicle_type", "flow_type", "deleted", "sort_order"]
  | styleProcesses =>
    ["configuration_id", "style_id", "style_code", "process_id", "name", "type_id", "type_name", "sort_order",
      "active", "last_process"]
  | styleColors => ["configuration_id", "style_id", "color"]
  | styleSizes => ["configuration_id", "style_id", "size", "fit", "weight"]
  | billProcesses =>
    ["configuration_id", "bill_code", "style_id", "style_code", "process_id", "name", "type_id", "type_name",
      "sort_order", "last_process"]
  | hangingLines => ["configuration_id", "system_name", "line_code", "group_name"]

/-- The fields of a dataset that a metric may be taken of, `DATASETS[…].metrics`. -/
def DatasetId.metrics : DatasetId → List String
  | reportedProduction => ["quantity", "payroll_amount", "process_id", "size", "plan_code"]
  | productionProgress => ["issued_quantity", "received_quantity", "process_id", "size", "bill_code"]
  | styles => ["style_id"]
  | styleTypes => ["type_id"]
  | productionTypes => ["type_id"]
  | processes => ["process_id"]
  | styleProcesses => ["process_id", "configuration_id"]
  | styleColors => ["color", "configuration_id"]
  | styleSizes => ["size", "configuration_id"]
  | billProcesses => ["process_id", "configuration_id"]
  | hangingLines => ["configuration_id", "line_code"]

/-- `NUMERIC_FIELDS`. -/
def numericFields : List String := ["quantity", "payroll_amount", "issued_quantity", "received_quantity"]

/-- `BOOLEAN_FIELDS`. -/
def booleanFields : List String := ["active", "deleted", "last_process", "counts_cutting", "counts_stock"]

/-- `INTEGER_FIELDS`. -/
def integerFields : List String := ["sort_order"]

/-- `SENSITIVE_FIELDS`. -/
def sensitiveFields : List String := ["payroll_amount"]

/-! ## Values -/

/-- `AnalysisValue`. -/
inductive AnalysisValue where
  | text (value : String)
  | decimal (value : Decimal)
  | integer (value : Int)
  | boolean (value : Bool)
  | null
  deriving DecidableEq

/-- A row of a dataset, by its fields. -/
abbrev AnalysisRow := List (String × AnalysisValue)

/-- `row.get(key)`. -/
def AnalysisRow.get (row : AnalysisRow) (key : String) : AnalysisValue :=
  (row.lookup key).getD .null

/-- `str(value)`. -/
def AnalysisValue.str : AnalysisValue → String
  | text value => value
  | decimal value => value.toText
  | integer value => toString value
  | boolean value => if value then "True" else "False"
  | null => "None"

/-- `date.fromisoformat(text)`: a calendar date or a week date, in seven, eight or ten characters. -/
def dateFromIso? (text : String) : Option (Nat × Nat × Nat) :=
  let cs := text.toList
  if cs.length = 7 ∨ cs.length = 8 ∨ (cs.length = 10 ∧ cs[4]? = some '-') then
    (DateTime.date? cs).filter fun (year, month, day) =>
      1 ≤ year ∧ 1 ≤ month ∧ month ≤ 12 ∧ 1 ≤ day ∧ day ≤ IsoDate.daysInMonth year month
  else none

/-- **Whether a number fits `DECIMAL(28,8)`**: `abs(value) < 1e20`, and no digits behind the eighth. -/
def Decimal.Representable (d : Decimal) : Prop :=
  |d.value| < 10 ^ 20 ∧ (d.value * 10 ^ 8).den = 1

instance (d : Decimal) : Decidable d.Representable :=
  inferInstanceAs (Decidable (_ ∧ _))

/-- The number of a numeric column. -/
def normalizeNumber (value : AnalysisValue) : Except String AnalysisValue :=
  match value with
  | .null | .boolean _ => .error "numeric contribution is unavailable"
  | .text _ | .decimal _ | .integer _ =>
    if value.str = "" then .error "numeric contribution is unavailable"
    else
      match Decimal.parse value.str with
      | none => .error "numeric contribution is invalid"
      | some d =>
        if d.isFinite = false then .error "numeric contribution is invalid"
        else if d.Representable then .ok (.decimal d)
        else .error "numeric contribution exceeds the reviewed storage precision"

/-- The number of an integer column. -/
def normalizeInteger (value : AnalysisValue) : Except String AnalysisValue :=
  match value with
  | .null | .boolean _ => .error "configuration order is invalid"
  | .text _ | .decimal _ | .integer _ =>
    match Text.int? value.str with
    | none => .error "configuration order is invalid"
    | some n => if -2 ^ 63 ≤ n ∧ n < 2 ^ 63 then .ok (.integer n) else .error "configuration order is invalid"

/-- One value of `_normalize`. -/
def normalizeValue (column : String) (value : AnalysisValue) : Except String AnalysisValue :=
  if column ∈ numericFields then normalizeNumber value
  else if column ∈ integerFields then normalizeInteger value
  else if column ∈ booleanFields then
    match value with
    | .boolean flag => .ok (.boolean flag)
    | _ => .error "configuration state is invalid"
  else if column = "business_date" then
    match dateFromIso? value.str with
    | some day => .ok (.text (IsoDate.isoformat day))
    | none => .error "business date is invalid"
  else
    match value with
    | .null => .ok .null
    | _ => .ok (.text value.str)

/-- One row of `_normalize`. A column that the row does not have is a raised `KeyError`. -/
def normalizeRow (columns : List String) (row : AnalysisRow) : Except String AnalysisRow :=
  columns.mapM fun column =>
    match row.lookup column with
    | none => .error column
    | some value => (normalizeValue column value).map fun value => (column, value)

/-- **`_normalize`.** -/
def normalizeRows (rows : List AnalysisRow) (columns : List String) : Except String (List AnalysisRow) :=
  rows.mapM (normalizeRow columns)

/-- **A value of the type of its column.** -/
def AnalysisValue.IsNormal (column : String) : AnalysisValue → Prop
  | text _ | null => column ∉ numericFields ∧ column ∉ integerFields ∧ column ∉ booleanFields
  | decimal value => column ∈ numericFields ∧ value.isFinite = true
  | integer _ => column ∈ integerFields
  | boolean _ => column ∈ booleanFields

/-- **Rows with a value of its type for each column.** -/
def IsNormalTable (columns : List String) (rows : List AnalysisRow) : Prop :=
  ∀ row ∈ rows, ∀ column ∈ columns, ∃ value, row.lookup column = some value ∧ value.IsNormal column

/-- A numeric column is left with a finite number. -/
theorem normalizeNumber_isNormal {column : String} {value normal : AnalysisValue} (hcolumn : column ∈ numericFields)
    (h : normalizeNumber value = .ok normal) : normal.IsNormal column := by
  have hnumber : ∀ text, (if text = "" then .error "numeric contribution is unavailable"
      else match Decimal.parse text with
        | none => .error "numeric contribution is invalid"
        | some d =>
          if d.isFinite = false then .error "numeric contribution is invalid"
          else if d.Representable then .ok (.decimal d)
          else .error "numeric contribution exceeds the reviewed storage precision") = Except.ok normal →
      normal.IsNormal column := by
    intro text h
    split at h
    · cases h
    split at h
    · cases h
    split at h
    · cases h
    rename_i hfinite
    split at h
    · cases h
      exact ⟨hcolumn, by simpa using hfinite⟩
    · cases h
  cases value with
  | null => cases h
  | boolean flag => cases h
  | text value => exact hnumber _ h
  | decimal value => exact hnumber _ h
  | integer value => exact hnumber _ h

/-- An integer column is left with an integer. -/
theorem normalizeInteger_isNormal {column : String} {value normal : AnalysisValue}
    (hcolumn : column ∈ integerFields) (h : normalizeInteger value = .ok normal) : normal.IsNormal column := by
  have hinteger : ∀ number : Option Int, (match number with
      | none => .error "configuration order is invalid"
      | some n => if -2 ^ 63 ≤ n ∧ n < 2 ^ 63 then .ok (.integer n) else .error "configuration order is invalid")
        = Except.ok normal → normal.IsNormal column := by
    rintro (_ | n) h
    · cases h
    · dsimp only at h
      split at h
      · cases h
        exact hcolumn
      · cases h
  cases value with
  | null => cases h
  | boolean flag => cases h
  | text value => exact hinteger _ h
  | decimal value => exact hinteger _ h
  | integer value => exact hinteger _ h

/-- **What `_normalize` leaves of a value is of the type of its column.** -/
theorem normalizeValue_isNormal {column : String} {value normal : AnalysisValue}
    (h : normalizeValue column value = .ok normal) : normal.IsNormal column := by
  unfold normalizeValue at h
  split at h
  · rename_i hnumeric
    exact normalizeNumber_isNormal hnumeric h
  rename_i hnumeric
  split at h
  · rename_i hinteger
    exact normalizeInteger_isNormal hinteger h
  rename_i hinteger
  split at h
  · rename_i hboolean
    cases value <;> cases h
    exact hboolean
  rename_i hboolean
  have hother : ∀ text, (AnalysisValue.text text).IsNormal column := fun _ => ⟨hnumeric, hinteger, hboolean⟩
  split at h
  · split at h
    · cases h
      exact hother _
    · cases h
  · split at h
    · cases h
      exact ⟨hnumeric, hinteger, hboolean⟩
    · cases h
      exact hother _

/-- What is found in a row is one of its entries. -/
theorem AnalysisRow.mem_of_lookup {row : AnalysisRow} {column : String} {value : AnalysisValue}
    (h : row.lookup column = some value) : (column, value) ∈ row := by
  obtain ⟨before, after, rfl, -⟩ := List.lookup_eq_some_iff.mp h
  exact List.mem_append_right _ List.mem_cons_self

/-- The entries of a row that `_normalize` leaves. -/
theorem isNormal_of_normalizeRow {columns : List String} {source row : AnalysisRow}
    (h : normalizeRow columns source = .ok row) {entry : String × AnalysisValue} (hentry : entry ∈ row) :
    entry.2.IsNormal entry.1 := by
  obtain ⟨column, -, hvalue⟩ := Except.exists_of_mem_mapM h hentry
  split at hvalue
  · cases hvalue
  · rename_i value _
    cases hnormal : normalizeValue column value with
    | error message => rw [hnormal] at hvalue; cases hvalue
    | ok normal =>
      rw [hnormal] at hvalue
      cases hvalue
      exact normalizeValue_isNormal hnormal

/-- **What `_normalize` leaves is a table with a value of its type for each column.** -/
theorem normalizeRows_isNormal {rows normal : List AnalysisRow} {columns : List String}
    (h : normalizeRows rows columns = .ok normal) : IsNormalTable columns normal := by
  intro row hrow column hcolumn
  obtain ⟨source, -, hsource⟩ := Except.exists_of_mem_mapM h hrow
  obtain ⟨entry, hentry, hvalue⟩ := Except.exists_mem_of_mapM hsource hcolumn
  have hkey : entry.1 = column := by
    split at hvalue
    · cases hvalue
    · rename_i value _
      cases hnormal : normalizeValue column value with
      | error message => rw [hnormal] at hvalue; cases hvalue
      | ok normal => rw [hnormal] at hvalue; cases hvalue; rfl
  cases hlookup : row.lookup column with
  | none => exact absurd (List.lookup_eq_none_iff.mp hlookup entry hentry) (by simp [hkey])
  | some value => exact ⟨value, rfl, isNormal_of_normalizeRow hsource (AnalysisRow.mem_of_lookup hlookup)⟩

/-! ## Loaded datasets and their tables -/

/-- **A value of a table of the sandbox.** Dates are kept as their texts, which are equal where the dates are. -/
inductive SqlValue where
  | text (value : String)
  | number (value : ℚ)
  | integer (value : Int)
  | boolean (value : Bool)
  | null
  deriving DecidableEq

/-- What a column of its type keeps of a value. -/
def AnalysisValue.stored : AnalysisValue → SqlValue
  | text value => .text value
  | decimal value => .number value.value
  | integer value => .integer value
  | boolean value => .boolean value
  | null => .null

/-- A row of a table of the sandbox, by its columns. -/
abbrev SqlRow := List (String × SqlValue)

/-- **`LoadedDataset`**, with what `_normalize` has seen to. -/
structure LoadedDataset where
  reference : String
  /-- `query.dataset_id` -/
  datasetId : DatasetId
  tableName : String
  rows : List AnalysisRow
  columns : List String
  isNormal : IsNormalTable columns rows

/-- The row of the table that a row of a dataset becomes. -/
def LoadedDataset.tableRow (loaded : LoadedDataset) (row : AnalysisRow) : SqlRow :=
  loaded.columns.map fun column => (column, (AnalysisRow.get row column).stored)

/-- The table of a dataset, as `register_table` leaves it. -/
def LoadedDataset.tableRows (loaded : LoadedDataset) : List SqlRow :=
  loaded.rows.map loaded.tableRow

/-- **`AnalysisHostPort`**: the datasets that are loaded, the tables of the sandbox, and the metrics that the
user may see. Each dataset is loaded under its reference and has its table. -/
structure AnalysisHost where
  /-- `get_dataset`; `none` is a reference that is not known. -/
  getDataset : String → Option LoadedDataset
  /-- The rows of a table of the sandbox. -/
  table : String → List SqlRow
  /-- `authorize_metric` -/
  authorizeMetric : String → Bool
  referenced : ∀ reference loaded, getDataset reference = some loaded → loaded.reference = reference
  registered : ∀ reference loaded, getDataset reference = some loaded → table loaded.tableName = loaded.tableRows
