import FactoryAgent.Cache.Footer
import FactoryAgent.Lib.IsoDate

/-!
# Progress detail

`progress_detail.py`: the business date of a progress row is normalized to a calendar date, and
detail rows are added up to one of three reviewed grains. Whatever cannot be derived safely refuses
the complete set of rows.
-/

variable (context : DecimalContext)

/-- The columns that are added up. -/
def progressAdditiveColumns : List String := ["bs", "fhsl", "sssl", "zpsl", "wgs", "wts"]

/-- The reviewed grains. -/
def progressReviewedGrains : List (List String) :=
  [["dh", "jhdh", "chuanghao", "huohao", "bbreed", "dept", "deptname"],
    ["dh", "baohao", "userid", "color", "chima"],
    ["userid", "uid", "uname", "dept", "deptname", "worktype", "wtname", "wsort"]]

/-- The columns that name the code in another column. -/
def dimensionNames : List (String × String) :=
  [("huohao", "bbreed"), ("worktype", "wtname"), ("uid", "uname"), ("dept", "deptname")]

/-! ## Normalized rows -/

/-- `_scalar`: a value as a text. -/
def Cell.scalar : Cell → String
  | .null => ""
  | .flag true => "1"
  | .flag false => "0"
  | cell => cell.str

/-- **The calendar date of a progress row**, `normalize_progress_date`: a date, or an instant that is
cut to its day. -/
def normalizeProgressDate (value : Option Cell) : Except ViewError String :=
  match value with
  | some (.text text) =>
    if text.toList.length = 10 then
      if IsoDate.isIsoDate text then .ok text else .error (.derivation "invalid_progress_date")
    else if text.toList[10]? = some 'T' ∨ text.toList[10]? = some ' ' then
      match IsoDate.dayOfInstant? text with
      | some day => .ok day
      | none => .error (.derivation "invalid_progress_date")
    else .error (.derivation "invalid_progress_date")
  | _ => .error (.derivation "invalid_progress_date")

/-- A normalized date is a calendar date. -/
theorem isIsoDate_of_normalizeProgressDate {value : Option Cell} {day : String}
    (h : normalizeProgressDate value = .ok day) : IsoDate.isIsoDate day = true := by
  unfold normalizeProgressDate at h
  split at h
  · split at h
    · split at h
      · next hdate => exact Except.ok.inj h ▸ hdate
      · cases h
    · split at h
      · split at h
        · next hday => exact Except.ok.inj h ▸ IsoDate.isIsoDate_of_dayOfInstant? hday
        · cases h
      · cases h
  · cases h

/-- **Normalizing is idempotent**: a calendar date is its own date. -/
theorem normalizeProgressDate_of_isIsoDate {day : String} (h : IsoDate.isIsoDate day = true) :
    normalizeProgressDate (some (.text day)) = .ok day := by
  simp only [normalizeProgressDate, IsoDate.length_of_isIsoDate h, if_true, h]

/-- One normalized row: every value a text, the date normalized, and without the older date
column. -/
def deriveProgressRow (row : Row) : Except ViewError Row := do
  let rq ← normalizeProgressDate row["rq"]?
  return ((row.map (fun _ cell => Cell.text cell.scalar)).insert "rq" (.text rq)).erase "dh_date"

/-- **The normalized rows**, `derive_progress_rows`. -/
def deriveProgressRows (rows : List Row) : Except ViewError (List Row) :=
  rows.mapM deriveProgressRow

/-- What a row is derived to. -/
theorem deriveProgressRow_eq_ok {row derived : Row} (h : deriveProgressRow row = .ok derived) :
    ∃ rq, normalizeProgressDate row["rq"]? = .ok rq
      ∧ derived = ((row.map (fun _ cell => Cell.text cell.scalar)).insert "rq" (.text rq)).erase
          "dh_date" := by
  simp only [deriveProgressRow, Except.bind_eq_ok, Except.pure_eq_ok] at h
  obtain ⟨rq, hrq, rfl⟩ := h
  exact ⟨rq, hrq, rfl⟩

/-- A row that is derived has a date. -/
theorem mem_rq_of_deriveProgressRow {row derived : Row} (h : deriveProgressRow row = .ok derived) :
    "rq" ∈ row := by
  obtain ⟨rq, hrq, -⟩ := deriveProgressRow_eq_ok h
  rw [Std.ExtTreeMap.mem_iff_isSome_getElem?]
  cases hcell : row["rq"]? with
  | none => rw [hcell] at hrq; cases hrq
  | some cell => rfl

/-- The columns of a derived row, by their values. -/
theorem getElem?_derived (row : Row) (rq column : String) :
    (((row.map (fun _ cell => Cell.text cell.scalar)).insert "rq" (.text rq)).erase
        "dh_date")[column]?
      = if column = "dh_date" then none else if column = "rq" then some (.text rq)
        else row[column]?.map (fun cell => .text cell.scalar) := by
  rw [Std.ExtTreeMap.getElem?_erase, Std.ExtTreeMap.getElem?_insert, Std.ExtTreeMap.getElem?_map]
  simp only [Std.LawfulEqCmp.compare_eq_iff_eq, eq_comm (b := column)]

/-- **A normalized row**: its values are texts, its date is a calendar date, and the older date
column is gone. -/
structure Row.IsNormalized (row : Row) : Prop where
  isText : row.IsText
  date : ∃ day, row["rq"]? = some (.text day) ∧ IsoDate.isIsoDate day = true
  noOldDate : "dh_date" ∉ row

/-- What is derived is normalized. -/
theorem isNormalized_of_deriveProgressRow {row derived : Row}
    (h : deriveProgressRow row = .ok derived) : derived.IsNormalized := by
  obtain ⟨rq, hrq, rfl⟩ := deriveProgressRow_eq_ok h
  refine ⟨?_, ⟨rq, ?_, isIsoDate_of_normalizeProgressDate hrq⟩, ?_⟩
  · intro column cell hcell
    rw [getElem?_derived] at hcell
    split at hcell
    · cases hcell
    · split at hcell
      · exact Option.some.inj hcell ▸ rfl
      · obtain ⟨_, -, rfl⟩ := Option.map_eq_some_iff.mp hcell
        rfl
  · rw [getElem?_derived, if_neg (by decide), if_pos rfl]
  · rw [Std.ExtTreeMap.mem_iff_isSome_getElem?, getElem?_derived, if_pos rfl]
    exact Bool.false_ne_true

/-- **Normalizing a normalized row changes nothing.** -/
theorem deriveProgressRow_of_isNormalized {row : Row} (h : row.IsNormalized) :
    deriveProgressRow row = .ok row := by
  obtain ⟨day, hday, hdate⟩ := h.date
  have hself : ((row.map (fun _ cell => Cell.text cell.scalar)).insert "rq" (.text day)).erase
      "dh_date" = row := by
    refine Std.ExtTreeMap.ext_getElem? (fun column => ?_)
    rw [getElem?_derived]
    split
    · next hold => rw [hold, Std.ExtTreeMap.getElem?_eq_none h.noOldDate]
    · split
      · next hrq => rw [hrq, hday]
      · cases hcell : row[column]? with
        | none => rfl
        | some cell =>
          have htext := h.isText column cell hcell
          cases cell <;> first | rfl | exact absurd htext Bool.false_ne_true
  rw [deriveProgressRow, hday, normalizeProgressDate_of_isIsoDate hdate]
  exact congrArg Except.ok hself

/-- The columns of a derived row are those of the row, and its date. -/
theorem mem_of_mem_derived {row derived : Row} (h : deriveProgressRow row = .ok derived)
    {column : String} : column ∈ derived ↔ column ≠ "dh_date" ∧ (column = "rq" ∨ column ∈ row) := by
  obtain ⟨rq, -, rfl⟩ := deriveProgressRow_eq_ok h
  rw [Std.ExtTreeMap.mem_iff_isSome_getElem?, getElem?_derived,
    Std.ExtTreeMap.mem_iff_isSome_getElem?]
  by_cases hold : column = "dh_date"
  · simp [hold]
  · by_cases hrq : column = "rq" <;> simp [hold, hrq]

/-! ## Grains -/

/-- A contribution of a row to a group: a finite number that is not negative. -/
def contribution (row : Row) (column : String) : Except ViewError Decimal :=
  let value := row.field column
  if value = "" then .error (.derivation "missing_contribution")
  else match Decimal.parse value with
    | none => .error (.derivation "invalid_contribution")
    | some amount =>
      if amount.isFinite && !amount.isNegative then .ok amount
      else .error (.derivation "invalid_contribution")

/-- **A group of progress rows**: the dimensions of its first row, and its totals. -/
structure ProgressGroup where
  dimensions : Row
  totals : Std.ExtTreeMap String Decimal

/-- The group of a first row: its dimensions, with its date where the grain is of sheets. -/
def ProgressGroup.opened (columns : List String) (row : Row) : ProgressGroup where
  dimensions :=
    let dimensions : Row := Std.ExtTreeMap.ofList (columns.map (fun column => (column, row.cell column)))
    if "dh" ∈ columns then dimensions.insert "rq" (row.cell "rq") else dimensions
  totals := Std.ExtTreeMap.ofList (progressAdditiveColumns.map (fun column => (column, Decimal.zero)))

/-- The check of one more row of a group: its names and its date are those of the group. -/
def ProgressGroup.admits (group : ProgressGroup) (columns nameFields : List String) (row : Row) :
    Except ViewError Unit :=
  if nameFields.any (fun name => row.cell name ≠ group.dimensions.cell name) then
    .error (.derivation "inconsistent_dimension_name")
  else if "dh" ∈ columns ∧ row.cell "rq" ≠ group.dimensions.cell "rq" then
    .error (.derivation "inconsistent_progress_date")
  else .ok ()

/-- One column of a group's totals with one more contribution. -/
def ProgressGroup.addContribution (row : Row) (group : ProgressGroup) (column : String) :
    Except ViewError ProgressGroup := do
  let amount ← contribution row column
  match context.add (group.totals.getD column Decimal.zero) amount with
  | some total => .ok { group with totals := group.totals.insert column total }
  | none => .error .invalidOperation

/-- The groups so far, by their keys. -/
abbrev ProgressGroups := Std.ExtTreeMap (List String) ProgressGroup

/-- The groups with one more row. -/
def addProgressRow (columns nameFields keyFields : List String) (groups : ProgressGroups)
    (row : Row) : Except ViewError ProgressGroups := do
  if columns.any (fun column => !row.contains column) then
    throw (.derivation "missing_dimension")
  let key := keyFields.map row.field
  let group ← match groups[key]? with
    | none => pure (ProgressGroup.opened columns row)
    | some group => do
      group.admits columns nameFields row
      pure group
  let group ← progressAdditiveColumns.foldlM (ProgressGroup.addContribution context row) group
  return groups.insert key group

/-- The row of a group: its dimensions, its totals and the completion rate of these. -/
def ProgressGroup.toRow (group : ProgressGroup) : Except ViewError Row :=
  match context.percentage (group.totals.getD "sssl" Decimal.zero)
      (group.totals.getD "fhsl" Decimal.zero) with
  | some rate => .ok ((progressAdditiveColumns.foldl (fun row column =>
      row.insert column (.text (group.totals.getD column Decimal.zero).toText))
      group.dimensions).insert "wcl" (.text rate.toText))
  | none => .error .invalidOperation

/-- Whether columns are, as a set, one of the reviewed grains. -/
def isReviewedGrain (columns : List String) : Bool :=
  progressReviewedGrains.any (fun grain =>
    columns.all (fun column => decide (column ∈ grain))
      && grain.all (fun column => decide (column ∈ columns)))

/-- **Detail rows at a reviewed grain**, `aggregate_progress_rows`; without a grain they stay
detail. -/
def aggregateProgressRows (rows : List Row) (fields : List String) : Except ViewError (List Row) :=
  let columns := fields.eraseDups
  if columns = [] then deriveProgressRows rows
  else if isReviewedGrain columns then do
    let nameFields := dimensionNames.filterMap (fun (code, name) =>
      if code ∈ columns ∧ name ∈ columns then some name else none)
    let keyFields := (Std.ExtTreeSet.ofList (columns.filter (· ∉ nameFields))).toList
    let detail ← deriveProgressRows rows
    let groups ← detail.foldlM (addProgressRow context columns nameFields keyFields) ∅
    groups.values.mapM (ProgressGroup.toRow context)
  else .error (.derivation "unsupported_grain")
