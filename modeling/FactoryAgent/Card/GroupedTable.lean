import FactoryAgent.Card.Cells
import FactoryAgent.Lib.Runs

/-!
# The preview table of a card

`_table_payload` and `_grouped_rows` of `ports/card.py`. A grouped table goes through the rows once and makes a
group of each run of rows with one value, of which it keeps the first few, until it has as many groups as it may.
It says that rows are left out where it has cut a run, or has fewer groups than there are values. A value whose
rows are apart takes more than one group, and then the number of groups can reach that of the values before the
rows are at their end: they are left out without notice (`grouped_preview_honest_iff`). The only grouped card, the
ranking by wage of `payroll-list.yaml`, groups rows by department that come in the order of the wage.
-/

namespace Card

/-- `MAX_PREVIEW_ROWS` -/
def maxPreviewRows : Nat := 100

/-- **`CardTableSpec`**, as far as the table goes by it. -/
structure CardTableSpec where
  previewMaxRows : Option Nat
  previewMaxGroups : Nat
  groupBy : Option String
  groupNameFrom : Option String
  /-- The column and the value of `CardAlertSpec`. -/
  alertMarker : Option (String × String)

/-- `spec.preview_max_rows or MAX_PREVIEW_ROWS` -/
def CardTableSpec.rowLimit (spec : CardTableSpec) : Nat :=
  match spec.previewMaxRows with
  | none | some 0 => maxPreviewRows
  | some (limit + 1) => limit + 1

/-- **What stands for a value up to `==`**: numbers of different types, and the truth values, are compared as
numbers. -/
def CardValue.key : CardValue → CardValue
  | .decimal negative coefficient exponent => numberKey negative coefficient exponent
  | .integer value => numberKey (value < 0) value.natAbs 0
  | .boolean value => numberKey false (if value then 1 else 0) 0
  | value => value
where
  /-- A number without trailing zeros, and zero without a sign. -/
  numberKey (negative : Bool) (coefficient : Nat) (exponent : Int) : CardValue :=
    if coefficient = 0 then .decimal false 0 0
    else
      let kept := Decimal.withoutZeros (Decimal.digitCount coefficient) coefficient exponent
      .decimal negative kept.1 kept.2

/-- The value that a row is grouped by, up to `==`. -/
def groupKey (groupBy : String) (row : CardRow) : CardValue :=
  (row.get groupBy).key

/-- **An entry of `groups`.** -/
structure CardGroup where
  group : CardValue
  name : CardValue
  rowCount : Nat
  totalRows : Nat
  truncated : Bool
  deriving DecidableEq, Repr

/-- **The table of a card**; what concerns the groups is left empty where it has none. -/
structure CardTable where
  columns : List String
  columnTitles : List (String × String)
  totalRows : Nat
  rows : List (List (Option String))
  groupBy : Option String
  groups : List CardGroup
  groupsTotal : Option Nat
  previewMaxRows : Option Nat
  truncated : Bool
  page : Nat
  pageSize : Nat
  hasMore : Bool
  alertMarker : Option (String × String)

/-- The group of a run. -/
def cardGroup (spec : CardTableSpec) (groupBy : String) (run : List CardRow) : CardGroup :=
  let first := run.headD []
  let groupValue := first.get groupBy
  let kept := run.take spec.rowLimit
  { group := groupValue
    name := (spec.groupNameFrom.map first.get).elim groupValue fun rawName =>
      if rawName.isUnavailable then groupValue else rawName
    rowCount := kept.length, totalRows := run.length, truncated := kept.length < run.length }

/-- **The loop of `_grouped_rows`**: as long as there are rows, and fewer groups than there may be, the next run with
what is kept of it. -/
def groupLoop (spec : CardTableSpec) (groupBy : String) : Nat → List CardRow → List (CardGroup × List CardRow)
  | 0, _ => []
  | _ + 1, [] => []
  | groups + 1, row :: rows =>
    let run := row :: rows.takeWhile fun other => groupKey groupBy other = groupKey groupBy row
    let left := rows.dropWhile fun other => groupKey groupBy other = groupKey groupBy row
    (cardGroup spec groupBy run, run.take spec.rowLimit) :: groupLoop spec groupBy groups left

/-- **`_grouped_rows`**: the cells that are kept, the groups, and the number of values. -/
def groupedRows (spec : CardTableSpec) (groupBy : String) (columns : List CardColumn) (rows : List CardRow) :
    List (List (Option String)) × List CardGroup × Nat :=
  let kept := groupLoop spec groupBy spec.previewMaxGroups rows
  (kept.flatMap fun entry => entry.2.map (rowCells columns), kept.map (·.1),
    (rows.map (groupKey groupBy)).dedup.length)

/-- **`_table_payload`.** -/
def tablePayload (spec : CardTableSpec) (columns : List CardColumn) (rows : List CardRow) : CardTable :=
  match spec.groupBy with
  | some groupBy =>
    let (kept, groups, distinctTotal) := groupedRows spec groupBy columns rows
    let truncated := groups.any (·.truncated) || groups.length < distinctTotal
    { columns := columns.map (·.name), columnTitles := columns.map fun column => (column.name, column.shownTitle)
      totalRows := rows.length, rows := kept, groupBy := some groupBy, groups, groupsTotal := some distinctTotal
      previewMaxRows := spec.previewMaxRows, truncated, page := 1, pageSize := spec.rowLimit, hasMore := truncated
      alertMarker := spec.alertMarker }
  | none =>
    let kept := rows.take spec.rowLimit
    let truncated := decide (kept.length < rows.length)
    { columns := columns.map (·.name), columnTitles := columns.map fun column => (column.name, column.shownTitle)
      totalRows := rows.length, rows := kept.map (rowCells columns), groupBy := none, groups := []
      groupsTotal := none, previewMaxRows := some spec.rowLimit, truncated, page := 1, pageSize := spec.rowLimit
      hasMore := truncated, alertMarker := spec.alertMarker }

/-! ## The groups are the first runs -/

/-- **The loop makes groups of the first runs.** -/
theorem groupLoop_eq (spec : CardTableSpec) (groupBy : String) (groups : Nat) (rows : List CardRow) :
    groupLoop spec groupBy groups rows
      = ((Runs.runs (groupKey groupBy) rows).take groups).map
        fun run => (cardGroup spec groupBy run, run.take spec.rowLimit) := by
  induction groups generalizing rows with
  | zero => rfl
  | succ groups ih =>
    cases rows with
    | nil => rfl
    | cons row rows =>
      rw [Runs.runs_cons, List.take_succ_cons, List.map_cons, ← ih]
      rfl

/-- The rows that are kept of the first runs. -/
def shownRows (spec : CardTableSpec) (groupBy : String) (rows : List CardRow) : List (List CardRow) :=
  Runs.cut spec.previewMaxGroups spec.rowLimit (Runs.runs (groupKey groupBy) rows)

/-- What is shown is some of the rows, each once and in order. -/
theorem shownRows_sublist (spec : CardTableSpec) (groupBy : String) (rows : List CardRow) :
    (shownRows spec groupBy rows).flatten.Sublist rows := by
  have hcut := Runs.flatten_cut_sublist spec.previewMaxGroups spec.rowLimit (Runs.runs (groupKey groupBy) rows)
  rwa [Runs.flatten_runs] at hcut

section

variable (spec : CardTableSpec) (groupBy : String) (columns : List CardColumn) (rows : List CardRow)

/-- The table of a card that is grouped. -/
def groupedTable : CardTable :=
  tablePayload { spec with groupBy := some groupBy } columns rows

/-- The table shows the cells of the rows that are kept. -/
theorem groupedTable_rows :
    (groupedTable spec groupBy columns rows).rows = (shownRows spec groupBy rows).flatten.map (rowCells columns) := by
  show (groupLoop { spec with groupBy := some groupBy } groupBy spec.previewMaxGroups rows).flatMap _ = _
  rw [groupLoop_eq, List.flatMap_map, shownRows, Runs.cut, List.map_flatten, List.map_map]
  rfl

/-- The groups of the table are those of the first runs. -/
theorem groupedTable_groups :
    (groupedTable spec groupBy columns rows).groups
      = ((Runs.runs (groupKey groupBy) rows).take spec.previewMaxGroups).map (cardGroup spec groupBy) := by
  show (groupLoop { spec with groupBy := some groupBy } groupBy spec.previewMaxGroups rows).map _ = _
  rw [groupLoop_eq, List.map_map]
  rfl

/-- **Whether a table says that rows are left out**: where a run is cut, or there are fewer groups than values. -/
theorem groupedTable_truncated :
    (groupedTable spec groupBy columns rows).truncated = true
      ↔ (∃ run ∈ (Runs.runs (groupKey groupBy) rows).take spec.previewMaxGroups, spec.rowLimit < run.length)
        ∨ min spec.previewMaxGroups (Runs.runs (groupKey groupBy) rows).length
          < (rows.map (groupKey groupBy)).dedup.length := by
  have htable : (groupedTable spec groupBy columns rows).truncated
      = ((groupedTable spec groupBy columns rows).groups.any (·.truncated)
        || decide ((groupedTable spec groupBy columns rows).groups.length
          < (rows.map (groupKey groupBy)).dedup.length)) := rfl
  rw [htable, groupedTable_groups, Bool.or_eq_true, List.any_map, List.any_eq_true, decide_eq_true_eq,
    List.length_map, List.length_take]
  refine or_congr_left (exists_congr fun run => and_congr_right fun _ => ?_)
  show decide ((run.take spec.rowLimit).length < run.length) = true ↔ _
  rw [decide_eq_true_eq, List.length_take]
  omega

/-! ## Honesty -/

/-- **An honest table**: it reports rows left out exactly where some are; each row that is shown is shown once, in
order, and in a group of its value; and the groups count the rows. -/
structure HonestPreview (table : CardTable) : Prop where
  flags_iff : table.truncated = false ∧ table.hasMore = false ↔ table.rows = rows.map (rowCells columns)
  parts : ∃ parts : List (List CardRow), parts.flatten.Sublist rows
    ∧ table.rows = parts.flatten.map (rowCells columns)
    ∧ List.Forall₂ (fun group part => group.rowCount = part.length
      ∧ ∀ row ∈ part, groupKey groupBy row = group.group.key) table.groups parts
  count : (table.groups.map (·.rowCount)).sum = table.rows.length

/-- Every row is shown exactly where there are few enough runs, and none is too long. -/
theorem rows_eq_iff :
    (groupedTable spec groupBy columns rows).rows = rows.map (rowCells columns)
      ↔ (Runs.runs (groupKey groupBy) rows).length ≤ spec.previewMaxGroups
        ∧ ∀ run ∈ Runs.runs (groupKey groupBy) rows, run.length ≤ spec.rowLimit := by
  have hcut := Runs.length_flatten_cut_eq_iff spec.rowLimit
    (List.nil_notMem_splitBy (fun a b => groupKey groupBy a = groupKey groupBy b) rows) spec.previewMaxGroups
  rw [groupedTable_rows, shownRows]
  refine Iff.trans ⟨fun h => ?_, fun h => ?_⟩ hcut
  · have hlength := congrArg List.length h
    rw [List.length_map, List.length_map] at hlength
    rw [List.flatten_splitBy]
    exact hlength
  · rw [List.flatten_splitBy] at h
    exact congrArg _ ((shownRows_sublist spec groupBy rows).eq_of_length h)

/-- The rows that are shown are in groups of their values, which count them. -/
theorem forall₂_groups :
    List.Forall₂ (fun group part => group.rowCount = part.length
      ∧ ∀ row ∈ part, groupKey groupBy row = group.group.key)
      (groupedTable spec groupBy columns rows).groups (shownRows spec groupBy rows) := by
  rw [groupedTable_groups, shownRows, Runs.cut, List.forall₂_map_left_iff, List.forall₂_map_right_iff,
    List.forall₂_same]
  intro run hrun
  have hmem := List.mem_of_mem_take hrun
  refine ⟨rfl, fun row hrow => ?_⟩
  have hrow := List.mem_of_mem_take hrow
  cases run with
  | nil => exact absurd hrow List.not_mem_nil
  | cons first run => exact Runs.key_eq_of_mem (groupKey groupBy) hmem hrow List.mem_cons_self

/-- The groups count the rows that are shown. -/
theorem sum_rowCount :
    ((groupedTable spec groupBy columns rows).groups.map (·.rowCount)).sum
      = (groupedTable spec groupBy columns rows).rows.length := by
  have hcounts : ∀ {groups : List CardGroup} {parts : List (List CardRow)},
      List.Forall₂ (fun group part => group.rowCount = part.length
        ∧ ∀ row ∈ part, groupKey groupBy row = group.group.key) groups parts →
      (groups.map (·.rowCount)).sum = parts.flatten.length := by
    intro groups parts h
    induction h with
    | nil => rfl
    | cons hhead _ ih => rw [List.map_cons, List.sum_cons, List.flatten_cons, List.length_append, hhead.1, ih]
  rw [hcounts (forall₂_groups spec groupBy columns rows), groupedTable_rows, List.length_map]

/-- **A grouped preview is honest exactly where** the rows have no more runs than there may be groups, or the values
are more than that, or one of the runs that are shown is cut. -/
theorem grouped_preview_honest_iff :
    HonestPreview groupBy columns rows (groupedTable spec groupBy columns rows)
      ↔ (Runs.runs (groupKey groupBy) rows).length ≤ spec.previewMaxGroups
        ∨ spec.previewMaxGroups < (rows.map (groupKey groupBy)).dedup.length
        ∨ ∃ run ∈ (Runs.runs (groupKey groupBy) rows).take spec.previewMaxGroups, spec.rowLimit < run.length := by
  have hkeys := Runs.length_dedup_le (groupKey groupBy) rows
  have htruncated := groupedTable_truncated spec groupBy columns rows
  have hrows := rows_eq_iff spec groupBy columns rows
  have hflags : (groupedTable spec groupBy columns rows).truncated = false
      ∧ (groupedTable spec groupBy columns rows).hasMore = false
      ↔ ¬(groupedTable spec groupBy columns rows).truncated = true := by
    rw [Bool.not_eq_true]
    exact and_self_iff
  constructor
  · intro h
    by_contra hneither
    rw [not_or, not_or, Nat.not_le, Nat.not_lt] at hneither
    obtain ⟨hruns, hvalues, hshort⟩ := hneither
    -- Neither flag is raised, although the runs after the last group are left out.
    have hquiet : ¬(groupedTable spec groupBy columns rows).truncated = true := by
      rw [htruncated]
      rintro (hlong | hfew)
      · exact hshort hlong
      · omega
    have hall := (hrows.mp (h.flags_iff.mp (hflags.mpr hquiet))).1
    omega
  · intro h
    refine ⟨?_, ⟨_, shownRows_sublist spec groupBy rows, groupedTable_rows spec groupBy columns rows,
      forall₂_groups spec groupBy columns rows⟩, sum_rowCount spec groupBy columns rows⟩
    rw [hflags, hrows, htruncated]
    rcases h with hruns | hvalues | ⟨run, hrun, hlong⟩
    · rw [List.take_of_length_le hruns, Nat.min_eq_right hruns]
      constructor
      · intro hquiet
        exact ⟨hruns, fun run hrun => Nat.not_lt.mp fun hlong => hquiet (.inl ⟨run, hrun, hlong⟩)⟩
      · rintro ⟨-, hshort⟩ (⟨run, hrun, hlong⟩ | hfew)
        · exact absurd (hshort run hrun) (Nat.not_le.mpr hlong)
        · omega
    · exact ⟨fun hquiet => absurd (.inr (by omega)) hquiet, fun hall => absurd hall.1 (by omega)⟩
    · exact ⟨fun hquiet => absurd (.inl ⟨run, hrun, hlong⟩) hquiet,
        fun hall => absurd (hall.2 run (List.mem_of_mem_take hrun)) (Nat.not_le.mpr hlong)⟩

end

/-- **Rows left out without notice**: two departments, one of them with another row after the second group. -/
theorem grouped_preview_dishonest :
    let spec : CardTableSpec := ⟨some 10, 2, none, none, none⟩
    let columns : List CardColumn := [⟨"dept", none, none, none⟩, ⟨"gross", none, none, none⟩]
    let rows : List CardRow := [[("dept", .text "001"), ("gross", .text "100")],
      [("dept", .text "005"), ("gross", .text "90")], [("dept", .text "001"), ("gross", .text "80")]]
    ¬HonestPreview "dept" columns rows (groupedTable spec "dept" columns rows) := by
  intro spec columns rows h
  have hall := h.flags_iff.mp (by decide +kernel)
  exact absurd hall (by decide +kernel)

end Card
