import FactoryAgent.Card.Cells
import FactoryAgent.Lib.Checks

/-!
# Order views

The grouped view of an order answer, `build_order_groups` of `ports/order_views.py`: a group for each plan of the
summary, and one for what is linked to no plan, each with a table of every detail view. The groups come in pages.
A selection asks for one detail view of one group instead, with a page of its rows and a filter on their completion
status. The digest in the identifier of a group is a parameter; the actions of a view, which are passed on as they
are, are left out.
-/

namespace Card

/-- `OrderGroupKind` -/
inductive OrderGroupKind where
  | plan
  | unlinked
  deriving DecidableEq, Repr

/-- `OrderStatus` -/
inductive OrderStatus where
  | all
  | finished
  | unfinished
  | unavailable
  deriving DecidableEq, Repr

/-- `_SUMMARY_HIDDEN` -/
def summaryHidden : List String := ["plan_code", "plan_missing", "order_count", "order_code"]

/-- `_GROUP_LIMIT` -/
def groupLimit : Nat := 50

/-- `_PAGE_LIMIT` -/
def pageLimit : Nat := 100000

/-- `_PAGE_SIZE_LIMIT` -/
def pageSizeLimit : Nat := 100

/-- `_validate_identifier`: a letter, and at most 63 letters, digits and underscores. -/
def isViewIdentifier (value : String) : Bool :=
  match value.toList with
  | [] => false
  | c :: cs => c.isAlpha && cs.length ≤ 63 && cs.all fun c => c.isAlphanum || c == '_'

open Checks in
/-- `_validate_identifier` -/
def validateIdentifier (value : String) : Except String Unit :=
  require (isViewIdentifier value = true) "Invalid order view identifier"

open Checks in
/-- `_validate_integer` -/
def validateInteger (value : Nat) (name : String) (maximum : Nat) : Except String Unit :=
  require (1 ≤ value ∧ value ≤ maximum) ("Invalid order " ++ name)

/-- Whether a text is blank. -/
def isBlank (text : String) : Bool :=
  (Text.stripped text.toList).isEmpty

/-- **`OrderViewSelection`.** -/
structure OrderViewSelection where
  viewId : String
  groupKind : OrderGroupKind
  planCode : Option String
  page : Nat
  pageSize : Nat
  status : OrderStatus
  snapshotId : Option String

/-- The digits of a snapshot identifier. -/
def isSnapshotId (value : String) : Bool :=
  value.toList.length == 64 && value.toList.all fun c => c.isDigit || ('a' ≤ c && c ≤ 'f') || ('A' ≤ c && c ≤ 'F')

open Checks in
/-- **`OrderViewSelection.__post_init__`.** -/
def OrderViewSelection.postInit (selection : OrderViewSelection) : Except String Unit := do
  validateIdentifier selection.viewId
  require (selection.groupKind = .plan → selection.planCode.any (fun code => !isBlank code) = true)
    "A linked order group requires a plan code"
  require (selection.groupKind = .unlinked → selection.planCode = none)
    "An unlinked order group cannot carry a plan code"
  validateInteger selection.page "page" pageLimit
  validateInteger selection.pageSize "page size" pageSizeLimit
  require (selection.snapshotId.all isSnapshotId = true) "Invalid order snapshot identifier"

/-- **`OrderDetailData`.** -/
structure OrderDetailData where
  viewId : String
  title : String
  groupBy : String
  columns : List CardColumn
  rows : List CardRow
  statusColumn : Option String
  hiddenColumns : List String

open Checks in
/-- **`OrderDetailData.__post_init__`.** -/
def OrderDetailData.postInit (detail : OrderDetailData) : Except String Unit := do
  validateIdentifier detail.viewId
  require (detail.columns.map (·.name)).Nodup "Duplicate order detail columns"
  require (∀ column ∈ detail.statusColumn, column ∈ detail.columns.map (·.name))
    "Order detail status column is not declared"

/-- **`_plan_key`**: the plan of a row, if it has one. -/
def planKey : CardValue → Except String (Option String)
  | .null => .ok none
  | .text value => .ok (if isBlank value then none else some value)
  | .decimal .. | .integer _ | .boolean _ | .day _ | .other _ => .error "Invalid order group key"

/-- **`_status`**: the completion status of a row, by the value of its status column. -/
def statusOf (value : CardValue) : OrderStatus :=
  if value = .text "已完工" then .finished
  else if value = .text "未完工" then .unfinished
  else .unavailable

/-- `_group_id` -/
def groupId (digest : String → String) (planCode : Option String) : String :=
  planCode.elim "unlinked" fun code => "plan:" ++ digest code

/-- A column of the payload, `_column_payload`. -/
structure ColumnPayload where
  name : String
  title : String
  columnType : Option String
  unit : Option String
  deriving DecidableEq, Repr

/-- `_column_payload` -/
def columnPayload (column : CardColumn) : ColumnPayload :=
  ⟨column.name, column.shownTitle, column.columnType, column.unit⟩

open Checks in
/-- **`_summary_payload`**: the columns of a summary row with their values. Two columns of one name leave the
strict `zip` with one value too few. -/
def summaryPayload (columns : List CardColumn) (row : CardRow) :
    Except String (List (ColumnPayload × Option String)) := do
  require (columns.map (·.name)).Nodup "zip() argument 2 is shorter than argument 1"
  return (columns.map columnPayload).zip (rowCells columns row)

/-- **`_state_counts`**: the counts of the states that the summary has columns of. -/
def stateCounts (row : CardRow) (columns : List CardColumn) : List (OrderStatus × Option String) :=
  [(.finished, "finished_sheet_count"), (.unfinished, "unfinished_sheet_count"),
      (.unavailable, "unavailable_sheet_count")].filterMap fun (state, name) =>
    (columns.reverse.find? fun column => column.name == name).bind fun column =>
      (rowCells [column] row).head?.map fun cell => (state, cell)

/-- **The table of a view**, `table` of the payload. -/
structure OrderTable where
  columns : List CardColumn
  rows : List (List (Option String))
  totalRows : Nat
  filteredTotalRows : Nat
  status : OrderStatus
  page : Nat
  pageSize : Nat
  hasMore : Bool
  unavailableColumns : List ColumnPayload

/-- **A view of a group**, with the request that asks for it again. -/
structure OrderView where
  capabilityId : String
  viewId : String
  title : String
  groupKind : OrderGroupKind
  planCode : Option String
  table : OrderTable

/-- **A group.** -/
structure OrderGroup where
  id : String
  name : String
  kind : OrderGroupKind
  planCode : Option String
  summary : List (ColumnPayload × Option String)
  stateCounts : List (OrderStatus × Option String)
  defaultExpanded : Bool
  views : List OrderView

/-- **The payload of `build_order_groups`.** -/
structure OrderGroups where
  groupsTotal : Nat
  page : Nat
  pageSize : Nat
  hasMore : Bool
  groups : List OrderGroup

/-- The kind of the group of a plan, or of none. -/
def groupKind (planCode : Option String) : OrderGroupKind :=
  if planCode.isNone then .unlinked else .plan

/-- The rows of a group that have the completion status. -/
def OrderDetailData.withStatus (detail : OrderDetailData) (status : OrderStatus) (rows : List CardRow) :
    List CardRow :=
  if status = .all then rows
  else rows.filter fun row => statusOf (row.get (detail.statusColumn.getD "")) = status

/-- Whether a column is shown for a group: if there are rows, some row has a value. -/
def isAvailable (groupRows : List CardRow) (column : CardColumn) : Bool :=
  groupRows.isEmpty || groupRows.any fun row => !(row.get column.name).isUnavailable

/-- The columns of a detail view that are not hidden. -/
def OrderDetailData.visibleColumns (detail : OrderDetailData) : List CardColumn :=
  detail.columns.filter fun column =>
    !(column.name == detail.groupBy || column.name == "plan_missing" || column.name == "order_code"
      || detail.hiddenColumns.contains column.name)

/-- **`_detail_payload`.** -/
def detailPayload (capabilityId : String) (detail : OrderDetailData) (planCode : Option String)
    (selection : Option OrderViewSelection) (previewRows : Nat) (groupRows : List CardRow) : OrderView :=
  let status := selection.elim .all (·.status)
  let filteredRows := detail.withStatus status groupRows
  let availableColumns := detail.visibleColumns.filter (isAvailable groupRows)
  let unavailableColumns := detail.visibleColumns.filter fun column => !isAvailable groupRows column
  let page := selection.elim 1 (·.page)
  let pageSize := selection.elim previewRows (·.pageSize)
  let start := (page - 1) * pageSize
  let pageRows := (filteredRows.drop start).take pageSize
  { capabilityId, viewId := detail.viewId, title := detail.title, groupKind := groupKind planCode, planCode,
    table := {
      columns := availableColumns
      rows := pageRows.map (rowCells availableColumns)
      totalRows := groupRows.length
      filteredTotalRows := filteredRows.length
      status, page, pageSize
      hasMore := start + pageRows.length < filteredRows.length
      unavailableColumns := unavailableColumns.map columnPayload } }

/-- The groups of the summary, by their plans and in order. -/
abbrev Summaries := List (Option String × CardRow)

open Checks in
/-- One row of the summary. -/
def addSummary (summaries : Summaries) (row : CardRow) : Except String Summaries := do
  require (row.has "plan_code" = true) "Order summary is missing its group key"
  let key ← planKey (row.get "plan_code")
  require (key ∉ summaries.map (·.1)) "Duplicate order summary group"
  return summaries ++ [(key, row)]

open Checks in
/-- The plan of a row of a detail view. -/
def detailKey (detail : OrderDetailData) (row : CardRow) : Except String (Option String × CardRow) := do
  require (row.has detail.groupBy = true) "Order detail is missing its group key"
  let key ← planKey (row.get detail.groupBy)
  return (key, row)

/-- **The rows of a detail view with their plans.** -/
def indexedRows (detail : OrderDetailData) : Except String (List (Option String × CardRow)) :=
  detail.rows.mapM (detailKey detail)

/-- The rows of a plan. -/
def rowsOfPlan (planCode : Option String) (indexed : List (Option String × CardRow)) : List CardRow :=
  (indexed.filter fun entry => entry.1 = planCode).map (·.2)

/-- The name of a group: that of its summary row, or its plan. -/
def groupName (planCode : Option String) (row : CardRow) : String :=
  match row.get "order_code" with
  | .text name => if !isBlank name && name != unavailableValue then name else planCode.getD "未关联计划号"
  | _ => planCode.getD "未关联计划号"

/-- The plan of the group that a selection asks for. -/
def OrderViewSelection.selectedKey (selection : OrderViewSelection) : Option String :=
  match selection.groupKind with
  | .plan => selection.planCode
  | .unlinked => none

/-- **What a selection asks for**: the summary of its group and its detail view. -/
def selected (summaries : Summaries) (details : List OrderDetailData) (selection : OrderViewSelection) :
    Except String (Summaries × List OrderDetailData) :=
  match summaries.find? fun entry => entry.1 = selection.selectedKey with
  | none => .error "Order group is unavailable in this result"
  | some entry =>
    match details.find? fun detail => detail.viewId == selection.viewId with
    | none => .error "Order detail view is unavailable in this result"
    | some detail =>
      if selection.status ≠ .all ∧ detail.statusColumn = none then
        .error "Order detail view does not support status filtering"
      else .ok ([entry], [detail])

/-- **One group of the payload.** -/
def orderGroup (digest : String → String) (capabilityId : String) (summaryColumns : List CardColumn)
    (indexed : List (OrderDetailData × List (Option String × CardRow))) (selection : Option OrderViewSelection)
    (previewRows : Nat) (expanded : Bool) (entry : Option String × CardRow) : Except String OrderGroup := do
  let summary ← summaryPayload (summaryColumns.filter fun column => !summaryHidden.contains column.name) entry.2
  return { id := groupId digest entry.1, name := groupName entry.1 entry.2, kind := groupKind entry.1,
           planCode := entry.1, summary, stateCounts := stateCounts entry.2 summaryColumns,
           defaultExpanded := expanded,
           views := indexed.map fun item =>
             detailPayload capabilityId item.1 entry.1 selection previewRows (rowsOfPlan entry.1 item.2) }

/-- What is kept of the summary and the detail views: a page of the groups, or what is selected. -/
def keptGroups (summaries : Summaries) (details : List OrderDetailData) (selection : Option OrderViewSelection)
    (maxGroups groupPage : Nat) : Except String (Summaries × List OrderDetailData) :=
  match selection with
  | some selection => selected summaries details selection
  | none => .ok ((summaries.drop ((groupPage - 1) * maxGroups)).take maxGroups, details)

open Checks in
/-- **`build_order_groups`.** -/
def buildOrderGroups (digest : String → String) (capabilityId : String) (summaryRows : List CardRow)
    (summaryColumns : List CardColumn) (details : List OrderDetailData) (selection : Option OrderViewSelection)
    (maxGroups previewRows groupPage : Nat) : Except String OrderGroups := do
  validateInteger maxGroups "group limit" groupLimit
  validateInteger previewRows "preview row limit" pageSizeLimit
  validateInteger groupPage "group page" pageLimit
  require (selection.isSome = true → groupPage = 1) "Order detail selection cannot paginate the group list"
  require (details.map (·.viewId)).Nodup "Duplicate order detail views"
  let summaries ← summaryRows.foldlM addSummary []
  let kept ← keptGroups summaries details selection maxGroups groupPage
  let indexed ← kept.2.mapM fun detail => (indexedRows detail).map fun rows => (detail, rows)
  let groups ← kept.1.mapM
    (orderGroup digest capabilityId summaryColumns indexed selection previewRows (summaries.length == 1))
  return { groupsTotal := summaries.length, page := groupPage, pageSize := maxGroups,
           hasMore := selection.isNone && (groupPage - 1) * maxGroups + kept.1.length < summaries.length, groups }

end Card
