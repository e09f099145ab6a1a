import FactoryAgent.Card.OrderPaging

/-!
# Exporting the order details

The export has a table of all rows of each detail view, where the screen has pages of the rows of a plan. Which
rows are linked to a plan, and which completion status a row has, is decided in both places: on the screen by
`_plan_key` and `_status` of `ports/order_views.py`, in the export by `_detail_render_table` of
`execution/kernel.py`. The second also reads the flag `plan_missing`, and takes a status by its text. The recipes
compute the flag as `plan_code IS NULL`, and the two then agree (`classifications_agree_iff`).

Of a table only what is exported of its rows is kept, and of a column what a card has of it.
-/

namespace Card

/-- A value of an exported row: one of the detail view, or the number that a text was read as. -/
inductive ExportValue where
  | raw (value : CardValue)
  | number (value : Decimal)
  deriving DecidableEq, Repr

/-- An exported row, by its fields. -/
abbrev ExportRow := List (String × ExportValue)

/-- `RenderColumn` -/
structure RenderColumn where
  name : String
  title : Option String
  columnType : Option String
  unit : Option String
  deriving DecidableEq, Repr

/-- **`RenderTable`**, of a detail view. -/
structure RenderTable where
  title : String
  columns : List RenderColumn
  rows : List ExportRow
  hiddenColumns : List String

/-- `_decimal_or_zero`, of a text. -/
def decimalOrZero (text : String) : Decimal :=
  (Decimal.parse text).getD (.finite false 0 0)

/-- **`_to_value`**: the texts of the columns of amounts are exported as numbers. -/
def toValue (value : CardValue) (column : CardColumn) : ExportValue :=
  match value with
  | .text text =>
    if text = unavailableValue then .raw value
    else if column.columnType = some "money" ∨ column.columnType = some "quantity" then
      .number (decimalOrZero text)
    else .raw value
  | other => .raw other

/-- The completion status of a row in the export, by the text of its status column. -/
def exportStatus (value : CardValue) : OrderStatus :=
  if value.str = "已完工" then .finished
  else if value.str = "未完工" then .unfinished
  else .unavailable

namespace OrderDetailData

/-- The value of the status column of a row. -/
def statusValue (detail : OrderDetailData) (row : CardRow) : CardValue :=
  row.get (detail.statusColumn.getD "")

/-- **Whether a row is exported as linked to no plan**: it is flagged so, or has no plan code. -/
def isUnlinked (detail : OrderDetailData) (row : CardRow) : Bool :=
  row.get "plan_missing" = .boolean true ||
    match row.get detail.groupBy with
    | .null => true
    | .text planCode => isBlank planCode
    | _ => false

/-- The columns of a detail view that are exported after the plan and the link to it. -/
def exportedColumns (detail : OrderDetailData) : List CardColumn :=
  detail.columns.filter fun column => !(column.name == "order_code" || column.name == "plan_link_state")

/-- **A row of the export.** -/
def exportRow (detail : OrderDetailData) (row : CardRow) : ExportRow :=
  [("order_code", .raw (if detail.isUnlinked row then .text "未关联计划号" else row.get detail.groupBy)),
    ("plan_link_state", .raw (.text (if detail.isUnlinked row then "未关联" else "已关联")))]
    ++ detail.exportedColumns.map fun column => (column.name, toValue (row.get column.name) column)

/-- The rows of a detail view that are exported: where the view is selected, those with the status that is. -/
def keptRows (detail : OrderDetailData) (selection : Option OrderViewSelection) : List CardRow :=
  match selection with
  | none => detail.rows
  | some selection =>
    if selection.viewId = detail.viewId ∧ selection.status ≠ .all then
      detail.rows.filter fun row => exportStatus (detail.statusValue row) = selection.status
    else detail.rows

/-- **`_detail_render_table`.** -/
def renderTable (detail : OrderDetailData) (selection : Option OrderViewSelection) : RenderTable where
  title := detail.title
  columns := ⟨"order_code", some "计划号", none, none⟩ :: ⟨"plan_link_state", some "关联状态", none, none⟩
    :: detail.exportedColumns.map fun column => ⟨column.name, column.title, column.columnType, column.unit⟩
  rows := (detail.keptRows selection).map detail.exportRow
  hiddenColumns := detail.hiddenColumns

end OrderDetailData

/-- **The filter on the export** that a view of a plan corresponds to: what is linked to no plan, or what is linked
and has the code. -/
def ExportRow.isOf (planCode : Option String) (row : ExportRow) : Bool :=
  match planCode with
  | none => row.lookup "plan_link_state" = some (.raw (.text "未关联"))
  | some code => row.lookup "plan_link_state" = some (.raw (.text "已关联"))
      && row.lookup "order_code" = some (.raw (.text code))

namespace OrderDetailData

variable {detail : OrderDetailData} {row : CardRow}

/-! ## The two classifications -/

/-- **A row that is classified alike** on the screen and in the export. -/
def ClassifiedAlike (detail : OrderDetailData) (row : CardRow) : Prop :=
  (detail.isUnlinked row = true ↔ planKey (row.get detail.groupBy) = .ok none)
    ∧ exportStatus (detail.statusValue row) = statusOf (detail.statusValue row)

/-- **A row whose flag and status are consistent**: it is not flagged as without a plan where it has one, and what
reads as a status in its status column is a text. -/
def Consistent (detail : OrderDetailData) (row : CardRow) : Prop :=
  (row.get "plan_missing" = .boolean true → planKey (row.get detail.groupBy) = .ok none)
    ∧ ((detail.statusValue row).str = "已完工" ∨ (detail.statusValue row).str = "未完工" →
      detail.statusValue row = .text (detail.statusValue row).str)

instance (detail : OrderDetailData) (row : CardRow) : Decidable (detail.Consistent row) :=
  inferInstanceAs (Decidable (_ ∧ _))

/-- A row is exported as linked to no plan where it is flagged so or has no plan. -/
theorem isUnlinked_iff {plan : Option String} (hplan : planKey (row.get detail.groupBy) = .ok plan) :
    detail.isUnlinked row = true ↔ row.get "plan_missing" = .boolean true ∨ plan = none := by
  rw [isUnlinked, Bool.or_eq_true, decide_eq_true_eq]
  refine or_congr_right ?_
  generalize row.get detail.groupBy = value at hplan
  cases value with
  | null =>
    cases hplan
    exact ⟨fun _ => rfl, fun _ => rfl⟩
  | text code =>
    rw [planKey, Except.ok.injEq] at hplan
    subst hplan
    show isBlank code = true ↔ _
    cases isBlank code with
    | false => exact ⟨fun h => (by cases h), fun h => (by cases h)⟩
    | true => exact ⟨fun _ => rfl, fun _ => rfl⟩
  | decimal _ _ _ => cases hplan
  | integer _ => cases hplan
  | boolean _ => cases hplan
  | day _ => cases hplan
  | other _ => cases hplan

/-- The status in the export is that on the screen where only a text reads as one. -/
theorem exportStatus_eq_iff (value : CardValue) :
    exportStatus value = statusOf value
      ↔ (value.str = "已完工" ∨ value.str = "未完工" → value = .text value.str) := by
  have hother : (∀ text, value ≠ .text text) → (exportStatus value = statusOf value
      ↔ (value.str = "已完工" ∨ value.str = "未完工" → value = .text value.str)) := by
    intro hne
    have hscreen : statusOf value = .unavailable := by
      rw [statusOf, if_neg (hne _), if_neg (hne _)]
    rw [hscreen, exportStatus]
    constructor
    · intro h hword
      rcases hword with hword | hword
      · rw [if_pos hword] at h
        cases h
      · rw [if_neg (by rw [hword]; decide), if_pos hword] at h
        cases h
    · intro h
      rw [if_neg fun hword => hne _ (h (.inl hword)), if_neg fun hword => hne _ (h (.inr hword))]
  cases value with
  | text text =>
    refine ⟨fun _ _ => rfl, fun _ => ?_⟩
    show (if text = "已完工" then OrderStatus.finished else if text = "未完工" then .unfinished else .unavailable) = _
    rw [statusOf]
    by_cases hfinished : text = "已完工"
    · rw [if_pos hfinished, if_pos (congrArg CardValue.text hfinished)]
    · rw [if_neg hfinished, if_neg fun h => hfinished (CardValue.text.inj h)]
      by_cases hunfinished : text = "未完工"
      · rw [if_pos hunfinished, if_pos (congrArg CardValue.text hunfinished)]
      · rw [if_neg hunfinished, if_neg fun h => hunfinished (CardValue.text.inj h)]
  | null => exact hother fun _ h => by cases h
  | decimal _ _ _ => exact hother fun _ h => by cases h
  | integer _ => exact hother fun _ h => by cases h
  | boolean _ => exact hother fun _ h => by cases h
  | day _ => exact hother fun _ h => by cases h
  | other _ => exact hother fun _ h => by cases h

/-- **A row is classified alike exactly where it is consistent.** -/
theorem classifications_agree_iff {plan : Option String} (hplan : planKey (row.get detail.groupBy) = .ok plan) :
    detail.ClassifiedAlike row ↔ detail.Consistent row := by
  refine and_congr ?_ (exportStatus_eq_iff _)
  rw [isUnlinked_iff hplan, hplan, Except.ok.injEq]
  exact ⟨fun h hflag => h.mp (.inl hflag), fun h => ⟨fun hor => hor.elim h id, .inr⟩⟩

/-! ## Filtering the export -/

/-- A row of the export is of a plan where the row of the view is. -/
theorem isOf_exportRow {own : Option String} (hown : planKey (row.get detail.groupBy) = .ok own)
    (h : detail.Consistent row) (plan : Option String) :
    (detail.exportRow row).isOf plan = decide (own = plan) := by
  have hlink := isUnlinked_iff hown
  have hunlinked : detail.isUnlinked row = own.isNone := by
    rw [Bool.eq_iff_iff, hlink, Option.isNone_iff_eq_none]
    refine ⟨fun hor => hor.elim (fun hflag => ?_) id, .inr⟩
    exact Except.ok.inj (hown.symm.trans (h.1 hflag))
  have hstate : (detail.exportRow row).lookup "plan_link_state"
      = some (.raw (.text (if own.isNone then "未关联" else "已关联"))) := by
    rw [← hunlinked]
    rfl
  have hcode : (detail.exportRow row).lookup "order_code"
      = some (.raw (if own.isNone then .text "未关联计划号" else row.get detail.groupBy)) := by
    rw [← hunlinked]
    rfl
  cases plan with
  | none =>
    rw [ExportRow.isOf, hstate]
    cases own with
    | none => rfl
    | some code => rfl
  | some code =>
    rw [ExportRow.isOf, hstate, hcode]
    cases own with
    | none => rfl
    | some ownCode =>
      have hvalue : row.get detail.groupBy = .text ownCode := by
        generalize row.get detail.groupBy = value at hown
        cases value with
        | text text =>
          rw [planKey, Except.ok.injEq] at hown
          split at hown
          · cases hown
          · cases hown
            rfl
        | null => cases hown
        | decimal _ _ _ => cases hown
        | integer _ => cases hown
        | boolean _ => cases hown
        | day _ => cases hown
        | other _ => cases hown
      rw [hvalue, Bool.eq_iff_iff]
      simp

/-- **The export of the rows with a status, filtered by the plan, is the export of the rows that match.** -/
theorem filter_exportRow {rows : List CardRow}
    (hplans : ∀ row ∈ rows, ∃ plan, planKey (row.get detail.groupBy) = .ok plan)
    (hconsistent : ∀ row ∈ rows, detail.Consistent row) (plan : Option String) :
    (rows.map detail.exportRow).filter (·.isOf plan)
      = (rows.filter fun row => (planKey (row.get detail.groupBy)).toOption = some plan).map detail.exportRow := by
  rw [List.filter_map]
  refine congrArg _ (List.filter_congr fun row hrow => ?_)
  obtain ⟨own, hown⟩ := hplans row hrow
  show (detail.exportRow row).isOf plan = _
  rw [isOf_exportRow hown (hconsistent row hrow), hown]
  simp [Except.toOption]

/-- The rows that are exported for a selection are those with its status. -/
theorem keptRows_eq (hconsistent : ∀ row ∈ detail.rows, detail.Consistent row) {selection : OrderViewSelection}
    (hview : selection.viewId = detail.viewId) :
    detail.keptRows (some selection) = detail.withStatus selection.status detail.rows := by
  rw [keptRows, withStatus]
  by_cases hstatus : selection.status = .all
  · rw [if_neg fun h => h.2 hstatus, if_pos hstatus]
  · rw [if_pos ⟨hview, hstatus⟩, if_neg hstatus]
    refine List.filter_congr fun row hrow => ?_
    rw [(exportStatus_eq_iff _).mpr (hconsistent row hrow).2]
    rfl

/-- The filters on the status and on the plan can be taken in either order. -/
theorem filter_withStatus (detail : OrderDetailData) (status : OrderStatus) (p : CardRow → Bool)
    (rows : List CardRow) : (detail.withStatus status rows).filter p = detail.withStatus status (rows.filter p) := by
  rw [withStatus, withStatus]
  split
  · rfl
  · rw [List.filter_filter, List.filter_filter]
    exact List.filter_congr fun row _ => Bool.and_comm _ _

end OrderDetailData

section

variable {digest : String → String} {capabilityId : String} {summaryRows : List CardRow}
  {summaryColumns : List CardColumn} {details : List OrderDetailData} {maxGroups previewRows : Nat}

/-- The rows of a detail view of an answer that is accepted have plans. -/
theorem Accepted.exists_planKey {summaries : Summaries}
    {indexed : List (OrderDetailData × List (Option String × CardRow))}
    (h : Accepted summaryRows summaryColumns details maxGroups previewRows summaries indexed)
    {detail : OrderDetailData} (hdetail : detail ∈ details) {row : CardRow} (hrow : row ∈ detail.rows) :
    ∃ plan, planKey (row.get detail.groupBy) = .ok plan := by
  obtain ⟨rows, hrows, -⟩ := h.rows_of_mem hdetail
  obtain ⟨entry, -, hentry⟩ := Except.exists_mem_of_mapM hrows hrow
  simp only [detailKey, Except.bind_eq_ok] at hentry
  obtain ⟨-, -, key, hkey, -⟩ := hentry
  exact ⟨key, hkey⟩

/-- **The card and the export agree.** A detail view of an answer that is accepted has all its rows classified alike
exactly where all of them are consistent, and then the export for a selection of the view, filtered by a plan,
has the rows that the view of the plan shows, page by page. -/
theorem card_export_agree {payload : OrderGroups} (hdetails : ∀ detail ∈ details, detail.postInit = .ok ())
    (hbuild : buildOrderGroups digest capabilityId summaryRows summaryColumns details none maxGroups previewRows 1
      = .ok payload) {detail : OrderDetailData} (hdetail : detail ∈ details) :
    ((∀ row ∈ detail.rows, detail.ClassifiedAlike row) ↔ ∀ row ∈ detail.rows, detail.Consistent row)
      ∧ ((∀ row ∈ detail.rows, detail.Consistent row) →
        (∀ plan, ((detail.renderTable none).rows.filter (·.isOf plan))
            = (detail.matching plan .all).map detail.exportRow)
        ∧ ∀ plan status, (∃ summary ∈ summaryRows, planKey (summary.get "plan_code") = .ok plan) →
          status = .all ∨ detail.statusColumn.isSome = true →
          ∀ pageSize number, 1 ≤ pageSize → pageSize ≤ pageSizeLimit → 1 ≤ number → number ≤ pageLimit →
            (detail.renderTable (some (pageSelection detail plan status pageSize number))).rows.filter (·.isOf plan)
                = (detail.matching plan status).map detail.exportRow
              ∧ ∃ table, selectedTable digest capabilityId summaryRows summaryColumns details maxGroups previewRows
                  (pageSelection detail plan status pageSize number) = some table
                ∧ table.IsPage (detail.matching plan status) pageSize number) := by
  obtain ⟨summaries, indexed, h⟩ := accepted_of_buildOrderGroups hbuild
  have hplans : ∀ row ∈ detail.rows, ∃ plan, planKey (row.get detail.groupBy) = .ok plan :=
    fun row hrow => h.exists_planKey hdetail hrow
  refine ⟨forall₂_congr fun row hrow => ?_, fun hconsistent => ⟨fun plan => ?_, ?_⟩⟩
  · obtain ⟨plan, hplan⟩ := hplans row hrow
    exact OrderDetailData.classifications_agree_iff hplan
  · exact OrderDetailData.filter_exportRow hplans hconsistent plan
  · intro plan status ⟨summary, hsummary, hkey⟩ hstatus pageSize number hone hsize hfirst hlimit
    constructor
    · show ((detail.keptRows _).map detail.exportRow).filter (·.isOf plan) = _
      have hkept := OrderDetailData.keptRows_eq hconsistent
        (show (pageSelection detail plan status pageSize number).viewId = detail.viewId from rfl)
      have hmem : ∀ row ∈ detail.keptRows (some (pageSelection detail plan status pageSize number)),
          row ∈ detail.rows := by
        intro row hrow
        rw [hkept, OrderDetailData.withStatus] at hrow
        split at hrow
        · exact hrow
        · exact List.mem_of_mem_filter hrow
      rw [OrderDetailData.filter_exportRow (fun row hrow => hplans row (hmem row hrow))
        (fun row hrow => hconsistent row (hmem row hrow)), hkept, OrderDetailData.filter_withStatus]
      rfl
    · have hplan : plan ∈ summaries.map (·.1) := by
        have hmem := h.plans_eq ▸ List.mem_map_of_mem (f := fun row : CardRow => planKey (row.get "plan_code")) hsummary
        obtain ⟨entry, hentry, heq⟩ := List.mem_map.mp hmem
        exact List.mem_map.mpr ⟨entry, hentry, Except.ok.inj (heq.trans hkey)⟩
      have hpages : DetailPages digest capabilityId summaryRows summaryColumns details maxGroups previewRows detail
          plan status := h.detailPages hdetail (hdetails detail hdetail) hplan hstatus
      obtain ⟨-, table, htable, -, -, hpage⟩ := hpages.page_eq pageSize number hone hsize hfirst hlimit
      exact ⟨table, htable, hpage⟩

/-- The export and the view of a plan, a finished row of it and one of no plan. -/
theorem card_export_agree_sample :
    let detail := sheetsDetail
      [[("plan_code", .text "P1"), ("plan_missing", .boolean false), ("sheet", .text "S1"),
          ("work_status", .text "已完工")],
        [("plan_code", .null), ("plan_missing", .boolean true), ("sheet", .text "S2"),
          ("work_status", .text "已完工")]]
    (detail.renderTable (some (pageSelection detail (some "P1") .finished 10 1))).rows.filter (·.isOf (some "P1"))
      = (detail.matching (some "P1") .finished).map detail.exportRow := by
  intro detail
  have hok : (buildOrderGroups id "orders" [[("plan_code", .text "P1")], [("plan_code", .null)]] [] [detail] none 1 1
      1).isOk = true := by decide +kernel
  obtain ⟨payload, hbuild⟩ := Except.exists_eq_ok_of_isOk hok
  have h := card_export_agree (by decide +kernel) hbuild List.mem_cons_self
  exact ((h.2 (by decide +kernel)).2 (some "P1") .finished (by decide +kernel) (.inr rfl) 10 1 (by decide) (by decide)
    (by decide) (by decide)).1

/-- **A row that is flagged as without a plan and has one** is exported as linked to no plan, and shown with its
plan. -/
theorem card_export_disagree :
    let row : CardRow := [("plan_code", .text "P1"), ("plan_missing", .boolean true), ("sheet", .text "S1"),
      ("work_status", .text "已完工")]
    let detail := sheetsDetail [row]
    (buildOrderGroups id "orders" [[("plan_code", .text "P1")]] [] [detail] none 1 1 1).isOk = true
      ∧ detail.isUnlinked row = true ∧ planKey (row.get detail.groupBy) = .ok (some "P1")
      ∧ (detail.renderTable none).rows.filter (·.isOf (some "P1")) = []
      ∧ (selectedTable id "orders" [[("plan_code", .text "P1")]] [] [detail] 1 1
          (pageSelection detail (some "P1") .all 10 1)).map (·.rows)
        = some [[some "S1", some "已完工"]] := by
  decide +kernel

end

end Card
