import FactoryAgent.Card.OrderViews
import FactoryAgent.Lib.Except
import FactoryAgent.Lib.Keys
import FactoryAgent.Lib.OffsetPages

/-!
# Paging the order views

The groups of an order answer come in pages, and so do the rows of each detail view of a group, under each filter
on their completion status. Both are pages of a list by offset (`buildOrderGroups_page`, `detailPayload_isPage`),
so following them gives the list. The lists themselves split what is to be shown: every row of a detail view is in
one group (`perm_matching_plans`) and has one completion status (`perm_withStatus`).
-/

namespace Card

section

variable (digest : String → String) (capabilityId : String) (summaryRows : List CardRow)
  (summaryColumns : List CardColumn) (details : List OrderDetailData)

/-! ## What is read -/

/-- **The rows of a detail view that a view of a plan shows** under a filter. -/
def OrderDetailData.matching (detail : OrderDetailData) (planCode : Option String) (status : OrderStatus) :
    List CardRow :=
  detail.withStatus status (detail.rows.filter fun row => (planKey (row.get detail.groupBy)).toOption = some planCode)

/-- The columns of a detail view that are shown for a plan. -/
def OrderDetailData.columnsOf (detail : OrderDetailData) (planCode : Option String) : List CardColumn :=
  detail.visibleColumns.filter (isAvailable (detail.matching planCode .all))

/-- **The selection of a page** of a detail view of a plan. -/
def pageSelection (detail : OrderDetailData) (planCode : Option String) (status : OrderStatus)
    (pageSize number : Nat) : OrderViewSelection :=
  ⟨detail.viewId, groupKind planCode, planCode, number, pageSize, status, none⟩

/-- The groups of a page, and whether there is more. -/
def readGroups (maxGroups previewRows number : Nat) : Option (List OrderGroup × Bool) :=
  (buildOrderGroups digest capabilityId summaryRows summaryColumns details none maxGroups previewRows
    number).toOption.map fun payload => (payload.groups, payload.hasMore)

/-- The table that a selection gets. -/
def selectedTable (maxGroups previewRows : Nat) (selection : OrderViewSelection) : Option OrderTable :=
  (buildOrderGroups digest capabilityId summaryRows summaryColumns details (some selection) maxGroups previewRows
    1).toOption.bind fun payload => (payload.groups.head?.bind fun group => group.views.head?).map (·.table)

/-- The rows of a page of a detail view, and whether there is more. -/
def readDetail (maxGroups previewRows : Nat) (detail : OrderDetailData) (planCode : Option String)
    (status : OrderStatus) (pageSize number : Nat) : Option (List (List (Option String)) × Bool) :=
  (selectedTable digest capabilityId summaryRows summaryColumns details maxGroups previewRows
    (pageSelection detail planCode status pageSize number)).map fun table => (table.rows, table.hasMore)

end

/-- **A table that is a page** of some rows. -/
structure OrderTable.IsPage (table : OrderTable) (rows : List CardRow) (pageSize number : Nat) : Prop where
  rows_eq : table.rows = (OffsetPages.page pageSize number rows).map (rowCells table.columns)
  hasMore_iff : table.hasMore = true ↔ OffsetPages.page pageSize (number + 1) rows ≠ []
  filteredTotalRows_eq : table.filteredTotalRows = rows.length

/-! ## Statuses and plans -/

/-- **Every row has one completion status**: the filters split the rows. -/
theorem perm_withStatus (detail : OrderDetailData) (rows : List CardRow) :
    (detail.withStatus .finished rows ++ detail.withStatus .unfinished rows
      ++ detail.withStatus .unavailable rows).Perm rows := by
  have hperm := Keys.perm_flatMap_filter (fun row => statusOf (row.get (detail.statusColumn.getD "")))
    [.finished, .unfinished, .unavailable] (by decide) (l := rows) (by
      intro row _
      unfold statusOf
      split
      · exact List.mem_cons_self
      · split
        · exact List.mem_cons_of_mem _ List.mem_cons_self
        · exact List.mem_cons_of_mem _ (List.mem_cons_of_mem _ List.mem_cons_self))
  simpa [OrderDetailData.withStatus] using hperm

/-- **The rows of a detail view are those of the plans**, where each of them is of one of the plans. -/
theorem perm_matching_plans (detail : OrderDetailData) {plans : List (Option String)} (hplans : plans.Nodup)
    (h : ∀ row ∈ detail.rows, ∃ plan ∈ plans, planKey (row.get detail.groupBy) = .ok plan) :
    (plans.flatMap fun plan => detail.matching plan .all).Perm detail.rows := by
  have hperm := Keys.perm_flatMap_filter (fun row => (planKey (row.get detail.groupBy)).toOption)
    (plans.map some) (hplans.map fun _ _ => Option.some.inj) (l := detail.rows) (by
      intro row hrow
      obtain ⟨plan, hplan, hkey⟩ := h row hrow
      exact List.mem_map.mpr ⟨plan, hplan, by rw [hkey]; rfl⟩)
  rw [List.flatMap_map] at hperm
  exact hperm

/-! ## What the builder has checked -/

/-- **The summary of an answer that is accepted**: a row for each plan, in order. -/
theorem summaries_of_foldlM {summaryRows : List CardRow} {start summaries : Summaries}
    (hstart : (start.map (·.1)).Nodup) (h : summaryRows.foldlM addSummary start = .ok summaries) :
    summaries.map (fun entry => (Except.ok entry.1 : Except String (Option String)))
        = start.map (fun entry => .ok entry.1) ++ summaryRows.map (fun row => planKey (row.get "plan_code"))
      ∧ (summaries.map (·.1)).Nodup := by
  induction summaryRows generalizing start with
  | nil =>
    cases h
    exact ⟨(List.append_nil _).symm, hstart⟩
  | cons row rows ih =>
    rw [List.foldlM_cons, Except.bind_eq_ok] at h
    obtain ⟨next, hnext, hrest⟩ := h
    simp only [addSummary, Except.bind_eq_ok, Except.pure_eq_ok] at hnext
    obtain ⟨_, -, key, hkey, _, hfresh, rfl⟩ := hnext
    rw [Checks.require_eq_ok] at hfresh
    have hnodup : ((start ++ [(key, row)]).map (·.1)).Nodup := by
      rw [List.map_append, List.nodup_append]
      refine ⟨hstart, List.nodup_singleton _, fun a ha b hb => ?_⟩
      rw [List.map_singleton, List.mem_singleton] at hb
      subst hb
      exact fun heq => hfresh (heq ▸ ha)
    obtain ⟨hkeys, hfinal⟩ := ih hnodup hrest
    refine ⟨?_, hfinal⟩
    rw [hkeys, List.map_append, List.append_assoc, List.map_cons, List.map_cons, hkey]
    rfl

/-- **The rows of a detail view that is accepted**: those of a plan are the ones that match it. -/
theorem rowsOfPlan_of_indexedRows {detail : OrderDetailData} {indexed : List (Option String × CardRow)}
    (h : indexedRows detail = .ok indexed) (planCode : Option String) :
    rowsOfPlan planCode indexed = detail.matching planCode .all := by
  have hkey : ∀ row ∈ detail.rows, ∀ entry, detailKey detail row = .ok entry →
      (some entry.1, entry.2) = ((planKey (row.get detail.groupBy)).toOption, row) := by
    intro row _ entry hentry
    simp only [detailKey, Except.bind_eq_ok, Except.pure_eq_ok] at hentry
    obtain ⟨_, -, key, hkey, rfl⟩ := hentry
    rw [hkey]
    rfl
  have hmap := Except.map_of_mapM (g := fun entry => (some entry.1, entry.2)) hkey h
  calc rowsOfPlan planCode indexed
      = ((indexed.map fun entry => (some entry.1, entry.2)).filter fun entry => entry.1 = some planCode).map
          (·.2) := by
        rw [rowsOfPlan, List.filter_map, List.map_map]
        simp only [Function.comp_def, Option.some.injEq]
    _ = _ := by
        rw [hmap, List.filter_map, List.map_map]
        exact List.map_id _

/-- The group of a row of the summary, where no two columns have one name. -/
def groupOf (digest : String → String) (capabilityId : String) (summaryColumns : List CardColumn)
    (indexed : List (OrderDetailData × List (Option String × CardRow))) (selection : Option OrderViewSelection)
    (previewRows : Nat) (expanded : Bool) (entry : Option String × CardRow) : OrderGroup :=
  let columns := summaryColumns.filter fun column => !summaryHidden.contains column.name
  { id := groupId digest entry.1, name := groupName entry.1 entry.2, kind := groupKind entry.1, planCode := entry.1,
    summary := (columns.map columnPayload).zip (rowCells columns entry.2),
    stateCounts := stateCounts entry.2 summaryColumns, defaultExpanded := expanded,
    views := indexed.map fun item =>
      detailPayload capabilityId item.1 entry.1 selection previewRows (rowsOfPlan entry.1 item.2) }

/-- Whether the columns of the summary that are shown have names of their own. -/
def DistinctColumns (summaryColumns : List CardColumn) : Prop :=
  ((summaryColumns.filter fun column => !summaryHidden.contains column.name).map (·.name)).Nodup

instance (summaryColumns : List CardColumn) : Decidable (DistinctColumns summaryColumns) :=
  inferInstanceAs (Decidable (List.Nodup _))

section

variable {digest : String → String} {capabilityId : String} {summaryRows : List CardRow}
  {summaryColumns : List CardColumn} {details : List OrderDetailData}

/-- A group is built where the columns are distinct, and only there. -/
theorem orderGroup_eq_ok {indexed : List (OrderDetailData × List (Option String × CardRow))}
    {selection : Option OrderViewSelection} {previewRows : Nat} {expanded : Bool}
    {entry : Option String × CardRow} {group : OrderGroup} :
    orderGroup digest capabilityId summaryColumns indexed selection previewRows expanded entry = .ok group
      ↔ DistinctColumns summaryColumns
        ∧ groupOf digest capabilityId summaryColumns indexed selection previewRows expanded entry = group := by
  simp only [orderGroup, summaryPayload, Except.bind_eq_ok, Except.pure_eq_ok]
  constructor
  · rintro ⟨_, ⟨_, hdistinct, rfl⟩, rfl⟩
    exact ⟨Checks.require_eq_ok.mp hdistinct, rfl⟩
  · rintro ⟨hdistinct, rfl⟩
    exact ⟨_, ⟨(), Checks.require_eq_ok.mpr hdistinct, rfl⟩, rfl⟩

/-- **What is known of an answer that is accepted**: its summary, its detail views with their plans, and its
columns. -/
structure Accepted (summaryRows : List CardRow) (summaryColumns : List CardColumn) (details : List OrderDetailData)
    (maxGroups previewRows : Nat) (summaries : Summaries)
    (indexed : List (OrderDetailData × List (Option String × CardRow))) : Prop where
  maxGroups_pos : 1 ≤ maxGroups ∧ maxGroups ≤ groupLimit
  previewRows_pos : 1 ≤ previewRows ∧ previewRows ≤ pageSizeLimit
  views : (details.map (·.viewId)).Nodup
  summaries_eq : summaryRows.foldlM addSummary [] = .ok summaries
  indexed_eq : details.mapM (fun detail => (indexedRows detail).map fun rows => (detail, rows)) = .ok indexed
  columns : summaries = [] ∨ DistinctColumns summaryColumns

/-- The first page of the groups tells that an answer is accepted. -/
theorem accepted_of_buildOrderGroups {maxGroups previewRows : Nat} {payload : OrderGroups}
    (h : buildOrderGroups digest capabilityId summaryRows summaryColumns details none maxGroups previewRows 1
      = .ok payload) :
    ∃ summaries indexed, Accepted summaryRows summaryColumns details maxGroups previewRows summaries indexed := by
  simp only [buildOrderGroups, validateInteger, keptGroups, Except.bind_eq_ok, Except.pure_eq_ok] at h
  obtain ⟨_, hmax, _, hpreview, _, -, _, -, _, hviews, summaries, hsummaries, _, hkept, h⟩ := h
  cases hkept
  obtain ⟨indexed, hindexed, groups, hgroups, -⟩ := h
  rw [Checks.require_eq_ok] at hmax hpreview hviews
  refine ⟨summaries, indexed, hmax, hpreview, hviews, hsummaries, hindexed, ?_⟩
  cases summaries with
  | nil => exact .inl rfl
  | cons entry rest =>
    have hmem : entry ∈ ((entry :: rest).drop ((1 - 1) * maxGroups)).take maxGroups := by
      obtain ⟨more, hmore⟩ := Nat.exists_eq_add_of_le' hmax.1
      rw [Nat.sub_self, Nat.zero_mul, List.drop_zero, hmore, List.take_succ_cons]
      exact List.mem_cons_self
    obtain ⟨group, -, hgroup⟩ := Except.exists_mem_of_mapM hgroups hmem
    exact .inr (orderGroup_eq_ok.mp hgroup).1

/-- **All groups of an answer.** -/
def allGroups (digest : String → String) (capabilityId : String) (summaryColumns : List CardColumn)
    (previewRows : Nat) (summaries : Summaries)
    (indexed : List (OrderDetailData × List (Option String × CardRow))) : List OrderGroup :=
  summaries.map (groupOf digest capabilityId summaryColumns indexed none previewRows (summaries.length == 1))

/-- **A page of the groups** is a page of all of them. -/
theorem buildOrderGroups_page {maxGroups previewRows : Nat} {summaries : Summaries}
    {indexed : List (OrderDetailData × List (Option String × CardRow))}
    (h : Accepted summaryRows summaryColumns details maxGroups previewRows summaries indexed) {number : Nat}
    (hnumber : 1 ≤ number ∧ number ≤ pageLimit) :
    buildOrderGroups digest capabilityId summaryRows summaryColumns details none maxGroups previewRows number
      = .ok {
        groupsTotal := summaries.length, page := number, pageSize := maxGroups
        hasMore := OffsetPages.hasMore maxGroups number
          (allGroups digest capabilityId summaryColumns previewRows summaries indexed)
        groups := OffsetPages.page maxGroups number
          (allGroups digest capabilityId summaryColumns previewRows summaries indexed) } := by
  simp only [buildOrderGroups, validateInteger, keptGroups, Except.bind_eq_ok, Except.pure_eq_ok]
  refine ⟨(), Checks.require_eq_ok.mpr h.maxGroups_pos, (), Checks.require_eq_ok.mpr h.previewRows_pos, (),
    Checks.require_eq_ok.mpr hnumber, (), Checks.require_eq_ok.mpr fun hsome => (by cases hsome), (),
    Checks.require_eq_ok.mpr h.views, summaries, h.summaries_eq, _, rfl, indexed, h.indexed_eq,
    OffsetPages.page maxGroups number (allGroups digest capabilityId summaryColumns previewRows summaries indexed),
    ?_, ?_⟩
  · rw [OffsetPages.page, allGroups, ← List.map_drop, ← List.map_take]
    refine Except.mapM_eq_map fun entry hentry => orderGroup_eq_ok.mpr ⟨?_, rfl⟩
    rcases h.columns with rfl | hdistinct
    · simp at hentry
    · exact hdistinct
  · congr 1
    rw [OffsetPages.hasMore, OffsetPages.page, allGroups, List.length_map, ← List.map_drop, ← List.map_take,
      List.length_map]
    rfl

end

/-! ## The detail views -/

/-- **A view shows a page** of the rows that match, of the page and the filter that the selection asks for, or the
first rows without a selection. -/
theorem detailPayload_isPage (capabilityId : String) (detail : OrderDetailData) (planCode : Option String)
    (selection : Option OrderViewSelection) {previewRows : Nat} (hsize : 1 ≤ selection.elim previewRows (·.pageSize))
    (hpage : 1 ≤ selection.elim 1 (·.page)) (groupRows : List CardRow) :
    (detailPayload capabilityId detail planCode selection previewRows groupRows).table.IsPage
      (detail.withStatus (selection.elim .all (·.status)) groupRows) (selection.elim previewRows (·.pageSize))
      (selection.elim 1 (·.page)) where
  rows_eq := rfl
  hasMore_iff := OffsetPages.hasMore_iff_page hsize hpage _
  filteredTotalRows_eq := rfl

/-- Filtering the rows of a plan by their status. -/
theorem OrderDetailData.withStatus_matching (detail : OrderDetailData) (planCode : Option String)
    (status : OrderStatus) : detail.withStatus status (detail.matching planCode .all) = detail.matching planCode status :=
  rfl

section

variable {digest : String → String} {capabilityId : String} {summaryRows : List CardRow}
  {summaryColumns : List CardColumn} {details : List OrderDetailData} {maxGroups previewRows : Nat}
  {summaries : Summaries} {indexed : List (OrderDetailData × List (Option String × CardRow))}

/-- The plans of the groups are distinct. -/
theorem Accepted.plans_nodup (h : Accepted summaryRows summaryColumns details maxGroups previewRows summaries indexed) :
    (summaries.map (·.1)).Nodup :=
  (summaries_of_foldlM (show (([] : Summaries).map (·.1)).Nodup from List.nodup_nil) h.summaries_eq).2

/-- The plans of the groups are those of the rows of the summary, in order. -/
theorem Accepted.plans_eq (h : Accepted summaryRows summaryColumns details maxGroups previewRows summaries indexed) :
    summaries.map (fun entry => (Except.ok entry.1 : Except String (Option String)))
      = summaryRows.map fun row => planKey (row.get "plan_code") := by
  have hkeys := (summaries_of_foldlM (show (([] : Summaries).map (·.1)).Nodup from List.nodup_nil) h.summaries_eq).1
  rwa [List.map_nil, List.nil_append] at hkeys

/-- The rows of a detail view, with their plans. -/
theorem Accepted.rows_of_mem (h : Accepted summaryRows summaryColumns details maxGroups previewRows summaries indexed)
    {detail : OrderDetailData} (hdetail : detail ∈ details) :
    ∃ rows, indexedRows detail = .ok rows ∧ (detail, rows) ∈ indexed := by
  obtain ⟨item, hitem, hok⟩ := Except.exists_mem_of_mapM h.indexed_eq hdetail
  cases hrows : indexedRows detail with
  | error message => rw [hrows] at hok; cases hok
  | ok rows =>
    rw [hrows] at hok
    cases hok
    exact ⟨rows, rfl, hitem⟩

/-- **What a selection of the answer asks for is there.** -/
theorem Accepted.selected_eq
    (h : Accepted summaryRows summaryColumns details maxGroups previewRows summaries indexed)
    {entry : Option String × CardRow} (hentry : entry ∈ summaries) {detail : OrderDetailData}
    (hdetail : detail ∈ details) {status : OrderStatus} (hstatus : status = .all ∨ detail.statusColumn.isSome = true)
    (pageSize number : Nat) :
    selected summaries details (pageSelection detail entry.1 status pageSize number) = .ok ([entry], [detail]) := by
  have hkey : (pageSelection detail entry.1 status pageSize number).selectedKey = entry.1 := by
    rcases entry with ⟨_ | plan, row⟩
    · rfl
    · rfl
  have hview : details.find? (fun other => other.viewId == detail.viewId) = some detail := by
    simpa only [← beq_eq_decide] using Keys.find?_eq_some h.views hdetail
  have hguard : ¬(status ≠ .all ∧ detail.statusColumn = none) := by
    rintro ⟨hne, hnone⟩
    rw [hnone] at hstatus
    exact hstatus.elim hne (fun hsome => by cases hsome)
  rw [selected, hkey, Keys.find?_eq_some h.plans_nodup hentry]
  dsimp only [pageSelection]
  rw [hview]
  exact if_neg hguard

/-- **A selection gets the page of the rows that match.** -/
theorem Accepted.selectedTable_eq
    (h : Accepted summaryRows summaryColumns details maxGroups previewRows summaries indexed)
    {entry : Option String × CardRow} (hentry : entry ∈ summaries) {detail : OrderDetailData}
    (hdetail : detail ∈ details) {status : OrderStatus} (hstatus : status = .all ∨ detail.statusColumn.isSome = true)
    (pageSize number : Nat) :
    selectedTable digest capabilityId summaryRows summaryColumns details maxGroups previewRows
        (pageSelection detail entry.1 status pageSize number)
      = some (detailPayload capabilityId detail entry.1 (some (pageSelection detail entry.1 status pageSize number))
        previewRows (detail.matching entry.1 .all)).table := by
  obtain ⟨rows, hrows, -⟩ := h.rows_of_mem hdetail
  have hdistinct : DistinctColumns summaryColumns :=
    h.columns.resolve_left fun hnil => absurd (hnil ▸ hentry) List.not_mem_nil
  have hbuild : buildOrderGroups digest capabilityId summaryRows summaryColumns details
      (some (pageSelection detail entry.1 status pageSize number)) maxGroups previewRows 1
      = .ok {
        groupsTotal := summaries.length, page := 1, pageSize := maxGroups, hasMore := false
        groups := [groupOf digest capabilityId summaryColumns [(detail, rows)]
          (some (pageSelection detail entry.1 status pageSize number)) previewRows (summaries.length == 1) entry] } := by
    simp only [buildOrderGroups, validateInteger, keptGroups, Except.bind_eq_ok, Except.pure_eq_ok]
    refine ⟨(), Checks.require_eq_ok.mpr h.maxGroups_pos, (), Checks.require_eq_ok.mpr h.previewRows_pos, (),
      Checks.require_eq_ok.mpr (by decide), (), Checks.require_eq_ok.mpr fun _ => trivial, (),
      Checks.require_eq_ok.mpr h.views, summaries, h.summaries_eq, _, h.selected_eq hentry hdetail hstatus _ _,
      [(detail, rows)], ?_, _, Except.mapM_eq_map fun other _ => orderGroup_eq_ok.mpr ⟨hdistinct, rfl⟩, rfl⟩
    exact Except.mapM_eq_map (g := fun detail => (detail, rows)) fun other hother => by
      rw [List.mem_singleton.mp hother, hrows]
      rfl
  rw [selectedTable, hbuild, ← rowsOfPlan_of_indexedRows hrows]
  rfl

end

/-! ## Paging -/

section

variable (digest : String → String) (capabilityId : String) (summaryRows : List CardRow)
  (summaryColumns : List CardColumn) (details : List OrderDetailData) (maxGroups previewRows : Nat)

/-- **The pages of the groups are the groups**: one of each plan of the summary, in order. Each page can be read,
says truly whether the next one has a group, and counts them all; the views that come with a group are the first
pages of its detail views. -/
structure GroupPages (groups : List OrderGroup) : Prop where
  plans_eq : groups.map (fun group => Except.ok group.planCode)
    = summaryRows.map fun row => planKey (row.get "plan_code")
  plans_nodup : (groups.map (·.planCode)).Nodup
  page_eq : ∀ number, 1 ≤ number → number ≤ pageLimit →
    ∃ payload, buildOrderGroups digest capabilityId summaryRows summaryColumns details none maxGroups previewRows
        number = .ok payload
      ∧ payload.groups = OffsetPages.page maxGroups number groups
      ∧ (payload.hasMore = true ↔ OffsetPages.page maxGroups (number + 1) groups ≠ [])
      ∧ payload.groupsTotal = groups.length
  follow_eq : ∀ last, 1 ≤ last → last ≤ pageLimit → groups.length ≤ last * maxGroups →
    OffsetPages.follow (readGroups digest capabilityId summaryRows summaryColumns details maxGroups previewRows)
      last 1 = some groups
  previews : ∀ group ∈ groups, group.views.map (·.viewId) = details.map (·.viewId)
    ∧ ∀ view ∈ group.views, ∃ detail ∈ details, view.viewId = detail.viewId
      ∧ view.table.totalRows = (detail.matching group.planCode .all).length
      ∧ view.table.IsPage (detail.matching group.planCode .all) previewRows 1

/-- **The pages of a detail view of a plan are its rows** under a filter: each can be selected, says truly whether
the next one has a row, and counts the rows with and without the filter. -/
structure DetailPages (detail : OrderDetailData) (plan : Option String) (status : OrderStatus) : Prop where
  page_eq : ∀ pageSize number, 1 ≤ pageSize → pageSize ≤ pageSizeLimit → 1 ≤ number → number ≤ pageLimit →
    (pageSelection detail plan status pageSize number).postInit = .ok ()
      ∧ ∃ table, selectedTable digest capabilityId summaryRows summaryColumns details maxGroups previewRows
          (pageSelection detail plan status pageSize number) = some table
        ∧ table.columns = detail.columnsOf plan
        ∧ table.totalRows = (detail.matching plan .all).length
        ∧ table.IsPage (detail.matching plan status) pageSize number
  follow_eq : ∀ pageSize last, 1 ≤ pageSize → pageSize ≤ pageSizeLimit → 1 ≤ last → last ≤ pageLimit →
    (detail.matching plan status).length ≤ last * pageSize →
    OffsetPages.follow (readDetail digest capabilityId summaryRows summaryColumns details maxGroups previewRows detail
      plan status pageSize) last 1
      = some ((detail.matching plan status).map (rowCells (detail.columnsOf plan)))

end

section

variable {digest : String → String} {capabilityId : String} {summaryRows : List CardRow}
  {summaryColumns : List CardColumn} {details : List OrderDetailData} {maxGroups previewRows : Nat}
  {summaries : Summaries} {indexed : List (OrderDetailData × List (Option String × CardRow))}

/-- The plans of all groups are those of the summary. -/
theorem allGroups_plans :
    (allGroups digest capabilityId summaryColumns previewRows summaries indexed).map (·.planCode)
      = summaries.map (·.1) := by
  rw [allGroups, List.map_map]
  rfl

/-- The detail views with their plans, where they are accepted. -/
theorem Accepted.indexed_spec
    (h : Accepted summaryRows summaryColumns details maxGroups previewRows summaries indexed) :
    indexed.map (·.1) = details ∧ ∀ item ∈ indexed, indexedRows item.1 = .ok item.2 := by
  have hitem : ∀ detail ∈ details, ∀ item,
      (indexedRows detail).map (fun rows => (detail, rows)) = .ok item →
        item.1 = detail ∧ indexedRows detail = .ok item.2 := by
    intro detail _ item hok
    cases hrows : indexedRows detail with
    | error message => rw [hrows] at hok; cases hok
    | ok rows =>
      rw [hrows] at hok
      cases hok
      exact ⟨rfl, rfl⟩
  constructor
  · have hmap := Except.map_of_mapM (g := fun item => item.1) (h := fun detail => detail)
      (fun detail hdetail item hok => (hitem detail hdetail item hok).1) h.indexed_eq
    rw [hmap, List.map_id']
  · intro item hmem
    obtain ⟨detail, hdetail, hok⟩ := Except.exists_of_mem_mapM h.indexed_eq hmem
    obtain ⟨rfl, hrows⟩ := hitem detail hdetail item hok
    exact hrows

/-- The pages of the groups of an answer that is accepted. -/
theorem Accepted.groupPages
    (h : Accepted summaryRows summaryColumns details maxGroups previewRows summaries indexed) :
    GroupPages digest capabilityId summaryRows summaryColumns details maxGroups previewRows
      (allGroups digest capabilityId summaryColumns previewRows summaries indexed) where
  plans_eq := by
    rw [← h.plans_eq, allGroups, List.map_map]
    rfl
  plans_nodup := by
    rw [allGroups_plans]
    exact h.plans_nodup
  page_eq number hone hlimit :=
    ⟨_, buildOrderGroups_page h ⟨hone, hlimit⟩, rfl,
      OffsetPages.hasMore_iff_page h.maxGroups_pos.1 hone _, by rw [allGroups, List.length_map]⟩
  follow_eq last hlast hlimit hlength :=
    OffsetPages.follow_eq hlast hlength fun number hone hle => by
      rw [readGroups, buildOrderGroups_page h ⟨hone, hle.trans hlimit⟩]
      rfl
  previews group hgroup := by
    obtain ⟨entry, -, rfl⟩ := List.mem_map.mp hgroup
    constructor
    · rw [← h.indexed_spec.1, List.map_map]
      show (indexed.map _).map _ = _
      rw [List.map_map]
      rfl
    · intro view hview
      obtain ⟨item, hitem, rfl⟩ := List.mem_map.mp hview
      have hrows := rowsOfPlan_of_indexedRows (h.indexed_spec.2 item hitem) entry.1
      refine ⟨item.1, h.indexed_spec.1 ▸ List.mem_map_of_mem hitem, rfl, ?_, ?_⟩
      · rw [hrows]
        rfl
      · rw [hrows]
        exact detailPayload_isPage capabilityId item.1 entry.1 none h.previewRows_pos.1 (Nat.le_refl 1) _

/-- A plan that a row has is not blank. -/
theorem isBlank_of_planKey {value : CardValue} {code : String} (h : planKey value = .ok (some code)) :
    isBlank code = false := by
  cases value with
  | text text =>
    rw [planKey, Except.ok.injEq] at h
    split at h
    · cases h
    · rename_i hblank
      cases h
      exact Bool.eq_false_iff.mpr hblank
  | null => cases h
  | decimal _ _ _ => cases h
  | integer _ => cases h
  | boolean _ => cases h
  | day _ => cases h
  | other _ => cases h

/-- **The selection of a page is one that can be made**, within the limits. -/
theorem pageSelection_postInit {detail : OrderDetailData} (hdetail : detail.postInit = .ok ()) {value : CardValue}
    {plan : Option String} (hplan : planKey value = .ok plan) (status : OrderStatus) {pageSize number : Nat}
    (hsize : 1 ≤ pageSize ∧ pageSize ≤ pageSizeLimit) (hnumber : 1 ≤ number ∧ number ≤ pageLimit) :
    (pageSelection detail plan status pageSize number).postInit = .ok () := by
  have hview : validateIdentifier detail.viewId = .ok () := by
    rw [OrderDetailData.postInit, Checks.then_eq_ok] at hdetail
    exact hdetail.1
  simp only [OrderViewSelection.postInit, validateInteger, Checks.then_eq_ok, Checks.require_eq_ok]
  refine ⟨hview, ?_, ?_, hnumber, hsize, rfl⟩
  · intro hkind
    cases plan with
    | none => cases hkind
    | some code =>
      show (!isBlank code) = true
      rw [isBlank_of_planKey hplan]
      rfl
  · intro hkind
    cases plan with
    | none => rfl
    | some code => cases hkind

/-- The pages of a detail view of an answer that is accepted. -/
theorem Accepted.detailPages
    (h : Accepted summaryRows summaryColumns details maxGroups previewRows summaries indexed)
    {detail : OrderDetailData} (hdetail : detail ∈ details) (hpost : detail.postInit = .ok ())
    {plan : Option String} (hplan : plan ∈ summaries.map (·.1)) {status : OrderStatus}
    (hstatus : status = .all ∨ detail.statusColumn.isSome = true) :
    DetailPages digest capabilityId summaryRows summaryColumns details maxGroups previewRows detail plan status := by
  obtain ⟨entry, hentry, rfl⟩ := List.mem_map.mp hplan
  obtain ⟨row, -, hrow⟩ := List.mem_map.mp (h.plans_eq ▸ List.mem_map_of_mem hentry)
  refine ⟨fun pageSize number hone hsize hfirst hlimit => ?_, fun pageSize last hone hsize hlast hlimit hlength => ?_⟩
  · refine ⟨pageSelection_postInit hpost hrow status ⟨hone, hsize⟩ ⟨hfirst, hlimit⟩, _,
      h.selectedTable_eq hentry hdetail hstatus pageSize number, rfl, rfl, ?_⟩
    exact detailPayload_isPage capabilityId detail entry.1
      (some (pageSelection detail entry.1 status pageSize number)) hone hfirst _
  · refine OffsetPages.follow_eq hlast (by rw [List.length_map]; exact hlength) fun number _ _ => ?_
    rw [readDetail, h.selectedTable_eq hentry hdetail hstatus pageSize number]
    have hpage : ∀ items : List CardRow,
        (OffsetPages.page pageSize number items).map (rowCells (detail.columnsOf entry.1))
          = OffsetPages.page pageSize number (items.map (rowCells (detail.columnsOf entry.1))) := by
      intro items
      rw [OffsetPages.page, OffsetPages.page, List.map_take, List.map_drop]
    have hmore : ∀ items : List CardRow, OffsetPages.hasMore pageSize number items
        = OffsetPages.hasMore pageSize number (items.map (rowCells (detail.columnsOf entry.1))) := by
      intro items
      rw [OffsetPages.hasMore, OffsetPages.hasMore, ← hpage, List.length_map, List.length_map]
    rw [← hpage, ← hmore]
    rfl

/-- **The pages of the order views partition what they show.** Of an answer that is accepted, where every row of a
detail view is of a plan of the summary, the pages of the groups are the groups, one of each plan; each row of a
detail view matches one plan, and, by its completion status, one of the filters; and the pages of a detail view
of a plan, under each filter that it has, are the rows that match. -/
theorem order_view_pages_partition {payload : OrderGroups}
    (hdetails : ∀ detail ∈ details, detail.postInit = .ok ())
    (hbuild : buildOrderGroups digest capabilityId summaryRows summaryColumns details none maxGroups previewRows 1
      = .ok payload)
    (hkeys : ∀ detail ∈ details, ∀ row ∈ detail.rows, ∃ summary ∈ summaryRows,
      planKey (row.get detail.groupBy) = planKey (summary.get "plan_code")) :
    ∃ groups, GroupPages digest capabilityId summaryRows summaryColumns details maxGroups previewRows groups
      ∧ ∀ detail ∈ details,
        ((groups.map (·.planCode)).flatMap fun plan => detail.matching plan .all).Perm detail.rows
        ∧ ∀ plan ∈ groups.map (·.planCode),
          (detail.matching plan .all).Sublist detail.rows
          ∧ (∀ status, (detail.matching plan status).Sublist (detail.matching plan .all))
          ∧ (detail.matching plan .finished ++ detail.matching plan .unfinished
              ++ detail.matching plan .unavailable).Perm (detail.matching plan .all)
          ∧ ∀ status, status = .all ∨ detail.statusColumn.isSome = true →
            DetailPages digest capabilityId summaryRows summaryColumns details maxGroups previewRows detail plan
              status := by
  obtain ⟨summaries, indexed, h⟩ := accepted_of_buildOrderGroups hbuild
  refine ⟨_, h.groupPages, fun detail hdetail => ?_⟩
  rw [allGroups_plans]
  refine ⟨perm_matching_plans detail h.plans_nodup fun row hrow => ?_, fun plan hplan => ⟨List.filter_sublist, ?_,
    perm_withStatus detail _, fun status hstatus => h.detailPages hdetail (hdetails detail hdetail) hplan hstatus⟩⟩
  · obtain ⟨summary, hsummary, hkey⟩ := hkeys detail hdetail row hrow
    have hmem : planKey (summary.get "plan_code")
        ∈ summaries.map fun entry => (Except.ok entry.1 : Except String (Option String)) := by
      rw [h.plans_eq]
      exact List.mem_map_of_mem hsummary
    obtain ⟨entry, hentry, heq⟩ := List.mem_map.mp hmem
    exact ⟨entry.1, List.mem_map_of_mem hentry, hkey.trans heq.symm⟩
  · intro status
    rw [← detail.withStatus_matching plan status, OrderDetailData.withStatus]
    split
    · exact List.Sublist.refl _
    · exact List.filter_sublist

end

/-- An order detail view. -/
def sheetsDetail (rows : List CardRow) : OrderDetailData where
  viewId := "sheets"
  title := "Sheets"
  groupBy := "plan_code"
  columns := [⟨"plan_code", none, none, none⟩, ⟨"plan_missing", none, none, none⟩, ⟨"sheet", none, none, none⟩,
    ⟨"work_status", none, none, none⟩]
  rows
  statusColumn := some "work_status"
  hiddenColumns := []

/-- The pages of an answer of one plan and of what is linked to none, a group and a row a page. -/
theorem order_view_pages_partition_sample :
    let summaryRows : List CardRow := [[("plan_code", .text "P1")], [("plan_code", .null)]]
    let detail := sheetsDetail
      [[("plan_code", .text "P1"), ("plan_missing", .boolean false), ("sheet", .text "S1"),
          ("work_status", .text "已完工")],
        [("plan_code", .text " "), ("plan_missing", .boolean false), ("sheet", .text "S2"), ("work_status", .null)],
        [("plan_code", .text "P1"), ("plan_missing", .boolean false), ("sheet", .text "S3"),
          ("work_status", .text "未完工")]]
    ∃ groups, GroupPages id "orders" summaryRows [] [detail] 1 1 groups
      ∧ ((groups.map (·.planCode)).flatMap fun plan => detail.matching plan .all).Perm detail.rows := by
  intro summaryRows detail
  have hok : (buildOrderGroups id "orders" summaryRows [] [detail] none 1 1 1).isOk = true := by decide +kernel
  obtain ⟨payload, hbuild⟩ := Except.exists_eq_ok_of_isOk hok
  obtain ⟨groups, hgroups, hrows⟩ := order_view_pages_partition (by decide +kernel) hbuild
    (by decide +kernel)
  exact ⟨groups, hgroups, (hrows detail List.mem_cons_self).1⟩

end Card
