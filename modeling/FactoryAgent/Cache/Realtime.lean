import FactoryAgent.Cache.HotCold
import FactoryAgent.Windows.CalendarDates

/-!
# What is fetched when the cache is not used

`_fetch_realtime` of `ResultCacheExecutor`, around the one fetch or the two that it awaits: what the MES is asked for
(`Request.ask`), and what becomes of the rows that it returns (`Request.received`). The progress of grouped questions is
asked for as it is grouped, where the groups still show what the caller may see; anything else is asked for as detail,
and cut and grouped here. Either way a caller who groups nothing is shown only rows that it may see
(`Request.shown_of_received`). `_maybe_write` then says whether the result may be kept for others
(`Request.writeReason`). It may be kept only where nothing was cut from it: the kept rows are all the rows of the fetch
that are dated in the window (`Request.rows_of_writeReason`).
-/

namespace Serving

open LocalTime (Zone)
open Windows (Moment localCalendarDates)

/-- **`ResultCacheMode`** -/
inductive ResultCacheMode where
  | off
  | read
  | readwrite
  | shadow
  deriving DecidableEq, Repr

namespace ResultCacheMode

/-- `reads` -/
def reads (mode : ResultCacheMode) : Bool :=
  mode ≠ .off

/-- `writes` -/
def writes (mode : ResultCacheMode) : Bool :=
  mode = .readwrite || mode = .shadow

/-- `verifies`: whether the MES is asked again for what the cache serves. -/
def verifies (mode : ResultCacheMode) : Bool :=
  mode = .shadow

end ResultCacheMode

/-- **What the MES returned**, a `ResourceFetchResult` that no cache took part in. -/
structure Fetched where
  rows : List Row
  total : Nat
  pagesFetched : Nat
  complete : Bool
  reason : Option String := none
  footer : Option Footer := none
  sourceCallCount : Option Nat := none
  deriving DecidableEq

/-- `_source_call_count` -/
def Fetched.callCount (fetched : Fetched) : Nat :=
  fetched.sourceCallCount.getD 1

/-- **What is asked of the MES**: the filters, and the other parameters. -/
structure Ask where
  filters : NarrowedFilters
  params : Params

/-- **`CacheableRequest`**, with the filters and the parameters of the call. A validator gives `none` for an exception
that is not caught, and refuses where it raises one that is. -/
structure Request where
  filters : NarrowedFilters
  role : Option Role
  operationId : String
  start : Option Moment
  stop : Moment
  params : Params
  allowOwnerSnapshot : Bool := true
  resultValidator : Option (ResourceFetchResult → Option Bool) := none

/-- `cacheable_grain`: the operation, where it is one of those that are cached. -/
def cacheableGrain (operationId : String) : Option Operation :=
  [Operation.payroll, .progress].find? fun operation => operation.id = operationId

/-- **The arithmetic of a realtime answer**, and the zone its days are in. -/
structure Settings where
  context : DecimalContext
  close : Decimal → Decimal → Bool
  zone : Zone

namespace Request

variable (request : Request)

/-- Whether a result has all that the caller needs; `none` is an exception that its validator raised. -/
def validates (result : ResourceFetchResult) : Option Bool :=
  match request.resultValidator with
  | none => some true
  | some validator => validator result

/-- The fields to group by, as a set of texts. -/
def groupFields : List String :=
  match request.params["groupbyFields"]? with
  | none => []
  | some (.sequence fields) => fields
  | some (.text value) => value.toList.map fun c => String.ofList [c]

/-- The dimensions that a group has to show for the filters of the caller. -/
def neededFields : List String :=
  (if (request.filters.effectiveDeptIds request.role).isSome then ["dept"] else [])
    ++ (if request.filters.employeeIds.isSome then ["uid"] else [])
    ++ (if request.filters.orderCodes.isSome then
        [if mentions request.params["groupbyFields"]? "baohao" then "dh" else "jhdh"] else [])
    ++ (if request.filters.styleCodes.isSome then ["bbreed"] else [])
    ++ (if request.filters.planCodes.isSome then ["jhdh"] else [])
    ++ (if request.filters.materialIds.isSome then ["userid"] else [])
    ++ (if request.filters.bedCodes.isSome then ["chuanghao"] else [])

/-- `_native_progress_has_filters` -/
def nativeProgressHasFilters : Bool :=
  decide (request.groupFields = []) || request.neededFields.all fun field => decide (field ∈ request.groupFields)

/-- Whether progress is asked for as it is grouped. -/
def nativeProgress (operation : Operation) (forceDetail : Bool) : Bool :=
  !forceDetail && decide (operation = .progress) && request.nativeProgressHasFilters

/-- **What `_fetch_realtime` asks for.** Progress cannot be asked for by materials; and the orders of a question for
packages are sheets, which the detail is not narrowed to unless there is one. -/
def ask (operation : Operation) (native : Bool) : Ask :=
  let params := if native then request.params else detailParams request.params
  match operation with
  | .payroll => ⟨request.filters, params⟩
  | .progress =>
    let filters := { request.filters with materialIds := none }
    if !native && mentions request.params["groupbyFields"]? "baohao" then
      ⟨{ filters with orderCodes := none },
        match request.filters.orderCodes with
        | some [code] => params.insert "dh" (.text code)
        | _ => params⟩
    else ⟨filters, params⟩

/-- Whether groups lack what the detail has: the date of a sheet, or the bed. -/
def lacksDetail (fetched : Fetched) : Bool :=
  (mentions request.params["groupbyFields"]? "dh" && fetched.rows.any fun row => !(row.cell "rq").truthy)
    || (request.filters.bedCodes.isSome && fetched.rows.any fun row => !row.contains "chuanghao")

/-- The rows of a result are replaced. -/
def narrowed (context : DecimalContext) (fetched : Fetched) (rows : List Row) : Fetched :=
  if rows = fetched.rows then fetched
  else { fetched with rows, total := rows.length, footer := recomputedFooter context rows fetched.footer }

/-- Detail that was fetched is cut and grouped. Totals that do not agree with the detail make the result incomplete. -/
def projected (settings : Settings) (operation : Operation) (window : String × String) (fetched : Fetched) : Fetched :=
  match projectRows settings.context fetched.rows operation request.filters request.role request.params window with
  | .error _ =>
    { fetched with rows := [], total := 0, footer := none, complete := false, reason := some "upstream_invalid" }
  | .ok rows =>
    let cut := { fetched with
      rows, total := rows.length, footer := recomputedFooter settings.context rows fetched.footer }
    if fetched.complete && !footerReconciles settings.context settings.close fetched.rows fetched.footer then
      { cut with complete := false, reason := some "upstream_invalid" }
    else if cut.rows = fetched.rows ∧ cut.total = fetched.total ∧ cut.footer = fetched.footer then fetched
    else cut

/-- The dates that are asked about; `none` where there is no start, or for a raised `OverflowError`. -/
def window? (zone : Zone) : Option (String × String) :=
  request.start.bind fun start => localCalendarDates zone start request.stop

/-- **What becomes of a fetch**: it is not enough, and the detail is fetched as well; or it gives the result; or an
exception is raised. -/
inductive Receipt where
  | again
  | result (fetched : Fetched)
  | raised
  deriving DecidableEq

/-- **`_fetch_realtime`, after its fetch.** -/
def received (settings : Settings) (operation : Operation) (native : Bool) (fetched : Fetched) : Receipt :=
  if native then
    if request.lacksDetail fetched then .again
    else
      match businessFilteredRows (scopeFilteredRows fetched.rows request.filters request.role) operation
          request.filters request.params with
      | .error _ => .raised
      | .ok rows => .result (narrowed settings.context fetched rows)
  else
    match request.window? settings.zone with
    | none => .raised
    | some window => .result (request.projected settings operation window fetched)

/-- **Why `_maybe_write` keeps a result to itself.** -/
def writeReason (mode : ResultCacheMode) (result : Fetched) : Option String :=
  if !mode.writes then some "mode_readonly"
  else if !result.complete then some "incomplete_result"
  else if request.role ≠ some .owner then some "owner_required"
  else if ["groupbyFields", "uid", "Uid"].any fun key => (request.params[key]?).any ParamValue.truthy then
    some "filtered_or_grouped_request"
  else if [request.filters.employeeIds, request.filters.requestedDeptIds, request.filters.orderCodes,
      request.filters.styleCodes, request.filters.planCodes, request.filters.materialIds,
      request.filters.bedCodes].any Option.isSome then
    some "narrowed_view"
  else none

end Request

/-! ## What a caller is shown -/

/-- The business filters only leave rows out. -/
theorem mem_of_businessFilteredRows {rows view : List Row} {operation : Operation} {filters : NarrowedFilters}
    {params : Params} (h : businessFilteredRows rows operation filters params = .ok view) {row : Row}
    (hrow : row ∈ view) : row ∈ rows := by
  unfold businessFilteredRows at h
  split_ifs at h
  rw [← Except.ok.inj h] at hrow
  exact List.mem_of_mem_filter hrow

/-- **A local view has rows that its caller may see.** -/
theorem mem_of_localViewRows {rows view : List Row} {operation : Operation} {filters : NarrowedFilters}
    {params : Params} {window : String × String} {role : Option Role}
    (h : localViewRows rows operation filters params window role = .ok view) {row : Row} (hrow : row ∈ view) :
    row ∈ rows ∧ visibleTo filters role row = true := by
  have hsliced := List.mem_of_mem_filter (mem_of_businessFilteredRows h hrow)
  exact List.mem_filter.mp hsliced

namespace Request

/-- **A question that the cache may answer**: of an operation that is cached, and with a start. -/
def Cached (request : Request) : Prop :=
  (cacheableGrain request.operationId).isSome = true ∧ request.start.isSome = true

/-- **Rows that the caller may see**, where the question groups nothing. -/
def Shown (request : Request) (rows : List Row) : Prop :=
  groupbyFields request.params = .ok [] → ∀ row ∈ rows, visibleTo request.filters request.role row = true

end Request

/-! ## What may be kept -/

/-- **Filters that narrow nothing**, apart from the departments that an owner is bound to. -/
def Unnarrowed (filters : NarrowedFilters) : Prop :=
  filters = { NarrowedFilters.ofTenant filters.tenantId with deptIds := filters.deptIds }

namespace Request

variable {request : Request} {mode : ResultCacheMode} {settings : Settings} {operation : Operation}
  {result fetched : Fetched} {native : Bool}

/-- **What `_maybe_write` lets through.** -/
theorem writeReason_eq_none (h : request.writeReason mode result = none) : mode.writes = true
    ∧ result.complete = true ∧ request.role = some .owner ∧ Unnarrowed request.filters
    ∧ (request.params["groupbyFields"]?).any ParamValue.truthy = false := by
  unfold writeReason at h
  split_ifs at h with hmode hcomplete hrole hgrouped hnarrowed
  simp only [Bool.not_eq_true, Bool.not_eq_false', List.any_cons, List.any_nil, Bool.or_eq_false_iff,
    Option.isSome_eq_false_iff, Option.isNone_iff_eq_none, not_not] at hmode hcomplete hrole hgrouped hnarrowed
  obtain ⟨hemployee, hdept, horder, hstyle, hplan, hmaterial, hbed, -⟩ := hnarrowed
  refine ⟨hmode, hcomplete, hrole, ?_, hgrouped.1⟩
  unfold Unnarrowed NarrowedFilters.ofTenant
  generalize request.filters = filters at hemployee hdept horder hstyle hplan hmaterial hbed
  cases filters
  simp only at hemployee hdept horder hstyle hplan hmaterial hbed
  rw [hemployee, hdept, horder, hstyle, hplan, hmaterial, hbed]

/-- Filters that narrow nothing let every row of an owner through. -/
theorem scopeFilteredRows_of_unnarrowed {filters : NarrowedFilters} (h : Unnarrowed filters) (rows : List Row) :
    scopeFilteredRows rows filters (some .owner) = rows := by
  rw [h]
  exact List.filter_eq_self.mpr fun _ _ => rfl

/-- Filters that narrow nothing are no business filters. -/
theorem businessFilteredRows_of_unnarrowed {filters : NarrowedFilters} (h : Unnarrowed filters) (rows : List Row)
    (params : Params) : businessFilteredRows rows operation filters params = .ok rows := by
  have hfilter : rows.filter (matchesFilters operation filters params) = rows := by
    rw [h]
    exact List.filter_eq_self.mpr fun _ _ => rfl
  rw [businessFilteredRows, hfilter, h]
  rfl

/-- The rows of a fetch that are dated in a window; progress is dated as the MES dates it. -/
def datedRows (operation : Operation) (params : Params) (window : String × String) (rows : List Row) : List Row :=
  match operation with
  | .progress => rows
  | .payroll => timeSlicedRows rows (timeAnchorColumn .payroll params) window

/-- A question that groups nothing has no fields to group by. -/
theorem groupbyFields_of_truthy {params : Params} (h : (params["groupbyFields"]?).any ParamValue.truthy = false) :
    groupbyFields params = .ok [] := by
  unfold groupbyFields
  cases hvalue : params["groupbyFields"]? with
  | none => rfl
  | some value =>
    rw [hvalue, Option.any_some] at h
    cases value with
    | sequence fields =>
      have hnil : fields = [] := by simpa [ParamValue.truthy] using h
      rw [hnil]
    | text value =>
      have hempty : value = "" := by simpa [ParamValue.truthy] using h
      rw [hempty]
      rfl

/-- Such a question has no groups that could lack a dimension. -/
theorem nativeProgress_of_truthy (h : (request.params["groupbyFields"]?).any ParamValue.truthy = false) :
    request.nativeProgress .progress false = true := by
  have hnil : request.groupFields = [] := by
    unfold groupFields
    cases hvalue : request.params["groupbyFields"]? with
    | none => rfl
    | some value =>
      rw [hvalue, Option.any_some] at h
      cases value with
      | sequence fields => simpa [ParamValue.truthy] using h
      | text value =>
        have hempty : value = "" := by simpa [ParamValue.truthy] using h
        rw [hempty]
        rfl
  simp [nativeProgress, nativeProgressHasFilters, hnil]

/-- **An ungrouped view** has the rows of its detail. -/
theorem projectRows_ungrouped {context : DecimalContext} {params : Params} {filters : NarrowedFilters}
    {role : Option Role} (hgroupby : groupbyFields params = .ok []) {rows view : List Row} {window : String × String}
    (h : projectRows context rows operation filters role params window = .ok view) :
    ∃ detail, detailRows rows operation = .ok detail
      ∧ localViewRows detail operation filters params window role = .ok view := by
  simp only [projectRows, Except.bind_eq_ok] at h
  obtain ⟨detail, hdetail, _, -, cut, hcut, h⟩ := h
  refine ⟨detail, hdetail, ?_⟩
  rw [groupedRows, hgroupby] at h
  cases operation with
  | payroll => exact hcut.trans h
  | progress =>
    have hnormalized : ∀ row ∈ cut, row.IsNormalized := fun row hrow =>
      isNormalized_of_detailRows hdetail row (mem_of_localViewRows hcut hrow).1
    have hself : detailRows cut .progress = .ok cut := detailRows_eq_self fun _ => hnormalized
    exact hcut.trans (hself.symm.trans h)

/-- **A view shows its caller nothing else.** -/
theorem shown_of_projectRows {context : DecimalContext} {rows view : List Row} {window : String × String}
    (h : projectRows context rows operation request.filters request.role request.params window = .ok view) :
    request.Shown view := by
  intro hgroupby row hrow
  obtain ⟨detail, -, hview⟩ := projectRows_ungrouped hgroupby h
  exact (mem_of_localViewRows hview hrow).2

/-- **What is fetched for a caller shows it nothing else.** -/
theorem shown_of_received (h : request.received settings operation native fetched = .result result) :
    request.Shown result.rows := by
  unfold received at h
  split_ifs at h
  · split at h
    · cases h
    · next rows hrows =>
      cases h
      intro _ row hrow
      have hsame : (narrowed settings.context fetched rows).rows = rows := by
        unfold narrowed
        split_ifs with hfetched
        · exact hfetched.symm
        · rfl
      rw [hsame] at hrow
      exact (List.mem_filter.mp (mem_of_businessFilteredRows hrows hrow)).2
  · split at h
    · cases h
    · next window hwindow =>
      cases h
      unfold projected
      split
      · exact fun _ row hrow => absurd hrow List.not_mem_nil
      · next rows hrows =>
        have hshown := shown_of_projectRows hrows
        simp only
        split_ifs with hbad hsame
        · exact hshown
        · exact hsame.1 ▸ hshown
        · exact hshown

/-- **What may be kept is all that was fetched**, of the days of the window. -/
theorem rows_of_writeReason (h : request.writeReason mode result = none) {window : String × String}
    (hwindow : request.window? settings.zone = some window)
    (hreceived : request.received settings operation (request.nativeProgress operation false) fetched
      = .result result) :
    fetched.complete = true ∧ result.rows = datedRows operation request.params window fetched.rows := by
  obtain ⟨-, hcomplete, hrole, hfilters, hgroupby⟩ := writeReason_eq_none h
  unfold received at hreceived
  cases operation with
  | progress =>
    rw [if_pos (nativeProgress_of_truthy hgroupby), hrole, scopeFilteredRows_of_unnarrowed hfilters,
      businessFilteredRows_of_unnarrowed hfilters] at hreceived
    split_ifs at hreceived
    have hsame : narrowed settings.context fetched fetched.rows = result := Receipt.result.inj hreceived
    rw [narrowed, if_pos rfl] at hsame
    exact ⟨hsame ▸ hcomplete, hsame ▸ rfl⟩
  | payroll =>
    rw [if_neg (by simp [nativeProgress]), hwindow] at hreceived
    have hprojected : request.projected settings .payroll window fetched = result := Receipt.result.inj hreceived
    rw [projected, hrole] at hprojected
    split at hprojected
    · rw [← hprojected] at hcomplete
      cases hcomplete
    · next rows hrows =>
      have hdated : rows = timeSlicedRows fetched.rows (timeAnchorColumn .payroll request.params) window := by
        obtain ⟨detail, hdetail, hview⟩ := projectRows_ungrouped (groupbyFields_of_truthy hgroupby) hrows
        cases hdetail
        rw [localViewRows, scopeFilteredRows_of_unnarrowed hfilters, businessFilteredRows_of_unnarrowed hfilters]
          at hview
        exact (Except.ok.inj hview).symm
      simp only at hprojected
      split_ifs at hprojected with hbad hsame
      · rw [← hprojected] at hcomplete
        cases hcomplete
      · exact ⟨hprojected ▸ hcomplete, by rw [← hprojected]; exact hsame.1.symm.trans hdated⟩
      · rw [← hprojected] at hcomplete
        exact ⟨hcomplete, by rw [← hprojected, hdated]; rfl⟩

end Request

end Serving
