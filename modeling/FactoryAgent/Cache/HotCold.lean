import FactoryAgent.Cache.Publication

/-!
# The hot and the cold answer

The same fetch of an owner is served on two paths: at once, from the rows as they were fetched, and
later, from the rows that were stored and read back. The two agree on every question exactly where
the fetched rows are uniform: each has all the columns that any of them has, and those of wages carry
texts. What a row lacks is an absent column on the hot path, which a filter by beds or a grouping
refuses, and an empty text on the cold one, which they take for a value.
-/

/-! ## Detail -/

/-- Normalized rows are their own detail. -/
theorem detailRows_eq_self {operation : Operation} {rows : List Row}
    (h : operation = .progress → ∀ row ∈ rows, row.IsNormalized) :
    detailRows rows operation = .ok rows := by
  cases operation with
  | payroll => rfl
  | progress =>
    exact Except.mapM_eq_self (fun row hrow => deriveProgressRow_of_isNormalized (h rfl row hrow))

/-- The date of a row that has one is read back as it was. -/
theorem anchorOf_restored {rows : List Row} {row : Row} (hrow : row ∈ rows) {column : String}
    (h : IsoDate.isIsoDate (anchorOf column row) = true) :
    anchorOf column (row.restored (columnsOf rows)) = anchorOf column row := by
  have hne : row.field column ≠ "" := by
    intro hempty
    rw [anchorOf, hempty] at h
    exact absurd h (by decide)
  rw [anchorOf, anchorOf, Row.field_restored row
    (mem_columnsOf.mpr ⟨row, hrow, Row.mem_of_field_ne_empty hne⟩), Row.restoredText_storedCell hne]

/-- The rows of a valid detail carry calendar dates. -/
theorem isIsoDate_of_validateTimeAnchors {rows : List Row} {operation : Operation} {params : Params}
    (h : validateTimeAnchors rows operation params = .ok ()) :
    ∀ row ∈ rows, IsoDate.isIsoDate (anchorOf (timeAnchorColumn operation params) row) = true := by
  unfold validateTimeAnchors at h
  split at h
  · next hall => exact List.all_eq_true.mp hall
  · cases h

/-! ## The two answers -/

/-- The answers of two snapshots with the same rows and totals are the same. -/
theorem CacheHit.serve_congr (context : DecimalContext) {operation : Operation}
    {left right : CacheHit operation} (hrows : left.rows = right.rows)
    (hfooter : left.footer.getD ∅ = right.footer.getD ∅) (request : ViewRequest) :
    (left.serve context request).map ResourceFetchResult.answer
      = (right.serve context request).map ResourceFetchResult.answer := by
  have htotals : ∀ rows, recomputedFooter context rows left.footer
      = recomputedFooter context rows right.footer := fun rows => by
    simp only [recomputedFooter, hfooter]
  unfold serve
  rw [hrows]
  cases projectRows context right.rows operation request.filters request.role request.params
      request.window with
  | error refusal => rfl
  | ok rows => exact congrArg Except.ok (by simp only [ResourceFetchResult.answer, htotals])

/-- The question of the owner for the detail of one day. -/
def ViewRequest.ofDay (params : Params) (day : String) : ViewRequest where
  filters := .ofTenant ""
  role := some .owner
  params := params
  window := (day, day)

/-- The rows of one day. -/
def rowsOfDay (operation : Operation) (params : Params) (day : String) (rows : List Row) : List Row :=
  rows.filter (fun row => decide (anchorOf (timeAnchorColumn operation params) row = day))

/-- **The owner is served the detail of a day as the snapshot has it.** -/
theorem CacheHit.serve_ofDay (context : DecimalContext) {operation : Operation}
    (hit : CacheHit operation) {params : Params} (hparams : params["groupbyFields"]? = none)
    (hnormalized : operation = .progress → ∀ row ∈ hit.rows, row.IsNormalized)
    (hvalid : validateTimeAnchors hit.rows operation params = .ok ()) {day : String}
    (hday : day ≠ "") :
    (hit.serve context (.ofDay params day)).map ResourceFetchResult.answer
      = .ok {
          rows := rowsOfDay operation params day hit.rows
          total := (rowsOfDay operation params day hit.rows).length
          footer := recomputedFooter context (rowsOfDay operation params day hit.rows) hit.footer } := by
  have hview : localViewRows hit.rows operation (.ofTenant "") params (day, day) (some .owner)
      = .ok (rowsOfDay operation params day hit.rows) := by
    have hscope : scopeFilteredRows hit.rows (.ofTenant "") (some .owner) = hit.rows :=
      List.filter_eq_self.mpr (fun _ _ => rfl)
    have hsliced : timeSlicedRows hit.rows (timeAnchorColumn operation params) (day, day)
        = rowsOfDay operation params day hit.rows := by
      refine List.filter_congr (fun row _ => ?_)
      rw [Bool.eq_iff_iff]
      simp only [Bool.and_eq_true, decide_eq_true_eq]
      exact ⟨fun h => String.le_antisymm h.2 h.1.2, fun h => by simp [h, hday]⟩
    have hbusiness : (rowsOfDay operation params day hit.rows).filter
        (matchesFilters operation (.ofTenant "") params) = rowsOfDay operation params day hit.rows :=
      List.filter_eq_self.mpr (fun _ _ => rfl)
    rw [localViewRows, hscope, hsliced, businessFilteredRows, hbusiness]
    rfl
  have hgrouped : groupedRows context (rowsOfDay operation params day hit.rows) operation params
      = .ok (rowsOfDay operation params day hit.rows) := by
    have hself : detailRows (rowsOfDay operation params day hit.rows) operation
        = .ok (rowsOfDay operation params day hit.rows) :=
      detailRows_eq_self (fun hprogress row hrow => hnormalized hprogress row (List.mem_filter.mp hrow).1)
    rw [groupedRows, groupbyFields, hparams]
    cases operation with
    | payroll => rfl
    | progress => exact hself
  have hproject : projectRows context hit.rows operation (.ofTenant "") (some .owner) params (day, day)
      = .ok (rowsOfDay operation params day hit.rows) := by
    simp only [projectRows, detailRows_eq_self hnormalized, hvalid, hview, hgrouped, bind, Except.bind]
  simp only [serve, ViewRequest.ofDay, hproject, bind, Except.bind, pure, Except.pure, Except.map,
    ResourceFetchResult.answer]

namespace OwnerFetch

variable {operation : Operation} (fetch : OwnerFetch operation)

/-- **The hot answer**: from the rows as they were fetched. -/
def hotAnswer (context : DecimalContext) (request : ViewRequest) :
    Except ViewError ViewAnswer := do
  let hit ← fetch.fresh
  (hit.serve context request).map ResourceFetchResult.answer

/-- **The cold answer**: from the snapshot that was published of the fetch, where it is found. -/
def coldAnswer (context : DecimalContext) (close : Decimal → Decimal → Bool)
    (request : ViewRequest) : Option (Except ViewError ViewAnswer) := do
  let stored ← fetch.publish context close
  let hit ← stored.read operation request.params fetch.window
  return (hit.serve context request).map ResourceFetchResult.answer

/-- **The fetched rows are uniform**: each has the columns that any of them has, apart from the older
date of progress rows, and the values of wages are texts. -/
structure Uniform : Prop where
  columns : ∀ row ∈ fetch.rows, ∀ other ∈ fetch.rows, ∀ column ∈ other,
    (operation = .progress → column ≠ "dh_date") → column ∈ row
  texts : operation = .payroll → ∀ row ∈ fetch.rows, row.IsText

/-- **The rows of a uniform fetch, and no others, are read back as they were.** -/
theorem uniform_iff {detail : List Row} (h : detailRows fetch.rows operation = .ok detail) :
    fetch.Uniform ↔ ∀ row ∈ detail, row.restored (columnsOf detail) = row := by
  have hself : ∀ row ∈ detail, row.restored (columnsOf detail) = row
      ↔ (∀ column ∈ columnsOf detail, column ∈ row) ∧ row.IsText := fun row hrow =>
    Row.restored_eq_self_iff (fun column hcolumn => mem_columnsOf.mpr ⟨row, hrow, hcolumn⟩)
  cases operation with
  | payroll =>
    cases h
    constructor
    · intro huniform row hrow
      refine (hself row hrow).mpr ⟨fun column hcolumn => ?_, huniform.texts rfl row hrow⟩
      obtain ⟨other, hother, hmem⟩ := mem_columnsOf.mp hcolumn
      exact huniform.columns row hrow other hother column hmem nofun
    · intro hrestored
      refine ⟨fun row hrow other hother column hmem _ => ?_, fun _ row hrow => ?_⟩
      · exact ((hself row hrow).mp (hrestored row hrow)).1 column
          (mem_columnsOf.mpr ⟨other, hother, hmem⟩)
      · exact ((hself row hrow).mp (hrestored row hrow)).2
  | progress =>
    constructor
    · intro huniform derived hderived
      obtain ⟨row, hrow, hrowDerived⟩ := Except.exists_of_mem_mapM h hderived
      refine (hself derived hderived).mpr ⟨fun column hcolumn => ?_,
        (isNormalized_of_deriveProgressRow hrowDerived).isText⟩
      obtain ⟨derived', hderived', hmem⟩ := mem_columnsOf.mp hcolumn
      obtain ⟨other, hother, hotherDerived⟩ := Except.exists_of_mem_mapM h hderived'
      obtain ⟨hold, hcases⟩ := (mem_of_mem_derived hotherDerived).mp hmem
      exact (mem_of_mem_derived hrowDerived).mpr ⟨hold, hcases.imp_right (fun hcol =>
        huniform.columns row hrow other hother column hcol (fun _ => hold))⟩
    · intro hrestored
      refine ⟨fun row hrow other hother column hmem hold => ?_, nofun⟩
      obtain ⟨derived, hderived, hrowDerived⟩ := Except.exists_mem_of_mapM h hrow
      obtain ⟨derived', hderived', hotherDerived⟩ := Except.exists_mem_of_mapM h hother
      have hcolumn : column ∈ columnsOf detail := mem_columnsOf.mpr ⟨derived', hderived',
        (mem_of_mem_derived hotherDerived).mpr ⟨hold rfl, .inr hmem⟩⟩
      have hin := ((hself derived hderived).mp (hrestored derived hderived)).1 column hcolumn
      rcases ((mem_of_mem_derived hrowDerived).mp hin).2 with rfl | hrowMem
      · exact mem_rq_of_deriveProgressRow hrowDerived
      · exact hrowMem

/-- The restored rows of a day are those of the restored detail. -/
theorem rowsOfDay_map_restored {detail : List Row} {params : Params} (day : String)
    (hvalid : validateTimeAnchors detail operation params = .ok ()) :
    rowsOfDay operation params day (detail.map (Row.restored (columnsOf detail)))
      = (rowsOfDay operation params day detail).map (Row.restored (columnsOf detail)) := by
  rw [rowsOfDay, rowsOfDay, List.filter_map]
  refine congrArg _ (List.filter_congr (fun row hrow => ?_))
  rw [Function.comp_apply,
    anchorOf_restored hrow (isIsoDate_of_validateTimeAnchors hvalid row hrow)]

/-- The restored detail is valid where the detail is. -/
theorem validateTimeAnchors_map_restored {detail : List Row} {params : Params}
    (hvalid : validateTimeAnchors detail operation params = .ok ()) :
    validateTimeAnchors (detail.map (Row.restored (columnsOf detail))) operation params
      = .ok () := by
  have hdates := isIsoDate_of_validateTimeAnchors hvalid
  rw [validateTimeAnchors, if_pos]
  refine List.all_eq_true.mpr (fun restored hrestored => ?_)
  obtain ⟨row, hrow, rfl⟩ := List.mem_map.mp hrestored
  rw [anchorOf_restored hrow (hdates row hrow)]
  exact hdates row hrow

/-- The parameters of an owner's fetch are those of its detail. -/
theorem detailParams_params : detailParams fetch.params = fetch.params := by
  refine Std.ExtTreeMap.ext_getElem? (fun key => ?_)
  rw [detailParams, Std.ExtTreeMap.getElem?_filter']
  by_cases hkey : key ∈ viewParams
  · have habsent : fetch.params[key]? = none :=
      fetch.params_getElem?_eq_none (fun h => by
        revert key
        decide)
    rw [habsent]
    rfl
  · cases fetch.params[key]? <;> simp [hkey]

/-- A snapshot whose rows are the restored detail gives the owner the detail of a day only where the
rows of that day are read back as they were. -/
theorem restored_eq_self_of_serve_ofDay (context : DecimalContext) {detail : List Row}
    (hdetail : detailRows fetch.rows operation = .ok detail)
    (hvalid : validateTimeAnchors detail operation fetch.params = .ok ())
    {hit fresh : CacheHit operation}
    (hrows : hit.rows = detail.map (Row.restored (columnsOf detail))) (hfresh : fresh.rows = detail)
    {row : Row} (hrow : row ∈ detail)
    (hsame : (hit.serve context (.ofDay fetch.params
          (anchorOf (timeAnchorColumn operation fetch.params) row))).map ResourceFetchResult.answer
      = (fresh.serve context (.ofDay fetch.params
          (anchorOf (timeAnchorColumn operation fetch.params) row))).map ResourceFetchResult.answer) :
    row.restored (columnsOf detail) = row := by
  have hday := IsoDate.ne_empty_of_isIsoDate (isIsoDate_of_validateTimeAnchors hvalid row hrow)
  have hgroupby : fetch.params["groupbyFields"]? = none :=
    fetch.params_getElem?_eq_none (by decide)
  have hnormalized : operation = .progress → ∀ row ∈ detail, row.IsNormalized := by
    rintro rfl
    exact isNormalized_of_detailRows hdetail
  have hrestored : operation = .progress →
      ∀ row ∈ detail.map (Row.restored (columnsOf detail)), row.IsNormalized := by
    intro hprogress restored hmem
    obtain ⟨row, hrow, rfl⟩ := List.mem_map.mp hmem
    have hcolumns := columnsOf_of_isNormalized (hnormalized hprogress)
    exact Row.isNormalized_restored (hnormalized hprogress row hrow) (hcolumns.1 row hrow) hcolumns.2
  rw [CacheHit.serve_ofDay context hit hgroupby (hrows ▸ hrestored)
      (hrows ▸ validateTimeAnchors_map_restored hvalid) hday,
    CacheHit.serve_ofDay context fresh hgroupby (hfresh ▸ hnormalized) (hfresh ▸ hvalid) hday,
    hrows, hfresh, rowsOfDay_map_restored _ hvalid] at hsame
  have hmap := congrArg ViewAnswer.rows (Except.ok.inj hsame)
  exact List.map_inj_left.mp (hmap.trans (List.map_id _).symm) row
    (List.mem_filter.mpr ⟨hrow, decide_eq_true rfl⟩)

/-- **The hot and the cold answer agree on every question** exactly where the rows of the published
fetch are uniform. -/
theorem cold_eq_hot_iff_uniform (context : DecimalContext) (close : Decimal → Decimal → Bool)
    (hpublished : (fetch.publish context close).isSome = true) :
    (∀ request : ViewRequest, detailParams request.params = fetch.params →
      fetch.coldAnswer context close request = some (fetch.hotAnswer context request))
      ↔ fetch.Uniform := by
  obtain ⟨stored, hstored⟩ := Option.isSome_iff_exists.mp hpublished
  constructor
  · -- The owner asks for the detail of the day of each row.
    intro hagree
    obtain ⟨detail, hit, hdetail, hvalid, hread, hrows, -⟩ :=
      fetch.read_publish hstored fetch.detailParams_params
    obtain ⟨fresh, hfresh, hfreshRows, -⟩ := fetch.fresh_eq_ok hdetail
    refine (fetch.uniform_iff hdetail).mpr (fun row hrow => ?_)
    have hsame := hagree (.ofDay fetch.params
      (anchorOf (timeAnchorColumn operation fetch.params) row)) fetch.detailParams_params
    have hreadDay : stored.read operation (ViewRequest.ofDay fetch.params
      (anchorOf (timeAnchorColumn operation fetch.params) row)).params fetch.window = some hit := hread
    rw [coldAnswer, hotAnswer, hstored, hfresh] at hsame
    simp only [Option.bind_eq_bind, Option.bind_some, hreadDay] at hsame
    exact fetch.restored_eq_self_of_serve_ofDay context hdetail hvalid hrows hfreshRows hrow
      (Option.some.inj hsame)
  · -- Uniform rows are read back as they were.
    intro huniform request hrequest
    obtain ⟨detail, hit, hdetail, -, hread, hrows, hfooter⟩ :=
      fetch.read_publish hstored hrequest
    obtain ⟨fresh, hfresh, hfreshRows, hfreshFooter⟩ := fetch.fresh_eq_ok hdetail
    have hrestored := (fetch.uniform_iff hdetail).mp huniform
    have hsame : hit.rows = fresh.rows := by
      rw [hrows, hfreshRows, List.map_congr_left hrestored, List.map_id']
    rw [coldAnswer, hotAnswer, hstored, hfresh]
    simp only [Option.bind_eq_bind, Option.bind_some, hread]
    exact congrArg some (CacheHit.serve_congr context hsame (by rw [hfooter, hfreshFooter]) request)

/-- A fetch of wages, with the total of the pieces. -/
def ofWages (rows : List Row) : OwnerFetch .payroll where
  params := Std.ExtTreeMap.ofList [("Flag", ParamValue.text "0")]
  window := ("2026-09-01", "2026-09-30")
  rows := rows
  footer := some (Std.ExtTreeMap.ofList [("sl_total", "5")])
  fetchedAt := "2026-10-01T00:00:00+00:00"
  admitted := by decide +kernel

/-- The wages of two departments, both of which name their beds. -/
def ofBeds : OwnerFetch .payroll :=
  ofWages [
    Row.ofTexts [("inputdate", "2026-09-15"), ("dept", "D-1"), ("chuanghao", "1555"), ("sl", "2")],
    Row.ofTexts [("inputdate", "2026-09-16"), ("dept", "D-2"), ("chuanghao", "1600"), ("sl", "3")]]

/-- The wages of departments that both name their beds are published, and the two paths agree on
them. -/
theorem cold_eq_hot_ofBeds : (ofBeds.publish .python (fun _ _ => true)).isSome = true
    ∧ ∀ request : ViewRequest, detailParams request.params = ofBeds.params →
      ofBeds.coldAnswer .python (fun _ _ => true) request
        = some (ofBeds.hotAnswer .python request) := by
  have hpublished : (ofBeds.publish .python (fun _ _ => true)).isSome = true := by decide +kernel
  refine ⟨hpublished,
    (cold_eq_hot_iff_uniform ofBeds .python (fun _ _ => true) hpublished).mpr ⟨?_, ?_⟩⟩
  · intro row hrow other hother column hcolumn _
    have hkeys : ∀ row ∈ ofBeds.rows, row.keys = ["chuanghao", "dept", "inputdate", "sl"] := by
      decide +kernel
    rw [← Std.ExtTreeMap.mem_keys, hkeys row hrow, ← hkeys other hother]
    exact Std.ExtTreeMap.mem_keys.mpr hcolumn
  · intro _ row hrow
    rcases List.mem_pair.mp hrow with rfl | rfl <;> exact Row.isText_ofTexts _

/-- The wages of two departments, of which the second names no beds. -/
def ofMissingBeds : OwnerFetch .payroll :=
  ofWages [
    Row.ofTexts [("inputdate", "2026-09-15"), ("dept", "D-1"), ("chuanghao", "1555"), ("sl", "2")],
    Row.ofTexts [("inputdate", "2026-09-16"), ("dept", "D-2"), ("sl", "3")]]

/-- The manager of the second department asks for a bed. -/
def bedOfSecondDepartment : ViewRequest where
  filters := { NarrowedFilters.ofTenant "t" with
    deptIds := some ["D-2"], bedCodes := some ["1555"] }
  role := some .manager
  params := Std.ExtTreeMap.ofList [("Flag", ParamValue.text "0")]
  window := ("2026-09-01", "2026-09-30")

/-- **A view that is refused at once is served later**: rows without the bed column are refused as they
were fetched, and counted as rows of no such bed once they were stored. -/
theorem cold_ne_hot_ofMissingBeds : detailParams bedOfSecondDepartment.params = ofMissingBeds.params
    ∧ ofMissingBeds.hotAnswer .python bedOfSecondDepartment
      = .error (.invalidRequest "detail does not contain the requested bed dimension")
    ∧ ofMissingBeds.coldAnswer .python (fun _ _ => true) bedOfSecondDepartment
      = some (.ok ⟨[], 0, some (Std.ExtTreeMap.ofList [("sl_total", "0")])⟩) := by
  decide +kernel

end OwnerFetch
