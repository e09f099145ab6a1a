import FactoryAgent.Cache.View

/-!
# The rows outside the scope do not interfere

A snapshot holds the rows of the whole tenant, and a caller sees some of them. The scope is not the
first thing that happens to the rows: a progress snapshot is normalized before, and every row is
validated. Still, whatever is served is a function of the visible rows and of the names of the totals,
`visibleAnswer`: normalizing a row does not change whether it is visible, validating all rows can only
refuse, and the totals are those of the rows that are served.
-/

/-! ## Scope and normalization -/

/-- Normalizing a row of texts keeps its values, apart from its dates. -/
theorem field_of_deriveProgressRow {row derived : Row} (htext : row.IsText)
    (h : deriveProgressRow row = .ok derived) {column : String} (hrq : column ≠ "rq")
    (hdate : column ≠ "dh_date") : derived.field column = row.field column := by
  obtain ⟨rq, -, rfl⟩ := deriveProgressRow_eq_ok h
  rw [Row.field, Row.field, Row.cell_eq, Row.cell_eq, getElem?_derived, if_neg hdate, if_neg hrq]
  cases hcell : row[column]? with
  | none => rfl
  | some cell =>
    have hscalar : cell.scalar = cell.str := by
      cases cell <;> first | rfl | exact absurd (htext column _ hcell) Bool.false_ne_true
    simp [hscalar, Cell.text_str_of_isText (htext column cell hcell)]

/-- **Normalizing a row does not change who sees it.** -/
theorem visibleTo_of_deriveProgressRow {row derived : Row} (htext : row.IsText)
    (h : deriveProgressRow row = .ok derived) (filters : NarrowedFilters) (role : Option Role) :
    visibleTo filters role derived = visibleTo filters role row := by
  unfold visibleTo
  rw [field_of_deriveProgressRow htext h (by decide) (by decide),
    field_of_deriveProgressRow htext h (by decide) (by decide)]

/-- **The detail of the visible rows is the visible part of the detail.** -/
theorem CacheHit.detailRows_scopeFilteredRows {operation : Operation} (hit : CacheHit operation)
    {detail : List Row} (h : detailRows hit.rows operation = .ok detail) (filters : NarrowedFilters)
    (role : Option Role) :
    detailRows (scopeFilteredRows hit.rows filters role) operation
      = .ok (scopeFilteredRows detail filters role) := by
  cases operation with
  | payroll => cases h; rfl
  | progress =>
    exact Except.mapM_filter_of_keeps (fun row hrow derived hderived =>
      visibleTo_of_deriveProgressRow (hit.normalized rfl row hrow) hderived filters role) h

/-! ## What is served -/

/-- **The answer of the visible rows**: what a caller would be served if the tenant had no other
rows, of a footer with these names. -/
def visibleAnswer (context : DecimalContext) (operation : Operation) (request : ViewRequest)
    (visible : List Row) (footer : Option Footer) :
    Except ViewError ViewAnswer := do
  let detail ← detailRows visible operation
  let view ← businessFilteredRows
    (timeSlicedRows detail (timeAnchorColumn operation request.params) request.window) operation
    request.filters request.params
  let rows ← groupedRows context view operation request.params
  return ⟨rows, rows.length, recomputedFooter context rows footer⟩

/-- The answer of the visible rows depends on the names of the totals alone. -/
theorem visibleAnswer_congr (context : DecimalContext) (operation : Operation)
    (request : ViewRequest) (visible : List Row) {left right : Option Footer}
    (h : ∀ key, key ∈ footerKeys left ↔ key ∈ footerKeys right) :
    visibleAnswer context operation request visible left
      = visibleAnswer context operation request visible right := by
  have hfooter : ∀ rows, recomputedFooter context rows left = recomputedFooter context rows right :=
    fun rows => recomputedFooter_congr context rows h
  simp only [visibleAnswer, hfooter]

/-- What is served is the view of validated detail, with the totals of its rows. -/
theorem CacheHit.serve_eq_ok {context : DecimalContext} {operation : Operation}
    {hit : CacheHit operation} {request : ViewRequest} {result : ResourceFetchResult}
    (h : hit.serve context request = .ok result) : ∃ detail view rows,
      detailRows hit.rows operation = .ok detail
      ∧ localViewRows detail operation request.filters request.params request.window request.role
        = .ok view
      ∧ groupedRows context view operation request.params = .ok rows
      ∧ result.answer = ⟨rows, rows.length, recomputedFooter context rows hit.footer⟩ := by
  simp only [serve, projectRows, Except.bind_eq_ok, Except.pure_eq_ok] at h
  obtain ⟨rows, ⟨detail, hdetail, _, -, view, hview, hrows⟩, rfl⟩ := h
  exact ⟨detail, view, rows, hdetail, hview, hrows, rfl⟩

/-- **What is served is the answer of the visible rows.** -/
theorem CacheHit.serve_eq_visibleAnswer {context : DecimalContext} {operation : Operation}
    {hit : CacheHit operation} {request : ViewRequest} {result : ResourceFetchResult}
    (h : hit.serve context request = .ok result) :
    visibleAnswer context operation request
        (scopeFilteredRows hit.rows request.filters request.role) hit.footer
      = .ok result.answer := by
  obtain ⟨detail, view, rows, hdetail, hview, hrows, hanswer⟩ := serve_eq_ok h
  unfold localViewRows at hview
  rw [visibleAnswer, hit.detailRows_scopeFilteredRows hdetail]
  simp only [bind, Except.bind, hview, hrows, pure, Except.pure, hanswer]

/-- **Non-interference.** Two snapshots of one operation whose visible rows are equal and whose totals
have the same names give equal answers, whatever else the tenant's rows are. -/
theorem CacheHit.serve_noninterference (context : DecimalContext) {operation : Operation}
    (left right : CacheHit operation) (request : ViewRequest) {served served' : ResourceFetchResult}
    (hvisible : scopeFilteredRows left.rows request.filters request.role
      = scopeFilteredRows right.rows request.filters request.role)
    (hkeys : ∀ key, key ∈ footerKeys left.footer ↔ key ∈ footerKeys right.footer)
    (hleft : left.serve context request = .ok served)
    (hright : right.serve context request = .ok served') : served.answer = served'.answer := by
  have hanswer : (.ok served.answer : Except ViewError ViewAnswer) = .ok served'.answer := by
    rw [← serve_eq_visibleAnswer hleft, ← serve_eq_visibleAnswer hright, hvisible,
      visibleAnswer_congr context operation request _ hkeys]
  exact Except.ok.inj hanswer

/-- A progress row of a department, with the quantities that were issued and received. -/
def Row.ofDepartment (dept issued received : String) : Row :=
  Row.ofTexts [("rq", "2026-09-15"), ("dept", dept), ("deptname", "sewing"), ("uid", "u-1"),
    ("uname", "one"), ("worktype", "w"), ("wtname", "seam"), ("wsort", "1"), ("userid", "p-1"),
    ("bs", "1"), ("fhsl", issued), ("sssl", received), ("zpsl", "0"), ("wgs", "1"), ("wts", "1")]

/-- A snapshot of two departments, in the second of which this much was received. -/
def CacheHit.ofTwoDepartments (received : String) : CacheHit .progress where
  rows := [Row.ofDepartment "D-2" "9" received, Row.ofDepartment "D-1" "8" "6"]
  footer := some (Std.ExtTreeMap.ofList [("sssl_total", received), ("wcl_total", "70.59")])
  generatedAt := "2026-09-16T08:00:00+00:00"
  source := "precompute"
  window := ("2025-09-15", "2026-09-15")
  sourceCallCount := 0
  normalized := fun _ row hrow => by
    rcases List.mem_pair.mp hrow with rfl | rfl <;> exact Row.isText_ofTexts _

/-- The manager of the first department asks for the work of each worker. -/
def ViewRequest.ofFirstDepartment : ViewRequest where
  filters := { NarrowedFilters.ofTenant "t" with deptIds := some ["D-1"] }
  role := some .manager
  params := Std.ExtTreeMap.ofList [("groupbyFields", ParamValue.sequence
    ["userid", "uid", "uname", "dept", "deptname", "worktype", "wtname", "wsort"])]
  window := ("2026-09-01", "2026-09-30")

/-- What the second department received does not show in the first. -/
theorem CacheHit.serve_noninterference_twoDepartments : ∃ served served',
    (CacheHit.ofTwoDepartments "6").serve .python .ofFirstDepartment = .ok served
      ∧ (CacheHit.ofTwoDepartments "9").serve .python .ofFirstDepartment = .ok served'
      ∧ served.answer = served'.answer := by
  obtain ⟨served, hserved⟩ := Except.exists_eq_ok_of_isOk
    (x := (CacheHit.ofTwoDepartments "6").serve .python .ofFirstDepartment) (by decide +kernel)
  obtain ⟨served', hserved'⟩ := Except.exists_eq_ok_of_isOk
    (x := (CacheHit.ofTwoDepartments "9").serve .python .ofFirstDepartment) (by decide +kernel)
  have hkeys : footerKeys (CacheHit.ofTwoDepartments "6").footer
      = footerKeys (CacheHit.ofTwoDepartments "9").footer := by decide +kernel
  exact ⟨served, served', hserved, hserved', serve_noninterference .python _ _ .ofFirstDepartment
    (by decide +kernel) (fun key => iff_of_eq (congrArg (key ∈ ·) hkeys)) hserved hserved'⟩
