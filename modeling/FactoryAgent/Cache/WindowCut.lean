import FactoryAgent.Cache.NonInterference
import FactoryAgent.Cache.Windows

/-!
# A wider snapshot gives the same answers

A question is answered from whichever candidate window has a snapshot. The snapshot is cut to the window
of the question after the rows were normalized, validated and cut to the scope of the caller, and before
they are filtered, grouped and summed. Cutting it before all of that gives the same answer
(`CacheHit.serve_cut`), so two snapshots that hold the same rows for the days of a question answer it
alike, however wide they are.

Only one thing is lost by cutting first: a row with a malformed date is no longer there to refuse the
question.
-/

/-! ## The rows of some days -/

/-- A row of detail, as views of an operation take it. -/
def detailRow : Operation → Row → Except ViewError Row
  | .progress, row => deriveProgressRow row
  | .payroll, row => .ok row

/-- The detail rows are taken one by one. -/
theorem detailRows_eq_mapM (rows : List Row) (operation : Operation) :
    detailRows rows operation = rows.mapM (detailRow operation) := by
  cases operation with
  | progress => rfl
  | payroll => exact (Except.mapM_eq_self (fun _ _ => rfl)).symm

/-- Whether a row of detail is dated in a window. -/
def datedIn (column : String) (window : String × String) (row : Row) : Bool :=
  anchorOf column row ≠ "" && decide (window.1 ≤ anchorOf column row)
    && decide (anchorOf column row ≤ window.2)

/-- **Whether a row of a snapshot is dated in a window.** -/
def snapshotDatedIn (operation : Operation) (params : Params) (window : String × String) (row : Row) :
    Bool :=
  match detailRow operation row with
  | .ok detail => datedIn (timeAnchorColumn operation params) window detail
  | .error _ => false

/-- What is dated in a window is dated in every window that covers it. -/
theorem datedIn_of_covers {column : String} {window question : String × String} {row : Row}
    (hcovers : Covers window question) (h : datedIn column question row = true) :
    datedIn column window row = true := by
  simp only [datedIn, Bool.and_eq_true, decide_eq_true_eq] at h ⊢
  exact ⟨⟨h.1.1, String.le_trans hcovers.1 h.1.2⟩, String.le_trans h.2 hcovers.2⟩

/-- **Cutting to a wider window first changes nothing.** -/
theorem filter_snapshotDatedIn_of_covers {operation : Operation} {params : Params}
    {window question : String × String} (hcovers : Covers window question) (rows : List Row) :
    (rows.filter (snapshotDatedIn operation params window)).filter
        (snapshotDatedIn operation params question)
      = rows.filter (snapshotDatedIn operation params question) := by
  rw [List.filter_filter]
  refine List.filter_congr (fun row _ => ?_)
  unfold snapshotDatedIn
  cases detailRow operation row with
  | error refusal => rfl
  | ok detail =>
    show (datedIn _ question detail && datedIn _ window detail) = datedIn _ question detail
    cases hquestion : datedIn (timeAnchorColumn operation params) question detail with
    | false => rfl
    | true => rw [datedIn_of_covers hcovers hquestion, Bool.and_self]

namespace CacheHit

variable {operation : Operation}

/-- **A snapshot cut to the rows of some days.** -/
def cut (hit : CacheHit operation) (params : Params) (window : String × String) : CacheHit operation where
  rows := hit.rows.filter (snapshotDatedIn operation params window)
  footer := hit.footer
  generatedAt := hit.generatedAt
  source := hit.source
  window := window
  sourceCallCount := hit.sourceCallCount
  normalized := fun hprogress row hrow => hit.normalized hprogress row (List.mem_of_mem_filter hrow)

/-- **The detail of the cut is the cut of the detail.** -/
theorem detailRows_cut {hit : CacheHit operation} {detail : List Row}
    (h : detailRows hit.rows operation = .ok detail) (params : Params) (window : String × String) :
    detailRows (hit.cut params window).rows operation
      = .ok (timeSlicedRows detail (timeAnchorColumn operation params) window) := by
  rw [detailRows_eq_mapM] at h ⊢
  refine Except.mapM_filter_of_keeps (fun row _ derived hderived => ?_) h
  rw [snapshotDatedIn, hderived]
  rfl

/-- The rows of some days carry dates where all rows do. -/
theorem validateTimeAnchors_timeSlicedRows {detail : List Row} {params : Params}
    (h : validateTimeAnchors detail operation params = .ok ()) (column : String)
    (window : String × String) :
    validateTimeAnchors (timeSlicedRows detail column window) operation params = .ok () := by
  unfold validateTimeAnchors at h ⊢
  split at h
  · next hall =>
    rw [if_pos]
    rw [List.all_eq_true] at hall ⊢
    exact fun row hrow => hall row (List.mem_of_mem_filter hrow)
  · cases h

/-- **The view of the cut is the view.** -/
theorem localViewRows_timeSlicedRows (detail : List Row) (filters : NarrowedFilters) (params : Params)
    (window : String × String) (role : Option Role) :
    localViewRows (timeSlicedRows detail (timeAnchorColumn operation params) window) operation filters
        params window role
      = localViewRows detail operation filters params window role := by
  have hrows : timeSlicedRows (scopeFilteredRows (timeSlicedRows detail
        (timeAnchorColumn operation params) window) filters role) (timeAnchorColumn operation params) window
      = timeSlicedRows (scopeFilteredRows detail filters role) (timeAnchorColumn operation params)
        window := by
    simp only [timeSlicedRows, scopeFilteredRows, List.filter_filter]
    refine List.filter_congr (fun row _ => ?_)
    rw [Bool.and_left_comm, Bool.and_self, Bool.and_comm]
  rw [localViewRows, hrows]
  rfl

/-- **Cutting a snapshot first changes no answer.** -/
theorem serve_cut {context : DecimalContext} {hit : CacheHit operation} {request : ViewRequest}
    {result : ResourceFetchResult} (h : hit.serve context request = .ok result) :
    (hit.cut request.params request.window).serve context request = .ok result := by
  simp only [serve, projectRows, Except.bind_eq_ok, Except.pure_eq_ok] at h ⊢
  obtain ⟨rows, ⟨detail, hdetail, ⟨⟩, hvalid, view, hview, hrows⟩, rfl⟩ := h
  exact ⟨rows, ⟨_, detailRows_cut hdetail _ _, ⟨⟩, validateTimeAnchors_timeSlicedRows hvalid _ _, view,
    (localViewRows_timeSlicedRows detail _ _ _ _).trans hview, hrows⟩, rfl⟩

/-- Snapshots with the same rows and the same names of totals give the same answers. -/
theorem answer_of_rows_eq {context : DecimalContext} {left right : CacheHit operation}
    {request : ViewRequest} {served served' : ResourceFetchResult} (hrows : left.rows = right.rows)
    (hkeys : ∀ key, key ∈ footerKeys left.footer ↔ key ∈ footerKeys right.footer)
    (hleft : left.serve context request = .ok served)
    (hright : right.serve context request = .ok served') : served.answer = served'.answer := by
  have hvisible := congrArg (fun rows => scopeFilteredRows rows request.filters request.role) hrows
  have hanswer := (serve_eq_visibleAnswer hleft).symm.trans
    ((visibleAnswer_congr context operation request _ hkeys).trans
      ((congrArg (fun rows => visibleAnswer context operation request rows right.footer) hvisible).trans
        (serve_eq_visibleAnswer hright)))
  exact Except.ok.inj hanswer

/-- **Window independence.** Each window that is probed for a question covers it, so the rows that are
dated in it hold all the rows of the question. Whenever a snapshot of such a window is served, the
snapshot cut to the days of the question is served with the same answer; and so is every snapshot of
another window that holds the same rows for these days, if it is served. -/
theorem serve_window_independent {policy : ResultCachePolicy} {today : Today policy}
    {request : ViewRequest} {window : String × String}
    (hprobed : window ∈ candidateWindows policy today request.window) :
    Covers window request.window
      ∧ (∀ rows : List Row, (rows.filter (snapshotDatedIn operation request.params window)).filter
            (snapshotDatedIn operation request.params request.window)
          = rows.filter (snapshotDatedIn operation request.params request.window))
      ∧ ∀ (context : DecimalContext) (hit : CacheHit operation) (result : ResourceFetchResult),
          hit.window = window → hit.serve context request = .ok result →
          (hit.cut request.params request.window).serve context request = .ok result ∧
            ∀ (other : CacheHit operation) (result' : ResourceFetchResult),
              (other.cut request.params request.window).rows
                  = (hit.cut request.params request.window).rows →
              (∀ key, key ∈ footerKeys other.footer ↔ key ∈ footerKeys hit.footer) →
              other.serve context request = .ok result' → result'.answer = result.answer := by
  have hcovers := covers_of_mem_candidateWindows hprobed
  refine ⟨hcovers, filter_snapshotDatedIn_of_covers hcovers, fun context hit result _ hserved =>
    ⟨serve_cut hserved, fun other result' hrows hkeys hother => ?_⟩⟩
  exact answer_of_rows_eq hrows hkeys (serve_cut hother) (serve_cut hserved)

/-- A snapshot that was prefetched on 16 September. -/
def ofPrefetched : CacheHit .progress :=
  { ofTwoDepartments "6" with window := ("2025-09-16", "2026-09-15") }

/-- A question for the first half of the month. -/
def ofFirstHalf : ViewRequest :=
  { ViewRequest.ofFirstDepartment with window := ("2026-09-01", "2026-09-15") }

/-- The prefetched snapshot is served as its first half of the month is. -/
theorem serve_window_independent_prefetched :
    Covers ofPrefetched.window ofFirstHalf.window
      ∧ ∃ result, ofPrefetched.serve .python ofFirstHalf = .ok result
        ∧ (ofPrefetched.cut ofFirstHalf.params ofFirstHalf.window).serve .python ofFirstHalf
          = .ok result := by
  obtain ⟨result, hserved⟩ := Except.exists_eq_ok_of_isOk
    (x := ofPrefetched.serve .python ofFirstHalf) (by decide +kernel)
  have hprobed : ofPrefetched.window
      ∈ candidateWindows ⟨365, 90, 86400⟩ ⟨739875, by decide, by decide⟩ ofFirstHalf.window := by
    decide +kernel
  obtain ⟨hcovers, -, hcut⟩ := serve_window_independent hprobed
  exact ⟨hcovers, result, hserved, (hcut .python ofPrefetched result rfl hserved).1⟩

end CacheHit
