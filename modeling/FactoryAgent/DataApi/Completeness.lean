import Mathlib.Data.List.Forall2
import Mathlib.Data.List.Perm.Basic
import FactoryAgent.DataApi.Pagination
import FactoryAgent.Lib.Except

/-!
# A good server is read completely

The guards of the pager are there for servers that do not add up. This module says that none of them fires on
a server that does: one that cuts a fixed dataset into pages of the requested size, or of its own cap where
that is smaller, and reports the size of the dataset every time. The fetch then ends and holds the dataset in
order (`fetchAll_complete`), at exact multiples of the page size, for an empty dataset and for one as large as
the row budget as well.

Two conditions are about the pages. The pager takes two pages with the same rows for one that was answered
twice, so the pages have to differ; and it asks for no more pages than its budget allows.
-/

variable {Raw Item ε : Type}

/-- **The `page`-th slice** of a dataset, counted from one. -/
def slice {α : Type} (rows : List α) (size page : Nat) : List α :=
  (rows.drop ((page - 1) * size)).take size

/-- How many pages a dataset has; an empty one has an empty page. -/
def pageCount (total size : Nat) : Nat :=
  max 1 ((total + size - 1) / size)

/-- **An honest server** over a dataset, whatever footers it adds: page `page` at size `size` is the slice of
that size, or of the cap of the server, and the total is the size of the dataset. -/
def Honest (query : PagedQuery Raw Item) (rows : List Raw) (cap : Nat) (server : Server Raw ε) : Prop :=
  ∀ earlier page size, ∃ footer, server (earlier ++ [query.page page size])
    = .ok ⟨some (some (slice rows (min size cap) page), rows.length), footer⟩

/-- The page size of the walk: the ceiling, where the dataset is larger than the first probe. -/
def PagerBudget.walkSize (budget : PagerBudget) (total : Nat) : Nat :=
  if total > budget.pageSize ∧ budget.pageSizeCeiling > budget.pageSize then budget.pageSizeCeiling
  else budget.pageSize

/-- **A budget as it is configured**: its settings are declared with `ge=1`. -/
structure PagerBudget.Configured (budget : PagerBudget) : Prop where
  maxRows : 1 ≤ budget.maxRows
  pageSize : 1 ≤ budget.pageSize

/-- **The pages of a dataset have different rows.** -/
def PagesDiffer (items : List Item) (size : Nat) : Prop :=
  ∀ page page', 1 ≤ page → page < page' → page' ≤ pageCount items.length size →
    ¬ (slice items size page).Perm (slice items size page')

/-- **A complete result with these rows.** -/
structure PagedResult.Holds (result : PagedResult Item) (dataset : List Item) : Prop where
  complete : result.complete = true
  items : result.items = dataset
  total : result.total = dataset.length

/-- **A fetch that ended with these rows.** -/
def Fetch.Holds (fetch : Fetch Raw Item ε) (dataset : List Item) : Prop :=
  ∃ result, fetch.outcome = .ok result ∧ result.Holds dataset

/-- An iteration ends the fetch with these rows, or leads to a pager of this kind. -/
def Iteration.Approaches (iteration : Iteration Item ε) (items : List Item) (goesOn : Pager Item → Prop) :
    Prop :=
  match iteration with
  | .next pager => goesOn pager
  | .finish result => result.Holds items
  | .raise _ => False

/-- A weaker kind of pager. -/
theorem Iteration.Approaches.mono {iteration : Iteration Item ε} {items : List Item}
    {goesOn goesOn' : Pager Item → Prop} (h : iteration.Approaches items goesOn)
    (hmono : ∀ pager, goesOn pager → goesOn' pager) : iteration.Approaches items goesOn' := by
  cases iteration with
  | next pager => exact hmono pager h
  | finish result => exact h
  | raise error => exact h

/-! ## Slices -/

section Slices

variable {α : Type} {rows : List α} {size page : Nat}

/-- How long a slice is. -/
theorem length_slice : (slice rows size page).length = min size (rows.length - (page - 1) * size) := by
  rw [slice, List.length_take, List.length_drop]

/-- The slices so far and the next one are the slices up to that. -/
theorem take_append_slice (count : Nat) :
    rows.take (count * size) ++ slice rows size (count + 1) = rows.take ((count + 1) * size) := by
  rw [slice, Nat.add_sub_cancel, Nat.succ_mul, List.take_add]

/-- Rows are validated slice by slice. -/
theorem mapM_slice {query : PagedQuery Raw Item} {rows : List Raw} {items : List Item}
    (h : rows.mapM query.validate = some items) (size page : Nat) :
    (slice rows size page).mapM query.validate = some (slice items size page) :=
  Option.mapM_eq_some_iff.mpr (List.forall₂_take _ (List.forall₂_drop _ (Option.mapM_eq_some_iff.mp h)))

/-- Before the rows are all there, there is a page left. -/
theorem lt_pageCount {total count : Nat} (hsize : 1 ≤ size) (h : count * size < total) :
    count < pageCount total size := by
  have hpages : count + 1 ≤ (total + size - 1) / size := by
    rw [Nat.le_div_iff_mul_le hsize, Nat.succ_mul]
    omega
  exact Nat.lt_of_lt_of_le hpages (Nat.le_max_right 1 _)

end Slices

/-! ## The pages so far -/

section Collecting

variable {budget : PagerBudget} {query : PagedQuery Raw Item} {dataset : List Item}
  {cap width count : Nat} {pager : Pager Item}

/-- **The pager holds the first pages of a dataset**, and there are more. `width` is the size of the pages
that come, `count` how many have. -/
structure Pager.Collecting (pager : Pager Item) (query : PagedQuery Raw Item) (dataset : List Item)
    (cap width count : Nat) : Prop where
  expected : pager.expectedTotal = some dataset.length
  number : pager.pageNumber = count + 1
  size : min pager.size cap = width
  items : pager.items = dataset.take (count * width)
  left : count * width < dataset.length
  seen : ∀ fingerprint ∈ pager.seenPages,
    ∃ page, 1 ≤ page ∧ page ≤ count ∧ fingerprint = .of query.repr (slice dataset width page)

namespace Pager

/-- A page of a dataset whose pages differ was not seen before. -/
theorem Collecting.fresh (h : pager.Collecting query dataset cap width count)
    (hrepr : Function.Injective query.repr) (hsize : 1 ≤ width) (hdiffer : PagesDiffer dataset width) :
    PageFingerprint.of query.repr (slice dataset width (count + 1)) ∉ pager.seenPages := by
  intro hmem
  obtain ⟨page, hfirst, hle, heq⟩ := h.seen _ hmem
  have hperm : ((slice dataset width page).map query.repr).Perm
      ((slice dataset width (count + 1)).map query.repr) := by
    have hsorted := congrArg PageFingerprint.key heq
    have hnew : ((slice dataset width (count + 1)).map query.repr).mergeSort.Perm _ := List.mergeSort_perm _ _
    exact (List.mergeSort_perm _ _).symm.trans (List.Perm.trans (.of_eq hsorted.symm) hnew)
  exact hdiffer page (count + 1) hfirst (Nat.lt_succ_of_le hle) (lt_pageCount hsize h.left)
    ((List.map_perm_map_iff hrepr).mp hperm)

/-- **The next page of the dataset joins the others**, and is the last one or not. -/
theorem Collecting.accept (h : pager.Collecting query dataset cap width count)
    (hrepr : Function.Injective query.repr) (hsize : 1 ≤ width) (hrows : dataset.length ≤ budget.maxRows)
    (hdiffer : PagesDiffer dataset width) :
    (pager.accept (ε := ε) budget query (slice dataset width (count + 1)) dataset.length).Approaches dataset
      (·.Collecting query dataset cap width (count + 1)) := by
  have hfresh := h.fresh hrepr hsize hdiffer
  have hjoined : pager.items ++ slice dataset width (count + 1) = dataset.take ((count + 1) * width) := by
    rw [h.items, take_append_slice]
  have hleft := h.left
  have hpage : slice dataset width (count + 1) ≠ [] := by
    refine List.ne_nil_of_length_pos ?_
    rw [length_slice, Nat.add_sub_cancel]
    omega
  unfold Pager.accept
  dsimp only
  rw [if_neg (fun hseen => hfresh hseen.2), hjoined, List.length_take,
    if_neg (Nat.not_lt.mpr (Nat.min_le_right _ _)),
    if_neg (Nat.not_lt.mpr (Nat.le_trans (Nat.min_le_right _ _) hrows))]
  by_cases hall : dataset.length ≤ (count + 1) * width
  · rw [if_pos (Nat.min_eq_right hall)]
    exact ⟨rfl, List.take_of_length_le hall, rfl⟩
  · rw [if_neg (by omega), if_neg hpage]
    exact
      { expected := h.expected, number := congrArg (· + 1) h.number, size := h.size, items := rfl
        left := Nat.lt_of_not_le hall
        seen := fun fingerprint hmem => by
          rw [if_neg hpage] at hmem
          rcases List.mem_append.mp hmem with hold | hnew
          · obtain ⟨page, hfirst, hle, heq⟩ := h.seen _ hold
            exact ⟨page, hfirst, Nat.le_succ_of_le hle, heq⟩
          · exact ⟨count + 1, Nat.le_add_left 1 count, Nat.le_refl _, List.mem_singleton.mp hnew⟩ }

/-- The footer plays no part. -/
theorem Collecting.withFooter (h : pager.Collecting query dataset cap width count) (footer : Option Footer) :
    { pager with footer := footer }.Collecting query dataset cap width count :=
  ⟨h.expected, h.number, h.size, h.items, h.left, h.seen⟩

/-- **The server sends the next page.** -/
theorem Collecting.receive (h : pager.Collecting query dataset cap width count)
    (hrepr : Function.Injective query.repr) (hwidth : 1 ≤ width) (hrows : dataset.length ≤ budget.maxRows)
    (hdiffer : PagesDiffer dataset width) {response : MesResponse Raw}
    (hread : response.read (ε := ε) query = .ok (slice dataset width (count + 1), dataset.length)) :
    (pager.receive (ε := ε) budget query response).Approaches dataset
      (·.Collecting query dataset cap width (count + 1)) := by
  unfold Pager.receive
  dsimp only
  rw [hread]
  dsimp only
  rw [h.expected]
  dsimp only
  rw [if_neg (fun hne => hne rfl)]
  have haccept := (h.withFooter (response.footer.or pager.footer)).accept (ε := ε) hrepr hwidth hrows
    hdiffer
  rwa [h.expected] at haccept

/-- The pager before its first response, once that has named the total of a dataset with rows. -/
theorem collecting_zero {size : Nat} (footer : Option Footer) (resized : Bool) (hleft : 0 < dataset.length) :
    Collecting
      { expectedTotal := some dataset.length, footer := footer, size := size, resized := resized }
      query dataset cap (min size cap) 0 where
  expected := rfl
  number := rfl
  size := rfl
  items := by rw [Nat.zero_mul, List.take_zero]
  left := by rwa [Nat.zero_mul]
  seen := fun _ hmem => absurd hmem List.not_mem_nil

/-- **The first response** is the whole dataset, or tells the pager to begin again at the ceiling, or is its
first page. -/
theorem receive_start_approaches (hrepr : Function.Injective query.repr) (hbudget : budget.Configured) (hcap : 1 ≤ cap)
    (hrows : dataset.length ≤ budget.maxRows)
    (hdiffer : PagesDiffer dataset (min (budget.walkSize dataset.length) cap)) {response : MesResponse Raw}
    (hread : response.read (ε := ε) query
      = .ok (slice dataset (min budget.pageSize cap) 1, dataset.length)) :
    ((start budget).receive (ε := ε) budget query response).Approaches dataset fun pager =>
      ∃ count ≤ 1,
        pager.Collecting query dataset cap (min (budget.walkSize dataset.length) cap) count := by
  have hlength : (slice dataset (min budget.pageSize cap) 1).length ≤ dataset.length := by
    rw [length_slice]
    omega
  unfold Pager.receive
  dsimp only
  rw [hread]
  dsimp only [start]
  unfold Pager.receiveFirst
  dsimp only
  rw [if_neg (Nat.not_lt.mpr hlength), if_neg (Nat.not_lt.mpr (Nat.le_trans hlength hrows))]
  by_cases hwhole : (slice dataset (min budget.pageSize cap) 1).length = dataset.length
  · rw [if_pos hwhole]
    refine ⟨rfl, ?_, rfl⟩
    rw [slice, Nat.sub_self, Nat.zero_mul, List.drop_zero] at hwhole ⊢
    exact List.take_of_length_le (by rw [List.length_take] at hwhole; omega)
  have hleft : 0 < dataset.length := by omega
  rw [if_neg hwhole]
  by_cases hresize : dataset.length > budget.pageSize ∧ budget.pageSizeCeiling > budget.pageSize
  · rw [if_pos ⟨rfl, hresize⟩, PagerBudget.walkSize, if_pos hresize]
    exact ⟨0, Nat.zero_le 1, collecting_zero _ true hleft⟩
  · rw [PagerBudget.walkSize, if_neg hresize] at hdiffer ⊢
    rw [if_neg (fun hall => hresize hall.2)]
    have hpage : 1 ≤ min budget.pageSize cap := Nat.le_min.mpr ⟨hbudget.pageSize, hcap⟩
    have hstart : Collecting _ query dataset cap (min budget.pageSize cap) 0 :=
      collecting_zero (response.footer.or none) false hleft
    exact (hstart.accept hrepr hpage hrows hdiffer).mono
      fun _ hcollecting => ⟨1, Nat.le_refl 1, hcollecting⟩

end Pager

end Collecting

/-! ## The whole fetch -/

section Fetches

variable {budget : PagerBudget} {query : PagedQuery Raw Item} {rows : List Raw} {items : List Item}
  {cap count : Nat} {server : Server Raw ε} {pager : Pager Item}

/-- What the server answers is read as a slice of the validated rows. -/
theorem Honest.read (h : Honest query rows cap server) (hitems : rows.mapM query.validate = some items)
    (earlier : List PageRequest) (page size : Nat) :
    ∃ response, server (earlier ++ [query.page page size]) = .ok response
      ∧ response.read (ε := ε) query = .ok (slice items (min size cap) page, items.length) := by
  obtain ⟨footer, hresponse⟩ := h earlier page size
  refine ⟨_, hresponse, ?_⟩
  have hlength : rows.length = items.length := (Option.mapM_eq_some_iff.mp hitems).length_eq
  unfold MesResponse.read
  dsimp only
  rw [if_neg (Int.not_lt.mpr (Int.natCast_nonneg _)), mapM_slice hitems, hlength]
  rfl

namespace Pager

/-- No budget is exhausted while pages are missing. -/
theorem Collecting.exhausted_eq_none {width : Nat} (h : pager.Collecting query items cap width count)
    (hwidth : 1 ≤ width) (hrows : items.length ≤ budget.maxRows)
    (hpages : pageCount items.length width ≤ budget.maxPages) : pager.exhausted budget = none := by
  have hpage := lt_pageCount hwidth h.left
  have hleft := h.left
  unfold exhausted
  rw [if_neg (by rw [h.number]; omega), if_neg]
  rw [h.items, List.length_take]
  omega

/-- **The loop of a pager that holds the first pages** ends with all of them. -/
theorem Collecting.fetchLoop_holds {width fuel : Nat} {exchanges : List (Exchange Raw ε)}
    (h : pager.Collecting query items cap width count) (hserver : Honest query rows cap server)
    (hitems : rows.mapM query.validate = some items) (hrepr : Function.Injective query.repr)
    (hwidth : 1 ≤ width) (hrows : items.length ≤ budget.maxRows) (hdiffer : PagesDiffer items width)
    (hpages : pageCount items.length width ≤ budget.maxPages)
    (hfuel : pageCount items.length width ≤ fuel + count) :
    ∃ fetch, fetchLoop budget query server fuel pager exchanges = some fetch ∧ fetch.Holds items := by
  induction fuel generalizing pager count exchanges with
  | zero =>
    have hpage := lt_pageCount hwidth h.left
    omega
  | succ fuel ih =>
    unfold fetchLoop
    rw [h.exhausted_eq_none hwidth hrows hpages]
    obtain ⟨response, hresponse, hread⟩ :=
      hserver.read hitems (exchanges.map (·.request)) pager.pageNumber pager.size
    dsimp only
    rw [hresponse]
    rw [h.number, h.size] at hread
    have hstep := h.receive hrepr hwidth hrows hdiffer hread
    dsimp only
    revert hstep
    cases pager.receive (ε := ε) budget query response with
    | next pager' => exact fun hcollecting => ih hcollecting (by omega)
    | finish result => exact fun hholds => ⟨_, rfl, result, rfl, hholds⟩
    | raise error => exact False.elim

end Pager

/-- **Pager completeness.** Over a dataset that fits in the budget and whose pages differ, an honest server is
read completely: the fetch ends with exactly the rows of the dataset, in order, and says that it is
complete. -/
theorem fetchAll_complete (hbudget : budget.Configured) (hrepr : Function.Injective query.repr)
    (hitems : rows.mapM query.validate = some items) (hcap : 1 ≤ cap)
    (hserver : Honest query rows cap server)
    (hrows : items.length ≤ budget.maxRows)
    (hdiffer : PagesDiffer items (min (budget.walkSize items.length) cap))
    (hpages : pageCount items.length (min (budget.walkSize items.length) cap) ≤ budget.maxPages) :
    ∃ fetch, fetchAll budget query server = some fetch ∧ fetch.Holds items := by
  have hwalk : 1 ≤ budget.walkSize items.length := by
    unfold PagerBudget.walkSize
    split
    · exact Nat.le_of_lt (Nat.lt_of_le_of_lt hbudget.pageSize (by omega))
    · exact hbudget.pageSize
  have hwidth := Nat.le_min.mpr ⟨hwalk, hcap⟩
  have hfirst : 1 ≤ budget.maxPages := Nat.le_trans (Nat.le_max_left 1 _) hpages
  have hmaxRows := hbudget.maxRows
  unfold fetchAll fetchLoop
  have hexhausted : (@Pager.start Item budget).exhausted budget = none := by
    unfold Pager.exhausted
    rw [if_neg (by exact Nat.not_lt.mpr hfirst), if_neg (by exact Nat.not_le.mpr hmaxRows)]
  rw [hexhausted]
  obtain ⟨response, hresponse, hread⟩ := hserver.read hitems [] 1 budget.pageSize
  dsimp only [Pager.start]
  rw [show ([] : List (Exchange Raw ε)).map (·.request) = [] from rfl]
  rw [hresponse]
  have hstep := Pager.receive_start_approaches hrepr hbudget hcap hrows hdiffer hread
  dsimp only
  revert hstep
  unfold Pager.start
  cases Pager.receive (ε := ε) _ budget query response with
  | next pager =>
    rintro ⟨count, -, hcollecting⟩
    exact hcollecting.fetchLoop_holds hserver hitems hrepr hwidth hrows hdiffer hpages (by omega)
  | finish result => exact fun hholds => ⟨_, rfl, result, rfl, hholds⟩
  | raise error => exact False.elim

/-- Three rows in pages of two: the last page is not full. -/
theorem fetchAll_complete_threeRows :
    ∃ fetch : Fetch String String Unit,
      fetchAll { pageSize := 2, pageSizeCeiling := 2 }
        ⟨"1", ∅, some, fun name => "Row(name='" ++ name ++ "')", "list"⟩
        (fun requests => .ok ⟨some (some (slice ["a", "b", "c"]
          (min ((requests.getLast?.map (·.size)).getD 0) 5) ((requests.getLast?.map (·.page)).getD 0)), 3),
          none⟩) = some fetch
      ∧ fetch.Holds ["a", "b", "c"] :=
  fetchAll_complete ⟨by decide, by decide⟩
    (fun _ _ heq => (String.append_right_inj _).mp ((String.append_left_inj _).mp heq)) rfl
    (by decide : 1 ≤ 5)
    (fun earlier page size => ⟨none, by
      show Except.ok _ = _
      rw [List.getLast?_append, List.getLast?_singleton]
      rfl⟩)
    (by decide)
    (fun page page' hfirst hlt hle hperm => by
      have hlast : page' ≤ 2 := hle
      obtain ⟨rfl, rfl⟩ : page = 1 ∧ page' = 2 := by omega
      exact absurd hperm.length_eq (by decide))
    (by decide)

end Fetches
