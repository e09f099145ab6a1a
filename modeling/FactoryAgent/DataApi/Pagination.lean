import FactoryAgent.Cache.Rows

/-!
# The bounded pager

`BoundedPager.fetch_all` of `data_api/pagination.py`: it walks the pages of an operation until the rows
it holds are as many as the reported total, restarts once at the page-size ceiling when the first page
shows that the window needs more than one, and gives up with a reason on anything that does not add up.

The server is a function of the requests made so far, so what it answers may change between two
requests for the same page. What the pager holds between two requests is a `Pager`; one response leads
to another request, to a result or to an exception (`Pager.receive`), and `fetchLoop` is the loop with
a bound on its iterations.
-/

/-- `PagerBudget`. -/
structure PagerBudget where
  maxPages : Nat := 20
  maxRows : Nat := 250000
  pageSize : Nat := 20000
  /-- The size of every page after the first probe. -/
  pageSizeCeiling : Nat := 50000
  deriving DecidableEq, Repr

/-- **A request for one page**: the parameters that every page shares, with `page` and `size`. -/
structure PageRequest where
  operationId : String
  baseParams : Params
  page : Nat
  size : Nat
  deriving DecidableEq

/-- **What is fetched**: an operation with the parameters that every page shares, the schema of a row
(`validate`) and Python's `repr` of one. -/
structure PagedQuery (Raw Item : Type) where
  operationId : String
  baseParams : Params
  validate : Raw → Option Item
  repr : Item → String
  listKey : String := "list"

/-- The request for one page. -/
def PagedQuery.page {Raw Item : Type} (query : PagedQuery Raw Item) (page size : Nat) :
    PageRequest :=
  ⟨query.operationId, query.baseParams, page, size⟩

/-- **A response**, as the pager reads it. -/
structure MesResponse (Raw : Type) where
  /-- `result[list_key]` and `int(result[total_key])`, where both can be read. Rows that cannot be
  iterated over are `none`. -/
  envelope : Option (Option (List Raw) × Int)
  footer : Option Footer

/-- The exceptions that leave `fetch_all`. -/
inductive PagerError (ε : Type) where
  /-- `UpstreamInvalidError` -/
  | upstreamInvalid (message : String)
  /-- `TypeError`, from rows that cannot be iterated over -/
  | notIterable
  /-- What the adapter raised. -/
  | adapter (error : ε)
  deriving DecidableEq, Repr

/-- `PagedResult`. -/
structure PagedResult (Item : Type) where
  items : List Item
  total : Nat
  pagesFetched : Nat
  complete : Bool
  reason : Option String := none
  footer : Option Footer := none
  deriving DecidableEq

/-- `MesFetchProgress`: what a waiting user is told. -/
structure MesFetchProgress where
  page : Nat
  rows : Nat
  total : Nat
  deriving DecidableEq, Repr

/-- `PageFingerprint`: the texts of the rows of a page, sorted. -/
structure PageFingerprint where
  key : List String
  deriving DecidableEq, Repr

/-- `PageFingerprint.of`; `repr` is Python's. -/
def PageFingerprint.of {Item : Type} (repr : Item → String) (items : List Item) : PageFingerprint :=
  ⟨(items.map repr).mergeSort⟩

/-- **A page does not change its fingerprint with the order of its rows.** -/
theorem PageFingerprint.of_perm {Item : Type} {repr : Item → String} {items items' : List Item}
    (h : items.Perm items') : of repr items = of repr items' := by
  have hsorted (texts : List String) : (texts.mergeSort).Pairwise (· ≤ ·) :=
    List.pairwise_mergeSort' (· ≤ ·) texts
  have hperm : ((items.map repr).mergeSort).Perm ((items'.map repr).mergeSort) :=
    (List.mergeSort_perm _ _).trans ((h.map repr).trans (List.mergeSort_perm _ _).symm)
  exact congrArg mk (hperm.eq_of_pairwise (fun _ _ _ _ => String.le_antisymm) (hsorted _) (hsorted _))

/-- **What the pager holds between two requests.** -/
structure Pager (Item : Type) where
  items : List Item := []
  seenPages : List PageFingerprint := []
  expectedTotal : Option Nat := none
  footer : Option Footer := none
  pageNumber : Nat := 1
  size : Nat
  resized : Bool := false
  published : List MesFetchProgress := []
  deriving DecidableEq

/-- What one response leads to. -/
inductive Iteration (Item ε : Type) where
  | next (pager : Pager Item)
  | finish (result : PagedResult Item)
  | raise (error : PagerError ε)
  deriving DecidableEq

variable {Raw Item ε : Type}

/-- The rows and the total of a response, or the exception that reading it raises. -/
def MesResponse.read (response : MesResponse Raw) (query : PagedQuery Raw Item) :
    Except (PagerError ε) (List Item × Nat) :=
  match response.envelope with
  | none =>
    .error (.upstreamInvalid
      ("list envelope failed validation (list_key='" ++ query.listKey ++ "')"))
  | some (rawItems, total) =>
    if total < 0 then .error (.upstreamInvalid "list total must be nonnegative")
    else
      match rawItems with
      | none => .error .notIterable
      | some rawItems =>
        match rawItems.mapM query.validate with
        | none => .error (.upstreamInvalid "row failed schema validation")
        | some items => .ok (items, total.toNat)

namespace Pager

/-- The pager as `fetch_all` starts it. -/
def start (budget : PagerBudget) : Pager Item := { size := budget.pageSize }

/-- `total or default`, where a total of zero is replaced as well. -/
def totalOr (total : Option Nat) (default : Nat) : Nat :=
  match total with
  | none | some 0 => default
  | some total => total

/-- The budgets that are checked before a request is made. -/
def exhausted (pager : Pager Item) (budget : PagerBudget) : Option (PagedResult Item) :=
  if pager.pageNumber > budget.maxPages then
    some
      { items := pager.items
        total := totalOr pager.expectedTotal pager.items.length
        pagesFetched := pager.pageNumber - 1
        complete := false
        reason := some "page_budget_exhausted"
        footer := pager.footer }
  else if pager.items.length ≥ budget.maxRows then
    some
      { items := pager.items.take budget.maxRows
        total := totalOr pager.expectedTotal pager.items.length
        pagesFetched := pager.pageNumber - 1
        complete := false
        reason := some "row_budget_exhausted"
        footer := pager.footer }
  else none

/-- An incomplete result. -/
def incomplete (pager : Pager Item) (items : List Item) (total : Nat) (reason : String) :
    Iteration Item ε :=
  .finish
    { items := items, total := total, pagesFetched := pager.pageNumber, complete := false
      reason := some reason, footer := pager.footer }

/-- A complete result. -/
def completed (pager : Pager Item) (items : List Item) (total : Nat) : Iteration Item ε :=
  .finish
    { items := items, total := total, pagesFetched := pager.pageNumber, complete := true
      footer := pager.footer }

/-- The part of an iteration from the fingerprint on: the page joins the walk. -/
def accept (pager : Pager Item) (budget : PagerBudget) (query : PagedQuery Raw Item)
    (page : List Item) (expectedTotal : Nat) : Iteration Item ε :=
  let fingerprint := PageFingerprint.of query.repr page
  if page ≠ [] ∧ fingerprint ∈ pager.seenPages then
    pager.incomplete pager.items expectedTotal "duplicate_page"
  else
    let items := pager.items ++ page
    let pager := { pager with
      seenPages := if page = [] then pager.seenPages else pager.seenPages ++ [fingerprint]
      items := items
      published := pager.published
        ++ [MesFetchProgress.mk pager.pageNumber items.length expectedTotal] }
    if items.length > expectedTotal then
      pager.incomplete (items.take (min expectedTotal budget.maxRows)) expectedTotal "row_overflow"
    else if items.length > budget.maxRows then
      pager.incomplete (items.take budget.maxRows) expectedTotal "row_budget_exhausted"
    else if items.length = expectedTotal then pager.completed items expectedTotal
    else if page = [] then pager.incomplete items expectedTotal "missing_pages"
    else .next { pager with pageNumber := pager.pageNumber + 1 }

/-- The first response: its total is the one that every later response has to repeat. -/
def receiveFirst (pager : Pager Item) (budget : PagerBudget) (query : PagedQuery Raw Item)
    (page : List Item) (total : Nat) : Iteration Item ε :=
  let pager := { pager with expectedTotal := some total }
  if page.length > total then
    pager.incomplete (page.take (min total budget.maxRows)) total "row_overflow"
  else if page.length > budget.maxRows then
    pager.incomplete (page.take budget.maxRows) total "row_budget_exhausted"
  else if page.length = total then
    -- a source may ignore the size and return the whole window
    pager.completed (pager.items ++ page) total
  else if pager.resized = false ∧ total > pager.size ∧ budget.pageSizeCeiling > pager.size then
    .next { pager with
      size := budget.pageSizeCeiling, resized := true, items := [], seenPages := [], pageNumber := 1 }
  else pager.accept budget query page total

/-- **One response.** -/
def receive (pager : Pager Item) (budget : PagerBudget) (query : PagedQuery Raw Item)
    (response : MesResponse Raw) : Iteration Item ε :=
  let pager := { pager with footer := response.footer.or pager.footer }
  match response.read query with
  | .error error => .raise error
  | .ok (page, total) =>
    match pager.expectedTotal with
    | none => pager.receiveFirst budget query page total
    | some expectedTotal =>
      if expectedTotal ≠ total then pager.incomplete pager.items total "total_drift"
      else pager.accept budget query page expectedTotal

end Pager

/-- A request and what the server answered. -/
structure Exchange (Raw ε : Type) where
  request : PageRequest
  response : Except ε (MesResponse Raw)

/-- **A fetch that ended**: every request with its response, in order, and the outcome. -/
structure Fetch (Raw Item ε : Type) where
  exchanges : List (Exchange Raw ε)
  outcome : Except (PagerError ε) (PagedResult Item)

/-- The server: its answer to the last of the requests made so far. -/
abbrev Server (Raw ε : Type) := List PageRequest → Except ε (MesResponse Raw)

/-- **The loop** of `fetch_all`, for at most `fuel` iterations. -/
def fetchLoop (budget : PagerBudget) (query : PagedQuery Raw Item) (server : Server Raw ε) :
    Nat → Pager Item → List (Exchange Raw ε) → Option (Fetch Raw Item ε)
  | 0, _, _ => none
  | fuel + 1, pager, exchanges =>
    match pager.exhausted budget with
    | some result => some ⟨exchanges, .ok result⟩
    | none =>
      let request := query.page pager.pageNumber pager.size
      let response := server (exchanges.map (·.request) ++ [request])
      let exchanges := exchanges ++ [⟨request, response⟩]
      match response with
      | .error error => some ⟨exchanges, .error (.adapter error)⟩
      | .ok response =>
        match pager.receive (ε := ε) budget query response with
        | .next pager => fetchLoop budget query server fuel pager exchanges
        | .finish result => some ⟨exchanges, .ok result⟩
        | .raise error => some ⟨exchanges, .error error⟩

/-- **`fetch_all`**: the loop, with more iterations than it can make. -/
def fetchAll (budget : PagerBudget) (query : PagedQuery Raw Item) (server : Server Raw ε) :
    Option (Fetch Raw Item ε) :=
  fetchLoop budget query server (budget.maxPages + 2) (Pager.start budget) []
