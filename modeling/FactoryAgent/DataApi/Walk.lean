import FactoryAgent.DataApi.Pagination

/-!
# What a complete fetch proves

A fetch that reports completeness has read one walk: the pages `1, 2, …` at one size, each answered
with the same total, and none with the rows of another (`IsWalk`). Before it there may be one probe, at
a smaller size. The invariant of the loop (`Pager.Walking`) is that the rows in memory are those of the
walk so far; a response either extends the walk by its page or ends the fetch.
-/

variable {Raw Item ε : Type}

/-- The rows and the total of an exchange, where they could be read. -/
def Exchange.read (exchange : Exchange Raw ε) (query : PagedQuery Raw Item) :
    Option (List Item × Nat) :=
  match exchange.response with
  | .error _ => none
  | .ok response => (response.read (ε := ε) query).toOption

/-- **A walk**: the pages from the first one on, all of one size. Each was answered with the total, and
no two pages that are not empty carry the same rows in any order. -/
structure IsWalk (query : PagedQuery Raw Item) (size total : Nat) (walk : List (Exchange Raw ε))
    (pages : List (List Item)) : Prop where
  requests : walk.map (·.request)
    = (List.range' 1 pages.length).map (fun number => query.page number size)
  reads : walk.map (·.read query) = pages.map (fun page => some (page, total))
  distinct : pages.Pairwise (fun a b => a ≠ [] → ¬ a.Perm b)

/-- **What comes before a walk**: nothing, or a first page at a smaller size. -/
def IsProbe (budget : PagerBudget) (query : PagedQuery Raw Item) (size : Nat)
    (probe : List (Exchange Raw ε)) : Prop :=
  (probe = [] ∧ size = budget.pageSize) ∨
    (budget.pageSize < budget.pageSizeCeiling ∧ size = budget.pageSizeCeiling
      ∧ ∃ exchange, probe = [exchange] ∧ exchange.request = query.page 1 budget.pageSize)

/-- **A result that its exchanges prove complete**: the rows are those of one walk in order, they are
as many as the total, and no response of the fetch reported another total. -/
def PagedResult.Proved (result : PagedResult Item) (budget : PagerBudget)
    (query : PagedQuery Raw Item) (exchanges : List (Exchange Raw ε)) : Prop :=
  ∃ size probe walk pages, exchanges = probe ++ walk ∧ IsProbe budget query size probe
    ∧ IsWalk query size result.total walk pages ∧ pages.length = result.pagesFetched
    ∧ result.items = pages.flatten ∧ result.items.length = result.total
    ∧ ∀ exchange ∈ exchanges, (exchange.read query).map (·.2) = some result.total

/-- **What one response leads to**: a pager with the first property, or a result with the second. An
exception leads to neither. -/
def Iteration.Leads (iteration : Iteration Item ε) (goesOn : Pager Item → Prop)
    (ends : PagedResult Item → Prop) : Prop :=
  match iteration with
  | .next pager => goesOn pager
  | .finish result => ends result
  | .raise _ => True

/-- What leads to more leads to less. -/
theorem Iteration.Leads.mono {iteration : Iteration Item ε} {goesOn goesOn' : Pager Item → Prop}
    {ends : PagedResult Item → Prop} (h : iteration.Leads goesOn ends)
    (hgoesOn : ∀ pager, goesOn pager → goesOn' pager) : iteration.Leads goesOn' ends := by
  cases iteration with
  | next pager => exact hgoesOn pager h
  | finish result => exact h
  | raise error => exact h

/-- A result within the row budget that is proved if it is complete. -/
def PagedResult.Sound (result : PagedResult Item) (budget : PagerBudget)
    (query : PagedQuery Raw Item) (exchanges : List (Exchange Raw ε)) : Prop :=
  result.items.length ≤ budget.maxRows
    ∧ (result.complete = true → result.Proved budget query exchanges)

/-- **A sound fetch.** -/
structure Fetch.Sound (fetch : Fetch Raw Item ε) (budget : PagerBudget)
    (query : PagedQuery Raw Item) : Prop where
  /-- One request for each page that may be asked for, and one for the probe. -/
  requests : fetch.exchanges.length ≤ budget.maxPages + 1
  result : ∀ result, fetch.outcome = .ok result → result.Sound budget query fetch.exchanges

/-- **The invariant of the loop**, once a total was reported: the rows in memory are those of the walk
so far. -/
structure Pager.Walking (pager : Pager Item) (budget : PagerBudget) (query : PagedQuery Raw Item)
    (total : Nat) (probe walk : List (Exchange Raw ε)) (pages : List (List Item)) : Prop where
  expected : pager.expectedTotal = some total
  isProbe : IsProbe budget query pager.size probe
  isWalk : IsWalk query pager.size total walk pages
  number : pager.pageNumber = pages.length + 1
  items : pager.items = pages.flatten
  seen : ∀ page ∈ pages, page ≠ [] → PageFingerprint.of query.repr page ∈ pager.seenPages
  rows : pager.items.length ≤ budget.maxRows
  totals : ∀ exchange : Exchange Raw ε, exchange ∈ probe ++ walk →
    (exchange.read query).map (·.2) = some total

section Walks

variable {budget : PagerBudget} {query : PagedQuery Raw Item} {size total : Nat}
  {probe walk : List (Exchange Raw ε)} {exchange : Exchange Raw ε} {pages : List (List Item)}
  {page : List Item} {pager pager' : Pager Item} {result : PagedResult Item}

/-- The walk that has not begun. -/
theorem isWalk_nil : IsWalk (ε := ε) query size total [] [] :=
  ⟨rfl, rfl, List.Pairwise.nil⟩

/-- One more page of rows that the walk has not had. -/
theorem IsWalk.concat (h : IsWalk query size total walk pages)
    (hrequest : exchange.request = query.page (pages.length + 1) size)
    (hread : exchange.read query = some (page, total))
    (hnew : ∀ earlier ∈ pages, earlier ≠ [] → ¬ earlier.Perm page) :
    IsWalk query size total (walk ++ [exchange]) (pages ++ [page]) where
  requests := by
    rw [List.map_append, h.requests, List.length_append, List.length_singleton, List.range'_concat,
      List.map_append, List.map_singleton, List.map_singleton, hrequest, Nat.one_mul, Nat.add_comm 1]
  reads := by
    rw [List.map_append, List.map_append, h.reads, List.map_singleton, List.map_singleton, hread]
  distinct := List.pairwise_append.mpr ⟨h.distinct, List.pairwise_singleton _ _,
    fun earlier he later hl => List.mem_singleton.mp hl ▸ hnew earlier he⟩

namespace Pager

/-- Each total so far is the one of the walk, and so is that of one more exchange. -/
theorem Walking.totals_concat (h : pager.Walking budget query total probe walk pages)
    (hread : exchange.read query = some (page, total)) (other : Exchange Raw ε)
    (hother : other ∈ probe ++ (walk ++ [exchange])) :
    (other.read query).map (·.2) = some total := by
  rw [← List.append_assoc] at hother
  rcases List.mem_append.mp hother with hold | hnew
  · exact h.totals other hold
  · rw [List.mem_singleton.mp hnew, hread]
    rfl

/-- A page that is empty, or whose fingerprint was not seen, has the rows of no earlier page. -/
theorem Walking.not_perm (h : pager.Walking budget query total probe walk pages)
    (hfresh : ¬ (page ≠ [] ∧ PageFingerprint.of query.repr page ∈ pager.seenPages)) :
    ∀ earlier ∈ pages, earlier ≠ [] → ¬ earlier.Perm page := by
  intro earlier hmem hne hperm
  have hseen := h.seen earlier hmem hne
  rw [PageFingerprint.of_perm hperm] at hseen
  exact hfresh ⟨fun hnil => hne (List.Perm.eq_nil (hnil ▸ hperm)), hseen⟩

/-- An incomplete result is sound where its rows are within the budget. -/
theorem leads_incomplete {items : List Item} {reason : String} {goesOn : Pager Item → Prop}
    {exchanges : List (Exchange Raw ε)} (h : items.length ≤ budget.maxRows) :
    (pager.incomplete (ε := ε) items total reason).Leads goesOn
      (·.Sound budget query exchanges) :=
  ⟨h, fun hcomplete => by cases hcomplete⟩

/-- **A page that joins the walk**: the walk goes on, one page longer, or the fetch ends with a sound
result. -/
theorem Walking.accept (h : pager.Walking budget query total probe walk pages)
    (hrequest : exchange.request = query.page pager.pageNumber pager.size)
    (hread : exchange.read query = some (page, total)) :
    (pager.accept (ε := ε) budget query page total).Leads
      (·.Walking budget query total probe (walk ++ [exchange]) (pages ++ [page]))
      (·.Sound budget query (probe ++ (walk ++ [exchange]))) := by
  unfold Pager.accept
  dsimp only
  by_cases hduplicate : page ≠ [] ∧ PageFingerprint.of query.repr page ∈ pager.seenPages
  · rw [if_pos hduplicate]
    exact leads_incomplete h.rows
  have hwalk := h.isWalk.concat (h.number ▸ hrequest) hread (h.not_perm hduplicate)
  have hitems : pager.items ++ page = (pages ++ [page]).flatten := by
    rw [h.items, List.flatten_append, List.flatten_singleton]
  have hnumber : (pages ++ [page]).length = pager.pageNumber := by
    rw [List.length_append, h.number, List.length_singleton]
  rw [if_neg hduplicate]
  split
  · exact leads_incomplete (Nat.le_trans (List.length_take_le _ _) (Nat.min_le_right _ _))
  split
  · exact leads_incomplete (List.length_take_le _ _)
  rename_i hover
  have hwithin : (pager.items ++ page).length ≤ budget.maxRows := Nat.le_of_not_lt hover
  split
  · rename_i htotal
    exact ⟨hwithin, fun _ => ⟨pager.size, probe, walk ++ [exchange], pages ++ [page], rfl,
      h.isProbe, hwalk, hnumber, hitems, htotal, h.totals_concat hread⟩⟩
  split
  · exact leads_incomplete hwithin
  · rename_i hne
    exact
      { expected := h.expected, isProbe := h.isProbe, isWalk := hwalk, items := hitems
        rows := hwithin, totals := h.totals_concat hread
        number := congrArg (· + 1) hnumber.symm
        seen := fun seen hseen hnonempty => by
          rcases List.mem_append.mp hseen with hold | hnew
          · exact List.mem_append_left _ (h.seen seen hold hnonempty)
          · rw [List.mem_singleton.mp hnew]
            exact List.mem_append_right _ List.mem_cons_self }

/-- The pager before its first response, once that has named a total. -/
theorem walking_start (footer : Option Footer) :
    Walking (ε := ε) { start budget with footer := footer, expectedTotal := some total }
      budget query total [] [] [] where
  expected := rfl
  isProbe := Or.inl ⟨rfl, rfl⟩
  isWalk := isWalk_nil
  number := rfl
  items := rfl
  seen := fun _ hpage => absurd hpage List.not_mem_nil
  rows := Nat.zero_le _
  totals := fun _ hexchange => absurd hexchange List.not_mem_nil

/-- The footer plays no part in a walk. -/
theorem Walking.withFooter (h : pager.Walking budget query total probe walk pages)
    (footer : Option Footer) :
    Walking { pager with footer := footer } budget query total probe walk pages :=
  { h with }

/-- **A response to a walking pager**: the walk goes on, one page longer, or the fetch ends. -/
theorem Walking.receive {response : MesResponse Raw}
    (h : pager.Walking budget query total probe walk pages)
    (hrequest : exchange.request = query.page pager.pageNumber pager.size)
    (hresponse : exchange.response = .ok response) :
    (pager.receive (ε := ε) budget query response).Leads
      (fun pager' => ∃ page,
        pager'.Walking budget query total probe (walk ++ [exchange]) (pages ++ [page]))
      (·.Sound budget query (probe ++ (walk ++ [exchange]))) := by
  have hfooter := h.withFooter (response.footer.or pager.footer)
  unfold Pager.receive
  dsimp only
  split
  · trivial
  rename_i page reported hread
  split
  · rename_i hnone
    cases h.expected.symm.trans hnone
  rename_i expected hexpected
  obtain rfl : total = expected := Option.some.inj (h.expected.symm.trans hexpected)
  split
  · exact leads_incomplete h.rows
  rename_i hsame
  have hexchange : exchange.read query = some (page, total) := by
    rw [Exchange.read, hresponse, Decidable.not_not.mp hsame]
    exact congrArg Except.toOption hread
  exact (hfooter.accept hrequest hexchange).mono (fun pager' hwalking => ⟨page, hwalking⟩)

/-- **The first response**: the walk begins with its page, or it was a probe and the walk begins
afresh at the ceiling, or the fetch ends. -/
theorem receive_start {response : MesResponse Raw}
    (hrequest : exchange.request = query.page 1 budget.pageSize)
    (hresponse : exchange.response = .ok response) :
    ((start budget).receive (ε := ε) budget query response).Leads
      (fun pager' => ∃ total probe walk pages, [exchange] = probe ++ walk
        ∧ pager'.Walking budget query total probe walk pages)
      (·.Sound budget query [exchange]) := by
  unfold Pager.receive
  dsimp only
  split
  · trivial
  rename_i page total hread
  have hexchange : exchange.read query = some (page, total) := by
    rw [Exchange.read, hresponse]
    exact congrArg Except.toOption hread
  have hstart : Walking (ε := ε) _ budget query total [] [] [] :=
    walking_start (response.footer.or none)
  have hwalk : IsWalk query budget.pageSize total [exchange] [page] :=
    isWalk_nil.concat hrequest hexchange (fun _ hmem => absurd hmem List.not_mem_nil)
  have htotals := hstart.totals_concat hexchange
  simp only [start, receiveFirst]
  split
  · exact leads_incomplete (Nat.le_trans (List.length_take_le _ _) (Nat.min_le_right _ _))
  split
  · exact leads_incomplete (List.length_take_le _ _)
  rename_i hover
  split
  · rename_i htotal
    exact ⟨Nat.le_of_not_lt hover, fun _ => ⟨budget.pageSize, [], [exchange], [page], rfl,
      Or.inl ⟨rfl, rfl⟩, hwalk, rfl, (List.append_nil page).symm, htotal, htotals⟩⟩
  split
  · rename_i hresize
    exact ⟨total, [exchange], [], [], rfl,
      { expected := rfl, isWalk := isWalk_nil, number := rfl, items := rfl
        isProbe := Or.inr ⟨hresize.2.2, rfl, exchange, rfl, hrequest⟩
        seen := fun _ hpage => absurd hpage List.not_mem_nil
        rows := Nat.zero_le _
        totals := htotals }⟩
  · exact (hstart.accept hrequest hexchange).mono
      (fun pager' hwalking => ⟨total, [], [exchange], [page], rfl, hwalking⟩)

/-- Each page of the walk was one exchange. -/
theorem Walking.length_walk (h : pager.Walking budget query total probe walk pages) :
    walk.length = pages.length := by
  have hreads := congrArg List.length h.isWalk.reads
  rwa [List.length_map, List.length_map] at hreads

/-- A walking pager has made one request for each page before its own, and perhaps the probe. -/
theorem Walking.length_le (h : pager.Walking budget query total probe walk pages) :
    (probe ++ walk).length ≤ pager.pageNumber := by
  have hprobe : probe.length ≤ 1 := by
    rcases h.isProbe with ⟨rfl, -⟩ | ⟨-, -, exchange, rfl, -⟩
    · exact Nat.zero_le 1
    · exact Nat.le_refl 1
  rw [List.length_append, h.length_walk, h.number]
  omega

/-- A result that an exhausted budget leaves is sound. -/
theorem sound_of_exhausted {exchanges : List (Exchange Raw ε)}
    (hrows : pager.items.length ≤ budget.maxRows) (h : pager.exhausted budget = some result) :
    result.Sound budget query exchanges := by
  unfold exhausted at h
  split at h
  · cases h
    exact ⟨hrows, fun hcomplete => by cases hcomplete⟩
  · split at h
    · cases h
      exact ⟨List.length_take_le _ _, fun hcomplete => by cases hcomplete⟩
    · cases h

/-- A pager whose budgets are not exhausted may ask for its page. -/
theorem pageNumber_le_of_exhausted (h : pager.exhausted budget = none) :
    pager.pageNumber ≤ budget.maxPages := by
  unfold exhausted at h
  split at h
  · cases h
  · omega

end Pager

/-! ## The loop -/

/-- More iterations than a fetch needed change nothing. -/
theorem fetchLoop_succ {server : Server Raw ε} {fuel : Nat} {exchanges : List (Exchange Raw ε)}
    {fetch : Fetch Raw Item ε}
    (h : fetchLoop budget query server fuel pager exchanges = some fetch) :
    fetchLoop budget query server (fuel + 1) pager exchanges = some fetch := by
  induction fuel generalizing pager exchanges with
  | zero => cases h
  | succ fuel ih =>
    unfold fetchLoop at h ⊢
    dsimp only at h ⊢
    split at h
    · exact h
    split at h
    · exact h
    split at h
    · exact ih h
    · exact h
    · exact h

/-- More iterations than a fetch needed change nothing. -/
theorem fetchLoop_of_le {server : Server Raw ε} {fuel more : Nat} (hle : fuel ≤ more)
    {exchanges : List (Exchange Raw ε)} {fetch : Fetch Raw Item ε}
    (h : fetchLoop budget query server fuel pager exchanges = some fetch) :
    fetchLoop budget query server more pager exchanges = some fetch := by
  induction hle with
  | refl => exact h
  | step _ ih => exact fetchLoop_succ ih

/-- **The loop of a walking pager ends**, and its fetch is sound. Each iteration either ends the fetch
or moves on by one page. -/
theorem Pager.Walking.fetchLoop_sound {server : Server Raw ε} {fuel : Nat}
    (h : pager.Walking budget query total probe walk pages)
    (hpage : pager.pageNumber ≤ budget.maxPages + 1)
    (hfuel : budget.maxPages + 2 ≤ fuel + pager.pageNumber) :
    ∃ fetch, fetchLoop budget query server fuel pager (probe ++ walk) = some fetch
      ∧ fetch.Sound budget query := by
  induction fuel generalizing pager walk pages with
  | zero => omega
  | succ fuel ih =>
    have hlength := h.length_le
    unfold fetchLoop
    cases hexhausted : pager.exhausted budget with
    | some result =>
      refine ⟨_, rfl, Nat.le_trans hlength hpage, fun ended hended => ?_⟩
      cases hended
      exact sound_of_exhausted h.rows hexhausted
    | none =>
      have hnext := pageNumber_le_of_exhausted hexhausted
      dsimp only
      rw [List.append_assoc]
      generalize hresponse : server _ = response
      have hlength' : ∀ exchange : Exchange Raw ε,
          (probe ++ (walk ++ [exchange])).length ≤ budget.maxPages + 1 := by
        intro exchange
        rw [← List.append_assoc, List.length_append, List.length_singleton]
        omega
      cases response with
      | error error => exact ⟨_, rfl, hlength' _, fun _ hended => by cases hended⟩
      | ok response =>
        let exchange : Exchange Raw ε := ⟨query.page pager.pageNumber pager.size, .ok response⟩
        have hreceive := h.receive (show exchange.request = _ from rfl)
          (show exchange.response = .ok response from rfl)
        dsimp only
        revert hreceive
        cases pager.receive (ε := ε) budget query response with
        | next pager' =>
          rintro ⟨page, hwalking⟩
          have hnumber := hwalking.number
          rw [List.length_append, List.length_singleton, ← h.number] at hnumber
          exact ih hwalking (by omega) (by omega)
        | finish result =>
          intro hsound
          refine ⟨_, rfl, hlength' _, fun ended hended => ?_⟩
          cases hended
          exact hsound
        | raise error => exact fun _ => ⟨_, rfl, hlength' _, fun _ hended => by cases hended⟩

/-- **Pager soundness.** Whatever the server answers, the loop ends: from some bound on, more
iterations change nothing. The fetch it ends with makes at most one request for each page and one for
the probe, its rows are within the budget, and a complete result holds exactly the pages of one walk,
as many rows as each of its responses reported. -/
theorem fetchAll_sound (budget : PagerBudget) (query : PagedQuery Raw Item)
    (server : Server Raw ε) :
    ∃ fetch, fetchAll budget query server = some fetch ∧ fetch.Sound budget query
      ∧ ∀ fuel, budget.maxPages + 2 ≤ fuel →
        fetchLoop budget query server fuel (.start budget) [] = some fetch := by
  suffices hends : ∃ fetch, fetchAll budget query server = some fetch ∧ fetch.Sound budget query by
    obtain ⟨fetch, hfetch, hsound⟩ := hends
    exact ⟨fetch, hfetch, hsound, fun fuel hfuel => fetchLoop_of_le hfuel hfetch⟩
  unfold fetchAll fetchLoop
  cases hexhausted : (Pager.start budget).exhausted budget with
  | some result =>
    refine ⟨_, rfl, Nat.zero_le _, fun ended hended => ?_⟩
    cases hended
    exact Pager.sound_of_exhausted (Nat.zero_le _) hexhausted
  | none =>
    have hpage : 1 ≤ budget.maxPages := Pager.pageNumber_le_of_exhausted hexhausted
    have hlength : 1 ≤ budget.maxPages + 1 := Nat.le_add_left 1 _
    dsimp only
    generalize hresponse : server _ = response
    cases response with
    | error error => exact ⟨_, rfl, hlength, fun _ hended => by cases hended⟩
    | ok response =>
      let exchange : Exchange Raw ε := ⟨query.page 1 budget.pageSize, .ok response⟩
      have hreceive := Pager.receive_start (show exchange.request = _ from rfl)
        (show exchange.response = .ok response from rfl)
      dsimp only
      revert hreceive
      cases (Pager.start budget).receive (ε := ε) budget query response with
      | next pager' =>
        rintro ⟨total, probe, walk, pages, hsplit, hwalking⟩
        have hfirst := hwalking.length_le
        have hpages : pages.length ≤ 1 := by
          have hwalk := congrArg List.length hsplit
          rw [List.length_singleton, List.length_append, hwalking.length_walk] at hwalk
          omega
        have hnumber := hwalking.number
        rw [← hsplit, List.length_singleton] at hfirst
        have hends : ∃ fetch, fetchLoop budget query server (budget.maxPages + 1) pager'
            (probe ++ walk) = some fetch ∧ fetch.Sound budget query :=
          hwalking.fetchLoop_sound (by omega) (by omega)
        rw [← hsplit] at hends
        exact hends
      | finish result =>
        intro hsound
        refine ⟨_, rfl, hlength, fun ended hended => ?_⟩
        cases hended
        exact hsound
      | raise error => exact fun _ => ⟨_, rfl, hlength, fun _ hended => by cases hended⟩

end Walks
