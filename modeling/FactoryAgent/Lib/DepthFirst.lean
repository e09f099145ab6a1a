import Mathlib.Data.Finset.Card
import Mathlib.Data.List.Perm.Subperm
import Mathlib.Logic.Relation

/-!
# Finding cycles depth first

The usual search for a cycle in a directed graph: a node is *visiting* while its successors are visited and
*visited* afterwards, and coming upon a node that is being visited is a cycle. The recursion is bounded by a
fuel, which the number of nodes is enough for. The search finds a cycle exactly where there is one
(`search_isSome_iff`): visited nodes are accessible, and the nodes that are being visited lead to the node at
hand. A graph without cycles has a rank that falls along its edges (`exists_rank`), which other recursions over it go by.
-/

namespace DepthFirst

variable {α : Type}

/-- **What a search knows**: the nodes that it is visiting and those that it has visited. -/
structure Visits (α : Type) where
  visiting : List α := []
  visited : List α := []
  deriving DecidableEq, Repr

section Search

variable [DecidableEq α]

/-- **Visit a node** and, before that is over, its successors. There is no result where a cycle is found. -/
def visit (edges : α → List α) : Nat → Visits α → α → Option (Visits α)
  | 0, _, _ => none
  | fuel + 1, visits, node =>
    if node ∈ visits.visiting then none
    else if node ∈ visits.visited then some visits
    else
      ((edges node).foldlM (visit edges fuel) { visits with visiting := node :: visits.visiting }).map
        fun visits => { visiting := visits.visiting.erase node, visited := node :: visits.visited }

/-- **The search** over all nodes. -/
def search (edges : α → List α) (nodes : List α) : Option (Visits α) :=
  nodes.foldlM (visit edges (nodes.length + 1)) {}

end Search

/-- An edge of the graph. -/
def Edge (edges : α → List α) (node next : α) : Prop := next ∈ edges node

variable {edges : α → List α} {nodes : List α} {visits visits' : Visits α} {node : α} {fuel : Nat}

/-! ## What has been visited is on no cycle -/

/-- No path from a node goes on for ever. -/
abbrev Grounded (edges : α → List α) (node : α) : Prop :=
  Acc (fun next node => next ∈ edges node) node

/-- A grounded node is on no cycle. -/
theorem not_transGen_of_grounded (h : Grounded edges node) : ¬ Relation.TransGen (Edge edges) node node := by
  induction h with
  | intro node _ ih =>
    intro hcycle
    obtain ⟨next, hnext, hback⟩ := Relation.TransGen.head'_iff.mp hcycle
    exact ih next hnext (Relation.TransGen.tail' hback hnext)

/-- **The visited nodes are grounded.** -/
def Visits.Sound (visits : Visits α) (edges : α → List α) : Prop :=
  ∀ node ∈ visits.visited, Grounded edges node

/-- Visiting nodes one by one, where each visit is sound. -/
theorem foldlM_sound {next : Visits α → α → Option (Visits α)}
    (hnext : ∀ {visits visits' : Visits α} {node : α}, next visits node = some visits' →
      visits.Sound edges → visits'.Sound edges ∧ node ∈ visits'.visited ∧ visits.visited ⊆ visits'.visited)
    (h : nodes.foldlM next visits = some visits') (hsound : visits.Sound edges) :
    visits'.Sound edges ∧ (∀ node ∈ nodes, node ∈ visits'.visited) ∧ visits.visited ⊆ visits'.visited := by
  induction nodes generalizing visits with
  | nil =>
    cases h
    exact ⟨hsound, fun _ hmem => absurd hmem List.not_mem_nil, List.Subset.refl _⟩
  | cons node nodes ih =>
    obtain ⟨between, hfirst, hrest⟩ := Option.bind_eq_some_iff.mp h
    obtain ⟨hbetween, hnode, hkept⟩ := hnext hfirst hsound
    obtain ⟨hlast, hall, hkept'⟩ := ih hrest hbetween
    refine ⟨hlast, fun other hother => ?_, List.Subset.trans hkept hkept'⟩
    rcases List.mem_cons.mp hother with rfl | hrest
    · exact hkept' hnode
    · exact hall other hrest

section Soundness

variable [DecidableEq α]

/-- **A visit is sound**: a node is visited after its successors are. -/
theorem visit_sound (h : visit edges fuel visits node = some visits') (hsound : visits.Sound edges) :
    visits'.Sound edges ∧ node ∈ visits'.visited ∧ visits.visited ⊆ visits'.visited := by
  induction fuel generalizing visits visits' node with
  | zero => cases h
  | succ fuel ih =>
    unfold visit at h
    by_cases hvisiting : node ∈ visits.visiting
    · rw [if_pos hvisiting] at h
      cases h
    rw [if_neg hvisiting] at h
    by_cases hvisited : node ∈ visits.visited
    · rw [if_pos hvisited] at h
      cases h
      exact ⟨hsound, hvisited, List.Subset.refl _⟩
    rw [if_neg hvisited] at h
    obtain ⟨inner, hinner, rfl⟩ := Option.map_eq_some_iff.mp h
    obtain ⟨hsound', hnext, hkept⟩ := foldlM_sound ih hinner hsound
    refine ⟨fun other hother => ?_, List.mem_cons_self, fun other hother => ?_⟩
    · rcases List.mem_cons.mp hother with rfl | hold
      · exact Acc.intro _ fun next hedge => hsound' next (hnext next hedge)
      · exact hsound' other hold
    · exact List.mem_cons_of_mem _ (hkept hother)

end Soundness

/-! ## Where there is no cycle, the search gets through -/

/-- **The search is on its way to a node** of a graph without cycles. -/
structure Visits.Leads (visits : Visits α) (edges : α → List α) (nodes : List α) (node : α) : Prop where
  path : ∀ other ∈ visits.visiting, Relation.TransGen (Edge edges) other node
  nodup : visits.visiting.Nodup
  known : ∀ other ∈ visits.visiting, other ∈ nodes

/-- A node that is being visited is on the way to its successors. -/
theorem Visits.Leads.next {next : α} (visited : List α) (h : visits.Leads edges nodes node) (hnode : node ∈ nodes)
    (hfresh : node ∉ visits.visiting) (hedge : next ∈ edges node) :
    Visits.Leads ⟨node :: visits.visiting, visited⟩ edges nodes next where
  path other hother := by
    rcases List.mem_cons.mp hother with rfl | hold
    · exact Relation.TransGen.single hedge
    · exact (h.path other hold).tail hedge
  nodup := List.nodup_cons.mpr ⟨hfresh, h.nodup⟩
  known other hother := by
    rcases List.mem_cons.mp hother with rfl | hold
    · exact hnode
    · exact h.known other hold

/-- Visiting nodes one by one, where each visit gets through. -/
theorem foldlM_isSome (visits : Visits α) {next : Visits α → α → Option (Visits α)} {todo visiting : List α}
    (hnext : ∀ {visits : Visits α} {node : α}, node ∈ todo → visits.visiting = visiting →
      ∃ visits', next visits node = some visits' ∧ visits'.visiting = visiting)
    (hvisiting : visits.visiting = visiting) :
    ∃ visits', todo.foldlM next visits = some visits' ∧ visits'.visiting = visiting := by
  induction todo generalizing visits with
  | nil => exact ⟨visits, rfl, hvisiting⟩
  | cons node todo ih =>
    obtain ⟨between, hfirst, hbetween⟩ := hnext List.mem_cons_self hvisiting
    obtain ⟨last, hlast, hvisiting'⟩ := ih between (fun hmem => hnext (List.mem_cons_of_mem _ hmem)) hbetween
    exact ⟨last, by rw [List.foldlM_cons, hfirst]; exact hlast, hvisiting'⟩

section Completeness

variable [DecidableEq α]

/-- **A visit gets through** where there is no cycle, and leaves the nodes that are being visited as they
were. The fuel is enough because the nodes on the way are distinct. -/
theorem visit_isSome (hclosed : ∀ node ∈ nodes, ∀ next ∈ edges node, next ∈ nodes ∨ edges next = [])
    (hacyclic : ∀ node ∈ nodes, ¬ Relation.TransGen (Edge edges) node node) (hnode : node ∈ nodes ∨ edges node = [])
    (h : visits.Leads edges nodes node) (hfuel : nodes.length < fuel + visits.visiting.length) :
    ∃ visits', visit edges fuel visits node = some visits' ∧ visits'.visiting = visits.visiting := by
  induction fuel generalizing visits node with
  | zero =>
    have hle := (h.nodup.subperm h.known).length_le
    omega
  | succ fuel ih =>
    have hfresh : node ∉ visits.visiting := fun hmem => hacyclic node (h.known node hmem) (h.path node hmem)
    unfold visit
    rw [if_neg hfresh]
    by_cases hvisited : node ∈ visits.visited
    · rw [if_pos hvisited]
      exact ⟨visits, rfl, rfl⟩
    rw [if_neg hvisited]
    rcases hnode with hnode | hleaf
    swap
    · rw [hleaf]
      exact ⟨_, rfl, List.erase_cons_head ..⟩
    have hnext : ∀ {between : Visits α} {next : α}, next ∈ edges node →
        between.visiting = node :: visits.visiting →
        ∃ after, visit edges fuel between next = some after ∧ after.visiting = node :: visits.visiting := by
      rintro ⟨visiting, visited⟩ next hedge rfl
      refine ih (hclosed node hnode next hedge) (h.next visited hnode hfresh hedge) ?_
      rw [List.length_cons]
      omega
    obtain ⟨inner, hinner, hvisiting⟩ := foldlM_isSome { visits with visiting := node :: visits.visiting } hnext rfl
    rw [hinner]
    refine ⟨_, rfl, ?_⟩
    show inner.visiting.erase node = _
    rw [hvisiting]
    exact List.erase_cons_head ..

/-- **The search finds a cycle exactly where there is one**, where what an edge leads to is a node or leads nowhere. -/
theorem search_isSome_iff (hclosed : ∀ node ∈ nodes, ∀ next ∈ edges node, next ∈ nodes ∨ edges next = []) :
    (search edges nodes).isSome = true ↔ ∀ node ∈ nodes, ¬ Relation.TransGen (Edge edges) node node := by
  constructor
  · intro h node hnode
    obtain ⟨visits, hvisits⟩ := Option.isSome_iff_exists.mp h
    obtain ⟨hsound, hall, -⟩ :=
      foldlM_sound visit_sound hvisits fun _ hmem => absurd hmem List.not_mem_nil
    exact not_transGen_of_grounded (hsound node (hall node hnode))
  · intro hacyclic
    have hnext : ∀ {visits : Visits α} {node : α}, node ∈ nodes → visits.visiting = [] →
        ∃ visits', visit edges (nodes.length + 1) visits node = some visits' ∧ visits'.visiting = [] := by
      rintro ⟨visiting, visited⟩ node hnode rfl
      exact visit_isSome hclosed hacyclic (.inl hnode)
        ⟨fun _ hmem => absurd hmem List.not_mem_nil, List.nodup_nil,
          fun _ hmem => absurd hmem List.not_mem_nil⟩ (Nat.lt_succ_self _)
    obtain ⟨visits, hvisits, -⟩ := foldlM_isSome {} hnext rfl
    exact Option.isSome_iff_exists.mpr ⟨visits, hvisits⟩

end Completeness

/-! ## Ranks -/

/-- **The nodes of a graph without cycles have a rank**, which falls along the edges between them: the number of nodes
that a node leads to. -/
theorem exists_rank (hacyclic : ∀ node ∈ nodes, ¬ Relation.TransGen (Edge edges) node node) :
    ∃ rank : α → Nat, (∀ node ∈ nodes, rank node < nodes.length)
      ∧ ∀ node ∈ nodes, ∀ next ∈ nodes, next ∈ edges node → rank next < rank node := by
  classical
  let below (node : α) : Finset α := nodes.toFinset.filter fun other => Relation.TransGen (Edge edges) node other
  refine ⟨fun node => (below node).card, fun node hnode => ?_, fun node hnode next hnext hedge => ?_⟩
  · refine Nat.lt_of_lt_of_le (Finset.card_lt_card (Finset.filter_ssubset.mpr ?_)) (List.toFinset_card_le nodes)
    exact ⟨node, List.mem_toFinset.mpr hnode, hacyclic node hnode⟩
  · refine Finset.card_lt_card (Finset.ssubset_iff_of_subset ?_ |>.mpr ⟨next, ?_, ?_⟩)
    · intro other hother
      obtain ⟨hmem, hpath⟩ := Finset.mem_filter.mp hother
      exact Finset.mem_filter.mpr ⟨hmem, hpath.head hedge⟩
    · exact Finset.mem_filter.mpr ⟨List.mem_toFinset.mpr hnext, .single hedge⟩
    · exact fun hself => hacyclic next hnext (Finset.mem_filter.mp hself).2

end DepthFirst
