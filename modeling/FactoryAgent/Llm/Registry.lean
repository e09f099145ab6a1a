import FactoryAgent.Lib.Keys
import FactoryAgent.Lib.StableSort
import FactoryAgent.Lib.Tiers
import Mathlib.Data.List.Enum
import Mathlib.Data.Prod.Lex
import Mathlib.Order.BooleanAlgebra.Basic

/-!
# The model registry

`llm/registry.py`: the deployments of the model aliases with their priorities, and the same with the deployments of
some endpoints moved last (`with_demoted_endpoints`). A request goes to the deployments with the least priority of its
alias, and to the next ones when they fail; so the routing of an alias are the tiers of its deployments. With an
endpoint demoted every deployment gets a priority of its own, the place at which its alias tries it (`tiers_demoted`).
-/

namespace ModelRouting

/-- A deployment as the router calls it: what `replace(deployment, priority=position)` keeps. -/
structure Target where
  modelAlias : String
  model : String
  apiBase : String
  apiKey : String
  provider : Option String
deriving DecidableEq

/-- **`ResolvedDeployment`** -/
structure ResolvedDeployment extends Target where
  priority : Nat
deriving DecidableEq

/-- **`ModelRegistry`** -/
structure ModelRegistry where
  version : Int
  deployments : List ResolvedDeployment
  fallbacks : List (String × List String)
  skippedAliases : List String
deriving DecidableEq

/-- The deployments of an alias. -/
def ModelRegistry.members (registry : ModelRegistry) (modelAlias : String) : List ResolvedDeployment :=
  registry.deployments.filter (·.modelAlias = modelAlias)

/-- The aliases in the order of their first deployments, as the keys of `grouped`. -/
def ModelRegistry.grouped (registry : ModelRegistry) : List String :=
  (registry.deployments.map (·.modelAlias)).eraseDups

/-- **`probe_targets`**: the first deployment of each endpoint. -/
def probeTargets : List String → List ResolvedDeployment → List ResolvedDeployment
  | _, [] => []
  | seen, deployment :: deployments =>
    if deployment.apiBase ∈ seen then probeTargets seen deployments
    else deployment :: probeTargets (deployment.apiBase :: seen) deployments

/-- The deployments of an alias in the order in which it tries them. -/
def ranked (demoted : Finset String) (members : List ResolvedDeployment) : List ResolvedDeployment :=
  StableSort.sorted (fun item => (toLex (decide (item.apiBase ∈ demoted), item.priority) : Bool ×ₗ Nat)) members

/-- The deployments with their places as priorities. -/
def renumbered (deployments : List ResolvedDeployment) : List ResolvedDeployment :=
  (deployments.zipIdx 1).map fun entry => { entry.1 with priority := entry.2 }

/-- Some deployment is not at its place. -/
def changed (deployments : List ResolvedDeployment) : Bool :=
  (deployments.zipIdx 1).any fun entry => entry.1.priority != entry.2

/-- **`with_demoted_endpoints`** -/
def ModelRegistry.withDemotedEndpoints (registry : ModelRegistry) (demoted : Finset String) : ModelRegistry :=
  if demoted = ∅ then registry
  else
    let groups := registry.grouped.map fun modelAlias => ranked demoted (registry.members modelAlias)
    if groups.any changed then { registry with deployments := (groups.map renumbered).flatten } else registry

/-- The routing of an alias: its deployments in the tiers of their priorities. -/
def ModelRegistry.routing (registry : ModelRegistry) (modelAlias : String) : List (Multiset Target) :=
  Tiers.tiers (·.priority) (·.toTarget) (registry.members modelAlias)

/-! ## Numbering -/

theorem ranked_perm (demoted : Finset String) (members : List ResolvedDeployment) :
    (ranked demoted members).Perm members :=
  StableSort.sorted_perm _ members

/-- Numbering changes the priorities only. -/
theorem map_toTarget_renumbered (deployments : List ResolvedDeployment) :
    (renumbered deployments).map (·.toTarget) = deployments.map (·.toTarget) := by
  rw [renumbered, List.map_map]
  conv_rhs => rw [← List.zipIdx_map_fst 1 deployments, List.map_map]
  rfl

/-- The places are increasing. -/
theorem pairwise_renumbered (deployments : List ResolvedDeployment) :
    (renumbered deployments).Pairwise fun a b => a.priority < b.priority := by
  rw [renumbered, List.pairwise_map]
  have hplaces : ((deployments.zipIdx 1).map Prod.snd).Pairwise (· < ·) := by
    rw [List.zipIdx_map_snd]
    exact List.pairwise_lt_range' 1
  exact List.pairwise_map.mp hplaces

/-- Deployments that are all at their places are numbered already. -/
theorem renumbered_of_not_changed {deployments : List ResolvedDeployment} (h : changed deployments = false) :
    renumbered deployments = deployments := by
  rw [changed, List.any_eq_false] at h
  conv_rhs => rw [← List.zipIdx_map_fst 1 deployments]
  refine List.map_congr_left fun entry hentry => ?_
  have hplace : entry.1.priority = entry.2 := by simpa using h entry hentry
  rw [← hplace]

/-- The tiers of numbered deployments are the deployments, one after the other. -/
theorem tiers_renumbered (deployments : List ResolvedDeployment) :
    Tiers.tiers (·.priority) (·.toTarget) (renumbered deployments)
      = deployments.map fun deployment => ({deployment.toTarget} : Multiset Target) := by
  rw [Tiers.tiers_of_increasing (pairwise_renumbered deployments)]
  have h := congrArg (List.map fun target => ({target} : Multiset Target)) (map_toTarget_renumbered deployments)
  rwa [List.map_map, List.map_map] at h

/-! ## Demoted endpoints -/

/-- The alias of the numbered deployments of an alias. -/
theorem modelAlias_of_mem_renumbered {demoted : Finset String} {registry : ModelRegistry} {modelAlias : String}
    {deployment : ResolvedDeployment} (h : deployment ∈ renumbered (ranked demoted (registry.members modelAlias))) :
    deployment.modelAlias = modelAlias := by
  have htarget : deployment.toTarget ∈ (ranked demoted (registry.members modelAlias)).map (·.toTarget) :=
    map_toTarget_renumbered _ ▸ List.mem_map_of_mem h
  obtain ⟨original, horiginal, heq⟩ := List.mem_map.mp htarget
  have hmem := (ranked_perm demoted _).mem_iff.mp horiginal
  rw [← heq]
  exact of_decide_eq_true (List.mem_filter.mp hmem).2

/-- Of the groups of all aliases, one is the group of an alias. -/
theorem filter_flatten_groups {group : String → List ResolvedDeployment}
    (hgroup : ∀ modelAlias, ∀ deployment ∈ group modelAlias, deployment.modelAlias = modelAlias)
    (modelAlias : String) {aliases : List String} (hnodup : aliases.Nodup) :
    (aliases.map group).flatten.filter (·.modelAlias = modelAlias)
      = if modelAlias ∈ aliases then group modelAlias else [] := by
  induction aliases with
  | nil => rfl
  | cons first aliases ih =>
    obtain ⟨hfirst, hrest⟩ := List.nodup_cons.mp hnodup
    rw [List.map_cons, List.flatten_cons, List.filter_append, ih hrest]
    by_cases heq : modelAlias = first
    · subst heq
      rw [if_neg hfirst, if_pos List.mem_cons_self, List.append_nil,
        List.filter_eq_self.mpr fun deployment hin => decide_eq_true (hgroup _ deployment hin)]
    · have hnone : (group first).filter (·.modelAlias = modelAlias) = [] :=
        List.filter_eq_nil_iff.mpr fun deployment hin => by simpa [hgroup _ deployment hin] using Ne.symm heq
      simp only [hnone, List.nil_append, List.mem_cons, heq, false_or]

theorem mem_grouped {registry : ModelRegistry} {modelAlias : String} :
    modelAlias ∈ registry.grouped ↔ registry.members modelAlias ≠ [] := by
  rw [ModelRegistry.grouped, List.mem_eraseDups, List.mem_map, ModelRegistry.members, ne_eq, List.filter_eq_nil_iff]
  push Not
  simp only [decide_eq_true_eq]

/-- **With an endpoint demoted, the deployments of an alias are those of the baseline at their places.** -/
theorem members_withDemotedEndpoints {demoted : Finset String} (h : demoted ≠ ∅) (registry : ModelRegistry)
    (modelAlias : String) : ((registry.withDemotedEndpoints demoted).members modelAlias).Perm
      (renumbered (ranked demoted (registry.members modelAlias))) := by
  rw [ModelRegistry.withDemotedEndpoints, if_neg h]
  by_cases hany : (registry.grouped.map fun modelAlias => ranked demoted (registry.members modelAlias)).any changed
  · have hgroup : (registry.grouped.map fun modelAlias =>
        renumbered (ranked demoted (registry.members modelAlias))).flatten.filter (·.modelAlias = modelAlias)
        = if modelAlias ∈ registry.grouped then renumbered (ranked demoted (registry.members modelAlias)) else [] :=
      filter_flatten_groups (fun _ _ => modelAlias_of_mem_renumbered) modelAlias (Keys.nodup_eraseDups _)
    rw [if_pos hany, List.map_map]
    refine .trans (.of_eq hgroup) ?_
    by_cases hmem : modelAlias ∈ registry.grouped
    · rw [if_pos hmem]
    · rw [if_neg hmem, not_not.mp (mt mem_grouped.mpr hmem)]
      exact .nil
  · simp only [hany]
    have hplaces : changed (ranked demoted (registry.members modelAlias)) = false := by
      by_cases hmem : modelAlias ∈ registry.grouped
      · exact Bool.eq_false_iff.mpr fun hchanged =>
          hany (List.any_eq_true.mpr ⟨_, List.mem_map_of_mem hmem, hchanged⟩)
      · rw [not_not.mp (mt mem_grouped.mpr hmem)]
        rfl
    rw [renumbered_of_not_changed hplaces]
    exact (ranked_perm demoted _).symm

/-- **With an endpoint demoted an alias tries its deployments one after the other.** -/
theorem routing_withDemotedEndpoints {demoted : Finset String} (h : demoted ≠ ∅) (registry : ModelRegistry)
    (modelAlias : String) : (registry.withDemotedEndpoints demoted).routing modelAlias
      = (ranked demoted (registry.members modelAlias)).map fun deployment =>
        ({deployment.toTarget} : Multiset Target) := by
  rw [ModelRegistry.routing, Tiers.tiers_perm (members_withDemotedEndpoints h registry modelAlias), tiers_renumbered]

/-- The demoted deployments of an alias come after the others. -/
theorem ranked_eq_append (demoted : Finset String) (members : List ResolvedDeployment) :
    ranked demoted members = ((ranked demoted members).filter fun item => item.apiBase ∉ demoted)
      ++ (ranked demoted members).filter fun item => item.apiBase ∈ demoted := by
  have hlast : (ranked demoted members).Pairwise fun a b =>
      decide (a.apiBase ∈ demoted) ≤ decide (b.apiBase ∈ demoted) := by
    refine (StableSort.pairwise_sorted _ members).imp fun {a b} hle => ?_
    exact (Prod.Lex.toLex_le_toLex'.mp hle).1
  conv_lhs => rw [Tiers.eq_append_of_last hlast]
  simp only [decide_not]

end ModelRouting
