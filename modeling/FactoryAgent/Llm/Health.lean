import FactoryAgent.Llm.Registry
import Mathlib.Data.List.Induction
import Mathlib.Data.Multiset.AddSub

/-!
# The routing under health verdicts

`llm/health.py` and the gateway that adopts what it publishes: in each round the endpoints of the baseline are probed,
an endpoint with enough failures in a row is demoted, one that answers is restored, and the baseline with the demoted
endpoints last becomes the routing of the gateway. The failures in a row are those of the last rounds
(`failures_run`), so the demoted endpoints are the ones that reach the threshold (`mem_demoted_run`). What is published
then follows the baseline exactly where no endpoint is demoted, or no two deployments that an alias keeps in front are
tried together (`published_iff`): the places that replace the priorities leave no two deployments together.
-/

namespace ModelRouting

/-! ## Probes -/

/-- What the probe of a deployment says: its endpoint serves, it does not, or the probe itself raised. -/
inductive Verdict
  | healthy
  | unhealthy
  | raised
deriving DecidableEq

/-- **`EndpointHealthMonitor`**: the failures of each endpoint in a row, and the endpoints that are demoted. -/
structure Monitor where
  consecutiveFailures : String → Nat
  demoted : Finset String

/-- The monitor of a process that starts. -/
def Monitor.initial : Monitor :=
  ⟨fun _ => 0, ∅⟩

/-- **`_record`** -/
def Monitor.record (failuresToDemote : Nat) (monitor : Monitor) (endpoint : String) (healthy : Bool) : Monitor :=
  if healthy then ⟨Function.update monitor.consecutiveFailures endpoint 0, monitor.demoted.erase endpoint⟩
  else
    let failures := monitor.consecutiveFailures endpoint + 1
    ⟨Function.update monitor.consecutiveFailures endpoint failures,
      if endpoint ∈ monitor.demoted then monitor.demoted
      else if failuresToDemote ≤ failures then insert endpoint monitor.demoted
      else monitor.demoted⟩

/-- `_probe_one`: a probe that raises is a failed probe. -/
def Monitor.probeOne (failuresToDemote : Nat) (verdict : ResolvedDeployment → Verdict) (monitor : Monitor)
    (deployment : ResolvedDeployment) : Monitor :=
  monitor.record failuresToDemote deployment.apiBase (verdict deployment == .healthy)

/-- **A round of probes**: the order in which they finish, and what they say. -/
structure Round (baseline : ModelRegistry) where
  finished : List ResolvedDeployment
  perm : finished.Perm (probeTargets [] baseline.deployments)
  verdict : ResolvedDeployment → Verdict

/-! ## The gateway -/

/-- What a router is built from: the deployments, each with its entry of the model list, and the fallbacks. -/
structure Router where
  modelList : List ResolvedDeployment
  fallbacks : List (String × List String)
deriving DecidableEq

/-- `_build_router` with `_fallbacks`: fallbacks to an alias without a deployment are left out. -/
def buildRouter (registry : ModelRegistry) : Router :=
  let usable := registry.deployments.map (·.modelAlias)
  ⟨registry.deployments, registry.fallbacks.filterMap fun entry =>
    let reachable := entry.2.filter (· ∈ usable)
    if entry.1 ∈ usable ∧ reachable ≠ [] then some (entry.1, reachable) else none⟩

/-- **`LiteLlmRouterGateway`**: its registry, and the router it calls. -/
structure Gateway where
  registry : ModelRegistry
  router : Router
deriving DecidableEq

/-- **`use_registry`** -/
def Gateway.useRegistry (gateway : Gateway) (registry : ModelRegistry) : Gateway :=
  if registry.deployments = gateway.registry.deployments then { gateway with registry := registry }
  else ⟨registry, buildRouter registry⟩

/-! ## Runs -/

/-- The threshold of the settings, `Field(default=2, ge=1)`. -/
structure Settings where
  failuresToDemote : Nat
  positive : 0 < failuresToDemote

/-- The monitor and the gateway of a process. -/
structure Process where
  monitor : Monitor
  gateway : Gateway

/-- A process that starts with the baseline. -/
def Process.initial (baseline : ModelRegistry) : Process :=
  ⟨.initial, baseline, buildRouter baseline⟩

variable {baseline : ModelRegistry}

/-- **`refresh`**: a round of probes, and what is published after it. -/
def Process.refresh (settings : Settings) (process : Process) (round : Round baseline) : Process :=
  let monitor := round.finished.foldl (Monitor.probeOne settings.failuresToDemote round.verdict) process.monitor
  ⟨monitor, process.gateway.useRegistry (baseline.withDemotedEndpoints monitor.demoted)⟩

/-- The process after rounds of probes. -/
def run (settings : Settings) (rounds : List (Round baseline)) : Process :=
  rounds.foldl (Process.refresh settings) (.initial baseline)

/-! ## What is to be published -/

/-- A round in which the probe of an endpoint fails. -/
def Round.failed (round : Round baseline) (endpoint : String) : Bool :=
  (probeTargets [] baseline.deployments).any fun target =>
    target.apiBase = endpoint ∧ round.verdict target ≠ .healthy

/-- **The failures of an endpoint in a row**, up to the last round. -/
def latestFailures (rounds : List (Round baseline)) (endpoint : String) : Nat :=
  (rounds.reverse.takeWhile fun round => round.failed endpoint).length

/-- An endpoint whose failures in a row reach the threshold. -/
def isDemoted (settings : Settings) (rounds : List (Round baseline)) (endpoint : String) : Bool :=
  settings.failuresToDemote ≤ latestFailures rounds endpoint

/-- The deployments of an alias at endpoints that are not demoted. -/
def ModelRegistry.kept (registry : ModelRegistry) (demoted : String → Bool) (modelAlias : String) :
    List ResolvedDeployment :=
  (registry.members modelAlias).filter fun deployment => !demoted deployment.apiBase

/-- The deployments of an alias at demoted endpoints. -/
def ModelRegistry.moved (registry : ModelRegistry) (demoted : String → Bool) (modelAlias : String) :
    List ResolvedDeployment :=
  (registry.members modelAlias).filter fun deployment => demoted deployment.apiBase

/-- **A registry that is the baseline with the demoted endpoints last**: an alias tries the tiers of the deployments
that are not demoted, and then the demoted ones; an alias without any keeps its routing; and without any at all it is
the baseline. -/
structure MovesLast (baseline : ModelRegistry) (demoted : String → Bool) (published : ModelRegistry) : Prop where
  routing : ∀ modelAlias, ∃ last : List (Multiset Target),
    published.routing modelAlias
        = Tiers.tiers (·.priority) (·.toTarget) (baseline.kept demoted modelAlias) ++ last
      ∧ (last.foldr (· + ·) 0 : Multiset Target) = ((baseline.moved demoted modelAlias).map (·.toTarget) : List Target)
  untouched : ∀ modelAlias, (∀ deployment ∈ baseline.members modelAlias, demoted deployment.apiBase = false) →
    published.routing modelAlias = baseline.routing modelAlias
  recovered : (∀ deployment ∈ baseline.deployments, demoted deployment.apiBase = false) → published = baseline
  rest : published.version = baseline.version ∧ published.fallbacks = baseline.fallbacks
    ∧ published.skippedAliases = baseline.skippedAliases

/-- **Where it is so**: no endpoint is demoted, or no two deployments that an alias keeps in front have one priority. -/
def NoTies (baseline : ModelRegistry) (demoted : String → Bool) : Prop :=
  (∀ deployment ∈ baseline.deployments, demoted deployment.apiBase = false)
    ∨ ∀ modelAlias, ((baseline.kept demoted modelAlias).map (·.priority)).Nodup

/-! ## The demoted endpoints -/

/-- What a monitor knows of an endpoint. -/
def Monitor.view (monitor : Monitor) (endpoint : String) : Nat × Bool :=
  (monitor.consecutiveFailures endpoint, decide (endpoint ∈ monitor.demoted))

/-- The verdict on another endpoint changes nothing. -/
theorem view_record_of_ne (failuresToDemote : Nat) (monitor : Monitor) {endpoint other : String} (h : other ≠ endpoint)
    (healthy : Bool) : (monitor.record failuresToDemote endpoint healthy).view other = monitor.view other := by
  cases healthy with
  | true => simp [Monitor.record, Monitor.view, h]
  | false =>
    simp only [Monitor.record, Monitor.view, Function.update_of_ne h, Bool.false_eq_true, if_false]
    split_ifs <;> simp [h]

/-- **The verdict on an endpoint**: one more failure in a row, or none. -/
theorem view_record (failuresToDemote : Nat) (monitor : Monitor) (endpoint : String) (healthy : Bool) :
    (monitor.record failuresToDemote endpoint healthy).view endpoint
      = if healthy then (0, false)
        else ((monitor.view endpoint).1 + 1,
          (monitor.view endpoint).2 || decide (failuresToDemote ≤ (monitor.view endpoint).1 + 1)) := by
  cases healthy with
  | true => simp [Monitor.record, Monitor.view]
  | false =>
    simp only [Monitor.record, Monitor.view, Function.update_self, Bool.false_eq_true, if_false]
    split_ifs with hdemoted hthreshold <;> simp [*]

theorem mem_of_mem_probeTargets {seen : List String} {deployments : List ResolvedDeployment}
    {target : ResolvedDeployment} (h : target ∈ probeTargets seen deployments) :
    target ∈ deployments ∧ target.apiBase ∉ seen := by
  induction deployments generalizing seen with
  | nil => exact absurd h List.not_mem_nil
  | cons deployment deployments ih =>
    rw [probeTargets] at h
    split at h
    · exact ⟨List.mem_cons_of_mem _ (ih h).1, (ih h).2⟩
    · rename_i hnew
      rcases List.mem_cons.mp h with rfl | h
      · exact ⟨List.mem_cons_self, hnew⟩
      · exact ⟨List.mem_cons_of_mem _ (ih h).1, fun hseen => (ih h).2 (List.mem_cons_of_mem _ hseen)⟩

/-- **An endpoint has one probe.** -/
theorem pairwise_probeTargets (seen : List String) (deployments : List ResolvedDeployment) :
    (probeTargets seen deployments).Pairwise fun a b => a.apiBase ≠ b.apiBase := by
  induction deployments generalizing seen with
  | nil => exact List.Pairwise.nil
  | cons deployment deployments ih =>
    rw [probeTargets]
    split
    · exact ih seen
    · refine List.pairwise_cons.mpr ⟨fun target htarget heq => ?_, ih _⟩
      exact (mem_of_mem_probeTargets htarget).2 (heq ▸ List.mem_cons_self)

/-- The probes of other endpoints change nothing. -/
theorem view_foldl_of_ne (failuresToDemote : Nat) (verdict : ResolvedDeployment → Verdict) {endpoint : String}
    {targets : List ResolvedDeployment} (h : ∀ target ∈ targets, target.apiBase ≠ endpoint) (monitor : Monitor) :
    (targets.foldl (Monitor.probeOne failuresToDemote verdict) monitor).view endpoint = monitor.view endpoint := by
  induction targets generalizing monitor with
  | nil => rfl
  | cons target targets ih =>
    rw [List.foldl_cons, ih fun other hother => h other (List.mem_cons_of_mem _ hother)]
    exact view_record_of_ne failuresToDemote monitor (h target List.mem_cons_self).symm _

/-- Of the probes of a round, the one of an endpoint counts for it. -/
theorem view_foldl (failuresToDemote : Nat) (verdict : ResolvedDeployment → Verdict)
    {targets : List ResolvedDeployment} (h : targets.Pairwise fun a b => a.apiBase ≠ b.apiBase)
    {target : ResolvedDeployment} (hmem : target ∈ targets) (monitor : Monitor) :
    (targets.foldl (Monitor.probeOne failuresToDemote verdict) monitor).view target.apiBase
      = (monitor.record failuresToDemote target.apiBase (verdict target == .healthy)).view target.apiBase := by
  obtain ⟨before, after, rfl⟩ := List.append_of_mem hmem
  obtain ⟨-, hafter, hbefore⟩ := List.pairwise_append.mp h
  have hsame := view_foldl_of_ne failuresToDemote verdict
    (fun other hother => hbefore other hother target List.mem_cons_self) monitor
  rw [List.foldl_append, List.foldl_cons,
    view_foldl_of_ne failuresToDemote verdict fun other hother => ((List.pairwise_cons.mp hafter).1 other hother).symm]
  rw [Monitor.probeOne, view_record, view_record, hsame]

theorem run_concat (settings : Settings) (rounds : List (Round baseline)) (round : Round baseline) :
    run settings (rounds ++ [round]) = (run settings rounds).refresh settings round := by
  rw [run, List.foldl_append]
  rfl

/-- One more round. -/
theorem latestFailures_concat (rounds : List (Round baseline)) (round : Round baseline) (endpoint : String) :
    latestFailures (rounds ++ [round]) endpoint
      = if round.failed endpoint then latestFailures rounds endpoint + 1 else 0 := by
  rw [latestFailures, List.reverse_append, List.reverse_singleton, List.singleton_append, List.takeWhile_cons]
  split <;> rfl

/-- Where no deployment has an endpoint, its probe never fails. -/
theorem latestFailures_of_no_target {endpoint : String}
    (h : ∀ target ∈ probeTargets [] baseline.deployments, target.apiBase ≠ endpoint) (rounds : List (Round baseline)) :
    latestFailures rounds endpoint = 0 := by
  cases rounds using List.reverseRecOn with
  | nil => rfl
  | append_singleton rounds round =>
    rw [latestFailures_concat, if_neg]
    simpa [Round.failed] using fun target htarget heq => absurd heq (h target htarget)

/-- A round fails for an endpoint when the probe of its first deployment does not find it healthy. -/
theorem failed_eq (round : Round baseline) {target : ResolvedDeployment}
    (h : target ∈ probeTargets [] baseline.deployments) :
    round.failed target.apiBase = !(round.verdict target == .healthy) := by
  have hnodup : ((probeTargets [] baseline.deployments).map (·.apiBase)).Nodup :=
    List.pairwise_map.mpr (pairwise_probeTargets [] _)
  rw [Bool.eq_iff_iff, Round.failed, List.any_eq_true]
  constructor
  · rintro ⟨other, hother, hfailed⟩
    obtain ⟨heq, hverdict⟩ := of_decide_eq_true hfailed
    rw [List.inj_on_of_nodup_map hnodup hother h heq] at hverdict
    simpa using hverdict
  · exact fun hverdict => ⟨target, h, by simpa using hverdict⟩

/-- **The failures that a monitor counts are those of the last rounds**, and it has demoted the endpoints that reach the
threshold. -/
theorem view_run (settings : Settings) (rounds : List (Round baseline)) (endpoint : String) :
    (run settings rounds).monitor.view endpoint
      = (latestFailures rounds endpoint, isDemoted settings rounds endpoint) := by
  have hpositive : ¬settings.failuresToDemote ≤ 0 := not_le.mpr settings.positive
  induction rounds using List.reverseRecOn with
  | nil => simpa [run, Process.initial, Monitor.initial, Monitor.view, latestFailures, isDemoted] using hpositive
  | append_singleton rounds round ih =>
    have hpairwise : round.finished.Pairwise fun a b => a.apiBase ≠ b.apiBase :=
      (round.perm.pairwise_iff fun h => Ne.symm h).mpr (pairwise_probeTargets [] _)
    rw [run_concat, Process.refresh]
    by_cases htarget : ∃ target ∈ round.finished, target.apiBase = endpoint
    · obtain ⟨target, hmem, rfl⟩ := htarget
      rw [view_foldl _ _ hpairwise hmem, view_record, ih, isDemoted, isDemoted, latestFailures_concat,
        failed_eq round (round.perm.mem_iff.mp hmem)]
      cases round.verdict target == .healthy with
      | true => simp [hpositive]
      | false =>
        -- One that is demoted stays so with one more failure.
        have hmore : settings.failuresToDemote ≤ latestFailures rounds target.apiBase →
            settings.failuresToDemote ≤ latestFailures rounds target.apiBase + 1 := Nat.le_succ_of_le
        simpa using hmore
    · push Not at htarget
      have hnone : ∀ target ∈ probeTargets [] baseline.deployments, target.apiBase ≠ endpoint := fun target hmem =>
        htarget target (round.perm.mem_iff.mpr hmem)
      rw [view_foldl_of_ne _ _ htarget, ih, isDemoted, isDemoted, latestFailures_of_no_target hnone,
        latestFailures_of_no_target hnone]

/-- **The demoted endpoints are those whose failures in a row reach the threshold.** -/
theorem mem_demoted_run (settings : Settings) (rounds : List (Round baseline)) (endpoint : String) :
    endpoint ∈ (run settings rounds).monitor.demoted ↔ isDemoted settings rounds endpoint = true := by
  have h : decide (endpoint ∈ (run settings rounds).monitor.demoted) = isDemoted settings rounds endpoint :=
    congrArg Prod.snd (view_run settings rounds endpoint)
  rw [← h, decide_eq_true_eq]

/-- An endpoint that is demoted is one of the baseline. -/
theorem exists_of_isDemoted {settings : Settings} {rounds : List (Round baseline)} {endpoint : String}
    (h : isDemoted settings rounds endpoint = true) :
    ∃ deployment ∈ baseline.deployments, deployment.apiBase = endpoint := by
  by_contra hnone
  push Not at hnone
  rw [isDemoted, latestFailures_of_no_target fun target htarget => hnone target (mem_of_mem_probeTargets htarget).1,
    decide_eq_true_eq] at h
  exact absurd settings.positive (not_lt.mpr h)

/-! ## What is published -/

theorem withDemotedEndpoints_rest (registry : ModelRegistry) (demoted : Finset String) :
    (registry.withDemotedEndpoints demoted).version = registry.version
      ∧ (registry.withDemotedEndpoints demoted).fallbacks = registry.fallbacks
      ∧ (registry.withDemotedEndpoints demoted).skippedAliases = registry.skippedAliases := by
  rw [ModelRegistry.withDemotedEndpoints]
  split_ifs with hempty
  · exact ⟨rfl, rfl, rfl⟩
  · dsimp only
    split_ifs <;> exact ⟨rfl, rfl, rfl⟩

/-- **The gateway has what the verdicts imply**, and calls a router built from it. -/
theorem gateway_run (settings : Settings) (rounds : List (Round baseline)) :
    (run settings rounds).gateway.registry
        = baseline.withDemotedEndpoints (run settings rounds).monitor.demoted
      ∧ (run settings rounds).gateway.router = buildRouter (run settings rounds).gateway.registry := by
  induction rounds using List.reverseRecOn with
  | nil => exact ⟨(if_pos rfl).symm, rfl⟩
  | append_singleton rounds round ih =>
    rw [run_concat, Process.refresh, Gateway.useRegistry]
    split
    · rename_i hsame
      refine ⟨rfl, ih.2.trans ?_⟩
      rw [ih.1] at hsame ⊢
      rw [buildRouter, buildRouter, hsame, (withDemotedEndpoints_rest baseline _).2.1,
        (withDemotedEndpoints_rest baseline _).2.1]
    · exact ⟨rfl, rfl⟩

/-- Tiers of one element each are the elements. -/
theorem foldr_add_singletons (deployments : List ResolvedDeployment) :
    ((deployments.map fun deployment => ({deployment.toTarget} : Multiset Target)).foldr (· + ·) 0 : Multiset Target)
      = (deployments.map (·.toTarget) : List Target) := by
  induction deployments with
  | nil => rfl
  | cons deployment deployments ih =>
    rw [List.map_cons, List.foldr_cons, ih, Multiset.singleton_add]
    rfl

section MovesLast

variable {demoted : Finset String} {isDemoted : String → Bool}
  (hdemoted : ∀ endpoint, endpoint ∈ demoted ↔ isDemoted endpoint = true)

include hdemoted

/-- The deployments that are tried first are the ones at endpoints that are not demoted. -/
theorem front_perm (modelAlias : String) :
    ((ranked demoted (baseline.members modelAlias)).filter fun item => item.apiBase ∉ demoted).Perm
      (baseline.kept isDemoted modelAlias) := by
  rw [ModelRegistry.kept]
  have hsame : (fun item : ResolvedDeployment => decide (item.apiBase ∉ demoted))
      = fun deployment => !isDemoted deployment.apiBase := by
    funext item
    rw [Bool.eq_iff_iff, decide_eq_true_eq, hdemoted, Bool.not_eq_true, Bool.not_eq_true']
  rw [hsame]
  exact (ranked_perm demoted _).filter _

/-- The others come last. -/
theorem back_perm (modelAlias : String) :
    ((ranked demoted (baseline.members modelAlias)).filter fun item => item.apiBase ∈ demoted).Perm
      (baseline.moved isDemoted modelAlias) := by
  rw [ModelRegistry.moved]
  have hsame : (fun item : ResolvedDeployment => decide (item.apiBase ∈ demoted))
      = fun deployment => isDemoted deployment.apiBase := by
    funext item
    rw [Bool.eq_iff_iff, decide_eq_true_eq, hdemoted]
  rw [hsame]
  exact (ranked_perm demoted _).filter _

/-- **Deployments in front with priorities of their own are tried one after the other** in the baseline as well. -/
theorem tiers_kept {modelAlias : String} (h : ((baseline.kept isDemoted modelAlias).map (·.priority)).Nodup) :
    Tiers.tiers (·.priority) (·.toTarget) (baseline.kept isDemoted modelAlias)
      = ((ranked demoted (baseline.members modelAlias)).filter fun item => item.apiBase ∉ demoted).map
        fun deployment => ({deployment.toTarget} : Multiset Target) := by
  have hperm : ((ranked demoted (baseline.members modelAlias)).filter fun item => item.apiBase ∉ demoted).Perm
      (baseline.kept isDemoted modelAlias) := front_perm hdemoted modelAlias
  rw [← Tiers.tiers_perm hperm]
  refine Tiers.tiers_of_increasing ?_
  have hne : ((ranked demoted (baseline.members modelAlias)).filter fun item => item.apiBase ∉ demoted).Pairwise
      fun a b => a.priority ≠ b.priority :=
    List.pairwise_map.mp ((hperm.map _).nodup_iff.mpr h)
  have hle := (StableSort.pairwise_sorted (fun item : ResolvedDeployment =>
    (toLex (decide (item.apiBase ∈ demoted), item.priority) : Bool ×ₗ Nat)) (baseline.members modelAlias)).filter
    fun item => decide (item.apiBase ∉ demoted)
  refine (hle.and hne).imp_of_mem fun {a b} ha hb hboth => ?_
  have hfront : ∀ item ∈ (ranked demoted (baseline.members modelAlias)).filter fun item => item.apiBase ∉ demoted,
      decide (item.apiBase ∈ demoted) = false := fun item hitem =>
    decide_eq_false (of_decide_eq_true (List.mem_filter.mp hitem).2)
  exact lt_of_le_of_ne ((Prod.Lex.toLex_le_toLex'.mp hboth.1).2 ((hfront a ha).trans (hfront b hb).symm)) hboth.2

/-- **A registry with demoted endpoints follows the baseline** exactly where no two deployments that an alias keeps in
front have one priority. -/
theorem movesLast_iff
    (hbaseline : ∀ endpoint ∈ demoted, ∃ deployment ∈ baseline.deployments, deployment.apiBase = endpoint) :
    MovesLast baseline isDemoted (baseline.withDemotedEndpoints demoted) ↔ NoTies baseline isDemoted := by
  by_cases hempty : demoted = ∅
  · have hnone : ∀ endpoint, isDemoted endpoint = false := fun endpoint => by
      rw [← Bool.not_eq_true, ← hdemoted, hempty]
      exact Finset.notMem_empty _
    have hself : baseline.withDemotedEndpoints demoted = baseline := if_pos hempty
    refine ⟨fun _ => .inl fun deployment _ => hnone _, fun _ => ⟨fun modelAlias => ⟨[], ?_, ?_⟩, fun _ _ => ?_,
      fun _ => hself, ?_⟩⟩
    · rw [hself, List.append_nil, ModelRegistry.kept, List.filter_eq_self.mpr fun deployment _ => by rw [hnone]; rfl]
      rfl
    · rw [ModelRegistry.moved, List.filter_eq_nil_iff.mpr fun deployment _ => by simp [hnone]]
      rfl
    · rw [hself]
    · exact withDemotedEndpoints_rest baseline demoted
  · have hsome : ¬∀ deployment ∈ baseline.deployments, isDemoted deployment.apiBase = false := by
      obtain ⟨endpoint, hendpoint⟩ := Finset.nonempty_iff_ne_empty.mpr hempty
      obtain ⟨deployment, hmem, rfl⟩ := hbaseline endpoint hendpoint
      exact fun hall => Bool.false_ne_true ((hall deployment hmem).symm.trans ((hdemoted _).mp hendpoint))
    rw [NoTies, or_iff_right hsome]
    constructor
    · intro hmoves modelAlias
      obtain ⟨last, hrouting, -⟩ := hmoves.routing modelAlias
      rw [routing_withDemotedEndpoints hempty] at hrouting
      have hone : ∀ tier ∈ Tiers.tiers (·.priority) (·.toTarget) (baseline.kept isDemoted modelAlias),
          tier.card = 1 := by
        intro tier htier
        have hmem := List.mem_append_left last htier
        rw [← hrouting] at hmem
        obtain ⟨deployment, -, rfl⟩ := List.mem_map.mp hmem
        exact Multiset.card_singleton _
      exact Tiers.nodup_of_tiers hone
    · intro hnodup
      refine ⟨fun modelAlias => ⟨((ranked demoted (baseline.members modelAlias)).filter fun item =>
        item.apiBase ∈ demoted).map fun deployment => {deployment.toTarget}, ?_, ?_⟩, fun modelAlias hall => ?_,
        fun hall => absurd hall hsome, withDemotedEndpoints_rest baseline demoted⟩
      · rw [routing_withDemotedEndpoints hempty, tiers_kept hdemoted (hnodup modelAlias), ← List.map_append,
          ← ranked_eq_append]
      · rw [foldr_add_singletons]
        exact Multiset.coe_eq_coe.mpr ((back_perm hdemoted modelAlias).map _)
      · have hkept : baseline.kept isDemoted modelAlias = baseline.members modelAlias :=
          List.filter_eq_self.mpr fun deployment hmem => by rw [hall deployment hmem]; rfl
        have hback : ((ranked demoted (baseline.members modelAlias)).filter fun item => item.apiBase ∈ demoted) = [] :=
          List.filter_eq_nil_iff.mpr fun deployment hmem => by
            rw [decide_eq_true_eq, hdemoted, hall deployment ((ranked_perm demoted _).mem_iff.mp hmem)]
            exact Bool.false_ne_true
        rw [routing_withDemotedEndpoints hempty, ranked_eq_append, hback, List.append_nil,
          ← tiers_kept hdemoted (hnodup modelAlias), hkept]
        rfl

end MovesLast

/-- **What is published follows the verdicts exactly where** no endpoint is demoted after the rounds, or no two
deployments that an alias keeps in front have one priority; the router of the gateway is the one of what is
published. -/
theorem published_iff (settings : Settings) (rounds : List (Round baseline)) :
    (run settings rounds).gateway.router = buildRouter (run settings rounds).gateway.registry
      ∧ (MovesLast baseline (isDemoted settings rounds) (run settings rounds).gateway.registry
        ↔ NoTies baseline (isDemoted settings rounds)) := by
  obtain ⟨hregistry, hrouter⟩ := gateway_run settings rounds
  refine ⟨hrouter, ?_⟩
  rw [hregistry]
  refine movesLast_iff (mem_demoted_run settings rounds) fun endpoint hendpoint => ?_
  exact exists_of_isDemoted ((mem_demoted_run settings rounds endpoint).mp hendpoint)

/-! ## Two deployments that share the requests -/

/-- A deployment of an alias. -/
def deployed (modelAlias model apiBase : String) (priority : Nat) : ResolvedDeployment :=
  ⟨⟨modelAlias, model, apiBase, "sk-1", some "openai"⟩, priority⟩

/-- Two servers share the requests of one alias, and a third one has another alias. -/
def shared : ModelRegistry where
  version := 1
  deployments := [deployed "factory-fast" "qwen" "http://a/v1" 1, deployed "factory-fast" "qwen" "http://b/v1" 1,
    deployed "factory-summary" "deepseek" "http://c/v1" 1]
  fallbacks := []
  skippedAliases := []

/-- The third server does not answer. -/
def thirdFails : Round shared where
  finished := probeTargets [] shared.deployments
  perm := .refl _
  verdict := fun deployment => if deployment.apiBase = "http://c/v1" then .unhealthy else .healthy

/-- **The two servers of a healthy alias no longer share its requests**: after two failures of the third one, each
deployment has a priority of its own. -/
theorem published_without_tie :
    ¬∀ (baseline : ModelRegistry) (settings : Settings) (rounds : List (Round baseline)),
      MovesLast baseline (isDemoted settings rounds) (run settings rounds).gateway.registry := by
  intro h
  have hmoves := h shared ⟨2, by decide⟩ [thirdFails, thirdFails]
  rw [(gateway_run _ _).1, movesLast_iff (mem_demoted_run _ _) fun endpoint hendpoint =>
    exists_of_isDemoted ((mem_demoted_run _ _ endpoint).mp hendpoint)] at hmoves
  rcases hmoves with hnone | hnodup
  · exact absurd (hnone (deployed "factory-summary" "deepseek" "http://c/v1" 1) (by decide)) (by decide)
  · exact absurd (hnodup "factory-fast") (by decide)

end ModelRouting
