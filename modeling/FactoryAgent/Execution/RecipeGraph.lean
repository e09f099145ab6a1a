import FactoryAgent.Execution.Recipes
import FactoryAgent.Lib.Dict
import Mathlib.Data.Finset.Insert
import Mathlib.Data.Finset.Lattice.Basic

/-!
# The graph of a recipe

The two recursions over the dependencies of an accepted recipe: `_upstream_api` of `execution/kernel.py`, which collects
the operations that a step draws on, and `_parallel_groups` of `execution/dag.py`, which puts the steps into waves. Both
rely on `_reject_cycles`. On a recipe without cycles they end and are exact (`recipeGraph_exact`): they go by the rank
of the steps, which falls along the dependencies.

The recursions are bounded by a fuel, and any fuel beyond the number of steps gives the same result. The limit that the
interpreter sets to the depth of a recursion is left out.
-/

open Checks

namespace CapabilityRecipe

/-- `by_id.get(…)`: the last step with an id. -/
def stepById? (recipe : CapabilityRecipe) (stepId : String) : Option RecipeStep :=
  recipe.steps.reverse.find? fun step => step.stepId == stepId

/-- `api_by_step.get(…)`: the operation of the last API step with an id. -/
def apiByStep? (recipe : CapabilityRecipe) (stepId : String) : Option String :=
  (recipe.steps.reverse.find? fun step =>
    step.stepId == stepId && step.kind == .api && step.operationId.isSome).bind (·.operationId)

/-- The operation of a step itself. -/
def directApi (recipe : CapabilityRecipe) (stepId : String) : Finset String :=
  match recipe.apiByStep? stepId with
  | some direct => if direct = "" then ∅ else {direct}
  | none => ∅

/-- **`_upstream_api`**; `none` is out of fuel. -/
def upstreamApi (recipe : CapabilityRecipe) : Nat → RecipeStep → Option (Finset String)
  | 0, _ => none
  | fuel + 1, step =>
    (step.dependsOn.filterMap recipe.stepById?).foldlM
      (fun ops dependencyStep => (upstreamApi recipe fuel dependencyStep).map (ops ∪ ·)) (recipe.directApi step.stepId)

/-- **An operation that a step draws on**: that of an API step that it leads to, or is. -/
def Draws (recipe : CapabilityRecipe) (stepId operation : String) : Prop :=
  operation ≠ "" ∧ ∃ step ∈ recipe.steps, Relation.ReflTransGen recipe.DependsOn stepId step.stepId
    ∧ step.kind = .api ∧ step.operationId = some operation

end CapabilityRecipe

/-! ## Waves -/

/-- The waves are not found. -/
inductive WavesError where
  /-- the `InternalError` -/
  | internal (message : String)
  | fuel
  deriving DecidableEq, Repr

/-- The steps whose dependencies are done. -/
def readySteps (done : List String) (remaining : List RecipeStep) : List RecipeStep :=
  remaining.filter fun step => step.dependsOn.all fun dependency => done.contains dependency

/-- The next wave: what is ready and in a group, or one step. -/
def nextWave (done : List String) (remaining : List RecipeStep) : List RecipeStep :=
  let ready := readySteps done remaining
  let wave := ready.filter fun step => step.parallelGroup.isSome
  let solo := ready.filter fun step => step.parallelGroup.isNone
  if wave.isEmpty then solo.take 1 else wave

/-- The loop of `_parallel_groups`. -/
def wavesLoop : Nat → List String → List RecipeStep → Except WavesError (List (List RecipeStep))
  | 0, _, _ => .error .fuel
  | fuel + 1, done, remaining =>
    if remaining.isEmpty then .ok []
    else if (readySteps done remaining).isEmpty then .error (.internal "recipe dependency graph is cyclic")
    else
      let wave := nextWave done remaining
      let ids := wave.map (·.stepId)
      (wavesLoop fuel (done ++ ids) (remaining.filter fun step => !ids.contains step.stepId)).map (wave :: ·)

/-- `{step.step_id: step for step in steps}` -/
def remainingSteps (steps : List RecipeStep) : List RecipeStep :=
  ((steps.foldl (fun remaining step => remaining.set step.stepId step) Dict.empty).items).map (·.2)

/-- **`_parallel_groups`** -/
def parallelGroups (fuel : Nat) (steps : List RecipeStep) : Except WavesError (List (List RecipeStep)) :=
  wavesLoop fuel [] (remainingSteps steps)

/-! ## What a step draws on -/

/-- Collecting what each of some things gives. -/
theorem foldlM_union {α β : Type} [DecidableEq β] {give : α → Option (Finset β)} {xs : List α} (start : Finset β)
    (h : ∀ x ∈ xs, (give x).isSome = true) :
    ∃ all, xs.foldlM (fun acc x => (give x).map (acc ∪ ·)) start = some all
      ∧ ∀ b, b ∈ all ↔ b ∈ start ∨ ∃ x ∈ xs, ∃ given, give x = some given ∧ b ∈ given := by
  induction xs generalizing start with
  | nil => exact ⟨start, rfl, fun b => by simp⟩
  | cons x xs ih =>
    rw [List.forall_mem_cons] at h
    obtain ⟨given, hgiven⟩ := Option.isSome_iff_exists.mp h.1
    obtain ⟨all, hall, hmem⟩ := ih (start ∪ given) h.2
    refine ⟨all, by rw [List.foldlM_cons, hgiven]; exact hall, fun b => ?_⟩
    rw [hmem, Finset.mem_union, or_assoc]
    refine or_congr_right ?_
    simp only [List.mem_cons, exists_eq_or_imp, hgiven, Option.some.injEq, exists_eq_left']

section Graph

variable {recipe : CapabilityRecipe}

/-- A step is found by its id. -/
theorem stepById?_eq_some_iff (hdistinct : recipe.stepIds.Nodup) {stepId : String} {step : RecipeStep} :
    recipe.stepById? stepId = some step ↔ step ∈ recipe.steps ∧ step.stepId = stepId := by
  have hid : ∀ found, recipe.stepById? stepId = some found → found ∈ recipe.steps ∧ found.stepId = stepId := by
    intro found hfound
    rw [CapabilityRecipe.stepById?] at hfound
    have hfoundId := List.find?_some hfound
    exact ⟨List.mem_reverse.mp (List.mem_of_find?_eq_some hfound), eq_of_beq hfoundId⟩
  refine ⟨hid step, fun ⟨hstep, hstepId⟩ => ?_⟩
  have hsome : (recipe.stepById? stepId).isSome = true :=
    List.find?_isSome.mpr ⟨step, List.mem_reverse.mpr hstep, beq_iff_eq.mpr hstepId⟩
  obtain ⟨found, hfound⟩ := Option.isSome_iff_exists.mp hsome
  rw [hfound, List.inj_on_of_nodup_map hdistinct (hid found hfound).1 hstep ((hid found hfound).2.trans hstepId.symm)]

/-- The operation of a step itself is that of its API step. -/
theorem mem_directApi (hdistinct : recipe.stepIds.Nodup) {step : RecipeStep} (hstep : step ∈ recipe.steps)
    {operation : String} :
    operation ∈ recipe.directApi step.stepId
      ↔ operation ≠ "" ∧ step.kind = .api ∧ step.operationId = some operation := by
  have happly : ∀ direct, recipe.apiByStep? step.stepId = some direct
      ↔ step.kind = .api ∧ step.operationId = some direct := by
    intro direct
    constructor
    · intro h
      obtain ⟨found, hfound, hdirect⟩ := Option.bind_eq_some_iff.mp h
      have htest := List.find?_some hfound
      rw [Bool.and_eq_true, Bool.and_eq_true, beq_iff_eq, beq_iff_eq] at htest
      have hsame := List.inj_on_of_nodup_map hdistinct (List.mem_reverse.mp (List.mem_of_find?_eq_some hfound)) hstep
        htest.1.1
      exact ⟨hsame ▸ htest.1.2, hsame ▸ hdirect⟩
    · rintro ⟨hkind, hdirect⟩
      have htest : (recipe.steps.reverse.find? fun other =>
          other.stepId == step.stepId && other.kind == .api && other.operationId.isSome).isSome = true := by
        refine List.find?_isSome.mpr ⟨step, List.mem_reverse.mpr hstep, ?_⟩
        rw [hkind, hdirect, beq_self_eq_true, beq_self_eq_true]
        rfl
      obtain ⟨found, hfound⟩ := Option.isSome_iff_exists.mp htest
      have htest := List.find?_some hfound
      rw [Bool.and_eq_true, Bool.and_eq_true, beq_iff_eq] at htest
      have hsame := List.inj_on_of_nodup_map hdistinct (List.mem_reverse.mp (List.mem_of_find?_eq_some hfound)) hstep
        htest.1.1
      rw [CapabilityRecipe.apiByStep?, hfound, Option.bind_some, hsame, hdirect]
  rw [CapabilityRecipe.directApi]
  cases hfound : recipe.apiByStep? step.stepId with
  | none =>
    rw [hfound] at happly
    refine iff_of_false (Finset.notMem_empty _) fun h => ?_
    exact absurd ((happly operation).mpr h.2) (Option.some_ne_none _).symm
  | some direct =>
    rw [hfound] at happly
    rw [← happly operation, Option.some.injEq]
    dsimp only
    split_ifs with hempty
    · refine iff_of_false (Finset.notMem_empty _) fun h => h.1 ?_
      rw [← h.2, hempty]
    · rw [Finset.mem_singleton]
      exact ⟨fun h => ⟨h ▸ hempty, h.symm⟩, fun h => h.2.symm⟩

/-- **What a step draws on** is its own operation, and what its dependencies draw on. -/
theorem draws_iff (hdistinct : recipe.stepIds.Nodup) {step : RecipeStep} (hstep : step ∈ recipe.steps)
    {operation : String} :
    recipe.Draws step.stepId operation ↔ operation ∈ recipe.directApi step.stepId
      ∨ ∃ dependency ∈ step.dependsOn, recipe.Draws dependency operation := by
  rw [mem_directApi hdistinct hstep]
  constructor
  · rintro ⟨hnonempty, other, hother, hpath, hkind, hoperation⟩
    rcases Relation.ReflTransGen.cases_head hpath with hsame | ⟨next, ⟨holder, hholder, hid, hdependency⟩, hrest⟩
    · have hsame := List.inj_on_of_nodup_map hdistinct hstep hother hsame
      exact .inl ⟨hnonempty, hsame ▸ hkind, hsame ▸ hoperation⟩
    · have hsame := List.inj_on_of_nodup_map hdistinct hholder hstep hid
      exact .inr ⟨next, hsame ▸ hdependency, hnonempty, other, hother, hrest, hkind, hoperation⟩
  · rintro (⟨hnonempty, hkind, hoperation⟩ | ⟨dependency, hdependency, hnonempty, other, hother, hpath, hdraws⟩)
    · exact ⟨hnonempty, step, hstep, .refl, hkind, hoperation⟩
    · exact ⟨hnonempty, other, hother, .head ⟨step, hstep, rfl, hdependency⟩ hpath, hdraws⟩

/-- A dependency that is no step draws on nothing. -/
theorem not_draws_of_unknown {dependency : String} (hunknown : dependency ∉ recipe.stepIds) {operation : String} :
    ¬ recipe.Draws dependency operation := by
  rintro ⟨-, other, hother, hpath, -⟩
  refine hunknown ?_
  rcases Relation.ReflTransGen.cases_head hpath with hsame | ⟨next, ⟨holder, hholder, hid, -⟩, -⟩
  · exact List.mem_map.mpr ⟨other, hother, hsame.symm⟩
  · exact List.mem_map.mpr ⟨holder, hholder, hid⟩

/-- **`_upstream_api` ends, and collects what a step draws on**: its recursion goes down the rank of the steps. -/
theorem upstreamApi_spec (hdistinct : recipe.stepIds.Nodup) {rank : String → Nat}
    (hrank : ∀ step ∈ recipe.steps, ∀ other ∈ recipe.steps, other.stepId ∈ step.dependsOn →
      rank other.stepId < rank step.stepId)
    {step : RecipeStep} (hstep : step ∈ recipe.steps) {fuel : Nat} (hfuel : rank step.stepId < fuel) :
    ∃ ops, recipe.upstreamApi fuel step = some ops
      ∧ ∀ operation, operation ∈ ops ↔ recipe.Draws step.stepId operation := by
  induction fuel generalizing step with
  | zero => omega
  | succ fuel ih =>
    have hknown : ∀ dependencyStep ∈ step.dependsOn.filterMap recipe.stepById?,
        dependencyStep ∈ recipe.steps ∧ dependencyStep.stepId ∈ step.dependsOn := by
      intro dependencyStep hmem
      obtain ⟨dependency, hdependency, hfound⟩ := List.mem_filterMap.mp hmem
      obtain ⟨hsteps, hid⟩ := (stepById?_eq_some_iff hdistinct).mp hfound
      exact ⟨hsteps, hid ▸ hdependency⟩
    have hgiven : ∀ dependencyStep ∈ step.dependsOn.filterMap recipe.stepById?,
        ∃ ops, recipe.upstreamApi fuel dependencyStep = some ops
          ∧ ∀ operation, operation ∈ ops ↔ recipe.Draws dependencyStep.stepId operation := by
      intro dependencyStep hmem
      obtain ⟨hsteps, hdependency⟩ := hknown dependencyStep hmem
      exact ih hsteps (Nat.lt_of_lt_of_le (hrank step hstep dependencyStep hsteps hdependency)
        (Nat.le_of_lt_succ hfuel))
    obtain ⟨all, hall, hmem⟩ := foldlM_union (recipe.directApi step.stepId) fun dependencyStep hdependency => by
      obtain ⟨ops, hops, -⟩ := hgiven dependencyStep hdependency
      exact Option.isSome_iff_exists.mpr ⟨ops, hops⟩
    refine ⟨all, hall, fun operation => ?_⟩
    rw [hmem, draws_iff hdistinct hstep]
    refine or_congr_right ⟨?_, ?_⟩
    · rintro ⟨dependencyStep, hdependency, ops, hops, hoperation⟩
      obtain ⟨ops', hops', hspec⟩ := hgiven dependencyStep hdependency
      cases hops.symm.trans hops'
      exact ⟨dependencyStep.stepId, (hknown dependencyStep hdependency).2, (hspec operation).mp hoperation⟩
    · rintro ⟨dependency, hdependency, hdraws⟩
      have hstepId : dependency ∈ recipe.stepIds := by
        by_contra hunknown
        exact not_draws_of_unknown hunknown hdraws
      obtain ⟨dependencyStep, hsteps, rfl⟩ := List.mem_map.mp hstepId
      have hfound : dependencyStep ∈ step.dependsOn.filterMap recipe.stepById? :=
        List.mem_filterMap.mpr ⟨_, hdependency, (stepById?_eq_some_iff hdistinct).mpr ⟨hsteps, rfl⟩⟩
      obtain ⟨ops, hops, hspec⟩ := hgiven dependencyStep hfound
      exact ⟨dependencyStep, hfound, ops, hops, (hspec operation).mpr hdraws⟩

end Graph

/-! ## Every step is in one wave -/

/-- The ids of steps that are all different are set one after another. -/
theorem remainingSteps_eq {steps : List RecipeStep} (hdistinct : (steps.map (·.stepId)).Nodup) :
    remainingSteps steps = steps := by
  have hitems : ∀ (rest : List RecipeStep) (dict : Dict String RecipeStep),
      (rest.map (·.stepId)).Nodup → (∀ step ∈ rest, step.stepId ∉ dict.items.map Prod.fst) →
      (rest.foldl (fun remaining step => remaining.set step.stepId step) dict).items
        = dict.items ++ rest.map fun step => (step.stepId, step) := by
    intro rest
    induction rest with
    | nil => exact fun dict _ _ => (List.append_nil _).symm
    | cons step rest ih =>
      intro dict hnodup hfresh
      rw [List.map_cons, List.nodup_cons] at hnodup
      rw [List.forall_mem_cons] at hfresh
      have hset : (dict.set step.stepId step).items = dict.items ++ [(step.stepId, step)] :=
        Dict.items_set_of_fresh hfresh.1 step
      rw [List.foldl_cons, ih _ hnodup.2, hset, List.append_assoc, List.map_cons, List.singleton_append]
      intro other hother
      rw [hset, List.map_append, List.mem_append, List.map_singleton, List.mem_singleton]
      refine not_or.mpr ⟨hfresh.2 other hother, fun heq => hnodup.1 ?_⟩
      exact List.mem_map.mpr ⟨other, hother, heq⟩
  rw [remainingSteps, hitems steps Dict.empty hdistinct fun _ _ => List.not_mem_nil]
  simp [Dict.empty, Function.comp_def]

/-- A step is ready where its dependencies are done. -/
theorem mem_readySteps {done : List String} {remaining : List RecipeStep} {step : RecipeStep} :
    step ∈ readySteps done remaining ↔ step ∈ remaining ∧ ∀ dependency ∈ step.dependsOn, dependency ∈ done := by
  rw [readySteps, List.mem_filter, List.all_eq_true]
  simp only [List.contains_iff_mem]

/-- The next wave is made of steps that are ready. -/
theorem nextWave_sublist (done : List String) (remaining : List RecipeStep) :
    (nextWave done remaining).Sublist (readySteps done remaining) := by
  rw [nextWave]
  split_ifs
  · exact (List.take_sublist _ _).trans List.filter_sublist
  · exact List.filter_sublist

/-- The next wave is not empty where a step is ready. -/
theorem nextWave_ne_nil {done : List String} {remaining : List RecipeStep} (h : readySteps done remaining ≠ []) :
    nextWave done remaining ≠ [] := by
  rw [nextWave]
  split_ifs with hgrouped
  · intro htake
    obtain ⟨step, hstep⟩ := List.exists_mem_of_ne_nil _ h
    rw [List.take_eq_nil_iff, or_iff_right (by decide)] at htake
    rw [List.isEmpty_iff] at hgrouped
    -- a step that is ready is in a group or is not
    cases hgroup : step.parallelGroup with
    | none => exact List.ne_nil_of_mem (List.mem_filter.mpr ⟨hstep, by rw [hgroup]; rfl⟩) htake
    | some group => exact List.ne_nil_of_mem (List.mem_filter.mpr ⟨hstep, by rw [hgroup]; rfl⟩) hgrouped
  · exact fun hnil => hgrouped (List.isEmpty_iff.mpr hnil)

/-- A step of the lowest rank is ready. -/
theorem readySteps_ne_nil {done : List String} {remaining : List RecipeStep} {rank : String → Nat}
    (hknown : ∀ step ∈ remaining, ∀ dependency ∈ step.dependsOn,
      dependency ∈ done ∨ dependency ∈ remaining.map (·.stepId))
    (hrank : ∀ step ∈ remaining, ∀ other ∈ remaining, other.stepId ∈ step.dependsOn →
      rank other.stepId < rank step.stepId)
    (hremaining : remaining ≠ []) : readySteps done remaining ≠ [] := by
  obtain ⟨first, hfirst⟩ := List.exists_mem_of_ne_nil _ hremaining
  have hready : ∀ n, ∀ step ∈ remaining, rank step.stepId = n → ∃ ready, ready ∈ readySteps done remaining := by
    intro n
    induction n using Nat.strong_induction_on with
    | h n ih =>
      rintro step hstep rfl
      by_cases hdone : ∀ dependency ∈ step.dependsOn, dependency ∈ done
      · exact ⟨step, mem_readySteps.mpr ⟨hstep, hdone⟩⟩
      · push Not at hdone
        obtain ⟨dependency, hdependency, hwaiting⟩ := hdone
        have hremaining := (hknown step hstep dependency hdependency).resolve_left hwaiting
        obtain ⟨other, hother, rfl⟩ := List.mem_map.mp hremaining
        exact ih _ (hrank step hstep other hother hdependency) other hother rfl
  obtain ⟨ready, hmem⟩ := hready _ first hfirst rfl
  exact List.ne_nil_of_mem hmem

/-- What is taken from steps with different ids, and what is left of them. -/
theorem taken_perm {remaining wave : List RecipeStep} (hdistinct : (remaining.map (·.stepId)).Nodup)
    (hwave : wave.Sublist remaining) :
    (wave ++ remaining.filter fun step => !(wave.map (·.stepId)).contains step.stepId).Perm remaining := by
  have htaken : (remaining.filter fun step => (wave.map (·.stepId)).contains step.stepId).Perm wave := by
    have hnodup := hdistinct.of_map
    refine (List.perm_ext_iff_of_nodup (hnodup.filter _) (hnodup.sublist hwave)).mpr fun step => ?_
    rw [List.mem_filter, List.contains_iff_mem]
    constructor
    · rintro ⟨hstep, hid⟩
      obtain ⟨other, hother, hsame⟩ := List.mem_map.mp hid
      exact List.inj_on_of_nodup_map hdistinct (hwave.subset hother) hstep hsame ▸ hother
    · exact fun hstep => ⟨hwave.subset hstep, List.mem_map.mpr ⟨step, hstep, rfl⟩⟩
  exact (htaken.symm.append_right _).trans (List.filter_append_perm _ remaining)

/-- **The waves of some steps**: each step is in one of them, after what it depends on. -/
structure Waves (done : List String) (remaining : List RecipeStep) (waves : List (List RecipeStep)) : Prop where
  once : waves.flatten.Perm remaining
  after : ∀ front wave back, waves = front ++ wave :: back → ∀ step ∈ wave, ∀ dependency ∈ step.dependsOn,
    dependency ∈ done ∨ dependency ∈ front.flatten.map (·.stepId)

/-- **The loop ends, with the waves of what remains**: a step of the lowest rank is ready, so each turn takes one. -/
theorem wavesLoop_spec {rank : String → Nat} (done : List String) {remaining : List RecipeStep}
    (hdistinct : (remaining.map (·.stepId)).Nodup)
    (hknown : ∀ step ∈ remaining, ∀ dependency ∈ step.dependsOn,
      dependency ∈ done ∨ dependency ∈ remaining.map (·.stepId))
    (hrank : ∀ step ∈ remaining, ∀ other ∈ remaining, other.stepId ∈ step.dependsOn →
      rank other.stepId < rank step.stepId) :
    ∃ waves, (∀ fuel, remaining.length < fuel → wavesLoop fuel done remaining = .ok waves)
      ∧ Waves done remaining waves := by
  induction hlength : remaining.length using Nat.strong_induction_on generalizing done remaining with
  | h length ih =>
    by_cases hempty : remaining = []
    · subst hempty
      refine ⟨[], fun fuel hfuel => ?_, .refl _, fun front wave back heq => ?_⟩
      · obtain ⟨fuel, rfl⟩ := Nat.exists_eq_succ_of_ne_zero (Nat.ne_zero_of_lt hfuel)
        rfl
      · exact absurd heq.symm (List.append_ne_nil_of_right_ne_nil _ (List.cons_ne_nil _ _))
    have hready := readySteps_ne_nil hknown hrank hempty
    have hwave := (nextWave_sublist done remaining).trans List.filter_sublist
    have hperm := taken_perm hdistinct hwave
    have hshorter : (remaining.filter fun step =>
        !((nextWave done remaining).map (·.stepId)).contains step.stepId).length < remaining.length := by
      have hsum := hperm.length_eq
      rw [List.length_append] at hsum
      have hpos := List.length_pos_of_ne_nil (nextWave_ne_nil hready)
      omega
    have hrest : ∀ step ∈ remaining.filter fun step =>
          !((nextWave done remaining).map (·.stepId)).contains step.stepId,
        ∀ dependency ∈ step.dependsOn, dependency ∈ done ++ (nextWave done remaining).map (·.stepId)
          ∨ dependency ∈ (remaining.filter fun step =>
            !((nextWave done remaining).map (·.stepId)).contains step.stepId).map (·.stepId) := by
      intro step hstep dependency hdependency
      rw [List.mem_append]
      rcases hknown step (List.mem_of_mem_filter hstep) dependency hdependency with hdone | hmem
      · exact .inl (.inl hdone)
      · have hsplit := (hperm.map (·.stepId)).mem_iff.mpr hmem
        rw [List.map_append, List.mem_append] at hsplit
        exact hsplit.imp_left .inr
    obtain ⟨waves, hloop, hwaves⟩ := ih _ (hlength ▸ hshorter) _ (hdistinct.sublist (List.filter_sublist.map _)) hrest
      (fun step hstep other hother => hrank step (List.mem_of_mem_filter hstep) other (List.mem_of_mem_filter hother))
      rfl
    refine ⟨nextWave done remaining :: waves, fun fuel hfuel => ?_, ?_, ?_⟩
    · obtain ⟨fuel, rfl⟩ := Nat.exists_eq_succ_of_ne_zero (Nat.ne_zero_of_lt hfuel)
      rw [wavesLoop, if_neg (fun h => hempty (List.isEmpty_iff.mp h)),
        if_neg (fun h => hready (List.isEmpty_iff.mp h))]
      dsimp only
      rw [hloop fuel (by omega)]
      rfl
    · rw [List.flatten_cons]
      exact (hwaves.once.append_left _).trans hperm
    · intro front wave back heq step hstep dependency hdependency
      cases front with
      | nil =>
        obtain ⟨rfl, -⟩ := List.cons.inj heq
        exact .inl ((mem_readySteps.mp ((nextWave_sublist done remaining).subset hstep)).2 dependency hdependency)
      | cons first front =>
        obtain ⟨rfl, hrest⟩ := List.cons.inj heq
        rw [List.flatten_cons, List.map_append, List.mem_append, ← or_assoc, ← List.mem_append]
        exact hwaves.after front wave back hrest step hstep dependency hdependency

/-! ## The three of them -/

variable {recipe : CapabilityRecipe}

/-- The steps of a recipe without cycles have a rank. -/
theorem exists_stepRank (hdistinct : recipe.stepIds.Nodup)
    (hacyclic : ∀ stepId, ¬ Relation.TransGen recipe.DependsOn stepId stepId) :
    ∃ rank : String → Nat, (∀ step ∈ recipe.steps, rank step.stepId < recipe.steps.length)
      ∧ ∀ step ∈ recipe.steps, ∀ other ∈ recipe.steps, other.stepId ∈ step.dependsOn →
        rank other.stepId < rank step.stepId := by
  have hedge : DepthFirst.Edge recipe.edges = recipe.DependsOn := by
    ext stepId dependency
    exact mem_edges_iff hdistinct
  have hgraph : ∀ stepId ∈ recipe.stepIds, ¬ Relation.TransGen (DepthFirst.Edge recipe.edges) stepId stepId :=
    fun stepId _ => hedge ▸ hacyclic stepId
  obtain ⟨rank, hbound, hfalls⟩ := DepthFirst.exists_rank hgraph
  refine ⟨rank, fun step hstep => ?_, fun step hstep other hother hdependency => ?_⟩
  · rw [← List.length_map (f := (·.stepId))]
    exact hbound _ (List.mem_map.mpr ⟨step, hstep, rfl⟩)
  · exact hfalls _ (List.mem_map.mpr ⟨step, hstep, rfl⟩) _ (List.mem_map.mpr ⟨other, hother, rfl⟩)
      ((mem_edges_iff hdistinct).mpr ⟨step, hstep, rfl, hdependency⟩)

/-- **The steps of an accepted recipe have waves.** -/
theorem exists_waves (hdistinct : recipe.stepIds.Nodup) (hok : rejectCycles recipe = .ok ())
    (hknown : ∀ step ∈ recipe.steps, step.dependsOn ⊆ recipe.stepIds) :
    ∃ waves, (∀ fuel, recipe.steps.length < fuel → parallelGroups fuel recipe.steps = .ok waves)
      ∧ Waves [] recipe.steps waves := by
  obtain ⟨rank, -, hfalls⟩ := exists_stepRank hdistinct ((rejectCycles_eq_ok_iff hdistinct).mp hok)
  obtain ⟨waves, hloop, hwaves⟩ := wavesLoop_spec [] hdistinct
    (fun step hstep dependency hdependency => .inr (hknown step hstep hdependency)) hfalls
  refine ⟨waves, fun fuel hfuel => ?_, hwaves⟩
  rw [parallelGroups, remainingSteps_eq hdistinct, hloop fuel hfuel]

/-- **The helpers of the graph are exact.** The search for cycles refuses exactly the recipes that have one. Of a recipe
that it lets through, whose dependencies are steps, every step is given just the operations that it draws on, and the
waves have every step once, after the waves of its dependencies; any fuel beyond the number of steps is enough. -/
theorem recipeGraph_exact (hdistinct : recipe.stepIds.Nodup) :
    (rejectCycles recipe = .ok () ↔ ∀ stepId, ¬ Relation.TransGen recipe.DependsOn stepId stepId)
      ∧ (rejectCycles recipe = .ok () → ∀ step ∈ recipe.steps, ∃ ops,
          (∀ fuel, recipe.steps.length ≤ fuel → recipe.upstreamApi fuel step = some ops)
            ∧ ∀ operation, operation ∈ ops ↔ recipe.Draws step.stepId operation)
      ∧ (rejectCycles recipe = .ok () → (∀ step ∈ recipe.steps, step.dependsOn ⊆ recipe.stepIds) → ∃ waves,
          (∀ fuel, recipe.steps.length < fuel → parallelGroups fuel recipe.steps = .ok waves)
            ∧ Waves [] recipe.steps waves) := by
  have haccepted := rejectCycles_eq_ok_iff hdistinct
  refine ⟨haccepted, fun hok step hstep => ?_, exists_waves hdistinct⟩
  obtain ⟨rank, hbound, hfalls⟩ := exists_stepRank hdistinct (haccepted.mp hok)
  obtain ⟨ops, hops, hdraws⟩ := upstreamApi_spec hdistinct hfalls hstep (hbound step hstep)
  refine ⟨ops, fun fuel hfuel => ?_, hdraws⟩
  obtain ⟨ops', hops', hdraws'⟩ :=
    upstreamApi_spec hdistinct hfalls hstep (Nat.lt_of_lt_of_le (hbound step hstep) hfuel)
  rw [hops', Finset.ext fun operation => (hdraws' operation).trans (hdraws operation).symm]

/-- A report of two sources that draw on one list. -/
def diamondRecipe : CapabilityRecipe where
  capabilityId := "diamond"
  steps := [
    { stepId := "total", kind := .local, dependsOn := ["pay", "work"], compute := some "sum" },
    { stepId := "pay", operationId := some "PayQuery", dependsOn := ["staff"], parallelGroup := some "sources" },
    { stepId := "work", operationId := some "WorkQuery", dependsOn := ["staff"], parallelGroup := some "sources" },
    { stepId := "staff", operationId := some "StaffQuery" }]

/-- The report is accepted, and is put into waves. -/
theorem recipeGraph_exact_diamond :
    rejectCycles diamondRecipe = .ok ()
      ∧ (∀ step ∈ diamondRecipe.steps, ∃ ops, diamondRecipe.upstreamApi 4 step = some ops
          ∧ ∀ operation, operation ∈ ops ↔ diamondRecipe.Draws step.stepId operation)
      ∧ ∃ waves, parallelGroups 5 diamondRecipe.steps = .ok waves ∧ Waves [] diamondRecipe.steps waves := by
  obtain ⟨-, hupstream, hwaves⟩ := recipeGraph_exact (by decide : diamondRecipe.stepIds.Nodup)
  have hok : rejectCycles diamondRecipe = .ok () := by decide
  refine ⟨hok, fun step hstep => ?_, ?_⟩
  · obtain ⟨ops, hops, hdraws⟩ := hupstream hok step hstep
    exact ⟨ops, hops 4 (Nat.le_refl 4), hdraws⟩
  · obtain ⟨waves, hloop, hspec⟩ := hwaves hok (by decide)
    exact ⟨waves, hloop 5 (Nat.lt_succ_self 4), hspec⟩
