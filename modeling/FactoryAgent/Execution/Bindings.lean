import FactoryAgent.Execution.Kernel

/-!
# Bindings and the order of the steps

A binding reads the table of another step, so that step has to come first. The runner takes the steps as the
recipe lists them. In a run that gets to its end every binding was evaluated after the step it reads from had
registered its table (`evaluated_after_registered`): a binding that is evaluated finds some table under the name,
and a name that is taken cannot be registered any more.

Whether a run gets to its end is another matter. The validation of a recipe looks at the dependencies of the
steps and at their bindings separately: it checks that a binding reads from an API step and that the
dependencies have no cycle, but not that the one is among the other or comes before.
-/

variable {ε : Type}

/-- **The bindings of a recipe are in order**: each reads from a step that is listed earlier, and on which its
own step depends, directly or through others. -/
def CapabilityRecipe.BindingsInOrder (recipe : CapabilityRecipe) : Prop :=
  ∀ earlier step later, recipe.steps = earlier ++ step :: later → ∀ binding ∈ step.paramBindings,
    binding.2.fromStep ∈ earlier.map (·.stepId)
      ∧ Relation.TransGen recipe.DependsOn step.stepId binding.2.fromStep

/-- A step that some binding of the recipe reads from. -/
def CapabilityRecipe.BindsFrom (recipe : CapabilityRecipe) (fromStep : String) : Prop :=
  ∃ step ∈ recipe.steps, ∃ binding ∈ step.paramBindings, binding.2.fromStep = fromStep

/-- The table that an event registers. -/
def KernelEvent.table? : KernelEvent → Option String
  | registered stepId => some stepId
  | evaluated _ _ | requested _ | fanned _ => none

/-- **The names that are taken** after some events, as they are looked up. -/
def takenNames (kernel : Kernel) (log : List KernelEvent) : List String :=
  (kernel.metaTables.map (·.name) ++ log.filterMap KernelEvent.table?).map kernel.duck.fold

/-- **What may happen after some events**: a binding is evaluated where its name is taken, a table is registered
where it is not. -/
def KernelEvent.Admissible (kernel : Kernel) (recipe : CapabilityRecipe) (before : List KernelEvent) :
    KernelEvent → Prop
  | evaluated _ fromStep =>
    kernel.duck.fold fromStep ∈ takenNames kernel before ∧ recipe.BindsFrom fromStep
  | registered stepId => kernel.duck.fold stepId ∉ takenNames kernel before
  | requested _ | fanned _ => True

/-- **A log in which each event was admissible** at its time. -/
def Admitted (kernel : Kernel) (recipe : CapabilityRecipe) (log : List KernelEvent) : Prop :=
  ∀ (i : Nat) (event : KernelEvent), log[i]? = some event → event.Admissible kernel recipe (log.take i)

/-- **The bookkeeping of a run**: its tables are those of the log, and every API step is still to come, is the
current one, or has its table. -/
structure KernelRun.Placed (run : KernelRun ε) (kernel : Kernel) (recipe : CapabilityRecipe)
    (current : Option RecipeStep) : Prop where
  names : run.tables.map (·.name)
    = kernel.metaTables.map (·.name) ++ run.log.filterMap KernelEvent.table?
  admitted : Admitted kernel recipe run.log
  known : ∀ step, step ∈ run.todo ∨ step ∈ current → step ∈ recipe.steps
  done : ∀ step ∈ recipe.steps, step.kind = .api →
    step ∈ run.todo ∨ step ∈ current ∨ .registered step.stepId ∈ run.log

/-- **The bookkeeping by the phase of a run.** A run that has ended with an exception is let go. -/
def KernelRun.InPlace (run : KernelRun ε) (kernel : Kernel) (recipe : CapabilityRecipe) : Prop :=
  match run.phase with
  | .idle => run.Placed kernel recipe none
  | .fetching step | .fanning step _ => run.Placed kernel recipe (some step)
  | .ended (.ok ()) => run.Placed kernel recipe none ∧ run.todo = []
  | .ended (.error _) => True

section Logs

variable {kernel : Kernel} {recipe : CapabilityRecipe} {log events : List KernelEvent} {event : KernelEvent}

/-- More events, each admissible after those before it. -/
theorem Admitted.append (h : Admitted kernel recipe log)
    (hevents : ∀ (i : Nat) (event : KernelEvent), events[i]? = some event →
      event.Admissible kernel recipe (log ++ events.take i)) :
    Admitted kernel recipe (log ++ events) := by
  intro i event hevent
  rw [List.take_append]
  by_cases hi : i < log.length
  · rw [List.getElem?_append_left hi] at hevent
    rw [Nat.sub_eq_zero_of_le (Nat.le_of_lt hi), List.take_zero, List.append_nil]
    exact h i event hevent
  · have hle := Nat.le_of_not_lt hi
    rw [List.getElem?_append_right hle] at hevent
    rw [List.take_of_length_le hle]
    exact hevents _ event hevent

/-- One more event. -/
theorem Admitted.concat (h : Admitted kernel recipe log)
    (hevent : event.Admissible kernel recipe log) : Admitted kernel recipe (log ++ [event]) := by
  refine h.append fun i other hother => ?_
  obtain ⟨hi, rfl⟩ := List.getElem?_eq_some_iff.mp hother
  have hzero : i = 0 := Nat.lt_one_iff.mp hi
  subst hzero
  rw [List.take_zero, List.append_nil]
  exact hevent

/-- Fetches may be issued at any time. -/
theorem Admitted.fanned {α : Type} (h : Admitted kernel recipe log) (request : α → FetchRequest)
    (batch : List α) :
    Admitted kernel recipe (log ++ batch.map fun item => .fanned (request item)) := by
  refine h.append fun i event hevent => ?_
  rw [List.getElem?_map] at hevent
  obtain ⟨item, -, rfl⟩ := Option.map_eq_some_iff.mp hevent
  trivial

/-- Fetches register no table. -/
theorem filterMap_table?_fanned {α : Type} (request : α → FetchRequest) (batch : List α) :
    (batch.map fun item => KernelEvent.fanned (request item)).filterMap KernelEvent.table? = [] := by
  rw [List.filterMap_map]
  exact List.filterMap_eq_nil_iff.mpr fun _ _ => rfl

/-- The evaluation of bindings registers no table. -/
theorem filterMap_table?_evaluated {α : Type} (stepId : String) (fromStep : α → String)
    (bindings : List α) :
    (bindings.map fun binding => KernelEvent.evaluated stepId (fromStep binding)).filterMap
      KernelEvent.table? = [] := by
  rw [List.filterMap_map]
  exact List.filterMap_eq_nil_iff.mpr fun _ _ => rfl

/-- Names stay taken. -/
theorem takenNames_take_subset {i j : Nat} (hle : i ≤ j) :
    takenNames kernel (log.take i) ⊆ takenNames kernel (log.take j) := by
  refine List.map_subset _ (List.append_subset.mpr ⟨List.subset_append_left _ _, ?_⟩)
  have hprefix : log.take i <+: log.take j := List.take_prefix_take_left hle
  exact List.Subset.trans (List.Sublist.filterMap _ hprefix.sublist).subset (List.subset_append_right _ _)

/-- **A name that is read and registered was registered first.** -/
theorem Admitted.registered_before {i : Nat} {stepId fromStep : String} (h : Admitted kernel recipe log)
    (hevaluated : log[i]? = some (.evaluated stepId fromStep)) (hregistered : .registered fromStep ∈ log) :
    ∃ j < i, log[j]? = some (.registered fromStep) := by
  obtain ⟨j, hj⟩ := List.mem_iff_getElem?.mp hregistered
  refine ⟨j, Nat.lt_of_not_le fun hle => ?_, hj⟩
  exact (h j _ hj) (takenNames_take_subset hle (h i _ hevaluated).1)

end Logs

/-! ## One move -/

section Moves

variable {kernel : Kernel} {recipe : CapabilityRecipe} {run run' : KernelRun ε} {step : RecipeStep}
  {current : Option RecipeStep} {action : KernelMove ε}

namespace KernelRun

/-- The names that are taken are those of the tables. -/
theorem Placed.takenNames_eq (h : run.Placed kernel recipe current) :
    takenNames kernel run.log = run.tables.map (fun table => kernel.duck.fold table.name) := by
  rw [takenNames, ← h.names, List.map_map]
  rfl

/-- A table is registered where its name is free. -/
theorem register_eq_ok {tables tables' : List SandboxTable} {table : SandboxTable}
    (h : kernel.register (ε := ε) recipe tables table = .ok tables') :
    tables' = tables ++ [table]
      ∧ kernel.duck.fold table.name ∉ tables.map (fun table => kernel.duck.fold table.name) := by
  unfold Kernel.register at h
  split at h
  · cases h
  split at h
  · cases h
  split at h
  · cases h
  · rename_i hfree
    cases h
    refine ⟨rfl, fun hmem => hfree (Or.inl ?_)⟩
    obtain ⟨other, hother, heq⟩ := List.mem_map.mp hmem
    exact List.any_eq_true.mpr ⟨other, hother, beq_iff_eq.mpr heq⟩

/-- **The current step gets its table.** -/
theorem Placed.finish {fetched : FetchResult} {calls : Nat} (h : run.Placed kernel recipe (some step)) :
    (run.finish kernel recipe step fetched calls).InPlace kernel recipe := by
  unfold KernelRun.finish
  dsimp only
  by_cases hadmits : kernel.admitsRows (run.processed ++ [fetched.rows.length]) = true
  · rw [if_pos hadmits]
    cases hregister : kernel.register (ε := ε) recipe run.tables
        ⟨step.stepId, fetched.rows, kernel.tableColumnsFor recipe step fetched.rows⟩ with
    | error error => trivial
    | ok tables =>
      obtain ⟨rfl, hfree⟩ := register_eq_ok hregister
      rw [← h.takenNames_eq] at hfree
      refine
        { names := ?_, admitted := h.admitted.concat hfree
          known := fun other hother => h.known other (hother.imp_right fun hnone => (by cases hnone))
          done := fun other hother hkind => ?_ }
      · show List.map _ (run.tables ++ _) = _ ++ List.filterMap _ (run.log ++ _)
        rw [List.map_append, List.filterMap_append, h.names, List.append_assoc]
        rfl
      · rcases h.done other hother hkind with htodo | hcurrent | hlogged
        · exact Or.inl htodo
        · rw [← Option.some.inj hcurrent]
          exact Or.inr (Or.inr (List.mem_append_right _ List.mem_cons_self))
        · exact Or.inr (Or.inr (List.mem_append_left _ hlogged))
  · rw [if_neg hadmits]
    trivial

/-- The outcome of the current step. -/
theorem Placed.settle {calls : FetchResult → Nat} {outcome : Except (FetchError ε) FetchResult}
    (h : run.Placed kernel recipe (some step)) :
    (run.settle kernel recipe step calls outcome).InPlace kernel recipe := by
  unfold KernelRun.settle
  cases outcome with
  | ok fetched => exact h.finish
  | error error =>
    dsimp only
    cases error.upstreamReason with
    | none => trivial
    | some reason => exact h.finish

/-- Events that are admissible and register no table. -/
theorem Placed.logged {events : List KernelEvent} (h : run.Placed kernel recipe current)
    (hadmitted : Admitted kernel recipe (run.log ++ events))
    (hnone : events.filterMap KernelEvent.table? = []) (phase : KernelPhase ε) :
    { run with log := run.log ++ events, phase := phase }.Placed kernel recipe current where
  names := by
    show _ = _ ++ List.filterMap _ (run.log ++ events)
    rw [List.filterMap_append, hnone, List.append_nil]
    exact h.names
  admitted := hadmitted
  known := h.known
  done other hother hkind := (h.done other hother hkind).imp_right fun hrest =>
    hrest.imp_right fun hlogged => List.mem_append_left _ hlogged

/-- **A fan-out that has moved.** -/
theorem Placed.fan {moved : FanoutState Combo (FetchError ε) × List Combo}
    (h : run.Placed kernel recipe (some step)) : (run.fan kernel recipe step moved).InPlace kernel recipe := by
  obtain ⟨state, requested⟩ := moved
  have hadmitted := h.admitted.fanned (requestOf step) requested
  have hnone := filterMap_table?_fanned (requestOf step) requested
  cases state with
  | running fanout => exact h.logged hadmitted hnone (.fanning step fanout)
  | ended outcome => exact Placed.settle (h.logged hadmitted hnone run.phase)

/-- The values of a binding come from a table that is there. -/
theorem mem_of_boundValues {tables : List SandboxTable} {stepId param : String} {binding : ParamBinding}
    {values : List String} (h : kernel.boundValues (ε := ε) tables stepId param binding = .ok values) :
    kernel.duck.fold binding.fromStep ∈ tables.map (fun table => kernel.duck.fold table.name) := by
  unfold Kernel.boundValues Kernel.executeDistinct at h
  split at h
  · cases hgate : assertReadOnly (distinctValuesSql binding.fromStep binding.column).toList with
    | error message =>
      rw [hgate] at h
      cases h
    | ok _ =>
      rw [hgate] at h
      dsimp only at h
      cases htable : tables.find? fun table =>
          kernel.duck.fold table.name == kernel.duck.fold binding.fromStep with
      | none =>
        rw [htable] at h
        cases h
      | some table =>
        have hname := List.find?_some htable
        exact List.mem_map.mpr ⟨table, List.mem_of_find?_eq_some htable, eq_of_beq hname⟩
  · cases h

/-- **The bindings of the current step are evaluated.** -/
theorem Placed.startFanout (h : run.Placed kernel recipe (some step)) :
    (run.startFanout kernel recipe step).InPlace kernel recipe := by
  unfold KernelRun.startFanout
  cases hvalues : step.paramBindings.mapM fun binding =>
      kernel.boundValues (ε := ε) run.tables step.stepId binding.1 binding.2 with
  | error error => trivial
  | ok valueSets =>
    have hadmitted : Admitted kernel recipe (run.log ++ step.paramBindings.map fun binding =>
        KernelEvent.evaluated step.stepId binding.2.fromStep) := by
      refine h.admitted.append fun i event hevent => ?_
      rw [List.getElem?_map] at hevent
      obtain ⟨binding, hbinding, rfl⟩ := Option.map_eq_some_iff.mp hevent
      have hmem := List.mem_of_getElem? hbinding
      obtain ⟨values, -, hone⟩ := Except.exists_mem_of_mapM hvalues hmem
      refine ⟨?_, step, h.known step (Or.inr rfl), binding, hmem, rfl⟩
      rw [← List.map_take, takenNames, List.filterMap_append, filterMap_table?_evaluated, List.append_nil,
        ← takenNames, h.takenNames_eq]
      exact mem_of_boundValues hone
    exact Placed.fan (h.logged hadmitted (filterMap_table?_evaluated _ _ _) run.phase)

/-- **The next step is begun.** -/
theorem Placed.begin (h : run.Placed kernel recipe none) (hidle : run.phase = .idle) :
    (run.begin kernel recipe).InPlace kernel recipe := by
  unfold KernelRun.begin
  cases htodo : run.todo with
  | nil =>
    have hknown := h.known
    have hdone := h.done
    rw [htodo] at hknown hdone
    exact ⟨⟨h.names, h.admitted, hknown, hdone⟩, rfl⟩
  | cons next todo =>
    dsimp only
    have hknown : ∀ step, step ∈ todo ∨ step ∈ some next → step ∈ recipe.steps := by
      intro other hother
      refine h.known other (Or.inl (htodo ▸ ?_))
      rcases hother with hrest | hcurrent
      · exact List.mem_cons_of_mem _ hrest
      · exact Option.some.inj hcurrent ▸ List.mem_cons_self
    have hplaced : { run with todo := todo }.Placed kernel recipe (some next) := by
      refine ⟨h.names, h.admitted, hknown, fun other hother hkind => ?_⟩
      rcases h.done other hother hkind with hmem | hnone | hlogged
      · rcases List.mem_cons.mp (htodo ▸ hmem) with rfl | hrest
        · exact Or.inr (Or.inl rfl)
        · exact Or.inl hrest
      · cases hnone
      · exact Or.inr (Or.inr hlogged)
    by_cases hkind : next.kind ≠ .api
    · -- a step that is passed over is no API step
      rw [if_pos hkind]
      unfold InPlace
      dsimp only
      rw [hidle]
      refine ⟨h.names, h.admitted, fun other hother => hknown other (hother.imp_right fun hnone =>
        (by cases hnone)), fun other hother hapi => ?_⟩
      rcases hplaced.done other hother hapi with hrest | hcurrent | hlogged
      · exact Or.inl hrest
      · rw [← Option.some.inj hcurrent] at hapi
        exact absurd hapi hkind
      · exact Or.inr (Or.inr hlogged)
    rw [if_neg hkind]
    cases next.operationId with
    | none => trivial
    | some operation =>
      cases Kernel.reviewedParams (ε := ε) next.params with
      | error error => trivial
      | ok params =>
        dsimp only
        by_cases hplain : next.paramBindings.isEmpty = true
        · rw [if_pos hplain]
          have hadmitted := hplaced.admitted.concat
            (show KernelEvent.Admissible kernel recipe run.log (.requested (requestOf next [])) from trivial)
          exact hplaced.logged hadmitted rfl (.fetching next)
        · rw [if_neg hplain]
          exact hplaced.startFanout

/-- **One move keeps the bookkeeping.** -/
theorem InPlace.move (h : run.InPlace kernel recipe) (hmove : run.move kernel recipe action = some run') :
    run'.InPlace kernel recipe := by
  unfold InPlace at h
  unfold KernelRun.move at hmove
  cases hphase : run.phase with
  | idle =>
    rw [hphase] at h hmove
    cases action with
    | proceed =>
      cases hmove
      exact Placed.begin h hphase
    | answer i outcome => cases hmove
  | fetching step =>
    rw [hphase] at h hmove
    cases action with
    | proceed => cases hmove
    | answer i outcome =>
      dsimp only at hmove
      split at hmove
      · cases hmove
        exact Placed.settle h
      · cases hmove
  | fanning step fanout =>
    rw [hphase] at h hmove
    cases action with
    | proceed => cases hmove
    | answer i outcome =>
      obtain ⟨moved, -, rfl⟩ := Option.map_eq_some_iff.mp hmove
      exact Placed.fan h
  | ended outcome =>
    rw [hphase] at hmove
    cases action with
    | proceed => cases hmove
    | answer i outcome => cases hmove

end KernelRun

end Moves

/-! ## Whole runs -/

section Runs

variable {kernel : Kernel} {recipe : CapabilityRecipe} {run : KernelRun ε}

/-- **The bookkeeping holds in every state.** -/
theorem inPlace_of_reach (h : (fetchApiSteps ε kernel recipe).Reach Machine.free run) :
    run.InPlace kernel recipe :=
  @Machine.Reach.invariant _ _ (fetchApiSteps ε kernel recipe) _ (KernelRun.InPlace · kernel recipe)
    (show (fetchApiSteps ε kernel recipe).init.Placed kernel recipe none from
      { names := (List.append_nil _).symm
        admitted := fun _ _ hevent => (by cases hevent)
        known := fun _ hstep => hstep.elim id fun hnone => (by cases hnone)
        done := fun _ hstep _ => Or.inl hstep })
    (fun hinPlace _ hmove => KernelRun.InPlace.move hinPlace hmove) _ h

/-- **A binding is evaluated after its table is there**, in every run that gets to its end: the step that it
reads from has registered its table before. -/
theorem evaluated_after_registered {classes : CharClasses} {registeredOperations : List String}
    (haccepted : validateRecipe classes recipe registeredOperations = .ok ())
    (h : (fetchApiSteps ε kernel recipe).Reach Machine.free run) (hended : run.phase = .ended (.ok ()))
    {i : Nat} {stepId fromStep : String} (hevent : run.log[i]? = some (.evaluated stepId fromStep)) :
    ∃ j < i, run.log[j]? = some (.registered fromStep) := by
  have hinPlace := inPlace_of_reach h
  unfold KernelRun.InPlace at hinPlace
  rw [hended] at hinPlace
  obtain ⟨hplaced, htodo⟩ := hinPlace
  have hcoherent := validateRecipe_eq_ok_iff.mp haccepted
  obtain ⟨-, step, hstep, binding, hbinding, rfl⟩ := hplaced.admitted i _ hevent
  obtain ⟨source, hsource, hid⟩ := List.mem_map.mp ((hcoherent.steps step hstep).bound binding hbinding)
  obtain ⟨hmem, hkind⟩ := List.mem_filter.mp hsource
  rcases hplaced.done source hmem (of_decide_eq_true hkind) with hrest | hnone | hlogged
  · rw [htodo] at hrest
    cases hrest
  · cases hnone
  · exact hplaced.admitted.registered_before hevent (hid ▸ hlogged)

end Runs

/-! ## What validation rejects -/

/-- **Bindings are safe in a recipe**: where it is accepted, every run to its end evaluates each binding after
the step it reads from has registered its table; and it is rejected where its bindings are not in order. -/
structure CapabilityRecipe.BindingsSafe (recipe : CapabilityRecipe) (classes : CharClasses)
    (registeredOperations : List String) : Prop where
  available : validateRecipe classes recipe registeredOperations = .ok () →
    ∀ (ε : Type) (kernel : Kernel) (run : KernelRun ε),
      (fetchApiSteps ε kernel recipe).Reach Machine.free run → run.phase = .ended (.ok ()) →
      ∀ (i : Nat) (stepId fromStep : String), run.log[i]? = some (.evaluated stepId fromStep) →
        ∃ j < i, run.log[j]? = some (.registered fromStep)
  rejected : ¬ recipe.BindingsInOrder → validateRecipe classes recipe registeredOperations ≠ .ok ()

/-- **Validation rejects bindings that are out of order only by accident**: for one of the defects that it looks
for, none of which is about the order of a binding. -/
theorem bindingsSafe_iff (classes : CharClasses) (recipe : CapabilityRecipe)
    (registeredOperations : List String) :
    recipe.BindingsSafe classes registeredOperations ↔
      recipe.BindingsInOrder ∨ ¬ recipe.Coherent classes registeredOperations := by
  constructor
  · intro h
    by_cases hcoherent : recipe.Coherent classes registeredOperations
    · exact Or.inl (by_contra fun hout => h.rejected hout (validateRecipe_eq_ok_iff.mpr hcoherent))
    · exact Or.inr hcoherent
  · intro h
    refine ⟨fun haccepted _ _ _ hreach hended _ _ _ hevent =>
      evaluated_after_registered haccepted hreach hended hevent, fun hout haccepted => ?_⟩
    rcases h with hin | hincoherent
    · exact hout hin
    · exact hincoherent (validateRecipe_eq_ok_iff.mp haccepted)

/-- Without a table no binding can be evaluated. -/
theorem startFanout_of_no_tables {kernel : Kernel} {recipe : CapabilityRecipe} {run : KernelRun ε}
    {step : RecipeStep} (htables : run.tables = []) (hbindings : step.paramBindings ≠ []) :
    ∃ error, (run.startFanout kernel recipe step).phase = .ended (.error error) := by
  unfold KernelRun.startFanout
  cases hvalues : step.paramBindings.mapM fun binding =>
      kernel.boundValues (ε := ε) run.tables step.stepId binding.1 binding.2 with
  | error error => exact ⟨error, rfl⟩
  | ok valueSets =>
    obtain ⟨binding, hbinding⟩ := List.exists_mem_of_ne_nil _ hbindings
    obtain ⟨values, -, hone⟩ := Except.exists_mem_of_mapM hvalues hbinding
    have hmem := KernelRun.mem_of_boundValues hone
    rw [htables] at hmem
    cases hmem

/-- A step that binds a parameter from the step after it. -/
def bindsLater : CapabilityRecipe where
  capabilityId := "probe"
  steps :=
    [{ stepId := "b", operationId := some "Detail", paramBindings := [("userid", ⟨"a", "id"⟩)] },
     { stepId := "a", operationId := some "List" }]

/-- **A recipe that can never run is accepted.** Its first binding reads from a later step, on which its own
step does not depend, and the run ends with an exception before any fetch. -/
theorem bindsLater_accepted :
    validateRecipe .ascii bindsLater ["List", "Detail"] = .ok () ∧ ¬ bindsLater.BindingsInOrder
      ∧ ∀ kernel : Kernel, kernel.metaTables = [] →
        ∃ error, ((fetchApiSteps Unit kernel bindsLater).init.begin kernel bindsLater).phase
          = .ended (.error error) := by
  refine ⟨by decide +kernel, fun h => ?_, fun kernel htables => ?_⟩
  · exact absurd (h [] _ _ rfl ("userid", ⟨"a", "id"⟩) List.mem_cons_self).1 List.not_mem_nil
  · exact startFanout_of_no_tables htables (List.cons_ne_nil _ _)
