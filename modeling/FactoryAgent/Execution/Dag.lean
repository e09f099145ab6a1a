import FactoryAgent.Execution.RecipeGraph
import FactoryAgent.Lib.Gather
import FactoryAgent.Lib.Machine

/-!
# The executor of a recipe

The executor of `execution/dag.py`. The steps of a wave run together and the waves one after the other. A step of the
API looks its request up in the cache, is charged a call where it is not there, and puts the answer into the cache when
it comes: between the two other steps of the wave go on.

No step runs before what it depends on, and no more calls are issued than the budget has, in any order of the moves.
Two steps of a wave with one request both miss the cache, though, and both reach the upstream. Where no call is issued
while another one with its request is awaited, each request reaches it once (`dag_schedule`).

The runner, the requests that the factory makes of the steps and the clock are parameters. The pages and the rows are
charged by the runner, so an exhausted budget of them is one of its answers.
-/

namespace Dag

/-! ## Outcomes -/

/-- The statuses of a step. -/
inductive StepStatus where
  | complete
  | incomplete
  | failed
  | skipped
  deriving DecidableEq, Repr

/-- `StepOutcome` -/
structure StepOutcome where
  stepId : String
  status : StepStatus
  rows : List Row := []
  reason : Option String := none

/-- What is raised. -/
inductive Raised where
  | upstreamInvalid
  /-- any other `MesError`, by its code -/
  | mes (code : String)
  /-- `BudgetExceededError` -/
  | budget (reason : String)
  | other
  deriving DecidableEq, Repr

/-- `DagResult` -/
structure DagResult where
  outcomes : List StepOutcome
  complete : Bool
  cancelReason : Option String

/-- `StepKey`: an operation and its parameters. -/
abbrev StepKey := String × String

/-- **An executor** with what it is given: the budget of calls, and `_cache_key` of each step, which may raise. -/
structure Executor where
  maxApiCalls : Nat := 20
  cacheKey : RecipeStep → Except Raised StepKey

/-! ## A run -/

/-- **The task of a step**: it has yet to begin, awaits the runner, or has a result. -/
inductive Task where
  | waiting
  | calling (key : StepKey)
  | done (result : Except Raised StepOutcome)

/-- The request that a task awaits the answer of. -/
def Task.awaited? : Task → Option StepKey
  | calling key => some key
  | waiting | done _ => none

@[simp] theorem Task.awaited?_waiting : Task.waiting.awaited? = none := rfl

@[simp] theorem Task.awaited?_calling (key : StepKey) : (Task.calling key).awaited? = some key := rfl

@[simp] theorem Task.awaited?_done (result : Except Raised StepOutcome) : (Task.done result).awaited? = none := rfl

/-- What is seen of a run: a step begins, the runner is called, and the runner has returned. -/
inductive Event where
  | began (stepId : String)
  | called (key : StepKey)
  | reached (key : StepKey)
  deriving DecidableEq, Repr

/-- Whether the runner is called. -/
def Event.isCall : Event → Bool
  | called _ => true
  | began _ | reached _ => false

/-- Where a run is. -/
inductive Phase where
  | between
  /-- `asyncio.gather` of the steps of a wave that can run -/
  | gathering (group : List RecipeStep) (tasks : List (RecipeStep × Task))
  | ended (result : Except Raised DagResult)

/-- **A run of the executor.** -/
structure Run where
  /-- the waves to come -/
  waves : List (List RecipeStep)
  apiCalls : Nat := 0
  results : Dict String StepOutcome := Dict.empty
  cache : Dict StepKey StepOutcome := Dict.empty
  phase : Phase := .between
  log : List Event := []

/-- **A move of a run**: the next wave begins, or the time is over; a step begins; the runner answers; and the wave is
collected. -/
inductive Move where
  | next (overtime : Bool)
  | start (index : Nat)
  | answer (index : Nat) (outcome : Except Raised StepOutcome)
  | collect

/-- The result of a run that is given up. -/
def cancelled (results : Dict String StepOutcome) : Raised → Except Raised DagResult
  | .budget reason => .ok ⟨results.items.map (·.2), false, some reason⟩
  | .upstreamInvalid => .ok ⟨results.items.map (·.2), false, some "mes_error:upstream_invalid"⟩
  | .mes code => .ok ⟨results.items.map (·.2), false, some ("mes_error:" ++ code)⟩
  | .other => .error .other

/-- The result of a run that got through. -/
def finalResult (results : Dict String StepOutcome) : DagResult :=
  let outcomes := results.items.map (·.2)
  let complete := outcomes.all fun outcome => outcome.status = .complete || outcome.status = .skipped
  ⟨outcomes, complete, if complete then none else some "partial_failure"⟩

/-- The next turn of the loop. -/
def Run.next (run : Run) (overtime : Bool) : Option Run :=
  match run.phase with
  | .between =>
    match run.waves with
    | [] => some { run with phase := .ended (.ok (finalResult run.results)) }
    | group :: waves =>
      if overtime then
        some { run with phase := .ended (cancelled run.results (.budget "time_budget_exhausted")) }
      else
        let runnable := group.filter fun step => step.dependsOn.all fun dep => (run.results.get? dep).isSome
        some { run with waves, phase := .gathering group (runnable.map (·, .waiting)) }
  | _ => none

/-- **`_run_step` until the runner is awaited**, with the calls charged after it. -/
def runStep (executor : Executor) (cache : Dict StepKey StepOutcome) (apiCalls : Nat) (step : RecipeStep) :
    Task × Nat :=
  if step.kind ≠ .api then (.done (.ok { stepId := step.stepId, status := .complete }), apiCalls)
  else
    match executor.cacheKey step with
    | .error error => (.done (.error error), apiCalls)
    | .ok key =>
      match cache.get? key with
      | some cached =>
        (.done (.ok {
          stepId := step.stepId, status := cached.status, rows := cached.rows
          reason := if cached.status = .complete then some "deduplicated" else cached.reason }), apiCalls)
      | none =>
        if executor.maxApiCalls < apiCalls + 1 then
          (.done (.error (.budget "api_call_budget_exhausted")), apiCalls + 1)
        else (.calling key, apiCalls + 1)

/-- `_run_step` once the runner has answered. -/
def settle (step : RecipeStep) : Except Raised StepOutcome → Except Raised StepOutcome
  | .ok outcome => .ok { stepId := step.stepId, status := outcome.status, rows := outcome.rows }
  | .error .upstreamInvalid =>
    if step.optional then .ok { stepId := step.stepId, status := .incomplete, reason := some "upstream_invalid" }
    else .error .upstreamInvalid
  | .error (.mes code) =>
    if step.optional then .ok { stepId := step.stepId, status := .incomplete, reason := some "optional_failed" }
    else .error (.mes code)
  | .error error => .error error

/-- What is seen when a step begins. -/
def beginning (step : RecipeStep) (task : Task) : List Event :=
  .began step.stepId :: (task.awaited?.map Event.called).toList

/-- A step of the wave begins. -/
def Run.start (executor : Executor) (run : Run) (index : Nat) : Option Run :=
  match run.phase with
  | .gathering group tasks =>
    match tasks[index]? with
    | some (step, .waiting) =>
      let (task, apiCalls) := runStep executor run.cache run.apiCalls step
      some { run with
        apiCalls, phase := .gathering group (tasks.set index (step, task))
        log := run.log ++ beginning step task }
    | _ => none
  | _ => none

/-- The runner answers a step. -/
def Run.answer (run : Run) (index : Nat) (outcome : Except Raised StepOutcome) : Option Run :=
  match run.phase with
  | .gathering group tasks =>
    match tasks[index]? with
    | some (step, .calling key) =>
      let answered := { run with phase := .gathering group (tasks.set index (step, .done (settle step outcome))) }
      match outcome with
      | .ok outcome =>
        some { answered with cache := run.cache.set key outcome, log := run.log ++ [.reached key] }
      | .error _ => some answered
    | _ => none
  | _ => none

/-- The results of a wave up to what is raised in it; `none` is a task without a result. -/
def collectTasks (results : Dict String StepOutcome) :
    List (RecipeStep × Task) → Option (Dict String StepOutcome × Option Raised)
  | [] => some (results, none)
  | (step, .done (.ok outcome)) :: tasks => collectTasks (results.set step.stepId outcome) tasks
  | (_, .done (.error error)) :: tasks =>
    if tasks.all fun task => match task.2 with | .done _ => true | _ => false then some (results, some error) else none
  | _ => none

/-- The steps of a wave that could not run are skipped. -/
def skipBlocked (results : Dict String StepOutcome) (group : List RecipeStep) : Dict String StepOutcome :=
  group.foldl (fun results step =>
    if (results.get? step.stepId).isNone && step.dependsOn.any fun dep => (results.get? dep).isNone then
      results.set step.stepId { stepId := step.stepId, status := .skipped, reason := some "dependency_failed" }
    else results) results

/-- The results of a wave are collected. -/
def Run.collect (run : Run) : Option Run :=
  match run.phase with
  | .gathering group tasks =>
    (collectTasks run.results tasks).map fun (results, raised) =>
      match raised with
      | some error => { run with results, phase := .ended (cancelled results error) }
      | none => { run with results := skipBlocked results group, phase := .between }
  | _ => none

/-- **A step of a run.** -/
def Run.step (executor : Executor) (run : Run) : Move → Option Run
  | .next overtime => run.next overtime
  | .start index => run.start executor index
  | .answer index outcome => run.answer index outcome
  | .collect => run.collect

/-- **The executor on the waves of a recipe.** -/
def machine (executor : Executor) (waves : List (List RecipeStep)) : Machine Run Move where
  init := { waves }
  step := Run.step executor

/-! ## What a move does -/

/-- The requests that are awaited. -/
def Run.awaited (run : Run) : List StepKey :=
  match run.phase with
  | .gathering _ tasks => tasks.filterMap (·.2.awaited?)
  | .between | .ended _ => []

/-- The tasks of a wave await their requests. -/
theorem awaited_gathering {run : Run} {group : List RecipeStep} {tasks : List (RecipeStep × Task)}
    (h : run.phase = .gathering group tasks) : run.awaited = tasks.filterMap (·.2.awaited?) := by
  rw [Run.awaited, h]

/-- What the beginning of a step comes to. -/
inductive Begun (executor : Executor) (run : Run) (step : RecipeStep) (task : Task) (calls : Nat) : Prop where
  | settled (hawaited : task.awaited? = none) (hcalls : run.apiCalls ≤ calls)
  | called (key : StepKey) (htask : task = .calling key) (hkind : step.kind = .api)
      (hkey : executor.cacheKey step = .ok key) (hmissed : run.cache.get? key = none)
      (hcalls : calls = run.apiCalls + 1) (hbudget : calls ≤ executor.maxApiCalls)

/-- A step begins with a call only where its request is not in the cache and the budget has a call left. -/
theorem runStep_begun {executor : Executor} {run : Run} {step : RecipeStep} {task : Task} {calls : Nat}
    (h : runStep executor run.cache run.apiCalls step = (task, calls)) : Begun executor run step task calls := by
  rw [runStep] at h
  by_cases hkind : step.kind ≠ .api
  · rw [if_pos hkind] at h
    cases h
    exact .settled rfl (Nat.le_refl _)
  · rw [if_neg hkind] at h
    split at h
    · cases h
      exact .settled rfl (Nat.le_refl _)
    · next key hkey =>
      split at h
      · cases h
        exact .settled rfl (Nat.le_refl _)
      · next hmissed =>
        split_ifs at h with hbudget
        · cases h
          exact .settled rfl (Nat.le_succ _)
        · cases h
          exact .called key rfl (not_not.mp hkind) hkey hmissed rfl (Nat.le_of_not_lt hbudget)

/-- **What a move does to a run.** -/
inductive Moved (executor : Executor) (run : Run) : Move → Run → Prop where
  | ended (overtime : Bool) (result : Except Raised DagResult) :
      Moved executor run (.next overtime) { run with phase := .ended result }
  | gathered (overtime : Bool) (group : List RecipeStep) (waves : List (List RecipeStep)) (runnable : List RecipeStep)
      (hready : ∀ step ∈ runnable, ∀ dep ∈ step.dependsOn, (run.results.get? dep).isSome = true) :
      Moved executor run (.next overtime)
        { run with waves, phase := .gathering group (runnable.map (·, .waiting)) }
  | began (index : Nat) (group : List RecipeStep) (tasks : List (RecipeStep × Task)) (step : RecipeStep) (task : Task)
      (calls : Nat) (hphase : run.phase = .gathering group tasks) (htask : tasks[index]? = some (step, .waiting))
      (hbegun : Begun executor run step task calls) :
      Moved executor run (.start index) { run with
        apiCalls := calls, phase := .gathering group (tasks.set index (step, task))
        log := run.log ++ beginning step task }
  | answered (index : Nat) (group : List RecipeStep) (tasks : List (RecipeStep × Task)) (step : RecipeStep)
      (key : StepKey) (outcome : StepOutcome) (hphase : run.phase = .gathering group tasks)
      (htask : tasks[index]? = some (step, .calling key)) :
      Moved executor run (.answer index (.ok outcome)) { run with
        phase := .gathering group (tasks.set index (step, .done (settle step (.ok outcome))))
        cache := run.cache.set key outcome, log := run.log ++ [.reached key] }
  | failed (index : Nat) (group : List RecipeStep) (tasks : List (RecipeStep × Task)) (step : RecipeStep)
      (key : StepKey) (error : Raised) (hphase : run.phase = .gathering group tasks)
      (htask : tasks[index]? = some (step, .calling key)) :
      Moved executor run (.answer index (.error error)) { run with
        phase := .gathering group (tasks.set index (step, .done (settle step (.error error)))) }
  | collected (results : Dict String StepOutcome) (phase : Phase)
      (hphase : ∀ group tasks, phase ≠ .gathering group tasks) :
      Moved executor run .collect { run with results, phase }

/-- Every move is one of these. -/
theorem step_moved {executor : Executor} {run next : Run} {move : Move} (h : run.step executor move = some next) :
    Moved executor run move next := by
  cases move with
  | next overtime =>
    rw [Run.step, Run.next] at h
    split at h
    · split at h
      · cases h
        exact .ended overtime _
      · split_ifs at h
        · cases h
          exact .ended overtime _
        · cases h
          refine .gathered overtime _ _ _ fun step hstep dep hdep => ?_
          exact List.all_eq_true.mp (List.mem_filter.mp hstep).2 dep hdep
    · cases h
  | start index =>
    rw [Run.step, Run.start] at h
    split at h
    · next group tasks hphase =>
      split at h
      · next step htask =>
        cases h
        exact .began index group tasks step _ _ hphase htask (runStep_begun rfl)
      · cases h
    · cases h
  | answer index outcome =>
    rw [Run.step, Run.answer] at h
    split at h
    · next group tasks hphase =>
      split at h
      · next step key htask =>
        cases outcome with
        | ok outcome =>
          cases h
          exact .answered index group tasks step key outcome hphase htask
        | error error =>
          cases h
          exact .failed index group tasks step key error hphase htask
      · cases h
    · cases h
  | collect =>
    rw [Run.step, Run.collect] at h
    split at h
    · obtain ⟨⟨results, raised⟩, -, hnext⟩ := Option.map_eq_some_iff.mp h
      cases raised with
      | none =>
        cases hnext
        exact .collected _ .between fun group tasks hphase => Phase.noConfusion hphase
      | some error =>
        cases hnext
        exact .collected _ (.ended _) fun group tasks hphase => Phase.noConfusion hphase
    · cases h

/-! ## What holds along every run -/

variable {executor : Executor}

/-- **A step can run**: what it depends on has an outcome. -/
def Runnable (results : Dict String StepOutcome) (step : RecipeStep) : Prop :=
  ∀ dep ∈ step.dependsOn, (results.get? dep).isSome = true

/-- **The steps of a wave can run.** -/
def Run.Ready (run : Run) : Prop :=
  ∀ group tasks, run.phase = .gathering group tasks → ∀ task ∈ tasks, Runnable run.results task.1

/-- **The calls are within the budget**, and have been charged. -/
def Run.WithinBudget (run : Run) (executor : Executor) : Prop :=
  run.log.countP Event.isCall ≤ executor.maxApiCalls ∧ run.log.countP Event.isCall ≤ run.apiCalls

/-- The step of a slot stays. -/
theorem forall_mem_set {P : RecipeStep → Prop} {tasks : List (RecipeStep × Task)} {index : Nat} {step : RecipeStep}
    {before : Task} (htask : tasks[index]? = some (step, before)) (after : Task) (h : ∀ task ∈ tasks, P task.1) :
    ∀ task ∈ tasks.set index (step, after), P task.1 := by
  intro task hmem
  rcases List.mem_or_eq_of_mem_set hmem with hold | rfl
  · exact h task hold
  · exact h (step, before) (List.mem_of_getElem? htask)

/-- A move keeps the wave ready. -/
theorem Run.Ready.moved {run next : Run} {move : Move} (h : run.Ready) (hmoved : Moved executor run move next) :
    next.Ready := by
  intro group' tasks' hphase'
  cases hmoved with
  | ended => cases hphase'
  | gathered overtime group waves runnable hready =>
    cases hphase'
    intro task htask
    obtain ⟨step, hstep, rfl⟩ := List.mem_map.mp htask
    exact hready step hstep
  | began index group tasks step task calls hphase htask =>
    cases hphase'
    exact forall_mem_set htask task (h _ _ hphase)
  | answered index group tasks step key outcome hphase htask =>
    cases hphase'
    exact forall_mem_set htask _ (h _ _ hphase)
  | failed index group tasks step key error hphase htask =>
    cases hphase'
    exact forall_mem_set htask _ (h _ _ hphase)
  | collected results phase hphase => exact absurd hphase' (hphase group' tasks')

/-- A move keeps the budget. -/
theorem Run.WithinBudget.moved {run next : Run} {move : Move} (h : run.WithinBudget executor)
    (hmoved : Moved executor run move next) : next.WithinBudget executor := by
  cases hmoved with
  | ended | gathered | failed | collected => exact h
  | began index group tasks step task calls hphase htask hbegun =>
    rw [Run.WithinBudget, List.countP_append, beginning, List.countP_cons_of_neg Bool.false_ne_true]
    cases hbegun with
    | settled hawaited hcalls =>
      rw [hawaited]
      exact ⟨h.1, Nat.le_trans h.2 hcalls⟩
    | called key htask hkind hkey hmissed hcalls hbudget =>
      subst htask hcalls
      exact ⟨Nat.le_trans (Nat.succ_le_succ h.2) hbudget, Nat.succ_le_succ h.2⟩
  | answered =>
    rw [Run.WithinBudget, List.countP_append, List.countP_singleton]
    exact h

/-- **A call is apart**: its request is not awaited when it is issued. -/
def Apart (executor : Executor) (run : Run) (move : Move) : Prop :=
  ∀ index group tasks step key, move = .start index → run.phase = .gathering group tasks →
    tasks[index]? = some (step, .waiting) → step.kind = .api → executor.cacheKey step = .ok key → key ∉ run.awaited

/-- **A request is answered or awaited at most once**, and what was answered is in the cache. -/
def Run.Once (run : Run) : Prop :=
  ∀ key, run.log.count (.reached key) + run.awaited.count key ≤ 1
    ∧ (0 < run.log.count (.reached key) → (run.cache.get? key).isSome = true)

/-- What is awaited, when the task of a slot is another. -/
theorem count_awaited_set {tasks : List (RecipeStep × Task)} {index : Nat} {step : RecipeStep} {before : Task}
    (htask : tasks[index]? = some (step, before)) (after : Task) (key : StepKey) :
    ((tasks.set index (step, after)).filterMap (·.2.awaited?)).count key + before.awaited?.toList.count key
      = (tasks.filterMap (·.2.awaited?)).count key + after.awaited?.toList.count key := by
  have hcount := (Gather.filterMap_set_perm (fun task : RecipeStep × Task => task.2.awaited?) htask
    (step, after)).count_eq key
  rwa [List.count_append, List.count_append] at hcount

/-- A move keeps the requests apart, where its call is. -/
theorem Run.Once.moved {run next : Run} {move : Move} (h : run.Once) (hapart : Apart executor run move)
    (hmoved : Moved executor run move next) : next.Once := by
  intro key
  obtain ⟨hone, hcached⟩ := h key
  cases hmoved with
  | ended => exact ⟨Nat.le_trans (Nat.le_add_right _ _) hone, hcached⟩
  | gathered overtime group waves runnable =>
    refine ⟨?_, hcached⟩
    have hnone : (runnable.map fun step => (step, Task.waiting)).filterMap (·.2.awaited?) = [] := by
      rw [List.filterMap_map]
      exact List.filterMap_eq_nil_iff.mpr fun _ _ => rfl
    show run.log.count (.reached key)
      + ((runnable.map fun step => (step, Task.waiting)).filterMap (·.2.awaited?)).count key ≤ 1
    rw [hnone]
    exact Nat.le_trans (Nat.le_add_right _ _) hone
  | began index group tasks step task calls hphase htask hbegun =>
    have hset := count_awaited_set htask task key
    have hlog : (run.log ++ beginning step task).count (.reached key) = run.log.count (.reached key) := by
      rw [List.count_append, beginning]
      cases task.awaited? <;> simp
    rw [awaited_gathering hphase] at hone
    show (run.log ++ beginning step task).count (.reached key)
        + ((tasks.set index (step, task)).filterMap (·.2.awaited?)).count key ≤ 1
      ∧ (0 < (run.log ++ beginning step task).count (.reached key) → _)
    rw [hlog]
    refine ⟨?_, hcached⟩
    cases hbegun with
    | settled hawaited =>
      rw [hawaited] at hset
      simp only [Task.awaited?_waiting, Option.toList_none, List.count_nil] at hset
      omega
    | called other htask' hkind hkey hmissed =>
      subst htask'
      simp only [Task.awaited?_waiting, Task.awaited?_calling, Option.toList_none, Option.toList_some, List.count_nil,
        List.count_singleton] at hset
      by_cases hsame : other = key
      · -- the request is neither in the cache nor awaited
        subst hsame
        have hunreached : run.log.count (.reached other) = 0 := by
          by_contra hreached
          have hhit := hcached (Nat.pos_of_ne_zero hreached)
          rw [hmissed] at hhit
          cases hhit
        have hunawaited := hapart index group tasks step other rfl hphase htask hkind hkey
        rw [awaited_gathering hphase] at hunawaited
        have hzero := List.count_eq_zero_of_not_mem hunawaited
        rw [if_pos (beq_self_eq_true other)] at hset
        omega
      · rw [if_neg (by simpa using hsame)] at hset
        omega
  | answered index group tasks step other outcome hphase htask =>
    have hset := count_awaited_set htask (.done (settle step (.ok outcome))) key
    rw [awaited_gathering hphase] at hone
    simp only [Task.awaited?_calling, Task.awaited?_done, Option.toList_none, Option.toList_some, List.count_nil,
      List.count_singleton] at hset
    show (run.log ++ [Event.reached other]).count (.reached key)
        + ((tasks.set index (step, .done (settle step (.ok outcome)))).filterMap (·.2.awaited?)).count key ≤ 1
      ∧ (0 < (run.log ++ [Event.reached other]).count (.reached key) →
        ((run.cache.set other outcome).get? key).isSome = true)
    rw [List.count_append, List.count_singleton, Dict.get?_set]
    by_cases hsame : other = key
    · subst hsame
      rw [if_pos (beq_self_eq_true other)] at hset
      simp only [beq_self_eq_true, if_true, Option.isSome_some, implies_true, and_true]
      omega
    · have hevent : (Event.reached other == Event.reached key) = false := by
        rw [beq_eq_false_iff_ne]
        exact fun heq => hsame (Event.reached.inj heq)
      rw [if_neg (by simpa using hsame)] at hset
      rw [hevent, if_neg (Ne.symm hsame)]
      simp only [Bool.false_eq_true, if_false, Nat.add_zero]
      exact ⟨by omega, hcached⟩
  | failed index group tasks step other error hphase htask =>
    have hset := count_awaited_set htask (.done (settle step (.error error))) key
    rw [awaited_gathering hphase] at hone
    refine ⟨?_, hcached⟩
    show run.log.count (.reached key)
      + ((tasks.set index (step, .done (settle step (.error error)))).filterMap (·.2.awaited?)).count key ≤ 1
    simp only [Task.awaited?_calling, Task.awaited?_done, Option.toList_none, Option.toList_some, List.count_nil,
      List.count_singleton] at hset
    omega
  | collected results phase hphase =>
    have hnone : ({ run with results, phase } : Run).awaited = [] := by
      rw [Run.awaited]
      split
      · next group tasks heq => exact absurd heq (hphase group tasks)
      · rfl
      · rfl
    rw [hnone]
    exact ⟨Nat.le_trans (Nat.le_add_right _ _) hone, hcached⟩

/-! ## The schedule -/

/-- **The schedule of an accepted recipe.** Its steps are in one wave each, after what they depend on. In every run of
the executor a step of a wave has the outcomes that it depends on, and the calls are within the budget. In a run whose
calls are apart, each request reaches the upstream once at most. -/
theorem dag_schedule {classes : CharClasses} {recipe : CapabilityRecipe} {registeredOperations : List String}
    (h : validateRecipe classes recipe registeredOperations = .ok ()) (executor : Executor) :
    ∃ waves, (∀ fuel, recipe.steps.length < fuel → parallelGroups fuel recipe.steps = .ok waves)
      ∧ Waves [] recipe.steps waves
      ∧ (∀ run, Machine.Reach (machine executor waves) Machine.free run →
          run.Ready ∧ run.log.countP Event.isCall ≤ executor.maxApiCalls)
      ∧ ∀ run, Machine.Reach (machine executor waves) (Apart executor) run →
          ∀ key, run.log.count (.reached key) ≤ 1 := by
  have hcoherent := validateRecipe_eq_ok_iff.mp h
  obtain ⟨waves, hgroups, hwaves⟩ := exists_waves hcoherent.distinct
    ((rejectCycles_eq_ok_iff hcoherent.distinct).mpr hcoherent.acyclic) fun step hstep =>
      (hcoherent.steps step hstep).dependencies
  refine ⟨waves, hgroups, hwaves, fun run hrun => ?_, fun run hrun key => ?_⟩
  · have hready : run.Ready := hrun.invariant (fun _ _ hphase => by cases hphase)
      fun hready _ hstep => hready.moved (step_moved hstep)
    have hbudget : run.WithinBudget executor :=
      hrun.invariant (I := fun run => run.WithinBudget executor) ⟨Nat.zero_le _, Nat.zero_le _⟩
        fun hbudget _ hstep => hbudget.moved (step_moved hstep)
    exact ⟨hready, hbudget.1⟩
  · have honce : run.Once := hrun.invariant (fun _ => ⟨Nat.zero_le _, fun hpos => absurd hpos (Nat.lt_irrefl 0)⟩)
      fun honce hapart hstep => honce.moved hapart (step_moved hstep)
    exact Nat.le_of_add_right_le (honce key).1

/-- An executor whose requests have no parameters. -/
def plainExecutor : Executor where
  cacheKey step := .ok (step.operationId.getD "", "()")

/-- A report that reads one list twice, in one wave. -/
def twinRecipe : CapabilityRecipe where
  capabilityId := "twins"
  steps := [
    { stepId := "first", operationId := some "PayQuery", parallelGroup := some "sources" },
    { stepId := "second", operationId := some "PayQuery", parallelGroup := some "sources" }]

/-- The schedule of the report. -/
theorem dag_schedule_twins :
    ∃ waves, parallelGroups 3 twinRecipe.steps = .ok waves ∧ Waves [] twinRecipe.steps waves
      ∧ ∀ run, Machine.Reach (machine plainExecutor waves) (Apart plainExecutor) run →
          ∀ key, run.log.count (.reached key) ≤ 1 := by
  have haccepted : validateRecipe .ascii twinRecipe ["PayQuery"] = .ok () := by decide
  obtain ⟨waves, hgroups, hwaves, -, honce⟩ := dag_schedule haccepted plainExecutor
  exact ⟨waves, hgroups 3 (by decide), hwaves, honce⟩

/-- Both steps miss the cache, and the request reaches the upstream twice. -/
theorem twins_reach_twice :
    validateRecipe .ascii twinRecipe ["PayQuery"] = .ok ()
      ∧ ∃ waves run, parallelGroups 3 twinRecipe.steps = .ok waves
        ∧ Machine.Reach (machine plainExecutor waves) Machine.free run
        ∧ run.log.count (.reached ("PayQuery", "()")) = 2 := by
  let answer : Except Raised StepOutcome := .ok { stepId := "", status := .complete }
  let moves : List Move := [.next false, .start 0, .start 1, .answer 0 answer, .answer 1 answer]
  have hcount : ((machine plainExecutor [twinRecipe.steps]).run Machine.free { waves := [twinRecipe.steps] } moves).map
      (fun run => run.log.count (.reached ("PayQuery", "()"))) = some 2 := by decide
  obtain ⟨run, hrun, htwice⟩ := Option.map_eq_some_iff.mp hcount
  exact ⟨by decide, [twinRecipe.steps], run, by decide, Machine.reach_of_run hrun, htwice⟩

end Dag
