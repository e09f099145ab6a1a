import FactoryAgent.Execution.Fanout
import FactoryAgent.Execution.ReadOnly
import FactoryAgent.Execution.Recipes

/-!
# The API steps of a run

`_fetch_api_steps` of `execution/kernel.py` with all it calls: the steps of a recipe are executed in the order
of the recipe. A plain step makes one fetch. A step with bindings reads the distinct values of the bound columns
from the sandbox and is fanned out over their combinations, as far as the budget of calls goes. An upstream
failure leaves an incomplete, empty page for the step; every other exception ends the run.

The runner is a machine. It moves on by itself between two fetches (`KernelMove.proceed`), and it is given the
answers to the fetches in flight (`KernelMove.answer`), in any order and of any kind. What a run does that can
be seen from outside is kept in its log: the bindings that it evaluates, the fetches that it issues and the
tables that it registers.

DuckDB, the run control and the columns of the operations are parameters.
-/

/-- **What a fetch may raise.** The first four are upstream failures, `_UPSTREAM_DEGRADE_TYPES`. -/
inductive FetchError (ε : Type) where
  | upstreamInvalid
  | upstreamUnavailable
  | rateLimited
  | mesTimeout
  | other (error : ε)
  deriving DecidableEq, Repr

/-- `_upstream_reason`, for the upstream failures. -/
def FetchError.upstreamReason {ε : Type} : FetchError ε → Option String
  | upstreamInvalid => some "upstream_invalid"
  | rateLimited => some "upstream_rate_limited"
  | mesTimeout => some "upstream_timeout"
  | upstreamUnavailable => some "upstream_unavailable"
  | other _ => none

/-- The exceptions that end a run. -/
inductive KernelError (ε : Type) where
  /-- `InvalidRequestError` -/
  | invalidRequest (message : String)
  /-- `InvalidRequestError` with the text `recipe params contain non-filter keys: [..]` -/
  | nonFilterKeys (keys : List String)
  /-- `ForbiddenError` -/
  | forbidden (message : String)
  /-- `duckdb.Error`, from the registration of a table -/
  | duckdb
  /-- the limit of the run control on processed rows -/
  | limitReached
  /-- What a fetch raised, where it is no upstream failure. -/
  | fetch (error : FetchError ε)
  deriving DecidableEq, Repr

/-- `SandboxTable`. -/
structure SandboxTable where
  name : String
  rows : List Row
  columns : List (String × String)

/-- **DuckDB**, as far as the steps depend on it. -/
structure DuckDb where
  /-- the spelling under which a name is looked up; DuckDB does not tell capitals from small letters -/
  fold : String → String
  /-- whether a table can be created and filled where its name is free -/
  loads : SandboxTable → Bool
  /-- the answer to `SELECT DISTINCT "column" FROM table WHERE "column" IS NOT NULL ORDER BY 1` as texts, or
  the text of the error -/
  distinct : SandboxTable → String → Except String (List String)
  /-- the text of the error for a table that is not there -/
  missing : String → String

/-- **What the runner is made with**: its settings and collaborators. -/
structure Kernel where
  maxApiCalls : Nat := 500
  fanoutConcurrency : Nat := 4
  classes : CharClasses
  duck : DuckDb
  /-- `resource_columns`, by operation -/
  resourceColumns : String → List String
  /-- whether the run control admits these counts of processed rows, the latest last -/
  admitsRows : List Nat → Bool
  /-- the tables that are registered before the first step: `_meta` and `_dept_scope` -/
  metaTables : List SandboxTable

/-- A combination of bound values, by parameter. -/
abbrev Combo := List (String × String)

/-- **A fetch that is issued**: the operation of a step with its parameters. -/
structure FetchRequest where
  stepId : String
  operationId : String
  params : Params
  deriving DecidableEq

/-- What can be seen of a run. -/
inductive KernelEvent where
  /-- A binding of a step has been read from the table of another one. -/
  | evaluated (stepId fromStep : String)
  /-- A plain step has issued its fetch. -/
  | requested (request : FetchRequest)
  /-- A step that is fanned out has issued one of its fetches. -/
  | fanned (request : FetchRequest)
  | registered (stepId : String)
  deriving DecidableEq

/-- Where a run is. -/
inductive KernelPhase (ε : Type) where
  | idle
  | fetching (step : RecipeStep)
  | fanning (step : RecipeStep) (fanout : Fanout Combo (FetchError ε))
  | ended (outcome : Except (KernelError ε) Unit)

/-- **The state of a run.** -/
structure KernelRun (ε : Type) where
  todo : List RecipeStep
  tables : List SandboxTable
  fetches : List (String × FetchResult) := []
  callCount : Nat := 0
  processed : List Nat := []
  log : List KernelEvent := []
  phase : KernelPhase ε := .idle

/-- **A move of a run.** -/
inductive KernelMove (ε : Type) where
  | proceed
  | answer (i : Nat) (outcome : Except (FetchError ε) FetchResult)

/-- `_FILTER_PARAM_KEYS`. -/
def filterParamKeys : List String :=
  ["scheme", "Type", "Flag", "queryFooter", "userid", "huohao", "dh", "jhdh", "detailId", "groupbyFields"]

/-- `_distinct_values_sql`. -/
def distinctValuesSql (fromStep column : String) : String :=
  "SELECT DISTINCT \"" ++ column ++ "\" FROM \"" ++ fromStep ++ "\" WHERE \"" ++ column
    ++ "\" IS NOT NULL ORDER BY 1"

/-- `itertools.product`: the last component varies fastest. -/
def product {α : Type} : List (List α) → List (List α)
  | [] => [[]]
  | values :: rest => values.flatMap fun value => (product rest).map (value :: ·)

namespace Kernel

variable {ε : Type}

/-! ## The sandbox -/

/-- `_validate_identifier`. -/
def isTableName (kernel : Kernel) (name : String) : Bool :=
  let chars := name.toList.filter (· != '_')
  !chars.isEmpty && chars.all kernel.classes.isalnum

/-- The tables that a sandbox for a recipe may hold, `_allowed_tables`. -/
def allowedTables (recipe : CapabilityRecipe) : List String :=
  recipe.apiStepIds ++ ["_meta", "_dept_scope"]

/-- **`register_table`**: the tables after it. -/
def register (kernel : Kernel) (recipe : CapabilityRecipe) (tables : List SandboxTable)
    (table : SandboxTable) : Except (KernelError ε) (List SandboxTable) :=
  if ¬ kernel.isTableName table.name = true then
    .error (.invalidRequest "table names must be alphanumeric or underscore")
  else if table.name ∉ allowedTables recipe then
    .error (.forbidden "table name is not in the reviewed whitelist")
  else if (tables.any fun other => kernel.duck.fold other.name == kernel.duck.fold table.name) = true
      ∨ kernel.duck.loads table = false then
    .error .duckdb
  else .ok (tables ++ [table])

/-- `sandbox.execute` of the query for distinct values. -/
def executeDistinct (kernel : Kernel) (tables : List SandboxTable) (fromStep column : String) :
    Except (KernelError ε) (Except String (List String)) :=
  match assertReadOnly (distinctValuesSql fromStep column).toList with
  | .error message => .error (.forbidden message)
  | .ok () =>
    .ok (match tables.find? (fun table => kernel.duck.fold table.name == kernel.duck.fold fromStep) with
      | none => .error (kernel.duck.missing fromStep)
      | some table => kernel.duck.distinct table column)

/-- **The values of one binding**: `_binding_identifiers` and the query. -/
def boundValues (kernel : Kernel) (tables : List SandboxTable) (stepId param : String)
    (binding : ParamBinding) : Except (KernelError ε) (List String) :=
  if kernel.classes.isSafeIdentifier binding.fromStep = true
      ∧ kernel.classes.isSafeIdentifier binding.column = true then
    match kernel.executeDistinct tables binding.fromStep binding.column with
    | .error error => .error error
    | .ok (.error message) =>
      .error (.invalidRequest ("sandbox rejected param binding for " ++ stepId
        ++ ": invalid_request: sandbox rejected the statement: " ++ message))
    | .ok (.ok values) => .ok values
  else .error (.invalidRequest ("step " ++ stepId ++ " param " ++ param ++ " binds an unsafe identifier"))

/-- `_table_columns_for`: the columns of a page, or those of the operation for an empty one. -/
def tableColumnsFor (kernel : Kernel) (recipe : CapabilityRecipe) (step : RecipeStep) (rows : List Row) :
    List (String × String) :=
  let names :=
    if rows ≠ [] then
      (rows.flatMap (·.keys)
        ++ (recipe.resultColumns.filter (·.sourceStep == step.stepId)).map (·.name)).eraseDups
    else
      match kernel.resourceColumns (step.operationId.getD "") with
      | [] => ["__empty__"]
      | known => known
  names.map fun name => (name, "VARCHAR")

/-- `_reviewed_params`. -/
def reviewedParams (params : Params) : Except (KernelError ε) Params :=
  match params.keys.filter (fun key => !decide (key ∈ filterParamKeys)) with
  | [] => .ok params
  | unknown => .error (.nonFilterKeys unknown)

end Kernel

/-! ## The steps -/

namespace KernelRun

variable {ε : Type}

/-- The run ends with an exception. -/
def raise (run : KernelRun ε) (error : KernelError ε) : KernelRun ε :=
  { run with phase := .ended (.error error) }

/-- **The page of a step is there**: its rows are counted and registered as a table, and the run is ready for
the next step. -/
def finish (run : KernelRun ε) (kernel : Kernel) (recipe : CapabilityRecipe) (step : RecipeStep)
    (fetched : FetchResult) (calls : Nat) : KernelRun ε :=
  let processed := run.processed ++ [fetched.rows.length]
  if kernel.admitsRows processed = true then
    match kernel.register recipe run.tables
        ⟨step.stepId, fetched.rows, kernel.tableColumnsFor recipe step fetched.rows⟩ with
    | .error error => run.raise error
    | .ok tables =>
      { run with
        tables := tables, processed := processed, callCount := run.callCount + calls
        fetches := run.fetches ++ [(step.stepId, fetched)]
        log := run.log ++ [.registered step.stepId], phase := .idle }
  else run.raise .limitReached

/-- The empty page of a step whose data source failed. -/
def degraded (reason : String) : FetchResult where
  rows := []
  total := 0
  pagesFetched := 0
  complete := false
  reason := some reason

/-- **The outcome of a step.** An upstream failure becomes an empty page that counts no calls. -/
def settle (run : KernelRun ε) (kernel : Kernel) (recipe : CapabilityRecipe) (step : RecipeStep)
    (calls : FetchResult → Nat) (outcome : Except (FetchError ε) FetchResult) : KernelRun ε :=
  match outcome with
  | .ok fetched => run.finish kernel recipe step fetched (calls fetched)
  | .error error =>
    match error.upstreamReason with
    | some reason => run.finish kernel recipe step (degraded reason) 0
    | none => run.raise (.fetch error)

/-- The request of a step for a combination of bound values. -/
def requestOf (step : RecipeStep) (combo : Combo) : FetchRequest where
  stepId := step.stepId
  operationId := step.operationId.getD ""
  params := step.params.insertMany (combo.map fun entry => (entry.1, ParamValue.text entry.2))

/-- **A fan-out has moved**: the fetches it issues are logged, and its end is the outcome of the step. -/
def fan (run : KernelRun ε) (kernel : Kernel) (recipe : CapabilityRecipe) (step : RecipeStep)
    (moved : FanoutState Combo (FetchError ε) × List Combo) : KernelRun ε :=
  let run := { run with log := run.log ++ moved.2.map fun combo => KernelEvent.fanned (requestOf step combo) }
  match moved.1 with
  | .running fanout => { run with phase := .fanning step fanout }
  | .ended outcome => run.settle kernel recipe step (·.pagesFetched) outcome

/-- A fan-out that has ended. -/
@[simp]
theorem fan_ended (run : KernelRun ε) (kernel : Kernel) (recipe : CapabilityRecipe) (step : RecipeStep)
    (outcome : Except (FetchError ε) FetchResult) :
    run.fan kernel recipe step (.ended outcome, [])
      = run.settle kernel recipe step (·.pagesFetched) outcome := by
  show KernelRun.settle { run with log := run.log ++ [] } _ _ _ _ _ = _
  rw [List.append_nil]

/-- A fan-out that waits for a batch. -/
@[simp]
theorem fan_running (run : KernelRun ε) (kernel : Kernel) (recipe : CapabilityRecipe) (step : RecipeStep)
    (fanout : Fanout Combo (FetchError ε)) (requested : List Combo) :
    run.fan kernel recipe step (.running fanout, requested)
      = { run with
          log := run.log ++ requested.map fun combo => KernelEvent.fanned (requestOf step combo)
          phase := .fanning step fanout } := rfl

/-- The combinations of bound values, `dict(zip(param_names, values))` for each. -/
def combos (step : RecipeStep) (valueSets : List (List String)) : List Combo :=
  (product valueSets).map ((step.paramBindings.map (·.1)).zip ·)

/-- **The start of a step with bindings.** -/
def startFanout (run : KernelRun ε) (kernel : Kernel) (recipe : CapabilityRecipe) (step : RecipeStep) :
    KernelRun ε :=
  match step.paramBindings.mapM fun binding =>
      kernel.boundValues run.tables step.stepId binding.1 binding.2 with
  | .error error => run.raise error
  | .ok valueSets =>
    let evaluated := step.paramBindings.map fun binding =>
      KernelEvent.evaluated step.stepId binding.2.fromStep
    { run with log := run.log ++ evaluated }.fan kernel recipe step
      (FanoutState.start (max 1 kernel.fanoutConcurrency) (combos step valueSets)
        (kernel.maxApiCalls - run.callCount))

/-- **The next step of the recipe**, or the end. Steps of other kinds than `api` are passed over. -/
def begin (run : KernelRun ε) (kernel : Kernel) (recipe : CapabilityRecipe) : KernelRun ε :=
  match run.todo with
  | [] => { run with phase := .ended (.ok ()) }
  | step :: todo =>
    let run := { run with todo := todo }
    if step.kind ≠ .api then run
    else
      match step.operationId with
      | none => run.raise (.invalidRequest ("api step " ++ step.stepId ++ " has no operation"))
      | some _ =>
        match Kernel.reviewedParams step.params with
        | .error error => run.raise error
        | .ok _ =>
          if step.paramBindings.isEmpty then
            { run with log := run.log ++ [.requested (requestOf step [])], phase := .fetching step }
          else run.startFanout kernel recipe step

/-- **One move of a run.** -/
def move (run : KernelRun ε) (kernel : Kernel) (recipe : CapabilityRecipe) :
    KernelMove ε → Option (KernelRun ε)
  | .proceed =>
    match run.phase with
    | .idle => some (run.begin kernel recipe)
    | _ => none
  | .answer i outcome =>
    match run.phase with
    | .fetching step =>
      if i = 0 then some (run.settle kernel recipe step FetchResult.callCount outcome) else none
    | .fanning step fanout =>
      (fanout.land (max 1 kernel.fanoutConcurrency) i outcome).map (run.fan kernel recipe step)
    | _ => none

end KernelRun

/-- **`_fetch_api_steps`** for a recipe. -/
def fetchApiSteps (ε : Type) (kernel : Kernel) (recipe : CapabilityRecipe) :
    Machine (KernelRun ε) (KernelMove ε) where
  init := { todo := recipe.steps, tables := kernel.metaTables }
  step run := run.move kernel recipe
