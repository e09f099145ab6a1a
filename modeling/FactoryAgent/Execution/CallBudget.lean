import FactoryAgent.Execution.Kernel

/-!
# The budget of calls

A recipe has a budget of fetches. The runner keeps a counter of the fetches that a run has issued, gives a
fan-out what the counter leaves of the budget, and reports the counter with the result.

The counter is advanced when a step has its page. A step that issues fetches and is then given up because of an
upstream failure never gets there: its fetches are not counted, the steps after it are given a budget that is
already spent, and the result reports fewer fetches than were issued. That is the only way to lose a fetch. In a
run without failures the budget is kept and the report is right, and a run to a result in which a fetch failed
reports too few (`budget_kept_iff_no_failure`).
-/

variable {ε : Type}

/-- Whether an event is a fetch that is issued. -/
def KernelEvent.isRequest : KernelEvent → Bool
  | requested _ | fanned _ => true
  | evaluated _ _ | registered _ => false

/-- Whether an event is a fetch of a plain step. -/
def KernelEvent.isPlainRequest : KernelEvent → Bool
  | requested _ => true
  | fanned _ | evaluated _ _ | registered _ => false

/-- **How many fetches have been issued.** -/
def issuedIn (log : List KernelEvent) : Nat := log.countP KernelEvent.isRequest

/-- How many fetches plain steps have issued. -/
def plainIssuedIn (log : List KernelEvent) : Nat := log.countP KernelEvent.isPlainRequest

/-- **The budget is kept in a state**: while fetches of a fan-out are in flight, no more have been issued than
the budget allows, unless the plain steps have exceeded it by themselves; and a result reports as many fetches
as were issued. -/
structure KernelRun.KeepsBudget (run : KernelRun ε) (kernel : Kernel) : Prop where
  within : ∀ step fanout, run.phase = .fanning step fanout →
    issuedIn run.log ≤ kernel.maxApiCalls ∨ kernel.maxApiCalls < plainIssuedIn run.log
  reported : run.phase = .ended (.ok ()) → run.callCount = issuedIn run.log

/-- A move that is no failure of a fetch. -/
def KernelMove.Succeeds : KernelMove ε → Prop
  | proceed => True
  | answer _ outcome => outcome.isOk = true

/-- A move with no cache behind it: a fetch that succeeds counts as one call. -/
def KernelMove.Uncached : KernelMove ε → Prop
  | proceed => True
  | answer _ outcome => ∀ fetched, outcome = .ok fetched → fetched.callCount = 1

/-! ## What is counted and what is issued -/

section Counting

variable {clean : Prop} {counted issued : Nat}

/-- **The counter and the fetches issued**: they agree as long as nothing has failed, and from then on fetches
are missing from the counter. -/
structure Balance (clean : Prop) (counted issued : Nat) : Prop where
  kept : clean → counted = issued
  lost : ¬ clean → counted < issued

/-- No more is counted than was issued. -/
theorem Balance.le (h : Balance clean counted issued) : counted ≤ issued := by
  by_cases hclean : clean
  · exact Nat.le_of_eq (h.kept hclean)
  · exact Nat.le_of_lt (h.lost hclean)

/-- Fetches that are counted when they are issued. -/
theorem Balance.add (h : Balance clean counted issued) (calls : Nat) :
    Balance clean (counted + calls) (issued + calls) where
  kept hclean := congrArg (· + calls) (h.kept hclean)
  lost hclean := Nat.add_lt_add_right (h.lost hclean) calls

/-- A balance of runs that are equally clean. -/
theorem Balance.congr {clean' : Prop} (h : Balance clean counted issued) (hclean : clean' ↔ clean) :
    Balance clean' counted issued :=
  ⟨fun hc => h.kept (hclean.mp hc), fun hc => h.lost fun hc' => hc (hclean.mpr hc')⟩

/-- Fetches are counted as issued when more events are logged. -/
theorem issuedIn_append (log events : List KernelEvent) :
    issuedIn (log ++ events) = issuedIn log + issuedIn events :=
  List.countP_append

/-- All the events of a batch are fetches. -/
theorem issuedIn_fanned {α : Type} (request : α → FetchRequest) (batch : List α) :
    issuedIn (batch.map fun item => .fanned (request item)) = batch.length := by
  rw [issuedIn, List.countP_map]
  exact List.countP_eq_length.mpr fun _ _ => rfl

/-- The evaluation of bindings issues nothing. -/
theorem issuedIn_evaluated {α : Type} (stepId : String) (fromStep : α → String) (bindings : List α) :
    issuedIn (bindings.map fun binding => .evaluated stepId (fromStep binding)) = 0 := by
  rw [issuedIn, List.countP_map]
  exact List.countP_eq_zero.mpr fun _ _ => Bool.false_ne_true

end Counting

/-! ## A batch of a fan-out -/

section Batches

variable {walk walk' : FanoutWalk} {outcomes : List (Except ε FetchResult)}

/-- A batch that is read has no failures, and each of its fetches is counted. -/
theorem FanoutWalk.readAll_eq_ok (h : walk.readAll outcomes = .ok walk') :
    (∀ error, .error error ∉ outcomes)
      ∧ ((∀ fetched, .ok fetched ∈ outcomes → fetched.callCount = 1) →
        walk'.fanoutCalls = walk.fanoutCalls + outcomes.length) := by
  induction outcomes generalizing walk with
  | nil =>
    cases h
    exact ⟨fun _ hmem => absurd hmem List.not_mem_nil, fun _ => rfl⟩
  | cons outcome outcomes ih =>
    obtain ⟨between, hfirst, hrest⟩ := Except.bind_eq_ok.mp h
    obtain ⟨hnone, hcalls⟩ := ih hrest
    cases outcome with
    | error error => cases hfirst
    | ok fetched =>
      cases hfirst
      refine ⟨fun error hmem => ?_, fun huncached => ?_⟩
      · rcases List.mem_cons.mp hmem with hhead | htail
        · cases hhead
        · exact hnone error htail
      · have hone := huncached fetched List.mem_cons_self
        have hlater := hcalls fun other hmem => huncached other (List.mem_cons_of_mem _ hmem)
        dsimp only at hlater
        rw [hlater, hone, List.length_cons]
        omega

/-- A batch that cannot be read has a failure. -/
theorem FanoutWalk.exists_error_of_readAll {error : ε} (h : walk.readAll outcomes = .error error) :
    ∃ error, .error error ∈ outcomes := by
  induction outcomes generalizing walk with
  | nil => cases h
  | cons outcome outcomes ih =>
    cases outcome with
    | error error => exact ⟨error, List.mem_cons_self⟩
    | ok fetched =>
      obtain ⟨error, hmem⟩ := ih h
      exact ⟨error, List.mem_cons_of_mem _ hmem⟩

end Batches

/-! ## One move -/

section Moves

variable {clean : Prop} {kernel : Kernel} {recipe : CapabilityRecipe} {run run' : KernelRun ε}
  {step : RecipeStep} {move : KernelMove ε}

/-- A fetch of the batch in flight has failed. -/
def Fanout.Fails {Combo : Type} (fanout : Fanout Combo (FetchError ε)) : Prop :=
  ∃ error, some (.error error) ∈ fanout.slots

/-- **The balance of a fan-out in flight**: the fetches of the batches that were read and of the one in flight
count, unless one of these has failed. The budget allows for them and for those to come. -/
structure Fanout.Tallied {Combo : Type} (fanout : Fanout Combo (FetchError ε)) (clean : Prop)
    (callCount issued maxApiCalls : Nat) : Prop where
  nonempty : 0 < fanout.batch.length
  slots : fanout.slots.length = fanout.batch.length
  uncached : ∀ fetched, some (.ok fetched) ∈ fanout.slots → fetched.callCount = 1
  within : callCount + fanout.walk.fanoutCalls + fanout.batch.length + fanout.todo.length ≤ maxApiCalls
  failed : fanout.Fails →
    ¬ clean ∧ callCount + fanout.walk.fanoutCalls + fanout.batch.length ≤ issued
  counted : ¬ fanout.Fails →
    Balance clean (callCount + fanout.walk.fanoutCalls + fanout.batch.length) issued

/-- No more is counted than was issued, whether or not a fetch of the batch has failed. -/
theorem Fanout.Tallied.le {Combo : Type} {fanout : Fanout Combo (FetchError ε)}
    {callCount issued maxApiCalls : Nat} (h : fanout.Tallied clean callCount issued maxApiCalls) :
    callCount + fanout.walk.fanoutCalls + fanout.batch.length ≤ issued := by
  by_cases hfails : fanout.Fails
  · exact (h.failed hfails).2
  · exact (h.counted hfails).le

/-- One more answer for the batch in flight. -/
theorem Fanout.Tallied.arrive {Combo : Type} {fanout : Fanout Combo (FetchError ε)}
    {callCount issued maxApiCalls i : Nat} {outcome : Except (FetchError ε) FetchResult}
    {slots : Gather (Except (FetchError ε) FetchResult)}
    (h : fanout.Tallied clean callCount issued maxApiCalls) (hslots : fanout.slots.land i outcome = some slots)
    (huncached : ∀ fetched, outcome = .ok fetched → fetched.callCount = 1) :
    { fanout with slots := slots }.Tallied (clean ∧ outcome.isOk = true) callCount issued maxApiCalls where
  nonempty := h.nonempty
  slots := (Gather.length_land hslots).trans h.slots
  uncached fetched hmem := by
    rcases (Gather.mem_land hslots).mp hmem with hold | hnew
    · exact h.uncached fetched hold
    · exact huncached fetched hnew.symm
  within := h.within
  failed hfails := by
    refine ⟨fun hclean => ?_, h.le⟩
    obtain ⟨error, hmem⟩ := hfails
    rcases (Gather.mem_land hslots).mp hmem with hold | hnew
    · exact (h.failed ⟨error, hold⟩).1 hclean.1
    · rw [← hnew] at hclean
      exact Bool.false_ne_true hclean.2
  counted hfails := by
    have hold : ¬ fanout.Fails := fun ⟨error, hmem⟩ =>
      hfails ⟨error, (Gather.mem_land hslots).mpr (Or.inl hmem)⟩
    refine (h.counted hold).congr (and_iff_left ?_)
    cases outcome with
    | ok fetched => rfl
    | error error => exact absurd ⟨error, (Gather.mem_land hslots).mpr (Or.inr rfl)⟩ hfails

/-- **The balance of a run**, of which `clean` says that no fetch has failed. -/
def KernelRun.Tallied (run : KernelRun ε) (kernel : Kernel) (clean : Prop) : Prop :=
  match run.phase with
  | .idle | .ended (.ok ()) => Balance clean run.callCount (issuedIn run.log)
  | .ended (.error _) => True
  | .fetching _ => Balance clean (run.callCount + 1) (issuedIn run.log)
  | .fanning _ fanout => fanout.Tallied clean run.callCount (issuedIn run.log) kernel.maxApiCalls

namespace KernelRun

/-- A step that has its page counts its fetches. -/
theorem tallied_finish {fetched : FetchResult} {calls : Nat}
    (h : Balance clean (run.callCount + calls) (issuedIn run.log)) :
    (run.finish kernel recipe step fetched calls).Tallied kernel clean := by
  unfold finish
  dsimp only
  by_cases hadmits : kernel.admitsRows (run.processed ++ [fetched.rows.length]) = true
  · rw [if_pos hadmits]
    cases kernel.register (ε := ε) recipe run.tables
        ⟨step.stepId, fetched.rows, kernel.tableColumnsFor recipe step fetched.rows⟩ with
    | error error => trivial
    | ok tables =>
      show Balance clean (run.callCount + calls) (issuedIn (run.log ++ _))
      rw [issuedIn_append]
      exact h
  · rw [if_neg hadmits]
    trivial

/-- A step that is given up counts nothing. -/
theorem tallied_settle_error {calls : FetchResult → Nat} {error : FetchError ε}
    (h : Balance clean run.callCount (issuedIn run.log)) :
    (run.settle kernel recipe step calls (.error error)).Tallied kernel clean := by
  unfold settle
  dsimp only
  cases error.upstreamReason with
  | none => trivial
  | some reason => exact tallied_finish h

/-- **The next batch of a fan-out** is issued within the budget, or its step has its page. -/
theorem tallied_fan_issue {concurrency combos covered : Nat} {todo : List Combo} {walk : FanoutWalk}
    (hpos : 1 ≤ concurrency)
    (hwithin : todo ≠ [] → run.callCount + walk.fanoutCalls + todo.length ≤ kernel.maxApiCalls)
    (h : Balance clean (run.callCount + walk.fanoutCalls) (issuedIn run.log)) :
    (run.fan kernel recipe step
      (FanoutState.issue concurrency combos covered todo walk)).Tallied kernel clean := by
  cases todo with
  | nil =>
    rw [FanoutState.issue_nil, fan_ended]
    exact tallied_finish h
  | cons combo todo =>
    rw [FanoutState.issue_cons, fan_running]
    have hwithin := hwithin (List.cons_ne_nil combo todo)
    have hissued : issuedIn (run.log ++ ((combo :: todo).take concurrency).map
          fun combo => .fanned (requestOf step combo))
        = issuedIn run.log + ((combo :: todo).take concurrency).length := by
      rw [issuedIn_append, issuedIn_fanned]
    have hlength := List.length_take (i := concurrency) (l := combo :: todo)
    have hdrop := List.length_drop (i := concurrency) (l := combo :: todo)
    have hfails : ¬ ∃ error : FetchError ε, some (.error error)
        ∈ Gather.start (α := Except (FetchError ε) FetchResult) ((combo :: todo).take concurrency).length := by
      rintro ⟨error, hmem⟩
      cases List.eq_of_mem_replicate hmem
    rw [List.length_cons] at hlength hdrop hwithin
    refine
      { nonempty := ?_, slots := List.length_replicate, uncached := ?_, within := ?_
        failed := fun hfail => absurd hfail hfails, counted := fun _ => ?_ }
    · show 0 < ((combo :: todo).take concurrency).length
      omega
    · intro fetched hmem
      cases List.eq_of_mem_replicate hmem
    · show run.callCount + walk.fanoutCalls + ((combo :: todo).take concurrency).length
        + ((combo :: todo).drop concurrency).length ≤ kernel.maxApiCalls
      omega
    · exact hissued ▸ h.add _

/-- **An answer for a fan-out** keeps the balance. -/
theorem tallied_land {fanout : Fanout Combo (FetchError ε)} {i concurrency : Nat}
    {outcome : Except (FetchError ε) FetchResult} {moved : FanoutState Combo (FetchError ε) × List Combo}
    (hpos : 1 ≤ concurrency)
    (h : fanout.Tallied clean run.callCount (issuedIn run.log) kernel.maxApiCalls)
    (hland : fanout.land concurrency i outcome = some moved)
    (huncached : ∀ fetched, outcome = .ok fetched → fetched.callCount = 1) :
    (run.fan kernel recipe step moved).Tallied kernel (clean ∧ outcome.isOk = true) := by
  unfold Fanout.land at hland
  obtain ⟨slots, hslots, rfl⟩ := Option.map_eq_some_iff.mp hland
  have harrived := h.arrive hslots huncached
  unfold Fanout.proceed
  dsimp only
  cases hresults : slots.results with
  | none =>
    dsimp only
    rw [fan_running, List.map_nil, List.append_nil]
    exact harrived
  | some outcomes =>
    have hread := Gather.eq_map_of_results hresults
    have hmem : ∀ other, some other ∈ slots ↔ other ∈ outcomes := fun other => by
      rw [hread, List.mem_map]
      exact ⟨fun ⟨_, hother, heq⟩ => Option.some.inj heq ▸ hother, fun hother => ⟨other, hother, rfl⟩⟩
    have hlength : outcomes.length = fanout.batch.length := by
      rw [← harrived.slots, hread, List.length_map]
    dsimp only
    cases hwalk : fanout.walk.readAll outcomes with
    | error error =>
      obtain ⟨failure, hfailure⟩ := FanoutWalk.exists_error_of_readAll hwalk
      obtain ⟨hclean, hle⟩ := harrived.failed ⟨failure, (hmem _).mpr hfailure⟩
      have hnonempty := harrived.nonempty
      dsimp only at hle hnonempty ⊢
      rw [fan_ended]
      exact tallied_settle_error ⟨fun hc => absurd hc hclean, fun _ => by omega⟩
    | ok walk =>
      obtain ⟨hnone, hcalls⟩ := FanoutWalk.readAll_eq_ok hwalk
      have hcounted := harrived.counted fun ⟨error, herror⟩ => hnone error ((hmem _).mp herror)
      have hwithin := harrived.within
      have hfanout := hcalls fun fetched hfetched => harrived.uncached fetched ((hmem _).mpr hfetched)
      dsimp only at hcounted hwithin ⊢
      refine tallied_fan_issue hpos (fun _ => by omega) ?_
      rwa [hfanout, hlength, ← Nat.add_assoc]

/-- **The start of a fan-out** keeps the balance: the budget is what the counter leaves of it. -/
theorem tallied_startFanout (h : Balance clean run.callCount (issuedIn run.log)) :
    (run.startFanout kernel recipe step).Tallied kernel clean := by
  unfold startFanout
  cases step.paramBindings.mapM fun binding =>
      kernel.boundValues (ε := ε) run.tables step.stepId binding.1 binding.2 with
  | error error => trivial
  | ok valueSets =>
    dsimp only
    have hlength := List.length_take (i := kernel.maxApiCalls - run.callCount) (l := combos step valueSets)
    refine tallied_fan_issue (Nat.le_max_left 1 _) (fun hsome => ?_) ?_
    · have hpos := List.length_pos_iff.mpr hsome
      dsimp only
      omega
    · rw [issuedIn_append, issuedIn_evaluated]
      exact h

/-- **The start of the next step** keeps the balance. -/
theorem tallied_begin (hidle : run.phase = .idle) (h : Balance clean run.callCount (issuedIn run.log)) :
    (run.begin kernel recipe).Tallied kernel clean := by
  unfold begin
  cases run.todo with
  | nil => exact h
  | cons step todo =>
    dsimp only
    by_cases hkind : step.kind ≠ .api
    · rw [if_pos hkind]
      unfold Tallied
      dsimp only
      rw [hidle]
      exact h
    rw [if_neg hkind]
    cases step.operationId with
    | none => trivial
    | some operation =>
      cases Kernel.reviewedParams (ε := ε) step.params with
      | error error => trivial
      | ok params =>
        dsimp only
        by_cases hplain : step.paramBindings.isEmpty = true
        · rw [if_pos hplain]
          show Balance clean (run.callCount + 1) (issuedIn (run.log ++ _))
          rw [issuedIn_append]
          exact h.add 1
        · rw [if_neg hplain]
          exact tallied_startFanout h

/-- **One move keeps the balance.** -/
theorem tallied_move (h : run.Tallied kernel clean) (huncached : move.Uncached)
    (hmove : run.move kernel recipe move = some run') : run'.Tallied kernel (clean ∧ move.Succeeds) := by
  unfold Tallied at h
  cases move with
  | proceed =>
    unfold KernelRun.move at hmove
    cases hphase : run.phase with
    | idle =>
      rw [hphase] at h hmove
      cases hmove
      have hclean : (clean ∧ KernelMove.Succeeds (ε := ε) .proceed) ↔ clean := and_iff_left trivial
      exact tallied_begin hphase (h.congr hclean)
    | fetching step =>
      rw [hphase] at hmove
      cases hmove
    | fanning step fanout =>
      rw [hphase] at hmove
      cases hmove
    | ended outcome =>
      rw [hphase] at hmove
      cases hmove
  | answer i outcome =>
    unfold KernelRun.move at hmove
    cases hphase : run.phase with
    | idle =>
      rw [hphase] at hmove
      cases hmove
    | fetching step =>
      rw [hphase] at h hmove
      dsimp only at h hmove
      by_cases hi : i = 0
      · rw [if_pos hi] at hmove
        cases hmove
        cases outcome with
        | ok fetched =>
          refine tallied_finish ?_
          rw [huncached fetched rfl]
          exact h.congr (and_iff_left rfl)
        | error error =>
          have hle := h.le
          exact tallied_settle_error
            ⟨fun hc => absurd hc.2 Bool.false_ne_true, fun _ => by omega⟩
      · rw [if_neg hi] at hmove
        cases hmove
    | fanning step fanout =>
      rw [hphase] at h hmove
      obtain ⟨moved, hland, rfl⟩ := Option.map_eq_some_iff.mp hmove
      exact tallied_land (Nat.le_max_left 1 _) h hland huncached
    | ended outcome =>
      rw [hphase] at hmove
      cases hmove

end KernelRun

end Moves

/-! ## Whole runs -/

/-- **The balance of every run** whose moves are without a cache. -/
theorem tallied_run {kernel : Kernel} {recipe : CapabilityRecipe} {moves : List (KernelMove ε)}
    {run : KernelRun ε}
    (hrun : (fetchApiSteps ε kernel recipe).run Machine.free (fetchApiSteps ε kernel recipe).init moves
      = some run) :
    (∀ move ∈ moves, move.Uncached) → run.Tallied kernel (∀ move ∈ moves, move.Succeeds) := by
  refine Machine.run_history
    (I := fun moves run => (∀ move ∈ moves, KernelMove.Uncached move) →
      KernelRun.Tallied run kernel (∀ move ∈ moves, move.Succeeds)) ?_ ?_ hrun
  · exact fun _ => ⟨fun _ => rfl, fun h => absurd (fun _ hmem => absurd hmem List.not_mem_nil) h⟩
  · intro moves run run' move ih hmove huncached
    have htallied := KernelRun.tallied_move
      (ih fun other hmem => huncached other (List.mem_append_left _ hmem))
      (huncached move (List.mem_append_right _ List.mem_cons_self)) hmove
    have hall : (∀ other ∈ moves ++ [move], other.Succeeds)
        = ((∀ other ∈ moves, other.Succeeds) ∧ move.Succeeds) := by
      rw [List.forall_mem_append, List.forall_mem_singleton]
    rwa [hall]

/-- **The budget of calls.** In a run in which no fetch fails the budget is kept, in every state and in the
report. And of the runs that end with a result these are the only ones: a fetch that failed is missing from the
report, and so are the others of its step. -/
theorem budget_kept_iff_no_failure {kernel : Kernel} {recipe : CapabilityRecipe}
    {moves : List (KernelMove ε)} {run : KernelRun ε}
    (hrun : (fetchApiSteps ε kernel recipe).run Machine.free (fetchApiSteps ε kernel recipe).init moves
      = some run)
    (huncached : ∀ move ∈ moves, move.Uncached) :
    ((∀ move ∈ moves, move.Succeeds) → run.KeepsBudget kernel)
      ∧ (run.phase = .ended (.ok ()) → (run.KeepsBudget kernel ↔ ∀ move ∈ moves, move.Succeeds)) := by
  have htallied := tallied_run hrun huncached
  unfold KernelRun.Tallied at htallied
  have hkept : (∀ move ∈ moves, move.Succeeds) → run.KeepsBudget kernel := by
    intro hclean
    refine ⟨fun step fanout hphase => Or.inl ?_, fun hphase => ?_⟩
    · rw [hphase] at htallied
      have hwithin := htallied.within
      have hkept := (htallied.counted fun hfails => (htallied.failed hfails).1 hclean).kept hclean
      omega
    · rw [hphase] at htallied
      exact htallied.kept hclean
  refine ⟨hkept, fun hphase => ⟨fun h => ?_, hkept⟩⟩
  rw [hphase] at htallied
  by_contra hclean
  exact Nat.ne_of_lt (htallied.lost hclean) (h.reported hphase)

/-! ## A step that fans out twice over -/

/-- A plain step, and two steps that are fanned out over the values of its column. -/
def twiceFannedOut : CapabilityRecipe where
  capabilityId := "probe"
  steps :=
    [{ stepId := "a", operationId := some "List" },
     { stepId := "b", operationId := some "Detail", dependsOn := ["a"]
       paramBindings := [("userid", ⟨"a", "id"⟩)] },
     { stepId := "c", operationId := some "Detail", dependsOn := ["a"]
       paramBindings := [("userid", ⟨"a", "id"⟩)] }]

/-- A runner with this budget, whose sandbox finds two values in every column. -/
def twoValueKernel (maxApiCalls : Nat) : Kernel where
  maxApiCalls := maxApiCalls
  classes := .ascii
  duck := ⟨id, fun _ => true, fun _ _ => .ok ["1", "2"], fun name => name⟩
  resourceColumns _ := ["id"]
  admitsRows _ := true
  metaTables := []

/-- An empty page. -/
def emptyPage : FetchResult where
  rows := []
  total := 0
  pagesFetched := 1
  complete := true

/-- A run of the recipe, with the answer to the first fetch of the first fan-out. -/
def twiceFannedOutMoves (first : Except (FetchError Unit) FetchResult) : List (KernelMove Unit) :=
  [.proceed, .answer 0 (.ok emptyPage), .proceed, .answer 0 first, .answer 1 (.ok emptyPage), .proceed,
    .answer 0 (.ok emptyPage), .answer 1 (.ok emptyPage), .proceed]

/-- Five fetches, a budget of five, and no failure. -/
theorem budget_kept_iff_no_failure_twiceFannedOut :
    ((fetchApiSteps Unit (twoValueKernel 5) twiceFannedOut).after
      (twiceFannedOutMoves (.ok emptyPage))).KeepsBudget (twoValueKernel 5) :=
  (budget_kept_iff_no_failure (Machine.run_after _ (by decide +kernel)) (by
    simp [twiceFannedOutMoves, KernelMove.Uncached, emptyPage, FetchResult.callCount])).1 (by
    simp [twiceFannedOutMoves, KernelMove.Succeeds, Except.isOk, Except.toBool])

/-- Whether a run has ended with a result. -/
def KernelPhase.hasResult : KernelPhase ε → Bool
  | ended (.ok ()) => true
  | _ => false

/-- Whether a fan-out is in flight. -/
def KernelPhase.isFanning : KernelPhase ε → Bool
  | fanning _ _ => true
  | _ => false

/-- What it means that a run has ended with a result. -/
theorem KernelPhase.eq_of_hasResult {phase : KernelPhase ε} (h : phase.hasResult = true) :
    phase = .ended (.ok ()) := by
  unfold hasResult at h
  split at h
  · rfl
  · cases h

/-- What it means that a fan-out is in flight. -/
theorem KernelPhase.exists_of_isFanning {phase : KernelPhase ε} (h : phase.isFanning = true) :
    ∃ step fanout, phase = .fanning step fanout := by
  unfold isFanning at h
  split at h
  · exact ⟨_, _, rfl⟩
  · cases h

/-- **A failure overdraws the budget.** The recipe is accepted and the budget is three fetches. The first fan-out
issues two and is given up; the second one is given the same two again, so five are issued; and the result
reports three. -/
theorem budget_overdrawn :
    validateRecipe .ascii twiceFannedOut ["List", "Detail"] = .ok ()
      ∧ (∃ run, (fetchApiSteps Unit (twoValueKernel 3) twiceFannedOut).run Machine.free
            (fetchApiSteps Unit (twoValueKernel 3) twiceFannedOut).init
            ((twiceFannedOutMoves (.error .upstreamUnavailable)).take 6) = some run
          ∧ (∃ step fanout, run.phase = .fanning step fanout)
          ∧ issuedIn run.log = 5 ∧ plainIssuedIn run.log = 1 ∧ ¬ run.KeepsBudget (twoValueKernel 3))
      ∧ ∃ run, (fetchApiSteps Unit (twoValueKernel 3) twiceFannedOut).run Machine.free
            (fetchApiSteps Unit (twoValueKernel 3) twiceFannedOut).init
            (twiceFannedOutMoves (.error .upstreamUnavailable)) = some run
          ∧ run.phase = .ended (.ok ()) ∧ run.callCount = 3 ∧ issuedIn run.log = 5 := by
  have hbefore : ((fetchApiSteps Unit (twoValueKernel 3) twiceFannedOut).run Machine.free
      (fetchApiSteps Unit (twoValueKernel 3) twiceFannedOut).init
      ((twiceFannedOutMoves (.error .upstreamUnavailable)).take 6)).map (fun run =>
        (run.phase.isFanning, issuedIn run.log, plainIssuedIn run.log)) = some (true, 5, 1) := by
    decide +kernel
  have hafter : ((fetchApiSteps Unit (twoValueKernel 3) twiceFannedOut).run Machine.free
      (fetchApiSteps Unit (twoValueKernel 3) twiceFannedOut).init
      (twiceFannedOutMoves (.error .upstreamUnavailable))).map (fun run =>
        (run.phase.hasResult, run.callCount, issuedIn run.log)) = some (true, 3, 5) := by
    decide +kernel
  obtain ⟨before, hrun, hfacts⟩ := Option.map_eq_some_iff.mp hbefore
  obtain ⟨after, hrun', hfacts'⟩ := Option.map_eq_some_iff.mp hafter
  simp only [Prod.mk.injEq] at hfacts hfacts'
  obtain ⟨hfanning, hissued, hplain⟩ := hfacts
  obtain ⟨step, fanout, hphase⟩ := KernelPhase.exists_of_isFanning hfanning
  refine ⟨by decide +kernel, ⟨before, hrun, ⟨step, fanout, hphase⟩, hissued, hplain, fun hkeeps => ?_⟩,
    after, hrun', KernelPhase.eq_of_hasResult hfacts'.1, hfacts'.2⟩
  have hwithin := hkeeps.within step fanout hphase
  rw [hissued, hplain] at hwithin
  exact absurd hwithin (by decide)
