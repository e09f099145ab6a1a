import FactoryAgent.Cache.Rows
import FactoryAgent.Lib.Gather
import FactoryAgent.Lib.Settling

/-!
# Fanning a step out

`_fetch_fanned` of `execution/kernel.py` from the combinations of bound values on: the budget covers the first
of them, the covered ones are fetched in batches of `fanout_concurrency` with `asyncio.gather`, and a batch is
read once all of its fetches are there. The moves of the machine are arrivals: fetch `i` of the batch in flight
is answered. Which order the answers come in is up to the run.

The order is not seen, and neither is the size of the batches (`fetchFanned_settles`): every run ends, with what
a serial walk over the covered combinations comes to.
-/

/-- **What a fetch comes to**, `ResourceFetchResult` as the kernel reads it. -/
structure FetchResult where
  rows : List Row
  total : Nat
  pagesFetched : Nat
  complete : Bool
  reason : Option String := none
  footer : Option Footer := none
  cacheSource : Option String := none
  /-- whether there is a `shadow_result` -/
  hasShadow : Bool := false
  sourceCallCount : Option Nat := none
  deriving DecidableEq

/-- `_source_call_count`: logical fetches, of which a cache hit costs none. -/
def FetchResult.callCount (fetched : FetchResult) : Nat :=
  match fetched.sourceCallCount with
  | some count => count
  | none => if fetched.cacheSource.isNone ∨ fetched.hasShadow = true then 1 else 0

/-- `reason or default`, where an empty reason is replaced as well. -/
def reasonOr (reason default : Option String) : Option String :=
  match reason with
  | some text => if text = "" then default else some text
  | none => default

/-- **What a fan-out has gathered** from the batches it has read. -/
structure FanoutWalk where
  allRows : List Row := []
  fanoutCalls : Nat := 0
  footer : Option Footer := none
  complete : Bool := true
  reason : Option String := none
  deriving DecidableEq

namespace FanoutWalk

variable {ε : Type}

/-- **One outcome of a batch**, which may be an exception. -/
def read (walk : FanoutWalk) : Except ε FetchResult → Except ε FanoutWalk
  | .error error => .error error
  | .ok outcome =>
    .ok
      { allRows := walk.allRows ++ outcome.rows
        fanoutCalls := walk.fanoutCalls + outcome.callCount
        footer := outcome.footer.or walk.footer
        complete := walk.complete && outcome.complete
        reason := if outcome.complete then walk.reason else reasonOr outcome.reason walk.reason }

/-- **The outcomes of a batch**, up to the first exception. -/
def readAll (walk : FanoutWalk) (outcomes : List (Except ε FetchResult)) : Except ε FanoutWalk :=
  outcomes.foldlM FanoutWalk.read walk

/-- The result of a fan-out over `combos` combinations, of which `covered` are covered. -/
def result (walk : FanoutWalk) (combos covered : Nat) : FetchResult where
  rows := walk.allRows
  total := walk.allRows.length
  pagesFetched := walk.fanoutCalls
  complete := walk.complete && !decide (covered < combos)
  reason := if covered < combos then some "call_budget_exhausted" else walk.reason
  footer := if combos ≤ 1 then walk.footer else none

/-- The outcomes of two batches after each other. -/
theorem readAll_append (walk : FanoutWalk) (outcomes later : List (Except ε FetchResult)) :
    walk.readAll (outcomes ++ later) = (walk.readAll outcomes).bind (·.readAll later) :=
  List.foldlM_append

end FanoutWalk

/-- **A fan-out that waits for a batch.** -/
structure Fanout (Combo ε : Type) where
  /-- how many combinations there are, and how many are covered -/
  combos : Nat
  covered : Nat
  /-- the covered combinations of the batches to come -/
  todo : List Combo
  /-- the combinations of the batch in flight, and what has arrived of it -/
  batch : List Combo
  slots : Gather (Except ε FetchResult)
  walk : FanoutWalk

/-- A fan-out waits, or it has ended with a result or an exception. -/
inductive FanoutState (Combo ε : Type) where
  | running (fanout : Fanout Combo ε)
  | ended (outcome : Except ε FetchResult)

namespace FanoutState

variable {Combo ε : Type}

/-- The outcome of a fan-out that has ended. -/
def ended? : FanoutState Combo ε → Option (Except ε FetchResult)
  | running _ => none
  | ended outcome => some outcome

/-- **The next batch**, with the combinations that are requested now, or the end. -/
def issue (concurrency combos covered : Nat) (todo : List Combo) (walk : FanoutWalk) :
    FanoutState Combo ε × List Combo :=
  if todo.isEmpty then (ended (.ok (walk.result combos covered)), [])
  else
    (running
      { combos := combos, covered := covered, todo := todo.drop concurrency, batch := todo.take concurrency
        slots := Gather.start (todo.take concurrency).length, walk := walk },
      todo.take concurrency)

/-- No combination is left. -/
@[simp]
theorem issue_nil (concurrency combos covered : Nat) (walk : FanoutWalk) :
    @issue Combo ε concurrency combos covered [] walk
      = (ended (.ok (walk.result combos covered)), []) := rfl

/-- A batch is issued. -/
@[simp]
theorem issue_cons (concurrency combos covered : Nat) (combo : Combo) (todo : List Combo)
    (walk : FanoutWalk) :
    issue (ε := ε) concurrency combos covered (combo :: todo) walk
      = (running
          { combos := combos, covered := covered, todo := (combo :: todo).drop concurrency
            batch := (combo :: todo).take concurrency
            slots := Gather.start ((combo :: todo).take concurrency).length, walk := walk },
        (combo :: todo).take concurrency) := rfl

/-- **The start of a fan-out**: the budget decides which combinations are covered, before any request. -/
def start (concurrency : Nat) (combos : List Combo) (budget : Nat) : FanoutState Combo ε × List Combo :=
  issue concurrency combos.length (combos.take budget).length (combos.take budget) {}

end FanoutState

namespace Fanout

variable {Combo ε : Type}

/-- A batch whose outcomes have all arrived is read, and the next one is issued. -/
def proceed (fanout : Fanout Combo ε) (concurrency : Nat) : FanoutState Combo ε × List Combo :=
  match fanout.slots.results with
  | none => (.running fanout, [])
  | some outcomes =>
    match fanout.walk.readAll outcomes with
    | .error error => (.ended (.error error), [])
    | .ok walk => FanoutState.issue concurrency fanout.combos fanout.covered fanout.todo walk

/-- **An answer arrives** for a fetch of the batch. -/
def land (fanout : Fanout Combo ε) (concurrency i : Nat) (outcome : Except ε FetchResult) :
    Option (FanoutState Combo ε × List Combo) :=
  (fanout.slots.land i outcome).map (fun slots => { fanout with slots := slots }.proceed concurrency)

end Fanout

section Settling

variable {Combo ε : Type}

/-- **The fan-out against a source that answers each combination in one way.** A move is the arrival of the
answer to fetch `i` of the batch; concurrency is at least one. -/
def fetchFanned (fanoutConcurrency : Nat) (source : Combo → Except ε FetchResult) (combos : List Combo)
    (budget : Nat) : Machine (FanoutState Combo ε) Nat where
  init := (FanoutState.start (max 1 fanoutConcurrency) combos budget).1
  step
    | .ended _, _ => none
    | .running fanout, i =>
      fanout.batch[i]?.bind fun combo =>
        (fanout.land (max 1 fanoutConcurrency) i (source combo)).map Prod.fst

/-- **The serial walk** over the covered combinations: it stops at the first exception. -/
def fetchSerially (source : Combo → Except ε FetchResult) (combos : List Combo) (budget : Nat) :
    Except ε FetchResult :=
  (FanoutWalk.readAll {} ((combos.take budget).map source)).map
    (·.result combos.length (combos.take budget).length)

/-! ## What every run comes to -/

variable {source : Combo → Except ε FetchResult} {combos : List Combo} {budget concurrency : Nat}

/-- **What a fan-out that waits still has to read** is what the serial walk has to read from here on. -/
structure Fanout.Serves (fanout : Fanout Combo ε) (source : Combo → Except ε FetchResult)
    (combos : List Combo) (budget : Nat) : Prop where
  arrived : fanout.slots.Agrees (fanout.batch.map source)
  unread : fanout.slots.results = none
  count : fanout.combos = combos.length
  coveredCount : fanout.covered = (combos.take budget).length
  rest : (fanout.walk.readAll ((fanout.batch ++ fanout.todo).map source)).map
    (·.result combos.length (combos.take budget).length) = fetchSerially source combos budget

/-- **The invariant of a fan-out**: it waits for what the serial walk reads, or has ended as that does. -/
def FanoutState.Serves (source : Combo → Except ε FetchResult) (combos : List Combo) (budget : Nat) :
    FanoutState Combo ε → Prop
  | running fanout => fanout.Serves source combos budget
  | ended outcome => outcome = fetchSerially source combos budget

/-- How many answers a fan-out waits for, in this batch and the later ones. -/
def FanoutState.left : FanoutState Combo ε → Nat
  | running fanout => fanout.slots.waiting + fanout.todo.length
  | ended _ => 0

/-- The next batch waits for what is left to read. -/
theorem serves_issue (hpos : 1 ≤ concurrency) {todo : List Combo} {walk : FanoutWalk}
    (h : (walk.readAll (todo.map source)).map (·.result combos.length (combos.take budget).length)
      = fetchSerially source combos budget) :
    (FanoutState.issue concurrency combos.length (combos.take budget).length todo walk).1.Serves
      source combos budget := by
  unfold FanoutState.issue
  cases todo with
  | nil => exact h
  | cons combo todo =>
    have hbatch : 0 < ((combo :: todo).take concurrency).length := by
      rw [List.length_take, List.length_cons]
      omega
    exact
      { arrived := Gather.agrees_start (List.length_map source).symm
        unread := Gather.results_start hbatch
        count := rfl
        coveredCount := rfl
        rest := by rw [List.take_append_drop]; exact h }

/-- The next batch leaves as many answers to wait for as there are combinations to do. -/
theorem left_issue (concurrency count covered : Nat) (todo : List Combo) (walk : FanoutWalk) :
    (FanoutState.issue (ε := ε) concurrency count covered todo walk).1.left ≤ todo.length := by
  unfold FanoutState.issue
  split
  · exact Nat.zero_le _
  · show Gather.waiting _ + _ ≤ _
    rw [Gather.waiting_start, List.length_take, List.length_drop]
    omega

/-- **One answer** keeps the invariant, and leaves fewer to wait for. -/
theorem Fanout.Serves.land {fanout : Fanout Combo ε} {state : FanoutState Combo ε}
    {requested : List Combo} {i : Nat} {combo : Combo} (h : fanout.Serves source combos budget) (hpos : 1 ≤ concurrency)
    (hcombo : fanout.batch[i]? = some combo)
    (hland : fanout.land concurrency i (source combo) = some (state, requested)) :
    state.Serves source combos budget ∧ state.left < fanout.slots.waiting + fanout.todo.length := by
  unfold Fanout.land at hland
  obtain ⟨slots, hslots, hstate⟩ := Option.map_eq_some_iff.mp hland
  obtain rfl := congrArg Prod.fst hstate
  have houtcome : (fanout.batch.map source)[i]? = some (source combo) := by
    rw [List.getElem?_map, hcombo]
    rfl
  have harrived := h.arrived.land houtcome hslots
  have hwaiting := Gather.waiting_land hslots
  unfold Fanout.proceed
  dsimp only
  cases hresults : slots.results with
  | none =>
    refine ⟨⟨harrived, hresults, h.count, h.coveredCount, h.rest⟩, ?_⟩
    show slots.waiting + fanout.todo.length < _
    omega
  | some outcomes =>
    -- the whole batch is there, in the order of its combinations
    have hrest := h.rest
    rw [List.map_append, FanoutWalk.readAll_append, ← harrived.results hresults] at hrest
    dsimp only
    cases hread : fanout.walk.readAll outcomes with
    | error error =>
      rw [hread] at hrest
      refine ⟨hrest, ?_⟩
      show 0 < _
      omega
    | ok walk =>
      rw [hread] at hrest
      have hleft := left_issue (ε := ε) concurrency fanout.combos fanout.covered fanout.todo walk
      refine ⟨?_, Nat.lt_of_le_of_lt hleft (by omega)⟩
      dsimp only
      rw [h.count, h.coveredCount]
      exact serves_issue hpos hrest

/-- **A fan-out ends as the serial walk does**, with every limit on the concurrency and in every order of the
answers. -/
theorem fetchFanned_settles (fanoutConcurrency : Nat) (source : Combo → Except ε FetchResult)
    (combos : List Combo) (budget : Nat) :
    (fetchFanned fanoutConcurrency source combos budget).Settles FanoutState.ended?
      (fetchSerially source combos budget) := by
  have hpos : 1 ≤ max 1 fanoutConcurrency := Nat.le_max_left 1 _
  refine Machine.settles_of_measure (I := FanoutState.Serves source combos budget) FanoutState.left
    (serves_issue hpos rfl) ?_ ?_ ?_
  · intro state state' i hserves hstep
    cases state with
    | ended outcome => cases hstep
    | running fanout =>
      obtain ⟨combo, hcombo, hland⟩ := Option.bind_eq_some_iff.mp hstep
      obtain ⟨⟨_, requested⟩, hlanded, rfl⟩ := Option.map_eq_some_iff.mp hland
      exact Fanout.Serves.land hserves hpos hcombo hlanded
  · intro state other hserves hended
    cases state with
    | running fanout => cases hended
    | ended outcome =>
      cases hended
      exact hserves
  · intro state hserves hended
    cases state with
    | ended outcome => cases hended
    | running fanout =>
      obtain ⟨i, hslot⟩ := Gather.exists_waiting hserves.unread
      have hi : i < fanout.batch.length := by
        rw [← List.length_map source, ← hserves.arrived.length]
        exact (List.getElem?_eq_some_iff.mp hslot).1
      refine ⟨i, ?_⟩
      show (Option.bind _ _).isSome = true
      rw [List.getElem?_eq_getElem hi, Option.bind_some, Fanout.land,
        Gather.land_eq_some.mpr ⟨hslot, rfl⟩]
      rfl

/-- **Concurrency is not seen.** Whatever the limit on it and the order of the answers, a fan-out ends with the
same rows in the same order, footer, completeness, reason and count of calls, or with the same exception, as
with a limit of one. -/
theorem fetchFanned_concurrency_invisible (fanoutConcurrency : Nat)
    (source : Combo → Except ε FetchResult) (combos : List Combo) (budget : Nat) :
    ∃ outcome, (fetchFanned fanoutConcurrency source combos budget).Settles FanoutState.ended? outcome
      ∧ (fetchFanned 1 source combos budget).Settles FanoutState.ended? outcome :=
  ⟨fetchSerially source combos budget, fetchFanned_settles _ source combos budget,
    fetchFanned_settles 1 source combos budget⟩

end Settling
