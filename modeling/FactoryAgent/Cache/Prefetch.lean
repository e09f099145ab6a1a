import FactoryAgent.Lib.Machine
import Mathlib.Logic.Function.Basic

/-!
# Prefetching a day

`V2PrefetchWorker` of `application/prefetch.py`, as any number of workers run at once. A worker takes the lease of its
tenant and day, looks for the marker of the phase, refreshes every planned snapshot, and puts the marker once all of them
were confirmed. The lease may expire while it is at work, the marker store may lose what it was given, and any await may
end with an exception or at the deadline; a write that is cut off may have landed or not.

Nothing relies on the lease: two workers that refresh at once each put the marker for what they confirmed themselves. So
a marker says what it should (`prefetch_truthful`), and a worker keeps retrying until a run of its day has confirmed all.

An alert that is awaited changes nothing, and is left out; the tenant of a worker is that of its owner, which does not
change. A worker that is given no coordination puts no marker, and is left out too.
-/

namespace Prefetch

/-- A plan of `PREFETCH_PLANS`. -/
structure Plan where
  operation : String
  params : List (String × String)
  deriving DecidableEq

/-- `PREFETCH_PLANS` -/
def prefetchPlans : List Plan :=
  [⟨"GongziClQuery", [("Flag", "0"), ("Type", "0,1,2")]⟩, ⟨"ScjdQuery", []⟩]

/-- The phase of a marker. -/
inductive Phase
  | warmup
  | daily
  deriving DecidableEq

/-- The key of a lease: a tenant and a day. -/
structure LeaseKey where
  tenant : String
  day : String
  deriving DecidableEq

/-- The key of a completed-day marker. -/
structure MarkerKey where
  lease : LeaseKey
  phase : Phase
  deriving DecidableEq

/-- **What the workers are made with.** A store without leases lets every worker through. -/
structure Settings where
  tenant : Nat → String
  prefetchHour : Nat → Nat
  leases : Bool

/-- What a fetch returned, as far as the worker reads it; a fetch may also raise. -/
structure Fetched where
  rows : List (List (String × String))
  complete : Bool

/-- **A run of a worker**, with what it noted of each plan in `_write_results`. -/
structure Run where
  id : Nat
  key : MarkerKey
  writeResults : List (Plan × Bool)

/-- **What a worker awaits**: nothing, between two runs; `prepare`; the lease, the marker, a fetch, the write of a
snapshot, or the write of the marker; or the release of the lease, where the run has failed or is to return. A worker that
was cancelled is stopped, in a run or not. -/
inductive Stage
  | idle
  | preparing (day : String) (hour : Nat)
  | acquiring (run : Run)
  | looking (run : Run)
  | fetching (run : Run) (plan : Plan) (rest : List Plan)
  | writing (run : Run) (plan : Plan) (fetched : Fetched) (rest : List Plan)
  | marking (run : Run)
  | releasing (run : Run) (failed : Bool)
  | stopped (run : Option Run)

/-- **A worker**: where it is, whether its retry condition is set, whether an attempt of it has ended, and the marker that
its last attempt that returned was about. -/
structure Worker where
  stage : Stage
  retryNeeded : Bool
  attempted : Bool
  last : Option MarkerKey

/-- **What the workers share**: the leases and the markers; and, of all runs, the fetches that returned, the snapshots
that were written, those whose write was confirmed, and the markers that were written. -/
structure Shared where
  leases : LeaseKey → Option Nat
  markers : MarkerKey → Bool
  nextRun : Nat
  fetches : List (Nat × Plan × Fetched)
  snapshots : List (Nat × Plan × Fetched)
  confirmed : List (Nat × MarkerKey × Plan)
  marks : List (Nat × MarkerKey)

/-- **What happens to a worker.** What it awaits may take effect without an answer: `landed` says whether it did. -/
inductive Event
  | begin (day : String) (hour : Nat)
  | prepared (authorized : Bool)
  | leased (answered landed : Bool)
  | looked (answered : Bool)
  | fetched (result : Option Fetched)
  | wrote (landed confirmed : Bool)
  | marked (landed confirmed : Bool)
  | released (landed : Bool)
  | interrupted (landed : Bool)
  | cancelled (landed : Bool)

/-- The run of a stage. -/
def Stage.run? : Stage → Option Run
  | .acquiring run | .looking run | .fetching run _ _ | .writing run _ _ _ | .marking run | .releasing run _ => some run
  | .stopped run => run
  | .idle | .preparing _ _ => none

/-! ## The stores -/

namespace Shared

variable (shared : Shared) (run : Run)

/-- `SET NX` on the lease of a run. -/
def acquire (landed : Bool) : Shared :=
  if landed ∧ shared.leases run.key.lease = none then
    { shared with leases := Function.update shared.leases run.key.lease (some run.id) }
  else shared

/-- The lease of a run is deleted, where the run still owns it. -/
def release (landed : Bool) : Shared :=
  if landed ∧ shared.leases run.key.lease = some run.id then
    { shared with leases := Function.update shared.leases run.key.lease none }
  else shared

/-- A snapshot is written. -/
def write (plan : Plan) (fetched : Fetched) (landed : Bool) : Shared :=
  if landed then { shared with snapshots := shared.snapshots ++ [(run.id, plan, fetched)] } else shared

/-- The write of a snapshot is confirmed. -/
def confirm (plan : Plan) (confirmed : Bool) : Shared :=
  if confirmed then { shared with confirmed := shared.confirmed ++ [(run.id, run.key, plan)] } else shared

/-- A marker is written. -/
def mark (landed : Bool) : Shared :=
  if landed then
    { shared with
      markers := Function.update shared.markers run.key true
      marks := shared.marks ++ [(run.id, run.key)] }
  else shared

/-- A lease expires. -/
def expire (lease : LeaseKey) : Shared :=
  { shared with leases := Function.update shared.leases lease none }

/-- A marker is lost. -/
def forget (marker : MarkerKey) : Shared :=
  { shared with markers := Function.update shared.markers marker false }

/-- What a worker awaits takes effect, or does not. -/
def land (stage : Stage) (landed : Bool) : Shared :=
  match stage with
  | .acquiring run => shared.acquire run landed
  | .writing run plan fetched _ => shared.write run plan fetched landed
  | .marking run => shared.mark run landed
  | .releasing run _ => shared.release run landed
  | _ => shared

end Shared

/-! ## A worker -/

/-- A plan of a run is noted, with whether its snapshot was written. -/
def Run.note (run : Run) (plan : Plan) (written : Bool) : Run :=
  { run with writeResults := run.writeResults ++ [(plan, written)] }

/-- `all(self._write_results.values())` -/
def Run.allWritten (run : Run) : Bool :=
  run.writeResults.all (·.2)

namespace Worker

variable (worker : Worker)

/-- A worker comes to a stage. -/
def moves (stage : Stage) : Worker :=
  { worker with stage }

/-- A worker sets its retry condition, and comes to a stage. -/
def retries (retryNeeded : Bool) (stage : Stage) : Worker :=
  { worker with stage, retryNeeded }

/-- An attempt ends with an exception, or at the deadline. -/
def fails : Worker :=
  { worker with stage := .idle, retryNeeded := true, attempted := true }

/-- An attempt returns. -/
def returns (key : MarkerKey) : Worker :=
  { worker with stage := .idle, attempted := true, last := some key }

/-- `_refresh` from one plan to the next, and what `_run_bounded` makes of it. -/
def refresh (run : Run) : List Plan → Worker
  | plan :: rest => worker.moves (.fetching run plan rest)
  | [] => if run.allWritten then worker.retries false (.marking run) else worker.retries true (.releasing run false)

end Worker

variable (settings : Settings) (id : Nat)

/-- **`run_once` from one await to the next.** -/
def act (worker : Worker) (shared : Shared) : Event → Option (Worker × Shared)
  | .begin day hour =>
    match worker.stage with
    | .idle => some (worker.moves (.preparing day hour), shared)
    | _ => none
  | .prepared authorized =>
    match worker.stage with
    | .preparing day hour =>
      if authorized then
        let phase := if hour < settings.prefetchHour id then .warmup else .daily
        some (worker.moves (.acquiring ⟨shared.nextRun, ⟨⟨settings.tenant id, day⟩, phase⟩, []⟩),
          { shared with nextRun := shared.nextRun + 1 })
      else some (worker.fails, shared)
    | _ => none
  | .leased answered landed =>
    match worker.stage with
    | .acquiring run =>
      if settings.leases = false then some (worker.moves (.looking run), shared)
      else if answered ∧ shared.leases run.key.lease = none then
        some (worker.moves (.looking run), shared.acquire run true)
      else some ((worker.retries true .idle).returns run.key, shared.acquire run (landed && !answered))
    | _ => none
  | .looked answered =>
    match worker.stage with
    | .looking run =>
      if answered ∧ shared.markers run.key then some (worker.retries false (.releasing run false), shared)
      else some (worker.refresh run prefetchPlans, shared)
    | _ => none
  | .fetched result =>
    match worker.stage, result with
    | .fetching run plan rest, none => some (worker.refresh (run.note plan false) rest, shared)
    | .fetching run plan rest, some fetched =>
      let shared := { shared with fetches := shared.fetches ++ [(run.id, plan, fetched)] }
      if fetched.complete then some (worker.moves (.writing run plan fetched rest), shared)
      else some (worker.refresh (run.note plan false) rest, shared)
    | _, _ => none
  | .wrote landed confirmed =>
    match worker.stage with
    | .writing run plan fetched rest =>
      if confirmed && !landed then none
      else some (worker.refresh (run.note plan confirmed) rest,
        (shared.write run plan fetched landed).confirm run plan confirmed)
    | _ => none
  | .marked landed confirmed =>
    match worker.stage with
    | .marking run =>
      if confirmed && !landed then none
      else if confirmed then some (worker.moves (.releasing run false), shared.mark run landed)
      else some (worker.retries true (.releasing run false), shared.mark run landed)
    | _ => none
  | .released landed =>
    match worker.stage with
    | .releasing run failed =>
      some (if failed then worker.fails else worker.returns run.key, shared.release run landed)
    | _ => none
  | .interrupted landed =>
    match worker.stage with
    | .idle | .stopped _ => none
    | .preparing _ _ | .acquiring _ | .releasing _ _ => some (worker.fails, shared.land worker.stage landed)
    | .looking run | .fetching run _ _ | .writing run _ _ _ | .marking run =>
      some (worker.moves (.releasing run true), shared.land worker.stage landed)
  | .cancelled landed =>
    match worker.stage with
    | .stopped _ => none
    | stage => some (worker.moves (.stopped stage.run?), shared.land stage landed)

/-! ## The workers -/

/-- **The workers, and what they share.** -/
structure Prefetching where
  workers : Nat → Worker
  shared : Shared

/-- What happens next: something to a worker, or a lease or a marker is lost. -/
inductive Action
  | worker (id : Nat) (event : Event)
  | expire (lease : LeaseKey)
  | forget (marker : MarkerKey)

/-- A worker that has not run. -/
def Worker.fresh : Worker :=
  ⟨.idle, false, false, none⟩

/-- Nothing was fetched yet. -/
def Prefetching.fresh : Prefetching :=
  ⟨fun _ => .fresh, ⟨fun _ => none, fun _ => false, 0, [], [], [], []⟩⟩

/-- **What an action does.** -/
def step (s : Prefetching) : Action → Option Prefetching
  | .worker id event =>
    (act settings id (s.workers id) s.shared event).map fun next =>
      ⟨Function.update s.workers id next.1, next.2⟩
  | .expire lease => some ⟨s.workers, s.shared.expire lease⟩
  | .forget marker => some ⟨s.workers, s.shared.forget marker⟩

/-- **The workers as a machine.** -/
def machine : Machine Prefetching Action :=
  ⟨.fresh, step settings⟩

/-! ## What holds -/

/-- **A run has completed** a day and a phase: each of its planned snapshots was confirmed. -/
def Completed (shared : Shared) (key : MarkerKey) : Prop :=
  ∃ run, ∀ plan ∈ prefetchPlans, (run, key, plan) ∈ shared.confirmed

/-- The days and phases that a worker is or was at: that of its run, and that of its last one. -/
def Worker.IsAt (worker : Worker) (key : MarkerKey) : Prop :=
  worker.last = some key ∨ ∃ run, worker.stage.run? = some run ∧ run.key = key

/-- **The stores tell the truth**: a marker is written by a run whose planned snapshots were all confirmed; what was
confirmed was written; and what was written is what a complete fetch returned. -/
structure Truthful (shared : Shared) : Prop where
  marks : ∀ {run key}, (run, key) ∈ shared.marks → ∀ plan ∈ prefetchPlans, (run, key, plan) ∈ shared.confirmed
  markers : ∀ {key}, shared.markers key = true → ∃ run, (run, key) ∈ shared.marks
  confirmed : ∀ {run key plan}, (run, key, plan) ∈ shared.confirmed → ∃ fetched, (run, plan, fetched) ∈ shared.snapshots
  snapshots : ∀ {run plan fetched}, (run, plan, fetched) ∈ shared.snapshots →
    fetched.complete = true ∧ (run, plan, fetched) ∈ shared.fetches

/-- **A worker keeps retrying**: once an attempt has ended, its retry condition is set, unless a run has completed the day
and the phase that it is or was at. -/
def KeepsRetrying (shared : Shared) (worker : Worker) : Prop :=
  worker.attempted = true → (∀ key, worker.IsAt key → ¬Completed shared key) → worker.retryNeeded = true

/-! ## What one worker does -/

/-- **The plans of a run up to some rest of them are noted**, and what is noted as written was confirmed. -/
structure RunOk (shared : Shared) (run : Run) (rest : List Plan) : Prop where
  plans : run.writeResults.map (·.1) ++ rest = prefetchPlans
  confirmed : ∀ {plan}, (plan, true) ∈ run.writeResults → (run.id, run.key, plan) ∈ shared.confirmed

/-- What holds at a stage. -/
def StageOk (shared : Shared) : Stage → Prop
  | .acquiring run | .looking run => run.writeResults = []
  | .fetching run plan rest => RunOk shared run (plan :: rest)
  | .writing run plan fetched rest =>
    RunOk shared run (plan :: rest) ∧ fetched.complete = true ∧ (run.id, plan, fetched) ∈ shared.fetches
  | .marking run => ∀ plan ∈ prefetchPlans, (run.id, run.key, plan) ∈ shared.confirmed
  | _ => True

/-- **What holds of a worker.** -/
structure WorkerOk (shared : Shared) (worker : Worker) : Prop where
  stage : StageOk shared worker.stage
  retry : worker.attempted = true → worker.retryNeeded = true ∨ ∃ key, worker.IsAt key ∧ Completed shared key
  ending : ∀ {run}, worker.stage = .releasing run false → worker.retryNeeded = true ∨ Completed shared run.key

/-- What is noted stays noted. -/
structure Grows (shared shared' : Shared) : Prop where
  fetches : shared.fetches ⊆ shared'.fetches
  confirmed : shared.confirmed ⊆ shared'.confirmed

variable {settings} {id : Nat} {shared shared' : Shared} {worker worker' : Worker} {run : Run}

theorem Grows.refl : Grows shared shared :=
  ⟨List.Subset.refl _, List.Subset.refl _⟩

theorem Grows.completed (h : Grows shared shared') {key : MarkerKey} (hkey : Completed shared key) :
    Completed shared' key :=
  hkey.imp fun _ hplans plan hplan => h.confirmed (hplans plan hplan)

theorem RunOk.mono (hgrows : Grows shared shared') {rest : List Plan} (h : RunOk shared run rest) :
    RunOk shared' run rest :=
  ⟨h.plans, fun hplan => hgrows.confirmed (h.confirmed hplan)⟩

/-- **What other workers do keeps what holds of a worker.** -/
theorem WorkerOk.mono (hgrows : Grows shared shared') (h : WorkerOk shared worker) : WorkerOk shared' worker where
  stage := by
    have hstage := h.stage
    cases hcase : worker.stage with
    | fetching run plan rest =>
      rw [hcase] at hstage
      exact RunOk.mono hgrows hstage
    | writing run plan fetched rest =>
      rw [hcase] at hstage
      exact ⟨hstage.1.mono hgrows, hstage.2.1, hgrows.fetches hstage.2.2⟩
    | marking run =>
      rw [hcase] at hstage
      exact fun plan hplan => hgrows.confirmed (hstage plan hplan)
    | acquiring run | looking run =>
      rw [hcase] at hstage
      exact hstage
    | _ => trivial
  retry hattempted := (h.retry hattempted).imp_right fun ⟨key, hkey, hcompleted⟩ => ⟨key, hkey, hgrows.completed hcompleted⟩
  ending hstage := (h.ending hstage).imp_right hgrows.completed

/-! ### The stores -/

theorem grows_acquire (landed : Bool) : Grows shared (shared.acquire run landed) := by
  rw [Shared.acquire]
  split <;> exact ⟨List.Subset.refl _, List.Subset.refl _⟩

theorem grows_release (landed : Bool) : Grows shared (shared.release run landed) := by
  rw [Shared.release]
  split <;> exact ⟨List.Subset.refl _, List.Subset.refl _⟩

theorem grows_write (plan : Plan) (fetched : Fetched) (landed : Bool) : Grows shared (shared.write run plan fetched landed) := by
  rw [Shared.write]
  split <;> exact ⟨List.Subset.refl _, List.Subset.refl _⟩

theorem grows_confirm (plan : Plan) (confirmed : Bool) : Grows shared (shared.confirm run plan confirmed) := by
  rw [Shared.confirm]
  split
  · exact ⟨List.Subset.refl _, List.subset_append_left _ _⟩
  · exact .refl

theorem grows_mark (landed : Bool) : Grows shared (shared.mark run landed) := by
  rw [Shared.mark]
  split <;> exact ⟨List.Subset.refl _, List.Subset.refl _⟩

theorem grows_land (stage : Stage) (landed : Bool) : Grows shared (shared.land stage landed) := by
  cases stage with
  | acquiring run => exact grows_acquire landed
  | writing run plan fetched rest => exact grows_write plan fetched landed
  | marking run => exact grows_mark landed
  | releasing run failed => exact grows_release landed
  | _ => exact .refl

namespace Truthful

theorem acquire (h : Truthful shared) (landed : Bool) : Truthful (shared.acquire run landed) := by
  rw [Shared.acquire]
  split <;> exact ⟨h.marks, h.markers, h.confirmed, h.snapshots⟩

theorem release (h : Truthful shared) (landed : Bool) : Truthful (shared.release run landed) := by
  rw [Shared.release]
  split <;> exact ⟨h.marks, h.markers, h.confirmed, h.snapshots⟩

/-- **What is written is of a complete fetch.** -/
theorem write (h : Truthful shared) {plan : Plan} {fetched : Fetched} (hcomplete : fetched.complete = true)
    (hfetched : (run.id, plan, fetched) ∈ shared.fetches) (landed : Bool) :
    Truthful (shared.write run plan fetched landed) := by
  rw [Shared.write]
  split
  · refine ⟨h.marks, h.markers, fun hconfirmed => ?_, fun hsnapshot => ?_⟩
    · obtain ⟨written, hwritten⟩ := h.confirmed hconfirmed
      exact ⟨written, List.mem_append_left _ hwritten⟩
    · obtain hsnapshot | hsnapshot := List.mem_append.mp hsnapshot
      · exact h.snapshots hsnapshot
      · cases List.mem_singleton.mp hsnapshot
        exact ⟨hcomplete, hfetched⟩
  · exact h

/-- **What is confirmed was written.** -/
theorem confirm (h : Truthful shared) {plan : Plan} {fetched : Fetched} {confirmed : Bool}
    (hwritten : confirmed = true → (run.id, plan, fetched) ∈ shared.snapshots) :
    Truthful (shared.confirm run plan confirmed) := by
  rw [Shared.confirm]
  split
  · next hconfirmed =>
    refine ⟨fun hmark plan hplan => List.mem_append_left _ (h.marks hmark plan hplan), h.markers, fun hnoted => ?_,
      h.snapshots⟩
    obtain hnoted | hnoted := List.mem_append.mp hnoted
    · exact h.confirmed hnoted
    · cases List.mem_singleton.mp hnoted
      exact ⟨fetched, hwritten hconfirmed⟩
  · exact h

/-- **A marker is written where all was confirmed.** -/
theorem mark (h : Truthful shared) (hall : ∀ plan ∈ prefetchPlans, (run.id, run.key, plan) ∈ shared.confirmed)
    (landed : Bool) : Truthful (shared.mark run landed) := by
  rw [Shared.mark]
  split
  · refine ⟨fun hmark => ?_, fun {key} hmarker => ?_, h.confirmed, h.snapshots⟩
    · obtain hmark | hmark := List.mem_append.mp hmark
      · exact h.marks hmark
      · cases List.mem_singleton.mp hmark
        exact hall
    · by_cases hkey : key = run.key
      · subst hkey
        exact ⟨run.id, List.mem_append_right _ (List.mem_singleton_self _)⟩
      · have hbefore : shared.markers key = true := by
          rw [← hmarker]
          exact (Function.update_of_ne hkey _ _).symm
        obtain ⟨marked, hmarked⟩ := h.markers hbefore
        exact ⟨marked, List.mem_append_left _ hmarked⟩
  · exact h

/-- **Whatever lands of what a worker awaits, the stores tell the truth.** -/
theorem land (h : Truthful shared) {stage : Stage} (hstage : StageOk shared stage) (landed : Bool) :
    Truthful (shared.land stage landed) := by
  cases stage with
  | acquiring run => exact h.acquire landed
  | writing run plan fetched rest => exact h.write hstage.2.1 hstage.2.2 landed
  | marking run => exact h.mark hstage landed
  | releasing run failed => exact h.release landed
  | _ => exact h

/-- A fetch is noted. -/
theorem fetch (h : Truthful shared) (fetch : Nat × Plan × Fetched) :
    Truthful { shared with fetches := shared.fetches ++ [fetch] } :=
  ⟨h.marks, h.markers, h.confirmed, fun hsnapshot =>
    ⟨(h.snapshots hsnapshot).1, List.mem_append_left _ (h.snapshots hsnapshot).2⟩⟩

end Truthful

/-! ### The worker -/

/-- What is confirmed of a run completes its day and phase. -/
theorem completed_of_marking (h : StageOk shared (.marking run)) : Completed shared run.key :=
  ⟨run.id, h⟩

/-- **One plan more is noted.** -/
theorem RunOk.note {plan : Plan} {rest : List Plan} {written : Bool} (h : RunOk shared run (plan :: rest))
    (hwritten : written = true → (run.id, run.key, plan) ∈ shared.confirmed) : RunOk shared (run.note plan written) rest where
  plans := by
    rw [← h.plans, Run.note, List.map_append, List.append_assoc]
    rfl
  confirmed {other} hother := by
    obtain hother | hother := List.mem_append.mp hother
    · exact h.confirmed hother
    · obtain ⟨rfl, rfl⟩ := Prod.mk.inj (List.mem_singleton.mp hother)
      exact hwritten rfl

/-- **A run that noted all plans as written** has completed. -/
theorem RunOk.all (h : RunOk shared run []) (hall : run.allWritten = true) : StageOk shared (.marking run) := by
  intro plan hplan
  rw [← h.plans, List.append_nil] at hplan
  obtain ⟨⟨other, written⟩, hmem, rfl⟩ := List.mem_map.mp hplan
  have hwritten : written = true := List.all_eq_true.mp hall _ hmem
  subst hwritten
  exact h.confirmed hmem

namespace WorkerOk

/-- A worker goes on in its run, with its retry condition as it is. -/
theorem moves (h : WorkerOk shared worker) {stage : Stage} (hstage : StageOk shared stage)
    (hrun : ∀ {run}, worker.stage.run? = some run → ∃ other, stage.run? = some other ∧ other.key = run.key)
    (hending : ∀ run, stage ≠ .releasing run false) : WorkerOk shared (worker.moves stage) where
  stage := hstage
  retry hattempted := by
    refine (h.retry hattempted).imp_right fun ⟨key, hkey, hcompleted⟩ => ⟨key, ?_, hcompleted⟩
    refine hkey.imp_right fun ⟨run, hat, hsame⟩ => ?_
    obtain ⟨other, hother, hotherKey⟩ := hrun hat
    exact ⟨other, hother, hotherKey.trans hsame⟩
  ending hreleasing := absurd hreleasing (hending _)

/-- An attempt that failed is retried. -/
theorem fails : WorkerOk shared worker.fails :=
  ⟨trivial, fun _ => .inl rfl, fun h => by cases h⟩

/-- A worker whose retry condition is set goes on. -/
theorem retries {stage : Stage} (hstage : StageOk shared stage) : WorkerOk shared (worker.retries true stage) :=
  ⟨hstage, fun _ => .inl rfl, fun _ => .inl rfl⟩

/-- A worker whose run has completed goes on. -/
theorem settles {stage : Stage} (hstage : StageOk shared stage) (hrun : stage.run? = some run)
    (hcompleted : Completed shared run.key) : WorkerOk shared (worker.retries false stage) where
  stage := hstage
  retry _ := .inr ⟨run.key, .inr ⟨run, hrun, rfl⟩, hcompleted⟩
  ending {other} hreleasing := by
    have hstage : stage = .releasing other false := hreleasing
    rw [hstage] at hrun
    cases hrun
    exact .inr hcompleted

/-- An attempt returns, where its retry condition is set or its day and phase completed. -/
theorem returns (h : worker.retryNeeded = true ∨ Completed shared run.key) : WorkerOk shared (worker.returns run.key) :=
  ⟨trivial, fun _ => h.imp_right fun hcompleted => ⟨run.key, .inl rfl, hcompleted⟩, fun h => by cases h⟩

/-- **A refresh goes on to the next plan**, or comes to its end. -/
theorem refresh (h : WorkerOk shared worker) {rest : List Plan} (hrun : RunOk shared run rest)
    (hkey : ∀ {other}, worker.stage.run? = some other → run.key = other.key) : WorkerOk shared (worker.refresh run rest) := by
  cases rest with
  | cons plan rest => exact h.moves hrun (fun hat => ⟨run, rfl, hkey hat⟩) fun _ hreleasing => by cases hreleasing
  | nil =>
    rw [Worker.refresh]
    split
    · next hall => exact settles (hrun.all hall) rfl (completed_of_marking (hrun.all hall))
    · exact retries trivial

end WorkerOk

/-- **What a worker does** keeps the stores truthful, and what holds of it. -/
theorem act_keeps {event : Event} (hact : act settings id worker shared event = some (worker', shared'))
    (h : WorkerOk shared worker) (htruthful : Truthful shared) :
    Grows shared shared' ∧ Truthful shared' ∧ WorkerOk shared' worker' := by
  have hsame : Grows shared shared := .refl
  have hat := h.stage
  cases event with
  | begin day hour =>
    simp only [act] at hact
    split at hact
    · next hstage =>
      cases hact
      refine ⟨hsame, htruthful, h.moves trivial (fun hrun => ?_) fun _ hreleasing => by cases hreleasing⟩
      rw [hstage] at hrun
      cases hrun
    · cases hact
  | prepared authorized =>
    simp only [act] at hact
    split at hact
    · next day hour hstage =>
      split at hact
      · cases hact
        have hgrows : Grows shared { shared with nextRun := shared.nextRun + 1 } :=
          ⟨List.Subset.refl _, List.Subset.refl _⟩
        refine ⟨hgrows, ⟨htruthful.marks, htruthful.markers, htruthful.confirmed, htruthful.snapshots⟩,
          (h.mono hgrows).moves rfl (fun hrun => ?_) fun _ hreleasing => by cases hreleasing⟩
        rw [hstage] at hrun
        cases hrun
      · cases hact
        exact ⟨hsame, htruthful, .fails⟩
    · cases hact
  | leased answered landed =>
    simp only [act] at hact
    split at hact
    · next run hstage =>
      rw [hstage] at hat
      have hkey : ∀ {other}, worker.stage.run? = some other → ∃ next, (Stage.looking run).run? = some next
          ∧ next.key = other.key := by
        intro other hrun
        rw [hstage] at hrun
        cases hrun
        exact ⟨run, rfl, rfl⟩
      split at hact
      · cases hact
        exact ⟨hsame, htruthful, h.moves hat hkey fun _ hreleasing => by cases hreleasing⟩
      · split at hact
        · cases hact
          exact ⟨grows_acquire true, htruthful.acquire true,
            (h.mono (grows_acquire true)).moves hat hkey fun _ hreleasing => by cases hreleasing⟩
        · cases hact
          exact ⟨grows_acquire _, htruthful.acquire _, .returns (.inl rfl)⟩
    · cases hact
  | looked answered =>
    simp only [act] at hact
    split at hact
    · next run hstage =>
      rw [hstage] at hat
      split at hact
      · next hfound =>
        cases hact
        obtain ⟨marked, hmarked⟩ := htruthful.markers hfound.2
        exact ⟨hsame, htruthful, .settles trivial rfl ⟨marked, htruthful.marks hmarked⟩⟩
      · cases hact
        refine ⟨hsame, htruthful, h.refresh ⟨?_, fun hplan => ?_⟩ fun hrun => ?_⟩
        · rw [show run.writeResults = [] from hat]
          rfl
        · rw [show run.writeResults = [] from hat] at hplan
          cases hplan
        · rw [hstage] at hrun
          cases hrun
          rfl
    · cases hact
  | fetched result =>
    simp only [act] at hact
    split at hact
    · next run plan rest hstage =>
      cases hact
      rw [hstage] at hat
      refine ⟨hsame, htruthful, h.refresh (RunOk.note hat fun hwritten => by cases hwritten) fun hrun => ?_⟩
      rw [hstage] at hrun
      cases hrun
      rfl
    · next run plan rest fetched hstage =>
      rw [hstage] at hat
      have hgrows : Grows shared { shared with fetches := shared.fetches ++ [(run.id, plan, fetched)] } :=
        ⟨List.subset_append_left _ _, List.Subset.refl _⟩
      have hrun : RunOk _ run (plan :: rest) := RunOk.mono hgrows hat
      have hkey : ∀ {other}, worker.stage.run? = some other → run.key = other.key := by
        intro other hrun
        rw [hstage] at hrun
        cases hrun
        rfl
      split at hact
      · next hcomplete =>
        cases hact
        refine ⟨hgrows, htruthful.fetch _, (h.mono hgrows).moves
          ⟨hrun, hcomplete, List.mem_append_right _ (List.mem_singleton_self _)⟩ (fun hat => ⟨run, rfl, hkey hat⟩)
          fun _ hreleasing => by cases hreleasing⟩
      · cases hact
        exact ⟨hgrows, htruthful.fetch _, (h.mono hgrows).refresh (hrun.note fun hwritten => by cases hwritten) hkey⟩
    · cases hact
  | wrote landed confirmed =>
    simp only [act] at hact
    split at hact
    · next run plan fetched rest hstage =>
      rw [hstage] at hat
      obtain ⟨hrun, hcomplete, hfetched⟩ := hat
      split at hact
      · cases hact
      · next hanswer =>
        cases hact
        have hgrows : Grows shared ((shared.write run plan fetched landed).confirm run plan confirmed) :=
          ⟨fun _ hmem => (grows_confirm plan confirmed).fetches ((grows_write plan fetched landed).fetches hmem),
            fun _ hmem => (grows_confirm plan confirmed).confirmed ((grows_write plan fetched landed).confirmed hmem)⟩
        refine ⟨hgrows, @Truthful.confirm _ run (htruthful.write hcomplete hfetched landed) plan fetched _ fun hconfirmed => ?_,
          (h.mono hgrows).refresh ((hrun.mono hgrows).note fun hconfirmed => ?_) fun hat => ?_⟩
        · have hlanded : landed = true := by
            rw [hconfirmed] at hanswer
            simpa using hanswer
          rw [Shared.write, if_pos hlanded]
          exact List.mem_append_right _ (List.mem_singleton_self _)
        · rw [Shared.confirm, if_pos hconfirmed]
          exact List.mem_append_right _ (List.mem_singleton_self _)
        · rw [hstage] at hat
          cases hat
          rfl
    · cases hact
  | marked landed confirmed =>
    simp only [act] at hact
    split at hact
    · next run hstage =>
      rw [hstage] at hat
      have hcompleted : Completed (shared.mark run landed) run.key :=
        (grows_mark landed).completed (completed_of_marking hat)
      split at hact
      · cases hact
      · split at hact
        · cases hact
          refine ⟨grows_mark landed, htruthful.mark hat landed, trivial, fun _ => ?_, fun hreleasing => ?_⟩
          · exact .inr ⟨run.key, .inr ⟨run, rfl, rfl⟩, hcompleted⟩
          · cases hreleasing
            exact .inr hcompleted
        · cases hact
          exact ⟨grows_mark landed, htruthful.mark hat landed, .retries trivial⟩
    · cases hact
  | released landed =>
    simp only [act] at hact
    split at hact
    · next run failed hstage =>
      cases hact
      refine ⟨grows_release landed, htruthful.release landed, ?_⟩
      split
      · exact .fails
      · next hreturns =>
        rw [Bool.not_eq_true] at hreturns
        rw [hreturns] at hstage
        exact .returns ((h.mono (grows_release landed)).ending hstage)
    · cases hact
  | interrupted landed =>
    have hgrows := @grows_land shared worker.stage landed
    have hland := htruthful.land hat landed
    simp only [act] at hact
    split at hact
    · cases hact
    · cases hact
    · cases hact
      exact ⟨hgrows, hland, .fails⟩
    · cases hact
      exact ⟨hgrows, hland, .fails⟩
    · cases hact
      exact ⟨hgrows, hland, .fails⟩
    all_goals
      next hstage =>
      cases hact
      refine ⟨hgrows, hland, (h.mono hgrows).moves trivial (fun hrun => ?_) fun _ hreleasing => by cases hreleasing⟩
      rw [hstage] at hrun
      cases hrun
      exact ⟨_, rfl, rfl⟩
  | cancelled landed =>
    simp only [act] at hact
    split at hact
    · cases hact
    · cases hact
      exact ⟨grows_land _ landed, htruthful.land hat landed, (h.mono (grows_land _ landed)).moves trivial
        (fun hrun => ⟨_, hrun, rfl⟩) fun _ hreleasing => by cases hreleasing⟩

/-! ## What the workers do -/

/-- **What holds of the workers and the stores.** -/
structure AllOk (s : Prefetching) : Prop where
  truthful : Truthful s.shared
  workers : ∀ id, WorkerOk s.shared (s.workers id)

theorem allOk_fresh : AllOk .fresh where
  truthful := ⟨fun h => (by cases h), fun h => (by cases h), fun h => (by cases h), fun h => (by cases h)⟩
  workers _ := ⟨trivial, fun h => (by cases h), fun h => (by cases h)⟩

/-- **A step keeps what holds.** -/
theorem AllOk.step {s t : Prefetching} {action : Action} (h : AllOk s) (hstep : step settings s action = some t) :
    AllOk t := by
  cases action with
  | worker id event =>
    obtain ⟨⟨next, shared'⟩, hact, rfl⟩ := Option.map_eq_some_iff.mp hstep
    obtain ⟨hgrows, htruthful, hworker⟩ := act_keeps hact (h.workers id) h.truthful
    refine ⟨htruthful, fun other => ?_⟩
    dsimp only
    by_cases hother : other = id
    · subst hother
      rw [Function.update_self]
      exact hworker
    · rw [Function.update_of_ne hother]
      exact (h.workers other).mono hgrows
  | expire lease =>
    cases hstep
    have hgrows : Grows s.shared (s.shared.expire lease) := ⟨List.Subset.refl _, List.Subset.refl _⟩
    exact ⟨⟨h.truthful.marks, h.truthful.markers, h.truthful.confirmed, h.truthful.snapshots⟩,
      fun other => (h.workers other).mono hgrows⟩
  | forget marker =>
    cases hstep
    have hgrows : Grows s.shared (s.shared.forget marker) := ⟨List.Subset.refl _, List.Subset.refl _⟩
    refine ⟨⟨h.truthful.marks, fun {key} hmarker => ?_, h.truthful.confirmed, h.truthful.snapshots⟩,
      fun other => (h.workers other).mono hgrows⟩
    by_cases hkey : key = marker
    · subst hkey
      have hlost : (s.shared.forget key).markers key = false := Function.update_self _ _ _
      rw [hlost] at hmarker
      cases hmarker
    · have hkept : (s.shared.forget marker).markers key = s.shared.markers key := Function.update_of_ne hkey _ _
      rw [hkept] at hmarker
      exact h.truthful.markers hmarker

/-- **Prefetch marks a day complete only when it is**: in every run of any number of workers, the stores tell the truth,
and a worker keeps retrying. -/
theorem prefetch_truthful {s : Prefetching} (h : (machine settings).Reach Machine.free s) :
    Truthful s.shared ∧ ∀ id, KeepsRetrying s.shared (s.workers id) := by
  have hok : AllOk s := h.invariant allOk_fresh fun hall _ hstep => hall.step hstep
  refine ⟨hok.truthful, fun id hattempted hnone => ?_⟩
  obtain hretry | ⟨key, hkey, hcompleted⟩ := (hok.workers id).retry hattempted
  · exact hretry
  · exact absurd hcompleted (hnone key hkey)

/-! ## Two workers -/

/-- Two workers of one tenant, whose night begins at two. -/
def nightly : Settings :=
  ⟨fun _ => "tenant-1", fun _ => 2, true⟩

/-- A complete fetch. -/
def completeFetch : Fetched :=
  ⟨[], true⟩

/-- The lease of the first worker expires while it fetches. The second one refreshes as well and marks the day, and the
write of the first one is not confirmed. -/
def overlappingRun : List Action :=
  [.worker 0 (.begin "2026-03-01" 3), .worker 0 (.prepared true), .worker 0 (.leased true true), .worker 0 (.looked true),
    .expire ⟨"tenant-1", "2026-03-01"⟩, .worker 1 (.begin "2026-03-01" 3), .worker 1 (.prepared true),
    .worker 1 (.leased true true), .worker 1 (.looked true), .worker 0 (.fetched (some completeFetch)),
    .worker 1 (.fetched (some completeFetch)), .worker 1 (.wrote true true), .worker 0 (.wrote true false),
    .worker 1 (.fetched (some completeFetch)), .worker 1 (.wrote true true), .worker 1 (.marked true true),
    .worker 1 (.released true), .worker 0 (.interrupted false), .worker 0 (.released true)]

/-- Two workers whose runs overlap. -/
theorem prefetch_truthful_overlapping : Truthful ((machine nightly).after overlappingRun).shared
    ∧ ∀ id, KeepsRetrying ((machine nightly).after overlappingRun).shared (((machine nightly).after overlappingRun).workers id) :=
  prefetch_truthful (Machine.reach_after overlappingRun rfl)

/-- **A worker that has not run yet** has no retry condition, although nothing has completed. -/
theorem fresh_without_retry :
    ¬∀ (settings : Settings) (s : Prefetching), (machine settings).Reach Machine.free s → ∀ id,
      (∀ key, ¬Completed s.shared key) → (s.workers id).retryNeeded = true := by
  intro h
  have hretry := h nightly .fresh .init 0 fun key ⟨run, hrun⟩ =>
    absurd (hrun ⟨"ScjdQuery", []⟩ (by decide)) List.not_mem_nil
  cases hretry

end Prefetch
