import FactoryAgent.Lib.Dict
import FactoryAgent.Lib.LocalTime
import FactoryAgent.Lib.Machine
import FactoryAgent.Lib.Months
import FactoryAgent.Lib.IsoDateTime
import Mathlib.Tactic.Linarith

/-!
# The partitions of the metering archive

`UsagePartitionMaintainer` of `statistics/partitions.py`, with the function `factory_agent_create_partition` of the
database and the months that the migration seeds. The archive is partitioned by month, in the time zone of the sessions
of the database, and takes only what falls into a partition that is there; the maintainer reads its clock in UTC. A pass
makes this month and the next one, one statement after the other. The passes of several workers interleave; a connection
or a statement may fail, before it went through or after, and a pass may stop anywhere.

What a pass reports as ensured is there from then on. The archive takes every event since the migration in whose month,
or in the month before, one pass had no failure, although the months of the database begin up to a day before or after
those of the clock (`maintained_run`).
-/

namespace Statistics.Partitions

open Calendar LocalTime

/-! ## Targets -/

/-- `_month_start` -/
def monthStart (value : Date) : Date where
  year := value.year
  month := value.month
  day := 1
  valid := ⟨value.valid.1, value.valid.2.1, Nat.le_refl 1,
    Nat.le_trans (by decide) (le_daysInMonth value.year value.valid.2.1.1 value.valid.2.1.2)⟩

/-- **`_next_month`**; `none` is the `ValueError` after the last month of the calendar. -/
def nextMonth (value : Date) : Option Date :=
  if value.month = 12 then Date.of? (value.year + 1) 1 1 else Date.of? value.year (value.month + 1) 1

/-- `partition_name`. The year is written without zeros before it. -/
def partitionName (month : Date) : String :=
  "usage_event_" ++ String.ofList ((Nat.repr month.year).toList ++ IsoDate.padded 2 month.month)

/-- **`PartitionTarget`** -/
structure PartitionTarget where
  month : Date
  name : String
  deriving DecidableEq, Repr

/-- The target of a month. -/
def targetOf (month : Date) : PartitionTarget :=
  ⟨month, partitionName month⟩

/-- **`targets`** -/
def targets (reference : Date) : Option (List PartitionTarget) :=
  (nextMonth (monthStart reference)).map fun next => [targetOf (monthStart reference), targetOf next]

/-- The month of a day begins in it. -/
theorem monthOf_monthStart (value : Date) : monthOf (monthStart value) = monthOf value := rfl

/-- **The next month** comes after this one. -/
theorem monthOf_nextMonth {value next : Date} (h : nextMonth value = some next) : monthOf next = monthOf value + 1 := by
  have hvalid := value.valid
  unfold nextMonth at h
  unfold monthOf
  split_ifs at h with hlast
  · obtain ⟨hyear, hmonth, -⟩ := Date.of?_eq_some.mp h
    omega
  · obtain ⟨hyear, hmonth, -⟩ := Date.of?_eq_some.mp h
    omega

/-- The targets are those of this month and of the next one. -/
theorem mem_targets {reference : Date} {list : List PartitionTarget} (h : targets reference = some list) :
    (∀ target ∈ list, monthOf target.month = monthOf reference ∨ monthOf target.month = monthOf reference + 1)
      ∧ ∀ index, index = monthOf reference ∨ index = monthOf reference + 1 →
        ∃ target ∈ list, monthOf target.month = index := by
  obtain ⟨next, hnext, rfl⟩ := Option.map_eq_some_iff.mp h
  have hmonth : monthOf next = monthOf reference + 1 := monthOf_nextMonth hnext
  refine ⟨fun target htarget => ?_, fun index hindex => ?_⟩
  · rcases List.mem_cons.mp htarget with rfl | htarget
    · exact .inl rfl
    · rw [List.mem_singleton.mp htarget]
      exact .inr hmonth
  · rcases hindex with rfl | rfl
    · exact ⟨_, List.mem_cons_self, rfl⟩
    · exact ⟨_, List.mem_cons_of_mem _ List.mem_cons_self, hmonth⟩

/-! ## The database -/

/-- **A partition**, from its lower bound to before its upper one. -/
structure Partition where
  name : String
  lower : Int
  upper : Int
  deriving DecidableEq, Repr

/-- The instant at which a month begins in a zone: midnight of its first day. -/
def monthBegins (zone : Zone) (index : Nat) : Int :=
  zone.toInstant (((firstOrdinal index : Int) - 719163) * dayLength)

/-- `'usage_event_' || to_char(target_month, 'YYYYMM')` -/
def tableName (index : Nat) : String :=
  "usage_event_" ++ String.ofList (IsoDate.padded 4 (index / 12) ++ IsoDate.padded 2 (index % 12 + 1))

/-- The partition of a month. -/
def partitionOf (zone : Zone) (index : Nat) : Partition :=
  ⟨tableName index, monthBegins zone index, monthBegins zone (index + 1)⟩

/-- **`factory_agent_create_partition`**, `CREATE TABLE IF NOT EXISTS … PARTITION OF`; `none` is the error of a
partition that would overlap another one. -/
def createPartition (zone : Zone) (partitions : List Partition) (index : Nat) : Option (List Partition) :=
  let created := partitionOf zone index
  if partitions.any (·.name = created.name) then some partitions
  else if partitions.any (fun p => decide (p.lower < created.upper ∧ created.lower < p.upper)) then none
  else some (partitions ++ [created])

/-- Whether the archive takes an event of an instant. -/
def accepts (partitions : List Partition) (occurredAt : Int) : Bool :=
  partitions.any fun p => decide (p.lower ≤ occurredAt ∧ occurredAt < p.upper)

/-- The name in a report is that of the table, from the year 1000 on. -/
theorem partitionName_eq {month : Date} (h : 1000 ≤ month.year) : partitionName month = tableName (monthOf month) := by
  have hlength : (Nat.repr month.year).toList.length = 4 := by
    have hvalid := month.valid.1.2
    have hle := (Nat.length_repr_le_iff (n := month.year) (k := 4) (by decide)).mpr (by omega)
    have hgt : ¬ (Nat.repr month.year).length ≤ 3 := fun hle =>
      absurd ((Nat.length_repr_le_iff (by decide)).mp hle) (by omega)
    rw [String.length_toList]
    omega
  have hfour : IsoDate.padded 4 month.year = (Nat.repr month.year).toList := by
    rw [IsoDate.padded, hlength]
    rfl
  rw [partitionName, tableName, (monthOf_parts month).1, (monthOf_parts month).2, hfour]

/-- **The names of tables tell the months.** -/
theorem tableName_injective {a b : Nat} (h : tableName a = tableName b) : a = b := by
  have hchars := congrArg String.toList (String.append_right_inj _ |>.mp h)
  rw [String.toList_ofList, String.toList_ofList] at hchars
  have htwo : ∀ n : Nat, (IsoDate.padded 2 (n % 12 + 1)).length = 2 := fun n =>
    DateTime.length_padded (by decide) (by omega)
  obtain ⟨hyears, hmonths⟩ := List.append_inj' hchars ((htwo a).trans (htwo b).symm)
  have hyear := congrArg IsoDate.digits? hyears
  have hmonth := congrArg IsoDate.digits? hmonths
  rw [DateTime.digits?_padded, DateTime.digits?_padded, Option.some.injEq] at hyear hmonth
  omega

/-! ## Passes -/

/-- Why an alert was raised. -/
inductive Reason where
  | connectFailed
  | createFailed
  deriving DecidableEq, Repr

/-- **`PartitionRun`** -/
structure PartitionRun where
  ensured : List PartitionTarget
  failed : List PartitionTarget
  deriving DecidableEq, Repr

/-- **A pass under way**: the clock it began at, its targets, and what has become of those that are not to come. -/
structure Pass where
  began : Int
  targets : List PartitionTarget
  pending : List PartitionTarget
  ensured : List PartitionTarget
  failed : List PartitionTarget

/-- A pass that has come to its end, and whether an exception ended it. -/
structure Report where
  began : Int
  crashed : Bool
  run : PartitionRun
  deriving DecidableEq

/-- **What comes back of `_create`.** A statement that fails may have gone through. -/
inductive Answer where
  | created
  /-- `DuplicateTable`: another worker was first. -/
  | duplicate
  /-- Another error of the database. -/
  | refused (landed : Bool)
  /-- Another exception. -/
  | crashed (landed : Bool)
  deriving DecidableEq, Repr

/-- **The state**: the clock, the partitions, the passes under way by number, the reports, and the alerts. -/
structure World where
  clock : Int
  partitions : List Partition
  passes : Dict Nat Pass
  reports : List Report
  alerts : List (PartitionTarget × Reason)

/-- What happens. -/
inductive Action where
  | wait (clock : Int)
  /-- `ensure` up to its connection, which may fail. -/
  | start (number : Nat) (connected : Bool)
  /-- `_create` of the next target. -/
  | create (number : Nat) (answer : Answer)
  /-- The end of `ensure`. -/
  | finish (number : Nat)
  deriving DecidableEq, Repr

/-- The partitions after a statement that may have gone through. -/
def landed (zone : Zone) (partitions : List Partition) (index : Nat) : Bool → Option (List Partition)
  | true => createPartition zone partitions index
  | false => some partitions

/-- **One statement of a pass.** An alert that fails is only logged. -/
def create (zone : Zone) (world : World) (number : Nat) (pass : Pass) (target : PartitionTarget)
    (pending : List PartitionTarget) : Answer → Option World
  | .created => (createPartition zone world.partitions (monthOf target.month)).map fun partitions =>
    { world with
      partitions
      passes := world.passes.set number { pass with pending, ensured := pass.ensured ++ [target] } }
  | .duplicate =>
    if world.partitions.any (·.name = tableName (monthOf target.month)) then
      some { world with passes := world.passes.set number { pass with pending, ensured := pass.ensured ++ [target] } }
    else none
  | .refused through => (landed zone world.partitions (monthOf target.month) through).map fun partitions =>
    { world with
      partitions
      passes := world.passes.set number { pass with pending, failed := pass.failed ++ [target] }
      alerts := world.alerts ++ [(target, .createFailed)] }
  | .crashed through => (landed zone world.partitions (monthOf target.month) through).map fun partitions =>
    { world with
      partitions
      passes := world.passes.without [number]
      reports := world.reports ++
        [⟨pass.began, true, ⟨pass.ensured, pass.targets.filter (· ∉ pass.ensured)⟩⟩] }

/-- **One step.** `targets` raises in the last month of the calendar. -/
def step (zone : Zone) (world : World) : Action → Option World
  | .wait clock => if world.clock ≤ clock then some { world with clock } else none
  | .start number connected =>
    match (dayOf? world.clock).bind targets, world.passes.get? number with
    | some targets, none =>
      if connected then
        some { world with passes := world.passes.set number ⟨world.clock, targets, targets, [], []⟩ }
      else
        some { world with
          reports := world.reports ++ [⟨world.clock, false, ⟨[], targets⟩⟩]
          alerts := world.alerts ++ targets.map (·, .connectFailed) }
    | _, _ => none
  | .create number answer =>
    match world.passes.get? number with
    | some pass =>
      match pass.pending with
      | target :: pending => create zone world number pass target pending answer
      | [] => none
    | none => none
  | .finish number =>
    match world.passes.get? number with
    | some pass =>
      if pass.pending = [] then
        some { world with
          passes := world.passes.without [number]
          reports := world.reports ++ [⟨pass.began, false, ⟨pass.ensured, pass.failed⟩⟩] }
      else none
    | none => none

/-- **The maintenance of the archive**, from the migration on, which seeds its month and the next one. -/
def machine (zone : Zone) (migratedAt : Int) (seed : Nat) : Machine World Action where
  init := ⟨migratedAt, [partitionOf zone seed, partitionOf zone (seed + 1)], .empty, [], []⟩
  step := step zone

/-! ## What holds in every run -/

section Runs

variable {zone : Zone} {migratedAt : Int} {seed : Nat} {world : World}

/-- A month has its partition. -/
def World.Has (zone : Zone) (world : World) (index : Nat) : Prop :=
  partitionOf zone index ∈ world.partitions

/-- **What a report says**: what it calls ensured is there, each target is ensured or failed, and what failed was
alerted, unless an exception ended the pass. -/
structure Report.Honest (zone : Zone) (world : World) (report : Report) : Prop where
  ensured : ∀ target ∈ report.run.ensured, world.Has zone (monthOf target.month)
  covered : ∃ day list, dayOf? report.began = some day ∧ targets day = some list ∧
    ∀ target ∈ list, target ∈ report.run.ensured ∨ target ∈ report.run.failed
  alerted : report.crashed = false → ∀ target ∈ report.run.failed, ∃ reason, (target, reason) ∈ world.alerts

/-- **What holds of a pass under way.** -/
structure Pass.Honest (zone : Zone) (world : World) (pass : Pass) : Prop where
  ensured : ∀ target ∈ pass.ensured, world.Has zone (monthOf target.month)
  began : ∃ day, dayOf? pass.began = some day ∧ Partitions.targets day = some pass.targets
  covered : ∀ target ∈ pass.targets, target ∈ pass.ensured ∨ target ∈ pass.failed ∨ target ∈ pass.pending
  alerted : ∀ target ∈ pass.failed, ∃ reason, (target, reason) ∈ world.alerts

/-- **The invariant.** Every partition is that of a month. -/
structure Invariant (zone : Zone) (seed : Nat) (world : World) : Prop where
  months : ∀ partition ∈ world.partitions, ∃ index, 12 ≤ index ∧ partition = partitionOf zone index
  seeds : world.Has zone seed ∧ world.Has zone (seed + 1)
  passes : ∀ number pass, world.passes.get? number = some pass → pass.Honest zone world
  reports : ∀ report ∈ world.reports, report.Honest zone world

/-- **Partitions and alerts are only added.** -/
structure World.Grows (world world' : World) : Prop where
  partitions : world.partitions ⊆ world'.partitions
  alerts : world.alerts ⊆ world'.alerts

/-- What is said of a pass stays true. -/
theorem Pass.Honest.grows {pass : Pass} (h : pass.Honest zone world) {world' : World} (hgrows : world.Grows world') :
    pass.Honest zone world' :=
  ⟨fun target htarget => hgrows.partitions (h.ensured target htarget), h.began, h.covered,
    fun target htarget => (h.alerted target htarget).imp fun _ hreason => hgrows.alerts hreason⟩

/-- What a report says stays true. -/
theorem Report.Honest.grows {report : Report} (h : report.Honest zone world) {world' : World}
    (hgrows : world.Grows world') : report.Honest zone world' :=
  ⟨fun target htarget => hgrows.partitions (h.ensured target htarget), h.covered,
    fun hcrashed target htarget => (h.alerted hcrashed target htarget).imp fun _ hreason => hgrows.alerts hreason⟩

/-- **A statement that goes through** leaves the partition of its month, and those that were there. -/
theorem createPartition_spec {partitions partitions' : List Partition} {index : Nat}
    (hmonths : ∀ partition ∈ partitions, ∃ index, 12 ≤ index ∧ partition = partitionOf zone index) (hindex : 12 ≤ index)
    (h : createPartition zone partitions index = some partitions') :
    partitions ⊆ partitions' ∧ partitionOf zone index ∈ partitions'
      ∧ ∀ partition ∈ partitions', ∃ index, 12 ≤ index ∧ partition = partitionOf zone index := by
  unfold createPartition at h
  dsimp only at h
  split_ifs at h with hname hoverlap
  · cases h
    refine ⟨List.Subset.refl _, ?_, hmonths⟩
    -- the table of this name is that of this month
    obtain ⟨partition, hmem, hsame⟩ := List.any_eq_true.mp hname
    rw [decide_eq_true_eq] at hsame
    obtain ⟨other, -, rfl⟩ := hmonths partition hmem
    rwa [← tableName_injective hsame]
  · cases h
    refine ⟨List.subset_append_left _ _, List.mem_append_right _ (List.mem_singleton.mpr rfl),
      fun partition hmem => ?_⟩
    rcases List.mem_append.mp hmem with hold | hnew
    · exact hmonths partition hold
    · exact ⟨index, hindex, List.mem_singleton.mp hnew⟩

/-- A statement that failed has added what it says, or nothing. -/
theorem landed_spec {partitions partitions' : List Partition} {index : Nat} {through : Bool}
    (hmonths : ∀ partition ∈ partitions, ∃ index, 12 ≤ index ∧ partition = partitionOf zone index) (hindex : 12 ≤ index)
    (h : landed zone partitions index through = some partitions') :
    partitions ⊆ partitions' ∧ ∀ partition ∈ partitions', ∃ index, 12 ≤ index ∧ partition = partitionOf zone index := by
  cases through with
  | true =>
    obtain ⟨hsubset, -, hafter⟩ := createPartition_spec hmonths hindex h
    exact ⟨hsubset, hafter⟩
  | false =>
    cases h
    exact ⟨List.Subset.refl _, hmonths⟩

/-- **The invariant is kept** where partitions and alerts are only added and what is new is honest. -/
theorem Invariant.grow (h : Invariant zone seed world) {world' : World} (hgrows : world.Grows world')
    (hmonths : ∀ partition ∈ world'.partitions, ∃ index, 12 ≤ index ∧ partition = partitionOf zone index)
    (hpasses : ∀ number pass, world'.passes.get? number = some pass →
      world.passes.get? number = some pass ∨ pass.Honest zone world')
    (hreports : ∀ report ∈ world'.reports, report ∈ world.reports ∨ report.Honest zone world') :
    Invariant zone seed world' where
  months := hmonths
  seeds := ⟨hgrows.partitions h.seeds.1, hgrows.partitions h.seeds.2⟩
  passes number pass hpass := (hpasses number pass hpass).elim (fun hold => (h.passes number pass hold).grows hgrows) id
  reports report hreport := (hreports report hreport).elim (fun hold => (h.reports report hold).grows hgrows) id

/-- Which passes there are after one was set. -/
theorem get?_setPass (number : Nat) (pass : Pass) {other : Nat} {found : Pass}
    (h : (world.passes.set number pass).get? other = some found) :
    found = pass ∨ world.passes.get? other = some found := by
  rw [Dict.get?_set] at h
  split_ifs at h
  · exact .inl (Option.some.inj h).symm
  · exact .inr h

/-- Which passes there are after one has come to its end. -/
theorem get?_withoutPass {number other : Nat} {found : Pass}
    (h : (world.passes.without [number]).get? other = some found) : world.passes.get? other = some found := by
  rw [Dict.get?_without_singleton] at h
  split_ifs at h
  exact h

/-- Which reports there are after one was added. -/
theorem mem_reports {report added : Report} (h : report ∈ world.reports ++ [added]) :
    report = added ∨ report ∈ world.reports :=
  (List.mem_append.mp h).elim .inr fun hnew => .inl (List.mem_singleton.mp hnew)

/-- A target of a pass that was taken up is no longer to come. -/
theorem Pass.Honest.next {pass : Pass} (h : pass.Honest zone world) {target : PartitionTarget}
    {pending : List PartitionTarget} (hpending : pass.pending = target :: pending) {other : PartitionTarget}
    (hother : other ∈ pass.targets) :
    other ∈ pass.ensured ∨ other ∈ pass.failed ∨ other = target ∨ other ∈ pending := by
  have hcovered := h.covered other hother
  rwa [hpending, List.mem_cons] at hcovered

/-- A target that was ensured. -/
theorem Invariant.ensure (h : Invariant zone seed world) {number : Nat} {pass : Pass} {target : PartitionTarget}
    {pending : List PartitionTarget} {partitions : List Partition} (hpass : pass.Honest zone world)
    (hpending : pass.pending = target :: pending) (hsubset : world.partitions ⊆ partitions)
    (hthere : partitionOf zone (monthOf target.month) ∈ partitions)
    (hmonths : ∀ partition ∈ partitions, ∃ index, 12 ≤ index ∧ partition = partitionOf zone index) :
    Invariant zone seed { world with
      partitions
      passes := world.passes.set number { pass with pending, ensured := pass.ensured ++ [target] } } := by
  refine h.grow ⟨hsubset, List.Subset.refl _⟩ hmonths (fun other found hfound => ?_) fun _ hreport => .inl hreport
  refine (get?_setPass number _ hfound).symm.imp_right ?_
  rintro rfl
  refine ⟨fun done hdone => ?_, hpass.began, fun other hother => ?_, hpass.alerted⟩
  · rcases List.mem_append.mp hdone with hold | hnew
    · exact hsubset (hpass.ensured done hold)
    · rw [List.mem_singleton.mp hnew]
      exact hthere
  · rcases hpass.next hpending hother with hensured | hfailed | rfl | hlater
    · exact .inl (List.mem_append_left _ hensured)
    · exact .inr (.inl hfailed)
    · exact .inl (List.mem_append_right _ (List.mem_singleton.mpr rfl))
    · exact .inr (.inr hlater)

/-- A target that was refused. -/
theorem Invariant.refuse (h : Invariant zone seed world) {number : Nat} {pass : Pass} {target : PartitionTarget}
    {pending : List PartitionTarget} {partitions : List Partition} (hpass : pass.Honest zone world)
    (hpending : pass.pending = target :: pending) (hsubset : world.partitions ⊆ partitions)
    (hmonths : ∀ partition ∈ partitions, ∃ index, 12 ≤ index ∧ partition = partitionOf zone index) :
    Invariant zone seed { world with
      partitions
      passes := world.passes.set number { pass with pending, failed := pass.failed ++ [target] }
      alerts := world.alerts ++ [(target, .createFailed)] } := by
  refine h.grow ⟨hsubset, List.subset_append_left _ _⟩ hmonths (fun other found hfound => ?_)
    fun _ hreport => .inl hreport
  refine (get?_setPass number _ hfound).symm.imp_right ?_
  rintro rfl
  refine ⟨fun done hdone => hsubset (hpass.ensured done hdone), hpass.began, fun other hother => ?_,
    fun other hother => ?_⟩
  · rcases hpass.next hpending hother with hensured | hfailed | rfl | hlater
    · exact .inl hensured
    · exact .inr (.inl (List.mem_append_left _ hfailed))
    · exact .inr (.inl (List.mem_append_right _ (List.mem_singleton.mpr rfl)))
    · exact .inr (.inr hlater)
  · rcases List.mem_append.mp hother with hold | hnew
    · exact (hpass.alerted other hold).imp fun _ hreason => List.mem_append_left _ hreason
    · rw [List.mem_singleton.mp hnew]
      exact ⟨.createFailed, List.mem_append_right _ (List.mem_singleton.mpr rfl)⟩

/-- A pass that an exception ended. -/
theorem Invariant.crash (h : Invariant zone seed world) {number : Nat} {pass : Pass} {partitions : List Partition}
    (hpass : pass.Honest zone world) (hsubset : world.partitions ⊆ partitions)
    (hmonths : ∀ partition ∈ partitions, ∃ index, 12 ≤ index ∧ partition = partitionOf zone index) :
    Invariant zone seed { world with
      partitions
      passes := world.passes.without [number]
      reports := world.reports ++ [⟨pass.began, true, ⟨pass.ensured, pass.targets.filter (· ∉ pass.ensured)⟩⟩] } := by
  refine h.grow ⟨hsubset, List.Subset.refl _⟩ hmonths (fun other found hfound => .inl (get?_withoutPass hfound))
    fun report hreport => ?_
  refine (mem_reports hreport).symm.imp_right ?_
  rintro rfl
  obtain ⟨day, hday, htargets⟩ := hpass.began
  refine ⟨fun done hdone => hsubset (hpass.ensured done hdone),
    ⟨day, pass.targets, hday, htargets, fun target htarget => ?_⟩, fun hcrashed => Bool.noConfusion hcrashed⟩
  by_cases hensured : target ∈ pass.ensured
  · exact .inl hensured
  · exact .inr (List.mem_filter.mpr ⟨htarget, decide_eq_true hensured⟩)

/-- **Each step keeps the invariant.** -/
theorem Invariant.step (h : Invariant zone seed world) {action : Action} {world' : World}
    (hstep : step zone world action = some world') : Invariant zone seed world' := by
  cases action with
  | wait clock =>
    rw [Partitions.step] at hstep
    split_ifs at hstep
    cases hstep
    exact h.grow ⟨List.Subset.refl _, List.Subset.refl _⟩ h.months (fun _ _ hpass => .inl hpass)
      fun _ hreport => .inl hreport
  | start number connected =>
    rw [Partitions.step] at hstep
    split at hstep
    · next list htargets hfresh =>
      obtain ⟨day, hday, hlist⟩ := Option.bind_eq_some_iff.mp htargets
      split_ifs at hstep
      · cases hstep
        refine h.grow ⟨List.Subset.refl _, List.Subset.refl _⟩ h.months (fun other found hfound => ?_)
          fun _ hreport => .inl hreport
        refine (get?_setPass number _ hfound).symm.imp_right ?_
        rintro rfl
        exact ⟨fun _ hdone => absurd hdone List.not_mem_nil, ⟨day, hday, hlist⟩, fun _ htarget => .inr (.inr htarget),
          fun _ hfailed => absurd hfailed List.not_mem_nil⟩
      · cases hstep
        refine h.grow ⟨List.Subset.refl _, List.subset_append_left _ _⟩ h.months (fun _ _ hpass => .inl hpass)
          fun report hreport => ?_
        refine (mem_reports hreport).symm.imp_right ?_
        rintro rfl
        refine ⟨fun _ hdone => absurd hdone List.not_mem_nil, ⟨day, list, hday, hlist, fun _ htarget => .inr htarget⟩,
          fun _ target htarget => ⟨.connectFailed, List.mem_append_right _ ?_⟩⟩
        exact List.mem_map.mpr ⟨target, htarget, rfl⟩
    · cases hstep
  | create number answer =>
    rw [Partitions.step] at hstep
    split at hstep
    · next pass hpass =>
      have hhonest := h.passes number pass hpass
      split at hstep
      · next target pending hpending =>
        cases answer with
        | created =>
          obtain ⟨partitions, hcreated, rfl⟩ := Option.map_eq_some_iff.mp hstep
          obtain ⟨hsubset, hthere, hmonths⟩ := createPartition_spec h.months (twelve_le_monthOf _) hcreated
          exact h.ensure hhonest hpending hsubset hthere hmonths
        | duplicate =>
          rw [create] at hstep
          split_ifs at hstep with hname
          cases hstep
          have hcreated : createPartition zone world.partitions (monthOf target.month) = some world.partitions :=
            if_pos hname
          obtain ⟨hsubset, hthere, hmonths⟩ := createPartition_spec h.months (twelve_le_monthOf _) hcreated
          exact h.ensure hhonest hpending hsubset hthere hmonths
        | refused through =>
          obtain ⟨partitions, hlanded, rfl⟩ := Option.map_eq_some_iff.mp hstep
          obtain ⟨hsubset, hmonths⟩ := landed_spec h.months (twelve_le_monthOf _) hlanded
          exact h.refuse hhonest hpending hsubset hmonths
        | crashed through =>
          obtain ⟨partitions, hlanded, rfl⟩ := Option.map_eq_some_iff.mp hstep
          obtain ⟨hsubset, hmonths⟩ := landed_spec h.months (twelve_le_monthOf _) hlanded
          exact h.crash hhonest hsubset hmonths
      · cases hstep
    · cases hstep
  | finish number =>
    rw [Partitions.step] at hstep
    split at hstep
    · next pass hpass =>
      have hhonest := h.passes number pass hpass
      split_ifs at hstep with hpending
      cases hstep
      refine h.grow ⟨List.Subset.refl _, List.Subset.refl _⟩ h.months
        (fun other found hfound => .inl (get?_withoutPass hfound)) fun report hreport => ?_
      refine (mem_reports hreport).symm.imp_right ?_
      rintro rfl
      obtain ⟨day, hday, htargets⟩ := hhonest.began
      refine ⟨hhonest.ensured, ⟨day, pass.targets, hday, htargets, fun target htarget => ?_⟩, fun _ => hhonest.alerted⟩
      have hcovered := hhonest.covered target htarget
      rw [hpending] at hcovered
      exact hcovered.imp_right fun hrest => hrest.elim id fun hnone => absurd hnone List.not_mem_nil
    · cases hstep

/-- The invariant holds in every reachable state. -/
theorem Invariant.of_reach (hseed : 12 ≤ seed) (h : (machine zone migratedAt seed).Reach Machine.free world) :
    Invariant zone seed world := by
  refine h.invariant ⟨fun partition hmem => ?_, ⟨List.mem_cons_self, List.mem_cons_of_mem _ List.mem_cons_self⟩,
    fun number pass hpass => ?_, fun report hreport => ?_⟩ fun hinvariant _ hstep => hinvariant.step hstep
  · rcases List.mem_cons.mp hmem with rfl | hmem
    · exact ⟨seed, hseed, rfl⟩
    · exact ⟨seed + 1, Nat.le_succ_of_le hseed, List.mem_singleton.mp hmem⟩
  · cases hpass
  · cases hreport

/-! ## What the archive takes -/

/-- **The months of the sessions of the database begin within a day of those of the clock.** -/
def WithinADay (zone : Zone) : Prop :=
  ∀ wall, -dayLength < zone.wallOffset wall ∧ zone.wallOffset wall < dayLength

/-- **Months begin one after the other** in the zone of the database, too. -/
theorem monthBegins_lt (hzone : WithinADay zone) {a b : Nat} (ha : 12 ≤ a) (h : a < b) :
    monthBegins zone a < monthBegins zone b := by
  have hdays := firstOrdinal_add_le ha h
  have hfirst := hzone (((firstOrdinal a : Int) - 719163) * dayLength)
  have hsecond := hzone (((firstOrdinal b : Int) - 719163) * dayLength)
  unfold monthBegins Zone.toInstant
  unfold dayLength at *
  omega

/-- Months begin in their order. -/
theorem monthBegins_le (hzone : WithinADay zone) {a b : Nat} (ha : 12 ≤ a) (h : a ≤ b) :
    monthBegins zone a ≤ monthBegins zone b := by
  rcases Nat.lt_or_eq_of_le h with hlt | rfl
  · exact Int.le_of_lt (monthBegins_lt hzone ha hlt)
  · exact Int.le_refl _

/-- An event whose month has its partition is taken. -/
theorem World.Has.accepts {index : Nat} (h : world.Has zone index) {occurredAt : Int}
    (hmonth : monthBegins zone index ≤ occurredAt ∧ occurredAt < monthBegins zone (index + 1)) :
    accepts world.partitions occurredAt = true :=
  List.any_eq_true.mpr ⟨partitionOf zone index, h, decide_eq_true hmonth⟩

/-- **No statement of a pass is refused for an overlap.** -/
theorem Invariant.createPartition_isSome (h : Invariant zone seed world) (hzone : WithinADay zone) {index : Nat}
    (hindex : 12 ≤ index) : (createPartition zone world.partitions index).isSome = true := by
  unfold createPartition
  dsimp only
  split_ifs with hname hoverlap
  · rfl
  · -- a partition of another month is before or after
    obtain ⟨partition, hmem, hboth⟩ := List.any_eq_true.mp hoverlap
    rw [decide_eq_true_eq] at hboth
    obtain ⟨other, hother, rfl⟩ := h.months partition hmem
    obtain ⟨hbelow, habove⟩ := hboth
    rcases Nat.lt_trichotomy other index with hlt | rfl | hgt
    · exact absurd habove (Int.not_lt.mpr (monthBegins_le hzone (Nat.le_succ_of_le hother) hlt))
    · exact absurd (List.any_eq_true.mpr ⟨_, hmem, decide_eq_true rfl⟩) hname
    · exact absurd hbelow (Int.not_lt.mpr (monthBegins_le hzone (Nat.le_succ_of_le hindex) hgt))
  · rfl

/-- A pass that began in a month and reported no failure. -/
def CleanIn (world : World) (index : Nat) : Prop :=
  ∃ report ∈ world.reports, report.run.failed = [] ∧ ∃ day, dayOf? report.began = some day ∧ monthOf day = index

/-- **A pass without a failure** leaves the partitions of its month and of the next one. -/
theorem Invariant.has_of_clean (h : Invariant zone seed world) {begun index : Nat} (hclean : CleanIn world begun)
    (hindex : index = begun ∨ index = begun + 1) : world.Has zone index := by
  obtain ⟨report, hreport, hfailed, day, hday, rfl⟩ := hclean
  have hhonest := h.reports report hreport
  obtain ⟨began, list, hbegan, hlist, hcovered⟩ := hhonest.covered
  cases hday.symm.trans hbegan
  obtain ⟨target, htarget, rfl⟩ := (mem_targets hlist).2 index hindex
  rcases hcovered target htarget with hensured | hnone
  · exact hhonest.ensured target hensured
  · rw [hfailed] at hnone
    cases hnone

/-- **The maintenance of the archive.** In every run, with any interleaving of passes and of their failures: an event
since the migration is taken where its month is one of the seeds, or a pass of this month or of the one before reported
no failure; whatever a report calls ensured is there, each of its targets is ensured or failed, and each that failed was
alerted unless an exception ended the pass; and no statement is refused for an overlap. -/
theorem maintained_run (hzone : WithinADay zone) (hseed : 12 ≤ seed) (hmigrated : monthBegins zone seed ≤ migratedAt)
    (h : (machine zone migratedAt seed).Reach Machine.free world) :
    (∀ occurredAt index, 12 ≤ index → migratedAt ≤ occurredAt →
        monthBegins zone index ≤ occurredAt → occurredAt < monthBegins zone (index + 1) →
        (index ≤ seed + 1 ∨ CleanIn world index ∨ ∃ before, before + 1 = index ∧ CleanIn world before) →
        accepts world.partitions occurredAt = true)
      ∧ (∀ report ∈ world.reports, report.Honest zone world)
      ∧ ∀ index, 12 ≤ index → (createPartition zone world.partitions index).isSome = true := by
  have hinvariant := Invariant.of_reach hseed h
  refine ⟨fun occurredAt index hindex hsince hlower hupper hkept => ?_, hinvariant.reports,
    fun index hindex => hinvariant.createPartition_isSome hzone hindex⟩
  refine World.Has.accepts ?_ ⟨hlower, hupper⟩
  rcases hkept with hseeded | hclean | ⟨before, rfl, hclean⟩
  · -- the event is not before the month of the migration
    have hge : seed ≤ index := by
      by_contra hlt
      have hle : monthBegins zone (index + 1) ≤ monthBegins zone seed :=
        monthBegins_le hzone (Nat.le_succ_of_le hindex) (Nat.lt_of_not_le hlt)
      omega
    rcases Nat.lt_or_eq_of_le hge with hlt | rfl
    · rw [Nat.le_antisymm hseeded hlt]
      exact hinvariant.seeds.2
    · exact hinvariant.seeds.1
  · exact hinvariant.has_of_clean hclean (.inl rfl)
  · exact hinvariant.has_of_clean hclean (.inr rfl)

end Runs

/-! ## Two workers -/

/-- October 2026 in the zone of the factory. -/
def october : Nat := 12 * 2026 + 9

/-- The clock at the beginning of November 2026. -/
def november : Int := 1793491200000000

/-- The first of November 2026. -/
def firstOfNovember : Date := ⟨2026, 11, 1, by decide⟩

/-- In November one worker is refused its second statement, which another one then makes. -/
def twoWorkers : List Action :=
  [.wait november, .start 0 true, .start 1 true, .create 0 .created, .create 1 .duplicate, .create 0 (.refused false),
    .create 1 .created, .finish 1, .finish 0]

/-- An event of December is taken, since one pass of November went well. -/
theorem maintained_run_december :
    accepts ((machine (.fixed 28800000000) (november - 86400000000) october).after twoWorkers).partitions
        (november + 31 * 86400000000) = true
      ∧ ((machine (.fixed 28800000000) (november - 86400000000) october).after twoWorkers).alerts.length = 1 := by
  have hrun : ((machine (.fixed 28800000000) (november - 86400000000) october).run Machine.free
      (machine (.fixed 28800000000) (november - 86400000000) october).init twoWorkers).isSome = true := by
    decide +kernel
  have hzone : WithinADay (.fixed 28800000000) := fun _ =>
    ⟨show -dayLength < (28800000000 : Int) by decide, show (28800000000 : Int) < dayLength by decide⟩
  have hclean : CleanIn ((machine (.fixed 28800000000) (november - 86400000000) october).after twoWorkers)
      (12 * 2026 + 10) :=
    ⟨⟨november, false, ⟨[targetOf firstOfNovember, targetOf ⟨2026, 12, 1, by decide⟩], []⟩⟩, by decide +kernel, rfl,
      firstOfNovember, by decide +kernel, rfl⟩
  have htaken := (maintained_run hzone (by decide) (by decide +kernel) (Machine.reach_after twoWorkers hrun)).1
    (november + 31 * 86400000000) (12 * 2026 + 11) (by decide) (by decide) (by decide +kernel) (by decide +kernel)
    (.inr (.inr ⟨_, rfl, hclean⟩))
  exact ⟨htaken, by decide +kernel⟩

end Statistics.Partitions
