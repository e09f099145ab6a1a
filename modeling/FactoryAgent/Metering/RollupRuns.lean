import FactoryAgent.Lib.Machine
import FactoryAgent.Metering.Rollup

/-!
# Roll-up over runs

The value that a bucket stores is the one of the last run that wrote it, computed from the facts of the
bucket that the window of that run held. So it is the value of *all* facts of the bucket as long as no
run finds some of them inside its window and others before it (`UsageWorld.Cuts`). A run that does cut
a bucket replaces its full value by a partial one, and since windows only move forward no later run
repairs it.
-/

/-! ## The bucket of some facts -/

/-- **What is collected from facts of one bucket.** -/
def bucketOf (facts : UsageFacts) (categories : String → Option MesCategory) : UsageBucket :=
  facts.mesCalls.foldl (UsageBucket.countMes categories)
    (facts.llmCalls.foldl UsageBucket.countLlm
      (facts.interactions.foldl UsageBucket.countInteraction {}))

/-- **The metrics of a bucket depend on its own facts only.** -/
theorem getElem?_computeBucketMetrics (facts : UsageFacts)
    (categories : String → Option MesCategory) (granularity : Granularity) (bucket : Instant) :
    (computeBucketMetrics facts categories granularity)[bucket]?
      = (bucketOf (facts.filter (fun stamp => decide (bucketKey stamp.2 granularity = bucket)))
          categories).finished := by
  have hfinished (collected : Option UsageBucket) :
      collected.bind UsageBucket.finished = (collected.getD {}).finished := by
    cases collected <;> rfl
  rw [computeBucketMetrics, Std.ExtTreeMap.getElem?_filterMap', hfinished,
    Grouping.getD_getElem?_collect, Grouping.getD_getElem?_collect, Grouping.getD_getElem?_collect]
  rfl

namespace UsageBucket

/-- Every bucket has the metrics of the base bucket. -/
def Formed (bucket : UsageBucket) : Prop :=
  ∀ metrics, bucket.metrics = some metrics → ∀ metric : String, metric ∈ metrics ↔ metric ∈ baseBucket

/-- **What counting does**: the metrics keep their names, and a bucket is entered if it was entered
before or something is counted in it. -/
structure Counted (before after : UsageBucket) (enters : Bool) : Prop where
  formed : before.Formed → after.Formed
  entered : after.metrics.isSome = (before.metrics.isSome || enters)

variable {bucket bucket' bucket'' : UsageBucket} {enters enters' : Bool}

theorem Counted.refl : Counted bucket bucket false :=
  ⟨id, (Bool.or_false _).symm⟩

theorem Counted.trans (h : Counted bucket bucket' enters) (h' : Counted bucket' bucket'' enters') :
    Counted bucket bucket'' (enters || enters') :=
  ⟨h'.formed ∘ h.formed, by rw [h'.entered, h.entered, Bool.or_assoc]⟩

/-- A step that enters nothing. -/
theorem Counted.quiet (h : Counted bucket bucket' enters) (h' : Counted bucket' bucket'' false) :
    Counted bucket bucket'' enters :=
  ⟨h'.formed ∘ h.formed, by rw [h'.entered, h.entered, Bool.or_false]⟩

theorem counted_add (bucket : UsageBucket) (metric : String) (value : Int) :
    Counted bucket (bucket.add metric value) true := by
  refine ⟨fun hformed metrics hmetrics other => ?_, (Bool.or_true _).symm⟩
  obtain rfl := Option.some.inj hmetrics
  rw [Std.ExtTreeMap.mem_modify]
  cases hbucket : bucket.metrics with
  | none => exact Iff.rfl
  | some metrics => exact hformed metrics hbucket other

theorem counted_addMeasured (bucket : UsageBucket) (metric : String) (value : Option Int) :
    Counted bucket (bucket.addMeasured metric value) value.isSome := by
  cases value with
  | none => exact Counted.refl
  | some value => exact (counted_add bucket metric value).trans (counted_add _ (metric ++ ".count") 1)

theorem counted_addStatus (bucket : UsageBucket) (status : Option String) :
    Counted bucket (bucket.addStatus status) (status.any (fun status => status ≠ "")) := by
  unfold addStatus
  split
  · exact Counted.refl
  · exact Counted.refl
  · rename_i status hne
    have hany : Option.any (fun status => decide (status ≠ "")) (some status) = true := by
      simpa using hne
    rw [hany]
    exact counted_add bucket _ 1

theorem counted_addUser (bucket : UsageBucket) (userSubjectId : String) :
    Counted bucket (bucket.addUser userSubjectId) false := by
  unfold addUser
  split
  · exact Counted.refl
  · exact ⟨id, (Bool.or_false _).symm⟩

theorem counted_addCall (bucket : UsageBucket) (logicalCallId : String) :
    Counted bucket (bucket.addCall logicalCallId) false := by
  unfold addCall
  split
  · exact Counted.refl
  · exact ⟨id, (Bool.or_false _).symm⟩

/-- Whether an interaction fact is one of the two counted events. -/
def isCountedEvent (fact : InteractionFactRow) : Bool :=
  decide (fact.eventType = "interaction_started")
    || decide (fact.eventType = "interaction_routed" ∧ fact.capabilityId.isSome = true)

theorem counted_addEvent (bucket : UsageBucket) (fact : InteractionFactRow) :
    Counted bucket (bucket.addEvent fact) (isCountedEvent fact) := by
  unfold addEvent isCountedEvent
  by_cases hstarted : fact.eventType = "interaction_started"
  · rw [if_pos hstarted, decide_eq_true hstarted]
    exact counted_add bucket _ 1
  · rw [if_neg hstarted, decide_eq_false hstarted]
    by_cases hrouted : fact.eventType = "interaction_routed" ∧ fact.capabilityId.isSome = true
    · rw [if_pos hrouted, decide_eq_true hrouted]
      exact counted_add bucket _ 1
    · rw [if_neg hrouted, decide_eq_false hrouted]
      exact Counted.refl

/-- Whether an interaction fact enters its bucket: its user alone does not. -/
def interactionEnters (fact : InteractionFactRow) : Bool :=
  isCountedEvent fact || fact.status.any (fun status => status ≠ "") || fact.durationMs.isSome
    || fact.mesDurationMs.isSome || fact.llmDurationMs.isSome || fact.localDurationMs.isSome

theorem counted_countInteraction (bucket : UsageBucket) (fact : InteractionFactRow) :
    Counted bucket (bucket.countInteraction fact) (interactionEnters fact) :=
  ((((((counted_addEvent bucket fact).quiet (counted_addUser _ fact.userSubjectId)).trans
    (counted_addStatus _ fact.status)).trans (counted_addMeasured _ _ fact.durationMs)).trans
    (counted_addMeasured _ _ fact.mesDurationMs)).trans
    (counted_addMeasured _ _ fact.llmDurationMs)).trans
    (counted_addMeasured _ _ fact.localDurationMs)

theorem counted_countLlm (bucket : UsageBucket) (fact : LlmCallFactRow) :
    Counted bucket (bucket.countLlm fact) true :=
  (((((counted_add bucket _ 1).quiet (counted_addCall _ fact.logicalCallId)).trans
    (counted_addMeasured _ _ _)).trans (counted_addMeasured _ _ _)).trans
    (counted_addMeasured _ _ _)).trans (counted_addMeasured _ _ _)

theorem counted_countMes (categories : String → Option MesCategory) (bucket : UsageBucket)
    (fact : MesCallFactRow) : Counted bucket (bucket.countMes categories fact) true :=
  ((counted_add bucket _ 1).trans (counted_add _ _ 1)).trans (counted_add _ _ 1)

/-- Counting a list enters the bucket if one of its elements does. -/
theorem counted_foldl {α : Type} {count : UsageBucket → α → UsageBucket} {enters : α → Bool}
    (hcount : ∀ bucket element, Counted bucket (count bucket element) (enters element))
    (bucket : UsageBucket) (elements : List α) :
    Counted bucket (elements.foldl count bucket) (elements.any enters) := by
  induction elements generalizing bucket with
  | nil => exact Counted.refl
  | cons element elements ih => exact (hcount bucket element).trans (ih _)

end UsageBucket

/-- Whether some facts of a bucket enter it. -/
def UsageFacts.enters (facts : UsageFacts) : Bool :=
  (facts.interactions.any UsageBucket.interactionEnters || facts.llmCalls.any (fun _ => true))
    || facts.mesCalls.any (fun _ => true)

theorem UsageFacts.enters_append (facts more : UsageFacts) :
    (facts.append more).enters = (facts.enters || more.enters) := by
  simp only [enters, append, List.any_append]
  grind

theorem counted_bucketOf (facts : UsageFacts) (categories : String → Option MesCategory) :
    UsageBucket.Counted {} (bucketOf facts categories) facts.enters :=
  ((UsageBucket.counted_foldl UsageBucket.counted_countInteraction {} facts.interactions).trans
    (UsageBucket.counted_foldl UsageBucket.counted_countLlm _ facts.llmCalls)).trans
    (UsageBucket.counted_foldl (UsageBucket.counted_countMes categories) _ facts.mesCalls)

/-- **The value of a metric** of a bucket with some facts. -/
def metricOf (facts : UsageFacts) (categories : String → Option MesCategory) (metric : String) :
    Option Int :=
  (bucketOf facts categories).finished.bind (fun metrics => metrics[metric]?)

/-- **A bucket has all its metrics or none.** -/
theorem isSome_metricOf (facts : UsageFacts) (categories : String → Option MesCategory)
    (metric : String) :
    (metricOf facts categories metric).isSome = true ↔
      facts.enters = true ∧ metric ∈ baseBucket := by
  have hcounted := counted_bucketOf facts categories
  have hformed : (bucketOf facts categories).Formed :=
    hcounted.formed (fun metrics hmetrics => by cases hmetrics)
  have hentered := hcounted.entered
  rw [show (({} : UsageBucket).metrics.isSome || facts.enters) = facts.enters from rfl] at hentered
  rw [metricOf, UsageBucket.finished, ← hentered]
  cases hmetrics : (bucketOf facts categories).metrics with
  | none => simp
  | some metrics =>
    have husers : "users" ∈ baseBucket := by decide +kernel
    have hcalls : "llm_logical_calls" ∈ baseBucket := by decide +kernel
    simp only [Option.map_some, Option.bind_some, Option.isSome_some, true_and,
      ← Std.ExtTreeMap.mem_iff_isSome_getElem?, Std.ExtTreeMap.mem_insert,
      Std.LawfulEqCmp.compare_eq_iff_eq, hformed metrics hmetrics]
    constructor
    · rintro (rfl | rfl | hmem)
      · exact hcalls
      · exact husers
      · exact hmem
    · exact fun hmem => Or.inr (Or.inr hmem)

/-! ## The rows of a run -/

namespace RollupTable

variable {table : RollupTable} {tenantId metric : String} {bucket : Instant}

/-- Reading after an upsert: the row itself under its key, and the old row under any other. -/
theorem value?_upsert (table : RollupTable) (row : RollupRow) :
    (table.upsert row).value? tenantId bucket metric
      = if row.key = (tenantId, bucket, metric) then some row.value
        else table.value? tenantId bucket metric := by
  unfold value? upsert
  rw [List.find?_cons]
  by_cases hkey : row.key = (tenantId, bucket, metric)
  · rw [if_pos hkey, decide_eq_true hkey]
    rfl
  · rw [if_neg hkey, decide_eq_false hkey]
    dsimp only
    rw [List.find?_filter]
    refine congrArg (Option.map _) (congrArg (fun p => List.find? p table.rows) (funext fun other => ?_))
    by_cases hother : other.key = (tenantId, bucket, metric)
    · simp [hother, Ne.symm hkey]
    · simp [hother]

/-- **Reading after several upserts.** Where the rows of a key agree on their value, that value is
stored if there is one, and the old one is kept otherwise. -/
theorem value?_upsertAll (table : RollupTable) (rows : List RollupRow) (value : Option Int)
    (hvalue : ∀ row ∈ rows, row.key = (tenantId, bucket, metric) → value = some row.value)
    (hsome : ∀ found, value = some found →
      ∃ row ∈ rows, row.key = (tenantId, bucket, metric)) :
    (table.upsertAll rows).value? tenantId bucket metric
      = value.or (table.value? tenantId bucket metric) := by
  suffices hfold : (table.upsertAll rows).value? tenantId bucket metric
      = if ∃ row ∈ rows, row.key = (tenantId, bucket, metric) then value
        else table.value? tenantId bucket metric by
    rw [hfold]
    cases value with
    | none =>
      rw [if_neg (fun ⟨row, hrow, hkey⟩ => by cases hvalue row hrow hkey)]
      rfl
    | some found =>
      rw [if_pos (hsome found rfl)]
      rfl
  clear hsome
  induction rows generalizing table with
  | nil => simp [upsertAll]
  | cons row rows ih =>
    rw [upsertAll, List.foldl_cons, ← upsertAll,
      ih _ (fun other hother => hvalue other (List.mem_cons_of_mem _ hother)), value?_upsert]
    by_cases hrest : ∃ row ∈ rows, row.key = (tenantId, bucket, metric)
    · obtain ⟨other, hother, hkey⟩ := hrest
      rw [if_pos ⟨other, hother, hkey⟩, if_pos ⟨other, List.mem_cons_of_mem _ hother, hkey⟩]
    · rw [if_neg hrest]
      by_cases hkey : row.key = (tenantId, bucket, metric)
      · rw [if_pos hkey, if_pos ⟨row, List.mem_cons_self, hkey⟩]
        exact (hvalue row List.mem_cons_self hkey).symm
      · rw [if_neg hkey, if_neg]
        rintro ⟨other, hother, hother'⟩
        rcases List.mem_cons.mp hother with rfl | hmem
        · exact hkey hother'
        · exact hrest ⟨other, hmem, hother'⟩

end RollupTable

/-- The stamps of one bucket of a tenant. -/
def inBucket (tenantId : String) (granularity : Granularity) (bucket : Instant)
    (stamp : FactStamp) : Bool :=
  decide (stamp.1 = tenantId ∧ bucketKey stamp.2 granularity = bucket)

/-- **The facts of one bucket** of a tenant. -/
def UsageFacts.ofBucket (facts : UsageFacts) (tenantId : String) (granularity : Granularity)
    (bucket : Instant) : UsageFacts :=
  facts.filter (inBucket tenantId granularity bucket)

/-- A tenant's metrics of a bucket are those of the facts of the bucket. -/
theorem metricOf_ofBucket (facts : UsageFacts) (categories : String → Option MesCategory)
    (tenantId metric : String) (granularity : Granularity) (bucket : Instant) :
    ((computeBucketMetrics (facts.filter (fun stamp => decide (stamp.1 = tenantId))) categories
        granularity)[bucket]?).bind (fun metrics => metrics[metric]?)
      = metricOf (facts.ofBucket tenantId granularity bucket) categories metric := by
  rw [getElem?_computeBucketMetrics, UsageFacts.filter_filter, metricOf, UsageFacts.ofBucket]
  refine congrArg (fun facts => (bucketOf facts categories).finished.bind _)
    (UsageFacts.filter_congr fun stamp _ => ?_)
  rw [inBucket, Bool.decide_and]

namespace UsageDatabase

variable {database : UsageDatabase} {categories : String → Option MesCategory}
  {tenantIds : List String} {tenantId metric : String} {granularity : Granularity}
  {start stop rolledUpAt bucket : Instant} {facts : UsageFacts}

/-- The rows of a run are the metrics of its tenants. -/
theorem mem_rollupRows {row : RollupRow} :
    row ∈ rollupRows tenantIds facts categories rolledUpAt granularity ↔
      row.tenantId ∈ tenantIds
        ∧ metricOf (facts.ofBucket row.tenantId granularity row.bucketStart) categories row.metric
          = some row.value
        ∧ row.rollupVersion = rollupVersion ∧ row.rolledUpAt = rolledUpAt := by
  simp only [rollupRows, List.mem_flatMap, List.mem_map, Prod.exists,
    Std.ExtTreeMap.mem_toList_iff_getElem?_eq_some, ← metricOf_ofBucket, Option.bind_eq_some_iff]
  constructor
  · rintro ⟨tenantId, htenant, bucket, metrics, hbucket, metric, value, hvalue, rfl⟩
    exact ⟨htenant, ⟨metrics, hbucket, hvalue⟩, rfl, rfl⟩
  · rintro ⟨htenant, ⟨metrics, hbucket, hvalue⟩, hversion, hrolled⟩
    exact ⟨row.tenantId, htenant, row.bucketStart, metrics, hbucket, row.metric, row.value, hvalue,
      by rw [← hversion, ← hrolled]⟩

theorem mem_listTenantIds :
    tenantId ∈ database.listTenantIds start stop ↔
      ∃ stamp ∈ database.facts.stamps, inWindow start stop stamp = true ∧ stamp.1 = tenantId := by
  simp only [listTenantIds, Std.ExtTreeSet.mem_toList, Std.ExtTreeSet.mem_ofList,
    List.contains_eq_mem, decide_eq_true_eq, List.mem_map, UsageFacts.mem_stamps_filter, and_assoc]

/-- The rows of a bucket that a run over some tenants leaves. -/
theorem value?_upsertAll_rollupRows (table : RollupTable) (htenant : tenantId ∈ tenantIds) :
    (table.upsertAll (rollupRows tenantIds facts categories rolledUpAt granularity)).value?
        tenantId bucket metric
      = (metricOf (facts.ofBucket tenantId granularity bucket) categories metric).or
          (table.value? tenantId bucket metric) := by
  refine RollupTable.value?_upsertAll table _ _ (fun row hrow hkey => ?_) (fun found hfound => ?_)
  · obtain ⟨-, hvalue, -⟩ := mem_rollupRows.mp hrow
    obtain ⟨rfl, rfl, rfl⟩ := by simpa [RollupRow.key] using hkey
    exact hvalue
  · exact ⟨⟨tenantId, bucket, metric, found, rollupVersion, rolledUpAt⟩,
      mem_rollupRows.mpr ⟨htenant, hfound, rfl, rfl⟩, rfl⟩

/-- A run leaves the rows of the other tenants. -/
theorem value?_upsertAll_of_not_mem (table : RollupTable) (htenant : tenantId ∉ tenantIds) :
    (table.upsertAll (rollupRows tenantIds facts categories rolledUpAt granularity)).value?
        tenantId bucket metric = table.value? tenantId bucket metric := by
  rw [RollupTable.value?_upsertAll table _ none (fun row hrow hkey => ?_) (fun _ h => by cases h),
    Option.none_or]
  obtain ⟨hmem, -⟩ := mem_rollupRows.mp hrow
  obtain ⟨rfl, -⟩ := by simpa [RollupRow.key] using hkey
  exact absurd hmem htenant

/-- The facts of a run are those of its window, for a tenant it covers. -/
theorem ofBucket_listFacts (htenant : tenantId ∈ tenantIds) :
    (database.listFacts tenantIds start stop).ofBucket tenantId granularity bucket
      = (database.facts.filter (inWindow start stop)).ofBucket tenantId granularity bucket := by
  rw [listFacts, UsageFacts.ofBucket, UsageFacts.ofBucket, UsageFacts.filter_filter,
    UsageFacts.filter_filter]
  refine UsageFacts.filter_congr fun stamp _ => ?_
  by_cases hstamp : inBucket tenantId granularity bucket stamp = true
  · obtain ⟨rfl, -⟩ : stamp.1 = tenantId ∧ bucketKey stamp.2 granularity = bucket := by
      simpa [inBucket] using hstamp
    simp [htenant]
  · simp [hstamp]

end UsageDatabase

/-- Facts of which none lies in a bucket have no metrics there. -/
theorem metricOf_eq_none {facts : UsageFacts} {categories : String → Option MesCategory}
    {tenantId metric : String} {granularity : Granularity} {bucket : Instant}
    (h : ∀ stamp ∈ facts.stamps, inBucket tenantId granularity bucket stamp = false) :
    metricOf (facts.ofBucket tenantId granularity bucket) categories metric = none := by
  rw [UsageFacts.ofBucket, UsageFacts.filter_eq_empty h]
  rfl

/-- **What a run stores**: for each bucket the metrics of its facts in the window, and the old ones
where that leaves none. -/
theorem value?_runOnce (worker : RollupWorker) (hdiscovers : worker.tenantIds = [])
    (database : UsageDatabase) (categories : String → Option MesCategory)
    (now rolledUpAt bucket : Instant) (tenantId metric : String) (granularity : Granularity) :
    ((worker.runOnce database categories now rolledUpAt).table granularity).value? tenantId bucket
        metric
      = (metricOf ((database.facts.filter
            (UsageDatabase.inWindow (worker.windowStart now) now)).ofBucket tenantId granularity
              bucket) categories metric).or
          ((database.table granularity).value? tenantId bucket metric) := by
  generalize hstart : worker.windowStart now = start
  rw [RollupWorker.runOnce, if_pos hdiscovers, hstart]
  by_cases htenant : tenantId ∈ database.listTenantIds start now
  · obtain ⟨stamp, -, hwindow, -⟩ := UsageDatabase.mem_listTenantIds.mp htenant
    have hgoes : ¬ (database.listTenantIds start now = [] ∨ now ≤ start) := by
      rintro (hnil | hle)
      · rw [hnil] at htenant
        cases htenant
      · simp only [UsageDatabase.inWindow, decide_eq_true_eq] at hwindow
        exact absurd (Int.lt_of_le_of_lt hwindow.1 hwindow.2) (Int.not_lt.mpr hle)
    rw [UsageDatabase.rollupRange, if_neg hgoes, ← UsageDatabase.ofBucket_listFacts htenant]
    cases granularity <;> exact UsageDatabase.value?_upsertAll_rollupRows _ htenant
  · rw [metricOf_eq_none (fun stamp hstamp => ?_), Option.none_or]
    · rw [UsageDatabase.rollupRange]
      split
      · rfl
      · cases granularity <;> exact UsageDatabase.value?_upsertAll_of_not_mem _ htenant
    · obtain ⟨hmem, hwindow⟩ := UsageFacts.mem_stamps_filter.mp hstamp
      refine decide_eq_false fun hbucket => htenant ?_
      exact UsageDatabase.mem_listTenantIds.mpr ⟨stamp, hmem, hwindow, hbucket.1⟩

/-! ## Runs -/

/-- **The database with the history that the property is about**: when the last run was, and the stamps
of the facts that no run since their recording had in its window. -/
structure UsageWorld where
  database : UsageDatabase
  lastRun : Option Instant
  awaiting : List FactStamp
  deriving DecidableEq

/-- What happens to the usage tables. -/
inductive UsageAction where
  /-- Facts are recorded, early or late. -/
  | record (facts : UsageFacts)
  /-- The worker runs; its engine stamps the rows with another reading of the clock. -/
  | run (now rolledUpAt : Instant)
  deriving DecidableEq

namespace UsageWorld

/-- The world before anything happened. -/
def initial : UsageWorld := ⟨.empty, none, []⟩

/-- New facts. -/
def record (world : UsageWorld) (facts : UsageFacts) : UsageWorld where
  database := { world.database with facts := world.database.facts.append facts }
  lastRun := world.lastRun
  awaiting := world.awaiting ++ facts.stamps

/-- One run. -/
def run (world : UsageWorld) (worker : RollupWorker) (categories : String → Option MesCategory)
    (now rolledUpAt : Instant) : UsageWorld where
  database := worker.runOnce world.database categories now rolledUpAt
  lastRun := some now
  awaiting := world.awaiting.filter (fun stamp =>
    !UsageDatabase.inWindow (worker.windowStart now) now stamp)

/-- One step; the instants of the runs increase. -/
def step (worker : RollupWorker) (categories : String → Option MesCategory) (world : UsageWorld) :
    UsageAction → Option UsageWorld
  | .record facts => some (world.record facts)
  | .run now rolledUpAt =>
    if world.lastRun.any (fun last => decide (now ≤ last)) then none
    else some (world.run worker categories now rolledUpAt)

/-- **A run that cuts a bucket**: of two recorded facts of one tenant in one bucket, the older lies
before the window of the run and the newer one in it. -/
def Cuts (world : UsageWorld) (worker : RollupWorker) (now : Instant) : Prop :=
  ∃ granularity ∈ [Granularity.hour, .day],
    ∃ older ∈ world.database.facts.stamps, ∃ newer ∈ world.database.facts.stamps,
    inBucket older.1 granularity (bucketKey older.2 granularity) newer = true
      ∧ older.2 < worker.windowStart now
      ∧ UsageDatabase.inWindow (worker.windowStart now) now newer = true

instance (world : UsageWorld) (worker : RollupWorker) (now : Instant) :
    Decidable (world.Cuts worker now) :=
  inferInstanceAs (Decidable (∃ granularity ∈ [Granularity.hour, .day], _))

/-- The guard under which no run cuts a bucket. -/
def Uncut (worker : RollupWorker) (world : UsageWorld) : UsageAction → Prop
  | .record _ => True
  | .run now _ => ¬ world.Cuts worker now

instance (worker : RollupWorker) (world : UsageWorld) :
    (action : UsageAction) → Decidable (Uncut worker world action)
  | .record _ => inferInstanceAs (Decidable True)
  | .run now _ => inferInstanceAs (Decidable (¬ world.Cuts worker now))

end UsageWorld

/-- **The machine of the roll-up.** -/
def rollupMachine (worker : RollupWorker) (categories : String → Option MesCategory) :
    Machine UsageWorld UsageAction :=
  ⟨.initial, UsageWorld.step worker categories⟩

/-! ## The invariant -/

/-- A run reads the facts and leaves them as they are. -/
theorem UsageDatabase.rollupRange_facts (database : UsageDatabase)
    (categories : String → Option MesCategory) (tenantIds : List String)
    (start stop rolledUpAt : Instant) :
    (database.rollupRange categories tenantIds start stop rolledUpAt).facts = database.facts := by
  rw [rollupRange]
  split <;> rfl

/-- Fewer facts enter no more. -/
theorem UsageFacts.enters_of_filter {facts : UsageFacts} {p : FactStamp → Bool}
    (h : (facts.filter p).enters = true) : facts.enters = true := by
  simp only [enters, filter, Bool.or_eq_true, List.any_eq_true, List.mem_filter] at h ⊢
  rcases h with (⟨fact, ⟨hmem, -⟩, henters⟩ | ⟨fact, ⟨hmem, -⟩, henters⟩) | ⟨fact, ⟨hmem, -⟩, henters⟩
  · exact .inl (.inl ⟨fact, hmem, henters⟩)
  · exact .inl (.inr ⟨fact, hmem, henters⟩)
  · exact .inr ⟨fact, hmem, henters⟩

namespace UsageWorld

variable {worker : RollupWorker} {categories : String → Option MesCategory} {world : UsageWorld}

/-- **The invariant of the roll-up.** -/
structure Sound (world : UsageWorld) (categories : String → Option MesCategory) : Prop where
  /-- A fact that awaits no run lies before the last one. -/
  covered : ∀ stamp ∈ world.database.facts.stamps, stamp ∉ world.awaiting →
    ∃ last, world.lastRun = some last ∧ stamp.2 < last
  /-- Only metrics that the facts of the bucket have are stored. -/
  stored : ∀ tenantId granularity bucket metric,
    ((world.database.table granularity).value? tenantId bucket metric).isSome = true →
      (metricOf (world.database.facts.ofBucket tenantId granularity bucket) categories
        metric).isSome = true
  /-- A bucket of which no fact awaits a run is complete. -/
  complete : ∀ tenantId granularity bucket,
    (∀ stamp ∈ world.database.facts.stamps, inBucket tenantId granularity bucket stamp = true →
      stamp ∉ world.awaiting) →
    ∀ metric, (world.database.table granularity).value? tenantId bucket metric
      = metricOf (world.database.facts.ofBucket tenantId granularity bucket) categories metric

theorem sound_initial : Sound .initial categories where
  covered := fun _ hmem => absurd hmem List.not_mem_nil
  stored := fun _ granularity _ _ h => by cases granularity <;> cases h
  complete := fun _ granularity _ _ _ => by cases granularity <;> rfl

/-- **Recording facts keeps the invariant**: a bucket with a new fact awaits a run. -/
theorem Sound.record (h : world.Sound categories) (facts : UsageFacts) :
    (world.record facts).Sound categories where
  covered := by
    intro stamp hmem hawaiting
    rcases UsageFacts.mem_stamps_append.mp hmem with hmem | hmem
    · exact h.covered stamp hmem (fun hold => hawaiting (List.mem_append_left _ hold))
    · exact absurd (List.mem_append_right _ hmem) hawaiting
  stored := by
    intro tenantId granularity bucket metric hsome
    obtain ⟨henters, hmetric⟩ :=
      (isSome_metricOf _ _ _).mp (h.stored tenantId granularity bucket metric (by
        cases granularity <;> exact hsome))
    refine (isSome_metricOf _ _ _).mpr ⟨?_, hmetric⟩
    rw [UsageFacts.ofBucket, UsageWorld.record, UsageFacts.filter_append,
      UsageFacts.enters_append, Bool.or_eq_true]
    exact Or.inl henters
  complete := by
    intro tenantId granularity bucket hnone metric
    have hnew : facts.filter (inBucket tenantId granularity bucket) = {} := by
      refine UsageFacts.filter_eq_empty fun stamp hmem => Bool.eq_false_iff.mpr fun hbucket => ?_
      exact hnone stamp (UsageFacts.mem_stamps_append.mpr (.inr hmem)) hbucket
        (List.mem_append_right _ hmem)
    have hfacts : (world.record facts).database.facts.ofBucket tenantId granularity bucket
        = world.database.facts.ofBucket tenantId granularity bucket := by
      rw [UsageFacts.ofBucket, UsageWorld.record, UsageFacts.filter_append, hnew]
      simp [UsageFacts.append, UsageFacts.ofBucket]
    rw [hfacts, ← h.complete tenantId granularity bucket (fun stamp hmem hbucket hawaiting =>
      hnone stamp (UsageFacts.mem_stamps_append.mpr (.inl hmem)) hbucket
        (List.mem_append_left _ hawaiting)) metric]
    cases granularity <;> rfl

/-- **A run that cuts no bucket keeps the invariant.** A bucket with a fact in the window is recomputed
from all its facts, and any other bucket keeps its rows. -/
theorem Sound.run (h : world.Sound categories) (hdiscovers : worker.tenantIds = [])
    {now : Instant} (rolledUpAt : Instant)
    (hlater : world.lastRun.any (fun last => decide (now ≤ last)) = false)
    (huncut : ¬ world.Cuts worker now) :
    (world.run worker categories now rolledUpAt).Sound categories := by
  have hfacts : (world.run worker categories now rolledUpAt).database.facts
      = world.database.facts := UsageDatabase.rollupRange_facts _ _ _ _ _ _
  have hvalue := value?_runOnce worker hdiscovers world.database categories now rolledUpAt
  have hcovered : ∀ stamp ∈ world.database.facts.stamps,
      stamp ∉ (world.run worker categories now rolledUpAt).awaiting → stamp.2 < now := by
    intro stamp hmem hawaiting
    by_cases hold : stamp ∈ world.awaiting
    · have hwindow : UsageDatabase.inWindow (worker.windowStart now) now stamp = true :=
        Decidable.byContradiction fun hout =>
          hawaiting (List.mem_filter.mpr ⟨hold, by simpa using hout⟩)
      exact (of_decide_eq_true hwindow).2
    · obtain ⟨last, hlast, hlt⟩ := h.covered stamp hmem hold
      rw [hlast, Option.any_some, decide_eq_false_iff_not] at hlater
      exact Int.lt_trans hlt (Int.not_le.mp hlater)
  have hstored : ∀ tenantId granularity bucket metric,
      (((world.run worker categories now rolledUpAt).database.table granularity).value? tenantId
        bucket metric).isSome = true →
      (metricOf (world.database.facts.ofBucket tenantId granularity bucket) categories
        metric).isSome = true := by
    intro tenantId granularity bucket metric hsome
    rw [UsageWorld.run, hvalue, Option.isSome_or, Bool.or_eq_true] at hsome
    rcases hsome with hsome | hsome
    · obtain ⟨henters, hmetric⟩ := (isSome_metricOf _ _ _).mp hsome
      rw [UsageFacts.ofBucket, UsageFacts.filter_filter] at henters
      simp only [Bool.and_comm] at henters
      rw [← UsageFacts.filter_filter] at henters
      exact (isSome_metricOf _ _ _).mpr ⟨UsageFacts.enters_of_filter henters, hmetric⟩
    · exact h.stored tenantId granularity bucket metric hsome
  refine ⟨fun stamp hmem hawaiting => ⟨now, rfl, ?_⟩, ?_, ?_⟩
  · exact hcovered stamp (hfacts ▸ hmem) hawaiting
  · rw [hfacts]
    exact hstored
  · rw [hfacts]
    intro tenantId granularity bucket hnone metric
    rw [UsageWorld.run, hvalue]
    by_cases htouched : ∃ stamp ∈ world.database.facts.stamps,
        inBucket tenantId granularity bucket stamp = true
          ∧ UsageDatabase.inWindow (worker.windowStart now) now stamp = true
    · obtain ⟨newer, hnewer, hbucket, hwindow⟩ := htouched
      have hall : (world.database.facts.filter
          (UsageDatabase.inWindow (worker.windowStart now) now)).ofBucket tenantId granularity bucket
            = world.database.facts.ofBucket tenantId granularity bucket := by
        rw [UsageFacts.ofBucket, UsageFacts.filter_filter]
        refine UsageFacts.filter_congr fun older holder => ?_
        by_cases hsame : inBucket tenantId granularity bucket older = true
        · have hbefore := hcovered older holder (hnone older holder hsame)
          have hinside : worker.windowStart now ≤ older.2 := by
            refine Int.not_lt.mp fun hcut => huncut ⟨granularity, by cases granularity <;> simp, older,
              holder, newer, hnewer, ?_, hcut, hwindow⟩
            obtain ⟨rfl, rfl⟩ := of_decide_eq_true hsame
            exact hbucket
          rw [hsame, Bool.and_true]
          exact decide_eq_true ⟨hinside, hbefore⟩
        · rw [Bool.not_eq_true] at hsame
          rw [hsame, Bool.and_false]
      rw [hall]
      cases hmetric : metricOf (world.database.facts.ofBucket tenantId granularity bucket) categories
          metric with
      | some value => rfl
      | none =>
        rw [Option.none_or]
        refine Option.eq_none_iff_forall_ne_some.mpr fun value hold => ?_
        have hsome := h.stored tenantId granularity bucket metric (by rw [hold]; rfl)
        rw [hmetric] at hsome
        cases hsome
    · rw [metricOf_eq_none, Option.none_or]
      · refine h.complete tenantId granularity bucket (fun stamp hmem hbucket hold => ?_) metric
        refine hnone stamp hmem hbucket (List.mem_filter.mpr ⟨hold, ?_⟩)
        rw [Bool.not_eq_true']
        exact Bool.eq_false_iff.mpr fun hwindow => htouched ⟨stamp, hmem, hbucket, hwindow⟩
      · intro stamp hstamp
        obtain ⟨hmem, hwindow⟩ := UsageFacts.mem_stamps_filter.mp hstamp
        exact Bool.eq_false_iff.mpr fun hbucket => htouched ⟨stamp, hmem, hbucket, hwindow⟩

/-- The invariant holds along every run of the machine that cuts no bucket. -/
theorem sound_of_reach (hdiscovers : worker.tenantIds = [])
    (h : (rollupMachine worker categories).Reach (Uncut worker) world) :
    world.Sound categories := by
  refine h.invariant (I := (·.Sound categories)) sound_initial ?_
  intro world next action hsound huncut hstep
  cases action with
  | record facts =>
    obtain rfl := Option.some.inj hstep
    exact hsound.record facts
  | run now rolledUpAt =>
    simp only [rollupMachine, UsageWorld.step] at hstep
    split at hstep
    · cases hstep
    · rename_i hlater
      obtain rfl := Option.some.inj hstep
      exact hsound.run hdiscovers rolledUpAt (Bool.eq_false_iff.mpr hlater) huncut

/-- **Buckets are complete over runs that cut none.** Once every fact lay in the window of a run after
it was recorded, each hour and each day of each tenant stores exactly the metrics of all its facts. -/
theorem buckets_complete (windowHours : Nat) (categories : String → Option MesCategory)
    {world : UsageWorld}
    (h : (rollupMachine { windowHours := windowHours } categories).Reach
      (Uncut { windowHours := windowHours }) world)
    (hcovered : world.awaiting = []) (tenantId metric : String) (granularity : Granularity)
    (bucket : Instant) :
    (world.database.table granularity).value? tenantId bucket metric
      = ((computeBucketMetrics
            (world.database.facts.filter (fun stamp => decide (stamp.1 = tenantId))) categories
            granularity)[bucket]?).bind (fun metrics => metrics[metric]?) := by
  rw [metricOf_ofBucket]
  refine (sound_of_reach rfl h).complete tenantId granularity bucket (fun _ _ _ hmem => ?_) metric
  rw [hcovered] at hmem
  cases hmem

/-- A question, as the start event of its interaction. -/
def asked (occurredAt : Instant) : UsageFacts :=
  { interactions := [⟨"t1", occurredAt, "interaction_started", "u1", none, none, none, none, none,
      none⟩] }

/-- Two questions of one day, at ten past midnight and at ten to midnight, and a run at the end of the
day. -/
def dayRun : List UsageAction :=
  [.record (asked 600000000), .record (asked 85800000000), .run 86400000000 86400000000]

/-- The day after a run at its end. -/
theorem buckets_complete_dayRun :
    ((rollupMachine {} (fun _ => none)).after dayRun).awaiting = []
      ∧ (((rollupMachine {} (fun _ => none)).after dayRun).database.table .day).value? "t1" 0
          "questions"
        = ((computeBucketMetrics
            (((rollupMachine {} (fun _ => none)).after dayRun).database.facts.filter
              (fun stamp => decide (stamp.1 = "t1"))) (fun _ => none) .day)[(0 : Instant)]?).bind
            (fun metrics => metrics["questions"]?) :=
  ⟨by decide +kernel, buckets_complete 24 _ (Machine.reach_after dayRun (by decide +kernel))
    (by decide +kernel) "t1" "questions" .day 0⟩

/-- **A full day is overwritten.** Twenty minutes later the window begins after the first question, and
the next run stores a day with one question, though each question lay in the window of a run. -/
theorem day_overwritten :
    (((rollupMachine {} (fun _ => none)).after dayRun).database.table .day).value? "t1" 0
        "questions" = some 2
      ∧ (((rollupMachine {} (fun _ => none)).run Machine.free .initial
        (dayRun ++ [.run 87600000000 87600000000])).map (fun world =>
          (world.awaiting, world.lastRun, (world.database.table .day).value? "t1" 0 "questions",
            ((computeBucketMetrics (world.database.facts.filter
              (fun stamp => decide (stamp.1 = "t1"))) (fun _ => none) .day)[(0 : Instant)]?).bind
              (fun metrics => metrics["questions"]?))))
        = some ([], some 87600000000, some 1, some 2) := by
  decide +kernel

end UsageWorld
