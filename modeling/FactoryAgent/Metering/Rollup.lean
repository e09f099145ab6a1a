import Std.Data.ExtTreeSet.Lemmas
import FactoryAgent.Domain.Session
import FactoryAgent.Lib.Grouping

/-!
# The usage roll-up

`application/rollup.py` over the tables of `persistence/rollup_store.py`: a worker reads the usage facts
of a trailing window, groups them into hour and day buckets, and upserts one row for each metric of
each bucket that it found.

The window of a run reaches back from the moment of the run, so it begins in the middle of an hour and
of a day. The rows of a bucket are computed from the facts of the bucket that the window holds.
-/

/-! ## Facts -/

/-- `InteractionFactRow`. -/
structure InteractionFactRow where
  tenantId : String
  occurredAt : Instant
  eventType : String
  userSubjectId : String
  capabilityId : Option String := none
  status : Option String := none
  durationMs : Option Int := none
  mesDurationMs : Option Int := none
  llmDurationMs : Option Int := none
  localDurationMs : Option Int := none
  deriving DecidableEq, Repr

/-- `LlmCallFactRow`. -/
structure LlmCallFactRow where
  tenantId : String
  occurredAt : Instant
  logicalCallId : String
  promptTokens : Int := 0
  completionTokens : Int := 0
  cachedTokens : Int := 0
  reasoningTokens : Int := 0
  deriving DecidableEq, Repr

/-- `MesCallFactRow`. -/
structure MesCallFactRow where
  tenantId : String
  occurredAt : Instant
  operationId : String
  status : String
  deriving DecidableEq, Repr

/-- **The three fact tables**, or what a query returns from them. -/
structure UsageFacts where
  interactions : List InteractionFactRow := []
  llmCalls : List LlmCallFactRow := []
  mesCalls : List MesCallFactRow := []
  deriving DecidableEq, Repr

/-- The tenant and the instant of a fact, by which facts are selected. -/
abbrev FactStamp := String × Instant

namespace UsageFacts

/-- The stamps of all facts. -/
def stamps (facts : UsageFacts) : List FactStamp :=
  facts.interactions.map (fun fact => (fact.tenantId, fact.occurredAt))
    ++ facts.llmCalls.map (fun fact => (fact.tenantId, fact.occurredAt))
    ++ facts.mesCalls.map (fun fact => (fact.tenantId, fact.occurredAt))

/-- The facts whose stamp has a property. -/
def filter (p : FactStamp → Bool) (facts : UsageFacts) : UsageFacts where
  interactions := facts.interactions.filter (fun fact => p (fact.tenantId, fact.occurredAt))
  llmCalls := facts.llmCalls.filter (fun fact => p (fact.tenantId, fact.occurredAt))
  mesCalls := facts.mesCalls.filter (fun fact => p (fact.tenantId, fact.occurredAt))

/-- More facts. -/
def append (facts more : UsageFacts) : UsageFacts where
  interactions := facts.interactions ++ more.interactions
  llmCalls := facts.llmCalls ++ more.llmCalls
  mesCalls := facts.mesCalls ++ more.mesCalls

theorem filter_filter (p q : FactStamp → Bool) (facts : UsageFacts) :
    (facts.filter p).filter q = facts.filter (fun stamp => p stamp && q stamp) := by
  simp only [filter, List.filter_filter, Bool.and_comm]

/-- Properties that agree on the stamps select the same facts. -/
theorem filter_congr {p q : FactStamp → Bool} {facts : UsageFacts}
    (h : ∀ stamp ∈ facts.stamps, p stamp = q stamp) : facts.filter p = facts.filter q := by
  simp only [stamps, List.mem_append, List.mem_map] at h
  rw [filter, filter, List.filter_congr (fun fact hfact => h _ (.inl (.inl ⟨fact, hfact, rfl⟩))),
    List.filter_congr (fun fact hfact => h _ (.inl (.inr ⟨fact, hfact, rfl⟩))),
    List.filter_congr (fun fact hfact => h _ (.inr ⟨fact, hfact, rfl⟩))]

/-- A property that no stamp has selects nothing. -/
theorem filter_eq_empty {p : FactStamp → Bool} {facts : UsageFacts}
    (h : ∀ stamp ∈ facts.stamps, p stamp = false) : facts.filter p = {} := by
  rw [filter_congr h]
  simp [filter]

theorem filter_append (p : FactStamp → Bool) (facts more : UsageFacts) :
    (facts.append more).filter p = (facts.filter p).append (more.filter p) := by
  simp only [filter, append, List.filter_append]

/-- The stamps of the selected facts. -/
theorem mem_stamps_filter {p : FactStamp → Bool} {facts : UsageFacts} {stamp : FactStamp} :
    stamp ∈ (facts.filter p).stamps ↔ stamp ∈ facts.stamps ∧ p stamp = true := by
  simp only [stamps, filter, List.mem_append, List.mem_map, List.mem_filter]
  constructor
  · rintro ((⟨fact, ⟨hmem, hp⟩, rfl⟩ | ⟨fact, ⟨hmem, hp⟩, rfl⟩) | ⟨fact, ⟨hmem, hp⟩, rfl⟩)
    · exact ⟨.inl (.inl ⟨fact, hmem, rfl⟩), hp⟩
    · exact ⟨.inl (.inr ⟨fact, hmem, rfl⟩), hp⟩
    · exact ⟨.inr ⟨fact, hmem, rfl⟩, hp⟩
  · rintro ⟨(⟨fact, hmem, rfl⟩ | ⟨fact, hmem, rfl⟩) | ⟨fact, hmem, rfl⟩, hp⟩
    · exact .inl (.inl ⟨fact, ⟨hmem, hp⟩, rfl⟩)
    · exact .inl (.inr ⟨fact, ⟨hmem, hp⟩, rfl⟩)
    · exact .inr ⟨fact, ⟨hmem, hp⟩, rfl⟩

theorem mem_stamps_append {facts more : UsageFacts} {stamp : FactStamp} :
    stamp ∈ (facts.append more).stamps ↔ stamp ∈ facts.stamps ∨ stamp ∈ more.stamps := by
  simp only [stamps, append, List.map_append, List.mem_append]
  grind

end UsageFacts

/-! ## Buckets -/

/-- The two widths of a bucket. -/
inductive Granularity where
  | hour
  | day
  deriving DecidableEq, Repr

/-- The width of a bucket in microseconds. -/
def Granularity.width : Granularity → Int
  | hour => 3600000000
  | day => 86400000000

/-- `_bucket_key`: the start of the UTC hour, or of the UTC day. -/
def bucketKey (occurredAt : Instant) (granularity : Granularity) : Instant :=
  occurredAt - occurredAt % granularity.width

/-- The billing categories, `MES_CATEGORIES`. -/
inductive MesCategory where
  | output
  | payroll
  | order
  | other
  deriving DecidableEq, Repr

/-- The name of a category. -/
def MesCategory.value : MesCategory → String
  | output => "output"
  | payroll => "payroll"
  | order => "order"
  | other => "other"

/-- **The metrics of a bucket**, by their names. The sums are of whole numbers. -/
abbrev UsageMetrics := Std.ExtTreeMap String Int

/-- `_base_bucket`: every metric at zero. -/
def baseBucket : UsageMetrics :=
  let interaction := ["questions", "valid_questions", "e2e_duration_ms", "mes_duration_ms",
    "llm_duration_ms", "local_duration_ms"]
  let llm := ["llm_physical_attempts", "prompt_tokens", "completion_tokens", "cached_tokens",
    "reasoning_tokens"]
  let statuses := ["completed", "failed", "cancelled", "rejected"]
  let categories := [MesCategory.output, .payroll, .order, .other]
  Std.ExtTreeMap.ofList ((interaction ++ llm
    ++ statuses.map (fun status => "status." ++ status)
    ++ interaction.map (fun metric => metric ++ ".count")
    ++ llm.map (fun metric => metric ++ ".count")
    ++ ["users", "llm_logical_calls", "mes_calls", "mes_calls.completed", "mes_calls.failed"]
    ++ categories.map (fun category => "mes_calls." ++ category.value)).map 
      (fun metric => (metric, (0 : Int))))

/-- **What is collected for one bucket**: its metrics, once something was counted in it, and the sets
that two of them are the sizes of. -/
structure UsageBucket where
  metrics : Option UsageMetrics := none
  users : Std.ExtTreeSet String := ∅
  calls : Std.ExtTreeSet String := ∅

namespace UsageBucket

/-- `buckets[key][metric] += value`, which enters a missing bucket. -/
def add (bucket : UsageBucket) (metric : String) (value : Int) : UsageBucket :=
  { bucket with
    metrics := some ((bucket.metrics.getD baseBucket).modify metric (· + value)) }

/-- A measure and how many facts carried it. -/
def addMeasured (bucket : UsageBucket) (metric : String) (value : Option Int) : UsageBucket :=
  match value with
  | none => bucket
  | some value => (bucket.add metric value).add (metric ++ ".count") 1

/-- The status of an interaction. One that is no metric is not counted, but the look-up enters the
bucket. -/
def addStatus (bucket : UsageBucket) (status : Option String) : UsageBucket :=
  match status with
  | none | some "" => bucket
  | some status => bucket.add ("status." ++ status) 1

/-- The event of an interaction. -/
def addEvent (bucket : UsageBucket) (fact : InteractionFactRow) : UsageBucket :=
  if fact.eventType = "interaction_started" then bucket.add "questions" 1
  else if fact.eventType = "interaction_routed" ∧ fact.capabilityId.isSome = true then
    bucket.add "valid_questions" 1
  else bucket

/-- The user of an interaction, which does not enter the bucket. -/
def addUser (bucket : UsageBucket) (userSubjectId : String) : UsageBucket :=
  if userSubjectId = "" then bucket
  else { bucket with users := bucket.users.insert userSubjectId }

/-- One interaction fact. -/
def countInteraction (bucket : UsageBucket) (fact : InteractionFactRow) : UsageBucket :=
  ((((((bucket.addEvent fact).addUser fact.userSubjectId).addStatus fact.status).addMeasured
    "e2e_duration_ms" fact.durationMs).addMeasured
    "mes_duration_ms" fact.mesDurationMs).addMeasured
    "llm_duration_ms" fact.llmDurationMs).addMeasured
    "local_duration_ms" fact.localDurationMs

/-- The logical call of an LLM call, which does not enter the bucket. -/
def addCall (bucket : UsageBucket) (logicalCallId : String) : UsageBucket :=
  if logicalCallId = "" then bucket
  else { bucket with calls := bucket.calls.insert logicalCallId }

/-- One LLM call fact. -/
def countLlm (bucket : UsageBucket) (fact : LlmCallFactRow) : UsageBucket :=
  (((((bucket.add "llm_physical_attempts" 1).addCall fact.logicalCallId).addMeasured
    "prompt_tokens" (some fact.promptTokens)).addMeasured
    "completion_tokens" (some fact.completionTokens)).addMeasured
    "cached_tokens" (some fact.cachedTokens)).addMeasured
    "reasoning_tokens" (some fact.reasoningTokens)

/-- One MES call fact. -/
def countMes (categories : String → Option MesCategory) (bucket : UsageBucket)
    (fact : MesCallFactRow) : UsageBucket :=
  let status := if fact.status = "completed" then "completed" else "failed"
  let category := (categories fact.operationId).getD .other
  ((bucket.add "mes_calls" 1).add ("mes_calls." ++ status) 1).add ("mes_calls." ++ category.value) 1

/-- The metrics of a bucket in which something was counted, with the sizes of its sets. -/
def finished (bucket : UsageBucket) : Option UsageMetrics :=
  bucket.metrics.map (fun metrics =>
    (metrics.insert "users" bucket.users.size).insert "llm_logical_calls" bucket.calls.size)

end UsageBucket

/-- **`compute_bucket_metrics`**: the metrics of some facts by the start of their bucket. The buckets
and the two sets of a key are kept together. -/
def computeBucketMetrics (facts : UsageFacts) (categories : String → Option MesCategory)
    (granularity : Granularity) : Std.ExtTreeMap Instant UsageMetrics :=
  let buckets := Grouping.collect (fun fact => bucketKey fact.occurredAt granularity)
    UsageBucket.countInteraction {} ∅ facts.interactions
  let buckets := Grouping.collect (fun fact => bucketKey fact.occurredAt granularity)
    UsageBucket.countLlm {} buckets facts.llmCalls
  let buckets := Grouping.collect (fun fact => bucketKey fact.occurredAt granularity)
    (UsageBucket.countMes categories) {} buckets facts.mesCalls
  buckets.filterMap (fun _ bucket => bucket.finished)

/-! ## The tables -/

/-- `RollupRow`; its granularity says which of the two tables it goes to. -/
structure RollupRow where
  tenantId : String
  bucketStart : Instant
  metric : String
  value : Int
  rollupVersion : String
  rolledUpAt : Instant
  deriving DecidableEq, Repr

/-- The primary key of a row. -/
def RollupRow.key (row : RollupRow) : String × Instant × String :=
  (row.tenantId, row.bucketStart, row.metric)

/-- **A roll-up table**, `tenant_usage_hourly` or `tenant_usage_daily`. -/
structure RollupTable where
  rows : List RollupRow
  keys : rows.Pairwise (fun a b => a.key ≠ b.key)
  deriving DecidableEq

namespace RollupTable

/-- The table without rows. -/
def empty : RollupTable := ⟨[], List.Pairwise.nil⟩

/-- `ON CONFLICT DO UPDATE`: the row replaces the one with its key. -/
def upsert (table : RollupTable) (row : RollupRow) : RollupTable where
  rows := row :: table.rows.filter (fun other => decide (other.key ≠ row.key))
  keys := List.pairwise_cons.mpr
    ⟨fun other hother => by
      have hne : other.key ≠ row.key := by simpa using (List.mem_filter.mp hother).2
      exact hne.symm, table.keys.filter _⟩

/-- Upsert rows one after the other. -/
def upsertAll (table : RollupTable) (rows : List RollupRow) : RollupTable :=
  rows.foldl upsert table

/-- The value of a metric of a bucket. -/
def value? (table : RollupTable) (tenantId : String) (bucketStart : Instant) (metric : String) :
    Option Int :=
  (table.rows.find? (fun row => decide (row.key = (tenantId, bucketStart, metric)))).map (·.value)

end RollupTable

/-! ## A run -/

/-- `ROLLUP_VERSION`. -/
def rollupVersion : String := "rollup-v3"

/-- **The fact tables and the roll-up tables.** -/
structure UsageDatabase where
  facts : UsageFacts
  hourly : RollupTable
  daily : RollupTable
  deriving DecidableEq

namespace UsageDatabase

/-- The database before anything happened. -/
def empty : UsageDatabase := ⟨{}, .empty, .empty⟩

/-- The roll-up table of a granularity. -/
def table (database : UsageDatabase) : Granularity → RollupTable
  | .hour => database.hourly
  | .day => database.daily

/-- Whether a fact lies in a window. -/
def inWindow (start stop : Instant) (stamp : FactStamp) : Bool :=
  decide (start ≤ stamp.2 ∧ stamp.2 < stop)

/-- `list_tenant_ids`: the tenants with facts in a window. -/
def listTenantIds (database : UsageDatabase) (start stop : Instant) : List String :=
  (Std.ExtTreeSet.ofList
    ((database.facts.filter (inWindow start stop)).stamps.map (·.1))).toList

/-- `list_facts`: the facts of some tenants in a window. -/
def listFacts (database : UsageDatabase) (tenantIds : List String) (start stop : Instant) :
    UsageFacts :=
  database.facts.filter (fun stamp => decide (stamp.1 ∈ tenantIds) && inWindow start stop stamp)

/-- The rows of one granularity that `rollup_range` writes. -/
def rollupRows (tenantIds : List String) (facts : UsageFacts)
    (categories : String → Option MesCategory) (rolledUpAt : Instant) (granularity : Granularity) :
    List RollupRow :=
  tenantIds.flatMap (fun tenantId =>
    (computeBucketMetrics (facts.filter (fun stamp => decide (stamp.1 = tenantId))) categories
      granularity).toList.flatMap (fun bucket =>
        bucket.2.toList.map (fun metric =>
          ⟨tenantId, bucket.1, metric.1, metric.2, rollupVersion, rolledUpAt⟩)))

/-- **`rollup_range`**: recompute the buckets of a window and upsert them. -/
def rollupRange (database : UsageDatabase) (categories : String → Option MesCategory)
    (tenantIds : List String) (start stop rolledUpAt : Instant) : UsageDatabase :=
  if tenantIds = [] ∨ stop ≤ start then database
  else
    let facts := database.listFacts tenantIds start stop
    { database with
      hourly := database.hourly.upsertAll
        (rollupRows tenantIds facts categories rolledUpAt .hour)
      daily := database.daily.upsertAll
        (rollupRows tenantIds facts categories rolledUpAt .day) }

end UsageDatabase

/-- **`RollupWorker`**, as far as one run goes. -/
structure RollupWorker where
  /-- A fixed list of tenants; none where they are discovered. -/
  tenantIds : List String := []
  windowHours : Nat := 24
  deriving DecidableEq, Repr

/-- The start of the window of a run. -/
def RollupWorker.windowStart (worker : RollupWorker) (now : Instant) : Instant :=
  now - worker.windowHours * 3600000000

/-- **`run_once`**. -/
def RollupWorker.runOnce (worker : RollupWorker) (database : UsageDatabase)
    (categories : String → Option MesCategory) (now rolledUpAt : Instant) : UsageDatabase :=
  let start := worker.windowStart now
  let tenantIds :=
    if worker.tenantIds = [] then database.listTenantIds start now else worker.tenantIds
  database.rollupRange categories tenantIds start now rolledUpAt
