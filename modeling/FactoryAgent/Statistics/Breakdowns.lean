import FactoryAgent.Lib.StableSort
import FactoryAgent.Statistics.Facts
import Mathlib.Algebra.BigOperators.Group.List.Lemmas
import Mathlib.Algebra.GroupWithZero.Nat
import Mathlib.Algebra.Order.BigOperators.Group.List
import Mathlib.Data.List.Dedup

/-!
# Breakdowns and their caps

The breakdowns of `statistics/ops.py` show the most frequent values, up to a cap, and say whether they are cut. That is
decided by the number of all occurrences, not of the values, so a breakdown says that it is cut where a few values
occur often (`truncation_honest_iff`). A time series is said to be cut where it has as many buckets as it may have.
-/

namespace Statistics

/-- `OpsLimits`, as far as the caps go. -/
structure OpsLimits where
  maxDimensionRows : Nat := 1000
  timeseriesMaxBuckets : Nat := 10000
  deriving DecidableEq, Repr

/-! ## Counting -/

/-- **A `Counter`** of values, by their first occurrences. -/
def counter (values : List String) : List (String × Nat) :=
  values.reverse.dedup.reverse.map fun value => (value, values.count value)

/-- **`most_common`**: those with one count in their order. -/
def mostCommon (counts : List (String × Nat)) (cap : Nat) : List (String × Nat) :=
  (StableSort.sorted (fun entry => -(entry.2 : Int)) counts).take cap

/-- **A breakdown**: the values that are shown, with their counts, and whether it is cut. -/
structure Breakdown where
  values : List (String × Nat)
  truncated : Bool
  deriving DecidableEq, Repr

/-- The breakdown of the occurrences of values. -/
def breakdown (limits : OpsLimits) (occurrences : List String) : Breakdown :=
  let counts := counter occurrences
  ⟨mostCommon counts limits.maxDimensionRows, decide (limits.maxDimensionRows < (counts.map (·.2)).sum)⟩

/-- The text of an attribute, unless it is missing or empty. -/
def present (value : Option String) : Option String :=
  value.filter (· ≠ "")

/-- The attribute of an interaction that a dimension is about. -/
def interactionDimension? : String → Option (InteractionFact → Option String)
  | "capability" => some (·.capabilityId)
  | "status" => some (·.status)
  | "entrypoint" => some (·.entrypoint)
  | "role_category" => some (·.roleCategory)
  | "error_category" => some (·.errorCategory)
  | _ => none

/-- The attribute of an LLM call that a dimension is about. -/
def llmDimension? : String → Option (LlmCallFact → Option String)
  | "model_alias" => some (some ·.modelAlias)
  | "actual_model" => some (some ·.actualModel)
  | "stage" => some (some ·.stage)
  | "fallback_reason" => some (·.fallbackReason)
  | "error_category" => some (·.errorCategory)
  | _ => none

/-- The values of a dimension: of the interactions where it is one of theirs, and of the LLM calls otherwise. -/
def dimensionValues (dimension : String) (interactions : List InteractionFact) (llmCalls : List LlmCallFact) :
    Option (List String) :=
  match interactionDimension? dimension with
  | some value => some (interactions.filterMap fun fact => present (value fact))
  | none => (llmDimension? dimension).map fun value => llmCalls.filterMap fun fact => present (value fact)

/-- **`dimensions`**, of the facts of the request; `none` is an unsupported dimension. -/
def dimensions (limits : OpsLimits) (dimension : String) (interactions : List InteractionFact)
    (llmCalls : List LlmCallFact) : Option Breakdown :=
  (dimensionValues dimension interactions llmCalls).map (breakdown limits)

/-- The operations of the successful calls. -/
def operationValues (mesCalls : List MesCallFact) : List String :=
  (mesCalls.filter fun fact => fact.status = "completed").map (·.operationId)

/-- **`mes_operations`** -/
def mesOperations (limits : OpsLimits) (mesCalls : List MesCallFact) : Breakdown :=
  breakdown limits (operationValues mesCalls)

/-- The error categories of the facts. -/
def errorValues (interactions : List InteractionFact) (llmCalls : List LlmCallFact) : List String :=
  interactions.filterMap (fun fact => present fact.errorCategory)
    ++ llmCalls.filterMap fun fact => present fact.errorCategory

/-- **`errors`** -/
def errors (limits : OpsLimits) (interactions : List InteractionFact) (llmCalls : List LlmCallFact) : Breakdown :=
  breakdown limits (errorValues interactions llmCalls)

/-! ## Time series -/

/-- A row of a roll-up table, as far as a time series reads it. -/
structure SeriesRow where
  bucketStart : Instant
  metric : String
  value : Int
  deriving DecidableEq, Repr

/-- What is added up for a bucket, by the metrics. -/
abbrev SeriesBucket := Std.ExtTreeMap String Int

/-- `by_bucket[bucket][metric] += value` -/
def addToBucket (buckets : Std.ExtTreeMap Instant SeriesBucket) (bucket : Instant) (metric : String) (value : Int) :
    Std.ExtTreeMap Instant SeriesBucket :=
  buckets.alter bucket fun metrics =>
    some ((metrics.getD ∅).alter metric fun total => some (total.getD 0 + value))

/-- `_MES_METRICS` -/
def mesMetrics : List String :=
  ["mes_output", "mes_payroll", "mes_order", "mes_other"]

/-- `_ADDITIVE_METRICS` -/
def additiveMetrics : List String :=
  ["users", "questions", "valid_questions", "status.completed", "status.failed", "status.cancelled", "status.rejected",
    "llm_logical_calls", "llm_physical_attempts", "prompt_tokens", "completion_tokens", "cached_tokens",
    "reasoning_tokens"] ++ mesMetrics

/-- **`_mes_category_buckets`**: the successful calls by bucket and category. -/
def mesCategoryBuckets (table : CategoryTable) (granularity : Granularity) (mesCalls : List MesCallFact) :
    Option (Std.ExtTreeMap Instant SeriesBucket) :=
  (mesCalls.filter fun fact => fact.status = "completed").foldlM (fun buckets fact =>
    (bucketStart fact.occurredAt granularity).map fun bucket =>
      addToBucket buckets bucket ("mes_" ++ categoryFor table fact.operationId) 1) ∅

/-- **A point of a time series.** -/
structure TimeseriesPoint where
  bucket : Instant
  metrics : List (String × Int)
  deriving DecidableEq, Repr

/-- **`TimeseriesView`**: its points, whether it is cut, and whether it is incomplete. -/
structure TimeseriesView where
  points : List TimeseriesPoint
  truncated : Bool
  incomplete : Bool
  deriving DecidableEq, Repr

/-- The buckets of a time series: those of the roll-up, and those of the calls where their metrics are asked for. -/
def seriesBuckets (table : CategoryTable) (granularity : Granularity) (requested : List String)
    (rows : List SeriesRow) (mesCalls : List MesCallFact) : Option (Std.ExtTreeMap Instant SeriesBucket) :=
  let byBucket := rows.foldl (fun buckets row => addToBucket buckets row.bucketStart row.metric row.value) ∅
  let mesRequested := requested.filter fun metric => metric ∈ mesMetrics
  if mesRequested = [] then some byBucket
  else (mesCategoryBuckets table granularity mesCalls).map fun mesBuckets =>
    mesBuckets.toList.foldl (fun buckets entry => mesRequested.foldl (fun buckets metric =>
      addToBucket buckets entry.1 metric (entry.2[metric]?.getD 0)) buckets) byBucket

/-- **`timeseries`**, of the rows and the calls of the request; whether the roll-up has fallen behind is read from the
store as well. -/
def timeseries (limits : OpsLimits) (table : CategoryTable) (granularity : Granularity) (metrics : List String)
    (rows : List SeriesRow) (mesCalls : List MesCallFact) (rollupBehind : Bool) : Option TimeseriesView :=
  let requested := metrics.filter fun metric => metric ∈ additiveMetrics
  (seriesBuckets table granularity requested rows mesCalls).map fun byBucket =>
    let points := (byBucket.toList.map fun entry =>
      (⟨entry.1, requested.map fun metric => (metric, entry.2[metric]?.getD 0)⟩ : TimeseriesPoint)).take
        limits.timeseriesMaxBuckets
    let truncated := decide (limits.timeseriesMaxBuckets ≤ points.length)
    ⟨points, truncated, truncated || rollupBehind⟩

/-! ## What the flags say -/

/-- **An honest breakdown** says that it is cut exactly where a value is left out. -/
def HonestBreakdown (occurrences : List String) (view : Breakdown) : Prop :=
  view.truncated = true ↔ ∃ value ∈ occurrences, value ∉ view.values.map (·.1)

/-- The counts add up to the occurrences. -/
theorem sum_counter (values : List String) : ((counter values).map (·.2)).sum = values.length := by
  rw [counter, List.map_map]
  have hsum := List.sum_map_count_dedup_eq_length values
  rw [← hsum]
  refine List.Perm.sum_eq (List.Perm.map _ ?_)
  refine (List.perm_ext_iff_of_nodup (List.nodup_reverse.mpr (List.nodup_dedup _)) (List.nodup_dedup _)).mpr fun v => ?_
  rw [List.mem_reverse, List.mem_dedup, List.mem_dedup, List.mem_reverse]

/-- The values that are counted are different. -/
theorem nodup_keys_counter (values : List String) : ((counter values).map (·.1)).Nodup := by
  rw [counter, List.map_map]
  have hkeys : values.reverse.dedup.reverse.map (Prod.fst ∘ fun value => (value, values.count value))
      = values.reverse.dedup.reverse := List.map_id _
  rw [hkeys]
  exact List.nodup_reverse.mpr (List.nodup_dedup _)

/-- The values that are counted are those that occur. -/
theorem mem_keys_counter {values : List String} {value : String} :
    value ∈ (counter values).map (·.1) ↔ value ∈ values := by
  rw [counter, List.map_map]
  show value ∈ values.reverse.dedup.reverse.map id ↔ _
  rw [List.map_id, List.mem_reverse, List.mem_dedup, List.mem_reverse]

/-- There are as many counts as different values. -/
theorem length_counter (values : List String) : (counter values).length = values.dedup.length := by
  rw [← List.length_map (f := Prod.fst)]
  exact (List.perm_ext_iff_of_nodup (nodup_keys_counter values) (List.nodup_dedup _)).mpr
    (fun value => by rw [mem_keys_counter, List.mem_dedup]) |>.length_eq

/-- **Something is left out exactly where there is more than the cap.** -/
theorem exists_not_mem_take_iff {α : Type} {keys : List α} (h : keys.Nodup) (cap : Nat) :
    (∃ key ∈ keys, key ∉ keys.take cap) ↔ cap < keys.length := by
  constructor
  · rintro ⟨key, hin, hnot⟩
    by_contra hle
    rw [List.take_of_length_le (by omega)] at hnot
    exact hnot hin
  · intro hlt
    refine ⟨keys[cap], List.getElem_mem hlt, fun hin => ?_⟩
    -- The first one behind the cap would be there twice.
    obtain ⟨index, hindex, heq⟩ := List.mem_iff_getElem.mp hin
    rw [List.length_take] at hindex
    rw [List.getElem_take] at heq
    have hsame := (List.Nodup.getElem_inj_iff h).mp heq
    omega

/-- **A value is left out exactly where there are more values than the cap.** -/
theorem exists_left_out_iff (occurrences : List String) (cap : Nat) :
    (∃ value ∈ occurrences, value ∉ (mostCommon (counter occurrences) cap).map (·.1))
      ↔ cap < occurrences.dedup.length := by
  have hsorted := StableSort.sorted_perm (fun entry : String × Nat => -(entry.2 : Int)) (counter occurrences)
  have hkeys := hsorted.map Prod.fst
  have hnodup := hkeys.nodup_iff.mpr (nodup_keys_counter occurrences)
  rw [← length_counter, ← hsorted.length_eq, ← List.length_map (f := Prod.fst), mostCommon, List.map_take,
    ← exists_not_mem_take_iff hnodup]
  simp only [hkeys.mem_iff, mem_keys_counter]

/-- **A breakdown is honest exactly where** there are not more occurrences than the cap, or more values. -/
theorem honestBreakdown_iff (limits : OpsLimits) (occurrences : List String) :
    HonestBreakdown occurrences (breakdown limits occurrences)
      ↔ occurrences.length ≤ limits.maxDimensionRows ∨ limits.maxDimensionRows < occurrences.dedup.length := by
  have hle := (List.dedup_sublist occurrences).length_le
  rw [HonestBreakdown, breakdown, exists_left_out_iff, sum_counter, decide_eq_true_eq]
  omega

/-- **Whether the flag of a time series is honest**: it is cut exactly where a bucket is left out. -/
def HonestSeries (buckets : Std.ExtTreeMap Instant SeriesBucket) (view : TimeseriesView) : Prop :=
  view.truncated = true ↔ ∃ bucket ∈ buckets.toList.map (·.1), bucket ∉ view.points.map (·.bucket)

/-- **A time series is honest exactly where** it does not have as many buckets as the cap. -/
theorem honestSeries_iff (limits : OpsLimits) {table : CategoryTable} {granularity : Granularity}
    {metrics : List String} {rows : List SeriesRow} {mesCalls : List MesCallFact} {rollupBehind : Bool}
    {buckets : Std.ExtTreeMap Instant SeriesBucket} {view : TimeseriesView}
    (hbuckets : seriesBuckets table granularity (metrics.filter fun metric => metric ∈ additiveMetrics) rows mesCalls
      = some buckets)
    (hview : timeseries limits table granularity metrics rows mesCalls rollupBehind = some view) :
    HonestSeries buckets view ↔ buckets.toList.length ≠ limits.timeseriesMaxBuckets := by
  rw [timeseries, hbuckets, Option.map_some, Option.some.injEq] at hview
  subst hview
  have hnodup : (buckets.toList.map (·.1)).Nodup := by
    rw [Std.ExtTreeMap.map_fst_toList_eq_keys]
    exact Std.ExtTreeMap.nodup_keys
  have hshown : ∀ requested : List String, (((buckets.toList.map fun entry =>
      (⟨entry.1, requested.map fun metric => (metric, entry.2[metric]?.getD 0)⟩ : TimeseriesPoint)).take
        limits.timeseriesMaxBuckets).map (·.bucket)) = (buckets.toList.map (·.1)).take limits.timeseriesMaxBuckets := by
    intro requested
    rw [List.map_take, List.map_map]
    rfl
  rw [HonestSeries, hshown, exists_not_mem_take_iff hnodup, decide_eq_true_eq, List.length_take, List.length_map,
    List.length_map]
  omega

/-- **The flags are honest exactly where** a breakdown has not more occurrences than the cap, or more values, and a time
series has not as many buckets as its cap. -/
theorem truncation_honest_iff (limits : OpsLimits) (table : CategoryTable) (granularity : Granularity)
    (interactions : List InteractionFact) (llmCalls : List LlmCallFact) (mesCalls : List MesCallFact)
    (metrics : List String) (rows : List SeriesRow) (rollupBehind : Bool) :
    (∀ dimension values, dimensionValues dimension interactions llmCalls = some values →
      ∃ view, dimensions limits dimension interactions llmCalls = some view ∧ (HonestBreakdown values view
        ↔ values.length ≤ limits.maxDimensionRows ∨ limits.maxDimensionRows < values.dedup.length))
      ∧ (HonestBreakdown (operationValues mesCalls) (mesOperations limits mesCalls)
        ↔ (operationValues mesCalls).length ≤ limits.maxDimensionRows
          ∨ limits.maxDimensionRows < (operationValues mesCalls).dedup.length)
      ∧ (HonestBreakdown (errorValues interactions llmCalls) (errors limits interactions llmCalls)
        ↔ (errorValues interactions llmCalls).length ≤ limits.maxDimensionRows
          ∨ limits.maxDimensionRows < (errorValues interactions llmCalls).dedup.length)
      ∧ ∀ buckets, seriesBuckets table granularity (metrics.filter fun metric => metric ∈ additiveMetrics) rows mesCalls
          = some buckets →
        ∃ view, timeseries limits table granularity metrics rows mesCalls rollupBehind = some view
          ∧ (HonestSeries buckets view ↔ buckets.toList.length ≠ limits.timeseriesMaxBuckets) := by
  refine ⟨fun dimension values hvalues => ?_, honestBreakdown_iff limits _, honestBreakdown_iff limits _,
    fun buckets hbuckets => ?_⟩
  · exact ⟨breakdown limits values, by rw [dimensions, hvalues]; rfl, honestBreakdown_iff limits values⟩
  · obtain ⟨view, hview⟩ : ∃ view, timeseries limits table granularity metrics rows mesCalls rollupBehind = some view := by
      rw [timeseries, hbuckets]
      exact ⟨_, rfl⟩
    exact ⟨view, hview, honestSeries_iff limits hbuckets hview⟩

/-- **A breakdown that says it is cut, and shows everything**: one operation, called twice, where one value may be
shown. -/
theorem mes_operations_dishonest :
    let call : MesCallFact := ⟨⟨0, 0⟩, "YskQuery", "completed"⟩
    ¬HonestBreakdown (operationValues [call, call]) (mesOperations { maxDimensionRows := 1 } [call, call]) := by
  intro call
  rw [mesOperations, honestBreakdown_iff]
  decide

end Statistics
