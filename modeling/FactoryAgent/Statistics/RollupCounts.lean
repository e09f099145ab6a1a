import FactoryAgent.Metering.RollupRuns
import FactoryAgent.Statistics.Facts
import Mathlib.Algebra.GroupWithZero.Nat
import Mathlib.Algebra.Ring.Int.Defs
import Mathlib.Data.Finset.Card

/-!
# What the roll-up counts

`compute_bucket_metrics` of `application/rollup.py` with the errors that it raises, over a table of categories as it is
read: any text may stand for a category. What a bucket holds is what its facts add to the metrics (`UsageBucket.Adds`),
the users of its interactions, and the calls of its LLM calls. An instant that cannot be converted to UTC is an error,
and so is a category that is no metric of a bucket (`computeBucketMetrics?_eq_some`): the status of an interaction is
looked up before it is counted, the category of a MES call is not.
-/

open Statistics (inRange)

/-- The start of the bucket of an instant; `none` is a raised `OverflowError`. -/
def bucketKey? (occurredAt : Instant) (granularity : Granularity) : Option Instant :=
  if inRange occurredAt then some (bucketKey occurredAt granularity) else none

namespace UsageBucket

/-- `buckets[key][metric] += value` of a metric that a bucket may not have; `none` is a raised `KeyError`. -/
def addKnown? (bucket : UsageBucket) (metric : String) (value : Int) : Option UsageBucket :=
  if metric ∈ bucket.metrics.getD baseBucket then some (bucket.add metric value) else none

/-- The status under which a MES call is counted. -/
def callStatus (fact : MesCallFactRow) : String :=
  if fact.status = "completed" then "completed" else "failed"

/-- The category of a MES call, from the table. -/
def callCategory (categories : String → Option String) (fact : MesCallFactRow) : String :=
  (categories fact.operationId).getD "other"

/-- One MES call fact, by the table of categories; `none` is a raised `KeyError`. -/
def countMes? (categories : String → Option String) (bucket : UsageBucket) (fact : MesCallFactRow) :
    Option UsageBucket :=
  ((bucket.add "mes_calls" 1).add ("mes_calls." ++ callStatus fact) 1).addKnown?
    ("mes_calls." ++ callCategory categories fact) 1

/-- One MES call fact, were its category a metric. -/
def countMesAs (categories : String → Option String) (bucket : UsageBucket) (fact : MesCallFactRow) : UsageBucket :=
  ((bucket.add "mes_calls" 1).add ("mes_calls." ++ callStatus fact) 1).add
    ("mes_calls." ++ callCategory categories fact) 1

end UsageBucket

/-- **`compute_bucket_metrics`**, by a table of categories of any texts; `none` is a raised error. -/
def computeBucketMetrics? (facts : UsageFacts) (categories : String → Option String) (granularity : Granularity) :
    Option (Std.ExtTreeMap Instant UsageMetrics) := do
  let buckets ← Grouping.collect? (fun fact => bucketKey? fact.occurredAt granularity)
    (fun bucket fact => some (UsageBucket.countInteraction bucket fact)) {} ∅ facts.interactions
  let buckets ← Grouping.collect? (fun fact => bucketKey? fact.occurredAt granularity)
    (fun bucket fact => some (UsageBucket.countLlm bucket fact)) {} buckets facts.llmCalls
  let buckets ← Grouping.collect? (fun fact => bucketKey? fact.occurredAt granularity)
    (UsageBucket.countMes? categories) {} buckets facts.mesCalls
  pure (buckets.filterMap (fun _ bucket => bucket.finished))
/-! ## What is added to the metrics -/

/-- What increments add to a metric. -/
def gained (increments : List (String × Int)) (metric : String) : Int :=
  ((increments.filter fun increment => increment.1 = metric).map (·.2)).sum

theorem gained_append (increments more : List (String × Int)) (metric : String) :
    gained (increments ++ more) metric = gained increments metric + gained more metric := by
  rw [gained, List.filter_append, List.map_append, List.sum_append]
  rfl

theorem gained_flatMap {α : Type} (increments : α → List (String × Int)) (facts : List α) (metric : String) :
    gained (facts.flatMap increments) metric = (facts.map fun fact => gained (increments fact) metric).sum := by
  induction facts with
  | nil => rfl
  | cons fact facts ih => rw [List.flatMap_cons, gained_append, ih, List.map_cons, List.sum_cons]

theorem gained_perm {increments shuffled : List (String × Int)} (h : increments.Perm shuffled) (metric : String) :
    gained increments metric = gained shuffled metric :=
  ((h.filter _).map _).sum_eq

/-- Nothing is gained from increments of other metrics. -/
theorem gained_eq_zero {increments : List (String × Int)} {metric : String}
    (h : ∀ increment ∈ increments, increment.1 ≠ metric) : gained increments metric = 0 := by
  rw [gained, List.filter_eq_nil_iff.mpr fun increment hmem => by simpa using h increment hmem]
  rfl

namespace UsageBucket

/-- **A bucket with more in its metrics.** -/
def Adds (before after : UsageBucket) (increments : List (String × Int)) : Prop :=
  ∀ metric : String, (after.metrics.getD baseBucket)[metric]?
    = ((before.metrics.getD baseBucket)[metric]?).map (· + gained increments metric)

variable {bucket bucket' bucket'' : UsageBucket} {increments increments' : List (String × Int)}

theorem Adds.refl (h : bucket'.metrics = bucket.metrics) : Adds bucket bucket' [] := by
  intro metric
  rw [h]
  simp [gained]

theorem Adds.trans (h : Adds bucket bucket' increments) (h' : Adds bucket' bucket'' increments') :
    Adds bucket bucket'' (increments ++ increments') := by
  intro metric
  rw [h' metric, h metric, Option.map_map, gained_append]
  congr 1
  funext value
  exact add_assoc value _ _

theorem adds_add (bucket : UsageBucket) (metric : String) (value : Int) :
    Adds bucket (bucket.add metric value) [(metric, value)] := by
  intro other
  rw [add, Option.getD_some, Std.ExtTreeMap.getElem?_modify, gained]
  simp only [Std.LawfulEqCmp.compare_eq_iff_eq]
  by_cases heq : metric = other
  · rw [if_pos heq, heq]
    simp
  · rw [if_neg heq]
    simp [heq]

/-- What a measure adds. -/
def measured (metric : String) (value : Option Int) : List (String × Int) :=
  value.elim [] fun value => [(metric, value), (metric ++ ".count", 1)]

theorem adds_addMeasured (bucket : UsageBucket) (metric : String) (value : Option Int) :
    Adds bucket (bucket.addMeasured metric value) (measured metric value) := by
  cases value with
  | none => exact Adds.refl rfl
  | some value => exact (adds_add bucket metric value).trans (adds_add _ (metric ++ ".count") 1)

/-- What the event of an interaction adds. -/
def eventIncrements (fact : InteractionFactRow) : List (String × Int) :=
  if fact.eventType = "interaction_started" then [("questions", 1)]
  else if fact.eventType = "interaction_routed" ∧ fact.capabilityId.isSome = true then [("valid_questions", 1)]
  else []

theorem adds_addEvent (bucket : UsageBucket) (fact : InteractionFactRow) :
    Adds bucket (bucket.addEvent fact) (eventIncrements fact) := by
  unfold addEvent eventIncrements
  split
  · exact adds_add bucket _ 1
  · split
    · exact adds_add bucket _ 1
    · exact Adds.refl rfl

/-- What the status of an interaction adds. -/
def statusIncrements (status : Option String) : List (String × Int) :=
  match status with
  | none => []
  | some status => if status = "" then [] else [("status." ++ status, 1)]

theorem adds_addStatus (bucket : UsageBucket) (status : Option String) :
    Adds bucket (bucket.addStatus status) (statusIncrements status) := by
  unfold addStatus
  split
  · exact Adds.refl rfl
  · exact Adds.refl rfl
  · rename_i status hne
    rw [statusIncrements, if_neg hne]
    exact adds_add bucket _ 1

/-- What an interaction adds. -/
def interactionIncrements (fact : InteractionFactRow) : List (String × Int) :=
  eventIncrements fact ++ statusIncrements fact.status ++ measured "e2e_duration_ms" fact.durationMs
    ++ measured "mes_duration_ms" fact.mesDurationMs ++ measured "llm_duration_ms" fact.llmDurationMs
    ++ measured "local_duration_ms" fact.localDurationMs

theorem metrics_addUser (bucket : UsageBucket) (userSubjectId : String) :
    (bucket.addUser userSubjectId).metrics = bucket.metrics := by
  unfold addUser
  split <;> rfl

theorem metrics_addCall (bucket : UsageBucket) (logicalCallId : String) :
    (bucket.addCall logicalCallId).metrics = bucket.metrics := by
  unfold addCall
  split <;> rfl

theorem adds_countInteraction (bucket : UsageBucket) (fact : InteractionFactRow) :
    Adds bucket (bucket.countInteraction fact) (interactionIncrements fact) := by
  have huser := (adds_addEvent bucket fact).trans (Adds.refl (metrics_addUser _ fact.userSubjectId))
  rw [List.append_nil] at huser
  exact ((((huser.trans (adds_addStatus _ fact.status)).trans (adds_addMeasured _ _ fact.durationMs)).trans
    (adds_addMeasured _ _ fact.mesDurationMs)).trans (adds_addMeasured _ _ fact.llmDurationMs)).trans
    (adds_addMeasured _ _ fact.localDurationMs)

/-- What an LLM call adds. -/
def llmIncrements (fact : LlmCallFactRow) : List (String × Int) :=
  [("llm_physical_attempts", 1)] ++ measured "prompt_tokens" (some fact.promptTokens)
    ++ measured "completion_tokens" (some fact.completionTokens)
    ++ measured "cached_tokens" (some fact.cachedTokens) ++ measured "reasoning_tokens" (some fact.reasoningTokens)

theorem adds_countLlm (bucket : UsageBucket) (fact : LlmCallFactRow) :
    Adds bucket (bucket.countLlm fact) (llmIncrements fact) := by
  have hcall := (adds_add bucket "llm_physical_attempts" 1).trans (Adds.refl (metrics_addCall _ fact.logicalCallId))
  rw [List.append_nil] at hcall
  exact (((hcall.trans (adds_addMeasured _ _ _)).trans (adds_addMeasured _ _ _)).trans
    (adds_addMeasured _ _ _)).trans (adds_addMeasured _ _ _)

/-- What a MES call adds. -/
def mesIncrements (categories : String → Option String) (fact : MesCallFactRow) : List (String × Int) :=
  [("mes_calls", 1), ("mes_calls." ++ callStatus fact, 1), ("mes_calls." ++ callCategory categories fact, 1)]

theorem adds_countMesAs (categories : String → Option String) (bucket : UsageBucket) (fact : MesCallFactRow) :
    Adds bucket (bucket.countMesAs categories fact) (mesIncrements categories fact) :=
  ((adds_add bucket _ 1).trans (adds_add _ _ 1)).trans (adds_add _ _ 1)

/-- What is added by one fact after another. -/
theorem adds_foldl {α : Type} {count : UsageBucket → α → UsageBucket} {increments : α → List (String × Int)}
    (hcount : ∀ bucket fact, Adds bucket (count bucket fact) (increments fact)) (bucket : UsageBucket)
    (facts : List α) : Adds bucket (facts.foldl count bucket) (facts.flatMap increments) := by
  induction facts generalizing bucket with
  | nil => exact Adds.refl rfl
  | cons fact facts ih => exact (hcount bucket fact).trans (ih _)

theorem counted_countMesAs (categories : String → Option String) (bucket : UsageBucket) (fact : MesCallFactRow) :
    Counted bucket (bucket.countMesAs categories fact) true :=
  ((counted_add bucket _ 1).trans (counted_add _ _ 1)).trans (counted_add _ _ 1)

/-! ## The two sets -/

section Sets

variable (bucket : UsageBucket) (metric : String) (value : Option Int)

@[simp] theorem users_addMeasured : (bucket.addMeasured metric value).users = bucket.users := by
  cases value <;> rfl

@[simp] theorem calls_addMeasured : (bucket.addMeasured metric value).calls = bucket.calls := by
  cases value <;> rfl

@[simp] theorem users_addStatus (status : Option String) : (bucket.addStatus status).users = bucket.users := by
  unfold addStatus
  split <;> rfl

@[simp] theorem calls_addStatus (status : Option String) : (bucket.addStatus status).calls = bucket.calls := by
  unfold addStatus
  split <;> rfl

@[simp] theorem users_addEvent (fact : InteractionFactRow) : (bucket.addEvent fact).users = bucket.users := by
  unfold addEvent
  split
  · rfl
  · split <;> rfl

@[simp] theorem calls_addEvent (fact : InteractionFactRow) : (bucket.addEvent fact).calls = bucket.calls := by
  unfold addEvent
  split
  · rfl
  · split <;> rfl

/-- The users after an interaction. -/
theorem users_countInteraction (fact : InteractionFactRow) : (bucket.countInteraction fact).users
    = if fact.userSubjectId = "" then bucket.users else bucket.users.insert fact.userSubjectId := by
  simp only [countInteraction, users_addMeasured, users_addStatus, addUser]
  split
  · exact users_addEvent bucket fact
  · exact congrArg (·.insert fact.userSubjectId) (users_addEvent bucket fact)

/-- An interaction has no logical call. -/
theorem calls_countInteraction (fact : InteractionFactRow) : (bucket.countInteraction fact).calls = bucket.calls := by
  simp only [countInteraction, calls_addMeasured, calls_addStatus, addUser]
  split <;> exact calls_addEvent bucket fact

/-- The logical calls after an LLM call. -/
theorem calls_countLlm (fact : LlmCallFactRow) : (bucket.countLlm fact).calls
    = if fact.logicalCallId = "" then bucket.calls else bucket.calls.insert fact.logicalCallId := by
  simp only [countLlm, calls_addMeasured, addCall]
  split <;> rfl

/-- An LLM call has no user. -/
theorem users_countLlm (fact : LlmCallFactRow) : (bucket.countLlm fact).users = bucket.users := by
  simp only [countLlm, users_addMeasured, addCall]
  split <;> rfl

/-- A MES call has no user. -/
theorem users_countMesAs (categories : String → Option String) (bucket : UsageBucket) (fact : MesCallFactRow) :
    (bucket.countMesAs categories fact).users = bucket.users :=
  rfl

/-- A MES call has no logical call. -/
theorem calls_countMesAs (categories : String → Option String) (bucket : UsageBucket) (fact : MesCallFactRow) :
    (bucket.countMesAs categories fact).calls = bucket.calls :=
  rfl

end Sets

end UsageBucket

/-- The facts of a bucket. -/
def UsageFacts.within (facts : UsageFacts) (granularity : Granularity) (bucket : Instant) : UsageFacts :=
  facts.filter fun stamp => decide (bucketKey stamp.2 granularity = bucket)

/-- The users of some facts. -/
def UsageFacts.users (facts : UsageFacts) : Finset String :=
  (facts.interactions.map (·.userSubjectId)).toFinset.filter (· ≠ "")

/-- The logical calls of some facts. -/
def UsageFacts.calls (facts : UsageFacts) : Finset String :=
  (facts.llmCalls.map (·.logicalCallId)).toFinset.filter (· ≠ "")

section Facts

/-! ## The bucket of some facts -/

/-- What is collected from facts of one bucket, were all their categories metrics. -/
def bucketAs (facts : UsageFacts) (categories : String → Option String) : UsageBucket :=
  facts.mesCalls.foldl (UsageBucket.countMesAs categories)
    (facts.llmCalls.foldl UsageBucket.countLlm (facts.interactions.foldl UsageBucket.countInteraction {}))

/-- What some facts add. -/
def UsageFacts.increments (facts : UsageFacts) (categories : String → Option String) : List (String × Int) :=
  facts.interactions.flatMap UsageBucket.interactionIncrements ++ facts.llmCalls.flatMap UsageBucket.llmIncrements
    ++ facts.mesCalls.flatMap (UsageBucket.mesIncrements categories)

variable (facts : UsageFacts) (categories : String → Option String)

theorem adds_bucketAs : UsageBucket.Adds {} (bucketAs facts categories) (facts.increments categories) :=
  ((UsageBucket.adds_foldl UsageBucket.adds_countInteraction {} facts.interactions).trans
    (UsageBucket.adds_foldl UsageBucket.adds_countLlm _ facts.llmCalls)).trans
    (UsageBucket.adds_foldl (UsageBucket.adds_countMesAs categories) _ facts.mesCalls)

theorem counted_bucketAs : UsageBucket.Counted {} (bucketAs facts categories) facts.enters :=
  ((UsageBucket.counted_foldl UsageBucket.counted_countInteraction {} facts.interactions).trans
    (UsageBucket.counted_foldl UsageBucket.counted_countLlm _ facts.llmCalls)).trans
    (UsageBucket.counted_foldl (UsageBucket.counted_countMesAs categories) _ facts.mesCalls)

/-- Whether the bucket of some facts is entered. -/
theorem isSome_metrics_bucketAs : (bucketAs facts categories).metrics.isSome = facts.enters := by
  rw [(counted_bucketAs facts categories).entered]
  rfl

/-- **The elements that a fold inserts** into a set. -/
theorem mem_foldl_insert {α : Type} {count : UsageBucket → α → UsageBucket}
    {set : UsageBucket → Std.ExtTreeSet String} {name : α → String}
    (hcount : ∀ bucket fact, set (count bucket fact)
      = if name fact = "" then set bucket else (set bucket).insert (name fact))
    (elements : List α) (bucket : UsageBucket) (value : String) :
    value ∈ set (elements.foldl count bucket)
      ↔ value ∈ set bucket ∨ value ∈ ((elements.map name).toFinset.filter (· ≠ "")) := by
  induction elements generalizing bucket with
  | nil => simp
  | cons element elements ih =>
    rw [List.foldl_cons, ih, hcount, List.map_cons, List.toFinset_cons, Finset.filter_insert]
    split
    · rename_i hempty
      rw [if_neg (fun hne => hne hempty)]
    · rename_i hne
      rw [Std.ExtTreeSet.mem_insert, Std.LawfulEqCmp.compare_eq_iff_eq, Finset.mem_insert]
      grind

/-- What keeps a set keeps it over a list. -/
theorem foldl_keeps {α : Type} {count : UsageBucket → α → UsageBucket} {set : UsageBucket → Std.ExtTreeSet String}
    (hcount : ∀ bucket fact, set (count bucket fact) = set bucket) (elements : List α) (bucket : UsageBucket) :
    set (elements.foldl count bucket) = set bucket := by
  induction elements generalizing bucket with
  | nil => rfl
  | cons element elements ih => rw [List.foldl_cons, ih, hcount]

/-- The size of a set with the elements of a finite set. -/
theorem size_eq_card {set : Std.ExtTreeSet String} {elements : Finset String}
    (h : ∀ value, value ∈ set ↔ value ∈ elements) : set.size = elements.card := by
  have hnodup : set.toList.Nodup :=
    Std.ExtTreeSet.distinct_toList.imp fun hne heq => hne (Std.LawfulEqCmp.compare_eq_iff_eq.mpr heq)
  have hsame : set.toList.toFinset = elements := by
    ext value
    rw [List.mem_toFinset, Std.ExtTreeSet.mem_toList, h]
  rw [← Std.ExtTreeSet.length_toList, ← hsame, List.toFinset_card_of_nodup hnodup]

/-- **The users of a bucket** are those of its interactions. -/
theorem size_users_bucketAs : (bucketAs facts categories).users.size = facts.users.card := by
  refine size_eq_card fun user => ?_
  rw [bucketAs, foldl_keeps (UsageBucket.users_countMesAs categories),
    foldl_keeps UsageBucket.users_countLlm,
    mem_foldl_insert UsageBucket.users_countInteraction]
  simp [UsageFacts.users]

/-- **The calls of a bucket** are those of its LLM calls. -/
theorem size_calls_bucketAs : (bucketAs facts categories).calls.size = facts.calls.card := by
  refine size_eq_card fun call => ?_
  rw [bucketAs, foldl_keeps (UsageBucket.calls_countMesAs categories),
    mem_foldl_insert UsageBucket.calls_countLlm, foldl_keeps UsageBucket.calls_countInteraction]
  simp [UsageFacts.calls]

/-! ## The roll-up that is computed -/

/-- The buckets that are computed where no error is raised. -/
def bucketsAs (granularity : Granularity) : Std.ExtTreeMap Instant UsageMetrics :=
  let buckets := Grouping.collect (fun fact => bucketKey fact.occurredAt granularity)
    UsageBucket.countInteraction {} ∅ facts.interactions
  let buckets := Grouping.collect (fun fact => bucketKey fact.occurredAt granularity)
    UsageBucket.countLlm {} buckets facts.llmCalls
  let buckets := Grouping.collect (fun fact => bucketKey fact.occurredAt granularity)
    (UsageBucket.countMesAs categories) {} buckets facts.mesCalls
  buckets.filterMap (fun _ bucket => bucket.finished)

/-- **A bucket depends on its own facts only.** -/
theorem getElem?_bucketsAs (granularity : Granularity) (bucket : Instant) :
    (bucketsAs facts categories granularity)[bucket]?
      = (bucketAs (facts.within granularity bucket) categories).finished := by
  have hfinished (collected : Option UsageBucket) :
      collected.bind UsageBucket.finished = (collected.getD {}).finished := by
    cases collected <;> rfl
  rw [bucketsAs, Std.ExtTreeMap.getElem?_filterMap', hfinished,
    Grouping.getD_getElem?_collect, Grouping.getD_getElem?_collect, Grouping.getD_getElem?_collect]
  rfl

/-- Whether the table gives a MES call a category that is a metric. -/
def hasKnownCategory (fact : MesCallFactRow) : Bool :=
  decide ("mes_calls." ++ UsageBucket.callCategory categories fact ∈ baseBucket)

/-- A MES call of a bucket is counted where its category is a metric. -/
theorem countMes?_eq {bucket : UsageBucket} (h : bucket.Formed) (fact : MesCallFactRow) :
    bucket.countMes? categories fact
      = if hasKnownCategory categories fact then some (bucket.countMesAs categories fact) else none := by
  have hformed := ((UsageBucket.counted_add bucket "mes_calls" 1).trans
    (UsageBucket.counted_add _ ("mes_calls." ++ UsageBucket.callStatus fact) 1)).formed h
  have hmem : ∀ metric : String,
      metric ∈ ((bucket.add "mes_calls" 1).add ("mes_calls." ++ UsageBucket.callStatus fact) 1).metrics.getD baseBucket
        ↔ metric ∈ baseBucket := hformed _ rfl
  rw [UsageBucket.countMes?, UsageBucket.addKnown?, hasKnownCategory]
  simp only [hmem, decide_eq_true_eq]
  rfl

section Rounds

variable {α : Type} {count? : UsageBucket → α → Option UsageBucket} {count : UsageBucket → α → UsageBucket}
  {good : α → Bool}

/-- An instant that cannot be converted is an error, and so is an element that cannot be counted. -/
theorem placed_eq (occurredAt : α → Instant) (granularity : Granularity)
    (hcount : ∀ bucket fact, bucket.Formed → count? bucket fact = if good fact then some (count bucket fact) else none)
    (bucket : UsageBucket) (fact : α) (h : bucket.Formed) :
    ((bucketKey? (occurredAt fact) granularity).bind fun k => (count? bucket fact).map fun group => (k, group))
      = if inRange (occurredAt fact) && good fact
        then some (bucketKey (occurredAt fact) granularity, count bucket fact) else none := by
  rw [hcount bucket fact h, bucketKey?]
  cases inRange (occurredAt fact) <;> cases good fact <;> rfl

/-- **One round of counting** over some facts. -/
theorem collect?_buckets (occurredAt : α → Instant) (granularity : Granularity)
    (hcount : ∀ bucket fact, bucket.Formed → count? bucket fact = if good fact then some (count bucket fact) else none)
    (hkeeps : ∀ bucket fact, bucket.Formed → (count bucket fact).Formed)
    {groups : Std.ExtTreeMap Instant UsageBucket} (hgroups : ∀ k : Instant, UsageBucket.Formed (groups[k]?.getD {}))
    (facts : List α) :
    Grouping.collect? (fun fact => bucketKey? (occurredAt fact) granularity) count? {} groups facts
        = (if facts.all fun fact => inRange (occurredAt fact) && good fact then
            some (Grouping.collect (fun fact => bucketKey (occurredAt fact) granularity) count {} groups facts)
          else none)
      ∧ ∀ k : Instant, UsageBucket.Formed ((Grouping.collect (fun fact => bucketKey (occurredAt fact) granularity) count {} groups
          facts)[k]?.getD {}) :=
  Grouping.collect?_eq (placed_eq occurredAt granularity hcount) hkeeps
    (fun metrics hmetrics => by cases hmetrics) hgroups facts

end Rounds

/-- **When no error is raised**: the instants can be converted, and the categories are metrics. -/
def RollupComputable : Prop :=
  (∀ stamp ∈ facts.stamps, inRange stamp.2 = true) ∧ ∀ fact ∈ facts.mesCalls, hasKnownCategory categories fact = true

/-- It is as the three rounds find it. -/
theorem rollupComputable_iff : RollupComputable facts categories
    ↔ (facts.interactions.all fun fact => inRange fact.occurredAt && true) = true
      ∧ (facts.llmCalls.all fun fact => inRange fact.occurredAt && true) = true
      ∧ (facts.mesCalls.all fun fact => inRange fact.occurredAt && hasKnownCategory categories fact) = true := by
  simp only [RollupComputable, UsageFacts.stamps, List.mem_append, List.mem_map, List.all_eq_true, Bool.and_true,
    Bool.and_eq_true]
  constructor
  · rintro ⟨hrange, hcategory⟩
    exact ⟨fun fact hfact => hrange _ (.inl (.inl ⟨fact, hfact, rfl⟩)),
      fun fact hfact => hrange _ (.inl (.inr ⟨fact, hfact, rfl⟩)),
      fun fact hfact => ⟨hrange _ (.inr ⟨fact, hfact, rfl⟩), hcategory fact hfact⟩⟩
  · rintro ⟨hinteractions, hllm, hmes⟩
    refine ⟨?_, fun fact hfact => (hmes fact hfact).2⟩
    rintro stamp ((⟨fact, hfact, rfl⟩ | ⟨fact, hfact, rfl⟩) | ⟨fact, hfact, rfl⟩)
    · exact hinteractions fact hfact
    · exact hllm fact hfact
    · exact (hmes fact hfact).1

/-- **What `compute_bucket_metrics` computes.** -/
theorem computeBucketMetrics?_eq_some {granularity : Granularity} {rollup : Std.ExtTreeMap Instant UsageMetrics} :
    computeBucketMetrics? facts categories granularity = some rollup
      ↔ RollupComputable facts categories ∧ bucketsAs facts categories granularity = rollup := by
  have hempty : ∀ k : Instant, UsageBucket.Formed ((∅ : Std.ExtTreeMap Instant UsageBucket)[k]?.getD {}) := by
    intro k metrics hmetrics
    rw [Std.ExtTreeMap.getElem?_empty] at hmetrics
    cases hmetrics
  obtain ⟨hinteractions, hformed⟩ := collect?_buckets (fun fact : InteractionFactRow => fact.occurredAt) granularity
    (fun bucket fact _ => (if_pos rfl).symm) (fun bucket fact => (UsageBucket.counted_countInteraction bucket fact).formed)
    hempty facts.interactions
  obtain ⟨hllm, hformed⟩ := collect?_buckets (fun fact : LlmCallFactRow => fact.occurredAt) granularity
    (fun bucket fact _ => (if_pos rfl).symm) (fun bucket fact => (UsageBucket.counted_countLlm bucket fact).formed)
    hformed facts.llmCalls
  obtain ⟨hmes, -⟩ := collect?_buckets (fun fact : MesCallFactRow => fact.occurredAt) granularity
    (fun bucket fact h => countMes?_eq categories h fact)
    (fun bucket fact => (UsageBucket.counted_countMesAs categories bucket fact).formed) hformed facts.mesCalls
  rw [rollupComputable_iff, computeBucketMetrics?, hinteractions]
  by_cases hi : (facts.interactions.all fun fact => inRange fact.occurredAt && true) = true
  · rw [if_pos hi]
    show (Grouping.collect? _ _ _ _ _ >>= _) = _ ↔ _
    rw [hllm]
    by_cases hl : (facts.llmCalls.all fun fact => inRange fact.occurredAt && true) = true
    · rw [if_pos hl]
      show (Grouping.collect? _ _ _ _ _ >>= _) = _ ↔ _
      rw [hmes]
      by_cases hm : (facts.mesCalls.all fun fact => inRange fact.occurredAt && hasKnownCategory categories fact) = true
      · rw [if_pos hm]
        show some (bucketsAs facts categories granularity) = some rollup ↔ _
        rw [Option.some.injEq]
        exact ⟨fun h => ⟨⟨hi, hl, hm⟩, h⟩, fun h => h.2⟩
      · rw [if_neg hm]
        exact ⟨nofun, fun h => absurd h.1.2.2 hm⟩
    · rw [if_neg hl]
      exact ⟨nofun, fun h => absurd h.1.2.1 hl⟩
  · rw [if_neg hi]
    exact ⟨nofun, fun h => absurd h.1.1 hi⟩

/-- **Where every category of the table is one of the bill**, the roll-up is the one of the typed table. -/
theorem computeBucketMetrics?_of_typed (categories : String → Option MesCategory) (granularity : Granularity)
    (hrange : ∀ stamp ∈ facts.stamps, inRange stamp.2 = true) :
    computeBucketMetrics? facts (fun operation => (categories operation).map MesCategory.value) granularity
      = some (computeBucketMetrics facts categories granularity) := by
  have hcategory (fact : MesCallFactRow) :
      UsageBucket.callCategory (fun operation => (categories operation).map MesCategory.value) fact
        = ((categories fact.operationId).getD .other).value := by
    rw [UsageBucket.callCategory]
    cases categories fact.operationId <;> rfl
  have hmetrics : ∀ category : MesCategory, "mes_calls." ++ category.value ∈ baseBucket := by
    intro category
    cases category <;> decide +kernel
  refine (computeBucketMetrics?_eq_some facts _).mpr ⟨⟨hrange, fun fact _ => decide_eq_true ?_⟩, ?_⟩
  · rw [hcategory]
    exact hmetrics _
  · have hcount : UsageBucket.countMesAs (fun operation => (categories operation).map MesCategory.value)
        = UsageBucket.countMes categories := by
      funext bucket fact
      rw [UsageBucket.countMesAs, hcategory]
      rfl
    rw [bucketsAs, hcount]
    rfl

end Facts
