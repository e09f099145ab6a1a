import FactoryAgent.Statistics.RollupCounts
import Mathlib.Algebra.Order.BigOperators.Group.Finset
import Mathlib.Algebra.Order.Group.Int

/-!
# The hours and the days of the roll-up

The hours of a day add up to the day in every metric that is a sum, since each fact adds to its hour what it adds to
its day (`hoursAddUp`); the numbers of different things are bounded by the hours; the MES calls add up by status and
by category; and the order of the facts does not matter.

Two slips keep that from being so for all facts (`rollup_consistent_iff`). A category of the table that is not one of
the bill is an error, or is counted as a status. And a fact that nothing but its user is known of does not enter its
bucket, so that the user is counted on the day and in no hour of it.
-/

open Statistics (inRange)

/-! ## What is expected of a roll-up -/

/-- The value of a metric in a roll-up: nothing where there is no row. -/
def valueIn (rollup : Std.ExtTreeMap Instant UsageMetrics) (bucket : Instant) (metric : String) : Int :=
  ((rollup[bucket]?.bind fun metrics => metrics[metric]?).getD 0)

/-- The hours of a day. -/
def hoursOf (day : Instant) : List Instant :=
  (List.range 24).map fun (hour : Nat) => day + hour * 3600000000

/-- The two metrics that are numbers of different things. -/
def distinctMetrics : List String := ["users", "llm_logical_calls"]

/-- `MES_CATEGORIES` -/
def mesCategories : List String := ["output", "payroll", "order", "other"]

/-- **The hours add up to the day** in every metric that is a sum. -/
def HoursAddUp (hourly daily : Std.ExtTreeMap Instant UsageMetrics) : Prop :=
  ∀ instant metric, metric ∉ distinctMetrics →
    valueIn daily (bucketKey instant .day) metric
      = ((hoursOf (bucketKey instant .day)).map fun hour => valueIn hourly hour metric).sum

/-- **A number of different things** is not less on the day than in an hour, and not more than in all hours. -/
def DistinctBounded (hourly daily : Std.ExtTreeMap Instant UsageMetrics) : Prop :=
  ∀ instant, ∀ metric ∈ distinctMetrics,
    (∀ hour ∈ hoursOf (bucketKey instant .day),
      valueIn hourly hour metric ≤ valueIn daily (bucketKey instant .day) metric)
    ∧ valueIn daily (bucketKey instant .day) metric
      ≤ ((hoursOf (bucketKey instant .day)).map fun hour => valueIn hourly hour metric).sum

/-- **The MES calls of a bucket** are those that completed and those that failed, and those of all categories. -/
def CallsAddUp (rollup : Std.ExtTreeMap Instant UsageMetrics) : Prop :=
  ∀ bucket,
    valueIn rollup bucket "mes_calls.completed" + valueIn rollup bucket "mes_calls.failed"
        = valueIn rollup bucket "mes_calls"
      ∧ (mesCategories.map fun category => valueIn rollup bucket ("mes_calls." ++ category)).sum
        = valueIn rollup bucket "mes_calls"

/-- The same facts in another order. -/
structure UsageFacts.Shuffled (facts shuffled : UsageFacts) : Prop where
  interactions : facts.interactions.Perm shuffled.interactions
  llmCalls : facts.llmCalls.Perm shuffled.llmCalls
  mesCalls : facts.mesCalls.Perm shuffled.mesCalls

/-- **The roll-ups of some facts are consistent**: both are computed, the hours agree with the days, the calls add up,
and the order of the facts does not matter. -/
def RollupConsistent (facts : UsageFacts) (categories : String → Option String) : Prop :=
  ∃ hourly daily, computeBucketMetrics? facts categories .hour = some hourly
    ∧ computeBucketMetrics? facts categories .day = some daily
    ∧ HoursAddUp hourly daily ∧ DistinctBounded hourly daily ∧ CallsAddUp hourly ∧ CallsAddUp daily
    ∧ ∀ shuffled, facts.Shuffled shuffled →
      computeBucketMetrics? shuffled categories .hour = some hourly
        ∧ computeBucketMetrics? shuffled categories .day = some daily

/-! ## When they are -/

/-- The hours of a day with a row: those with a fact that enters its bucket. -/
def countedHours (facts : UsageFacts) (day : Instant) : List Instant :=
  (hoursOf day).filter fun hour => (facts.within .hour hour).enters

/-- The users of the hours with a row. -/
def seenUsers (facts : UsageFacts) (day : Instant) : Finset String :=
  (countedHours facts day).toFinset.biUnion fun hour => (facts.within .hour hour).users

/-- **The users that no hour with a row knows.** -/
def missedUsers (facts : UsageFacts) (day : Instant) : Finset String :=
  (facts.within .day day).users \ seenUsers facts day

/-- **How often a user appears again** in another hour with a row. -/
def repeatedUsers (facts : UsageFacts) (day : Instant) : Nat :=
  ((countedHours facts day).map fun hour => (facts.within .hour hour).users.card).sum - (seenUsers facts day).card

section Facts

variable (facts : UsageFacts) (categories : String → Option String)

/-! ## The values of a roll-up -/

/-- A bucket begins with nothing counted. -/
theorem getElem?_baseBucket {metric : String} (h : metric ∈ baseBucket) : baseBucket[metric]? = some 0 := by
  have hzero : ∀ entry ∈ baseBucket.toList, entry.2 = 0 := by decide +kernel
  obtain ⟨value, hvalue⟩ := Option.isSome_iff_exists.mp (Std.ExtTreeMap.mem_iff_isSome_getElem?.mp h)
  have hvalueZero : value = 0 := hzero (metric, value) (Std.ExtTreeMap.mem_toList_iff_getElem?_eq_some.mpr hvalue)
  rw [hvalue, hvalueZero]

/-- The value of a metric in the bucket of some facts. -/
theorem valueIn_bucketsAs (granularity : Granularity) (bucket : Instant) (metric : String) :
    valueIn (bucketsAs facts categories granularity) bucket metric
      = (((bucketAs (facts.within granularity bucket) categories).finished.bind fun metrics => metrics[metric]?).getD 0) := by
  rw [valueIn, getElem?_bucketsAs]

/-- **The value of a metric that is a sum** is what the facts of the bucket add to it. -/
theorem finished_sum {metric : String} (h : metric ∉ distinctMetrics) :
    (((bucketAs facts categories).finished.bind fun metrics => metrics[metric]?).getD 0)
      = if metric ∈ baseBucket then gained (facts.increments categories) metric else 0 := by
  have hadds := adds_bucketAs facts categories metric
  have hbase : (({} : UsageBucket).metrics.getD baseBucket)[metric]? = if metric ∈ baseBucket then some 0 else none := by
    split
    · exact getElem?_baseBucket ‹_›
    · exact Std.ExtTreeMap.getElem?_eq_none ‹_›
  have husers : "users" ≠ metric := fun heq => h (heq ▸ List.mem_cons_self)
  have hcalls : "llm_logical_calls" ≠ metric := fun heq => h (heq ▸ List.mem_cons_of_mem _ List.mem_cons_self)
  rw [hbase] at hadds
  rw [UsageBucket.finished]
  cases hmetrics : (bucketAs facts categories).metrics with
  | none =>
    -- A bucket that is not entered gained nothing.
    rw [hmetrics, Option.getD_none] at hadds
    split
    · rename_i hmem
      rw [if_pos hmem, getElem?_baseBucket hmem] at hadds
      simpa using hadds
    · rfl
  | some metrics =>
    rw [hmetrics, Option.getD_some] at hadds
    simp only [Option.map_some, Option.bind_some, Std.ExtTreeMap.getElem?_insert, Std.LawfulEqCmp.compare_eq_iff_eq,
      if_neg husers, if_neg hcalls, hadds]
    split <;> simp

/-- **The number of different things** in a bucket that is entered. -/
theorem finished_users :
    (((bucketAs facts categories).finished.bind fun metrics => metrics["users"]?).getD 0)
      = if facts.enters then (facts.users.card : Int) else 0 := by
  have hsome := isSome_metrics_bucketAs facts categories
  rw [UsageBucket.finished, ← hsome]
  cases hmetrics : (bucketAs facts categories).metrics with
  | none => rfl
  | some metrics =>
    simp only [Option.map_some, Option.bind_some, Std.ExtTreeMap.getElem?_insert, Std.LawfulEqCmp.compare_eq_iff_eq]
    simp [size_users_bucketAs]

/-- **The number of logical calls** in a bucket that is entered. -/
theorem finished_calls :
    (((bucketAs facts categories).finished.bind fun metrics => metrics["llm_logical_calls"]?).getD 0)
      = if facts.enters then (facts.calls.card : Int) else 0 := by
  have hsome := isSome_metrics_bucketAs facts categories
  rw [UsageBucket.finished, ← hsome]
  cases hmetrics : (bucketAs facts categories).metrics with
  | none => rfl
  | some metrics =>
    simp only [Option.map_some, Option.bind_some, Std.ExtTreeMap.getElem?_insert, Std.LawfulEqCmp.compare_eq_iff_eq]
    simp [size_calls_bucketAs]

/-! ## Hours and days -/

/-- The hours of a day are different. -/
theorem nodup_hoursOf (day : Int) : (hoursOf day).Nodup := by
  refine List.Nodup.map (fun a b heq => ?_) List.nodup_range
  have hsame : (day + a * 3600000000 : Int) = day + b * 3600000000 := heq
  omega

/-- An instant of an hour of a day is one of the day. -/
theorem bucketKey_day_of_hour {instant occurredAt hour : Int} (h : hour ∈ hoursOf (bucketKey instant .day))
    (hhour : bucketKey occurredAt .hour = hour) : bucketKey occurredAt .day = bucketKey instant .day := by
  obtain ⟨index, hindex, rfl⟩ := List.mem_map.mp h
  have hlt := List.mem_range.mp hindex
  have hinstant : (occurredAt - occurredAt % 3600000000 : Int) = instant - instant % 86400000000 + index * 3600000000 :=
    hhour
  show (occurredAt - occurredAt % 86400000000 : Int) = instant - instant % 86400000000
  omega

/-- An instant of a day is one of an hour of it. -/
theorem bucketKey_hour_mem {instant occurredAt : Int} (h : bucketKey occurredAt .day = bucketKey instant .day) :
    bucketKey occurredAt .hour ∈ hoursOf (bucketKey instant .day) := by
  have hday : (occurredAt - occurredAt % 86400000000 : Int) = instant - instant % 86400000000 := h
  refine List.mem_map.mpr ⟨(occurredAt % 86400000000 / 3600000000).toNat, List.mem_range.mpr (by omega), ?_⟩
  show (instant - instant % 86400000000 + (occurredAt % 86400000000 / 3600000000).toNat * 3600000000 : Int)
    = occurredAt - occurredAt % 3600000000
  omega

/-- The facts of an hour are those of its day in the hour. -/
theorem within_hour {instant hour : Instant} (h : hour ∈ hoursOf (bucketKey instant .day)) :
    facts.within .hour hour = (facts.within .day (bucketKey instant .day)).within .hour hour := by
  rw [UsageFacts.within, UsageFacts.within, UsageFacts.within, UsageFacts.filter_filter]
  refine UsageFacts.filter_congr fun stamp _ => ?_
  by_cases hhour : bucketKey stamp.2 .hour = hour
  · rw [decide_eq_true hhour, decide_eq_true (bucketKey_day_of_hour h hhour)]
    rfl
  · rw [decide_eq_false hhour, Bool.and_false]

/-- What facts add, by their kinds. -/
theorem gained_increments (metric : String) : gained (facts.increments categories) metric
    = (facts.interactions.map fun fact => gained (UsageBucket.interactionIncrements fact) metric).sum
      + (facts.llmCalls.map fun fact => gained (UsageBucket.llmIncrements fact) metric).sum
      + (facts.mesCalls.map fun fact => gained (UsageBucket.mesIncrements categories fact) metric).sum := by
  rw [UsageFacts.increments, gained_append, gained_append, gained_flatMap, gained_flatMap, gained_flatMap]

/-- **What the facts of a day add is what those of its hours add.** -/
theorem sum_gained_hours (instant : Instant) (metric : String) :
    ((hoursOf (bucketKey instant .day)).map fun hour =>
        gained ((facts.within .hour hour).increments categories) metric).sum
      = gained ((facts.within .day (bucketKey instant .day)).increments categories) metric := by
  rw [List.map_congr_left fun hour hmem => by rw [within_hour facts hmem, gained_increments]]
  rw [List.sum_map_add, List.sum_map_add, gained_increments]
  have hgroups {α : Type} (facts : List α) (occurredAt : α → Instant) (value : α → Int) :
      ((hoursOf (bucketKey instant .day)).map fun hour =>
        (((facts.filter fun fact => bucketKey (occurredAt fact) .day = bucketKey instant .day).filter
          fun fact => bucketKey (occurredAt fact) .hour = hour).map value).sum).sum
        = ((facts.filter fun fact => bucketKey (occurredAt fact) .day = bucketKey instant .day).map value).sum :=
    Grouping.sum_map_groups (fun fact => bucketKey (occurredAt fact) .hour) value (nodup_hoursOf _)
      fun fact hfact => bucketKey_hour_mem (by simpa using (List.mem_filter.mp hfact).2)
  exact congrArg₂ _ (congrArg₂ _ (hgroups facts.interactions _ _) (hgroups facts.llmCalls _ _))
    (hgroups facts.mesCalls _ _)

/-- **The hours add up to the day.** -/
theorem hoursAddUp : HoursAddUp (bucketsAs facts categories .hour) (bucketsAs facts categories .day) := by
  intro instant metric hmetric
  simp only [valueIn_bucketsAs, finished_sum _ _ hmetric]
  by_cases hmem : metric ∈ baseBucket
  · simp only [if_pos hmem, sum_gained_hours]
  · simp only [if_neg hmem]
    simp

/-! ## Numbers of different things -/

theorem UsageFacts.mem_users {user : String} :
    user ∈ facts.users ↔ user ≠ "" ∧ ∃ fact ∈ facts.interactions, fact.userSubjectId = user := by
  rw [UsageFacts.users, Finset.mem_filter, List.mem_toFinset, List.mem_map]
  exact and_comm

theorem UsageFacts.mem_calls {call : String} :
    call ∈ facts.calls ↔ call ≠ "" ∧ ∃ fact ∈ facts.llmCalls, fact.logicalCallId = call := by
  rw [UsageFacts.calls, Finset.mem_filter, List.mem_toFinset, List.mem_map]
  exact and_comm

/-- Fewer facts have fewer users. -/
theorem users_filter_subset (p : FactStamp → Bool) : (facts.filter p).users ⊆ facts.users := by
  intro user huser
  obtain ⟨hne, fact, hfact, hname⟩ := (UsageFacts.mem_users _).mp huser
  exact (UsageFacts.mem_users _).mpr ⟨hne, fact, (List.mem_filter.mp hfact).1, hname⟩

/-- Fewer facts have fewer calls. -/
theorem calls_filter_subset (p : FactStamp → Bool) : (facts.filter p).calls ⊆ facts.calls := by
  intro call hcall
  obtain ⟨hne, fact, hfact, hname⟩ := (UsageFacts.mem_calls _).mp hcall
  exact (UsageFacts.mem_calls _).mpr ⟨hne, fact, (List.mem_filter.mp hfact).1, hname⟩

/-- The hours without a row add nothing. -/
theorem sum_counted (day : Instant) (number : Instant → Nat) :
    ((hoursOf day).map fun hour => if (facts.within .hour hour).enters then (number hour : Int) else 0).sum
      = (((countedHours facts day).map number).sum : Nat) := by
  unfold countedHours
  induction hoursOf day with
  | nil => rfl
  | cons hour hours ih =>
    rw [List.map_cons, List.sum_cons, ih, List.filter_cons]
    split
    · rw [List.map_cons, List.sum_cons, Int.natCast_add]
    · rw [zero_add]

/-- **A union over the hours with a row** is not larger than the sum. -/
theorem card_biUnion_counted (day : Instant) (things : Instant → Finset String) :
    ((countedHours facts day).toFinset.biUnion things).card
      ≤ ((countedHours facts day).map fun hour => (things hour).card).sum := by
  have hnodup : (countedHours facts day).Nodup := (nodup_hoursOf day).filter _
  rw [← List.sum_toFinset _ hnodup]
  exact Finset.card_biUnion_le

/-- A number of an hour with a row is not more than that of the day. -/
theorem hour_le_day {instant hour : Instant} (h : hour ∈ hoursOf (bucketKey instant .day))
    {things : UsageFacts → Finset String} (hmono : ∀ (facts : UsageFacts) p, things (facts.filter p) ⊆ things facts) :
    (if (facts.within .hour hour).enters then ((things (facts.within .hour hour)).card : Int) else 0)
      ≤ if (facts.within .day (bucketKey instant .day)).enters then
          ((things (facts.within .day (bucketKey instant .day))).card : Int) else 0 := by
  split
  · rename_i henters
    rw [within_hour facts h] at henters ⊢
    rw [if_pos (UsageFacts.enters_of_filter henters)]
    exact Int.ofNat_le.mpr (Finset.card_le_card (hmono _ _))
  · split
    · exact Int.natCast_nonneg _
    · exact le_refl _

/-- **The users of a day** are not more than those of its hours with a row, exactly where those who are missed are not
more than those who appear again. -/
theorem users_le_iff (instant : Instant) :
    (if (facts.within .day (bucketKey instant .day)).enters then
        ((facts.within .day (bucketKey instant .day)).users.card : Int) else 0)
      ≤ ((hoursOf (bucketKey instant .day)).map fun hour =>
        if (facts.within .hour hour).enters then ((facts.within .hour hour).users.card : Int) else 0).sum
    ↔ ((facts.within .day (bucketKey instant .day)).enters = true →
      (missedUsers facts (bucketKey instant .day)).card ≤ repeatedUsers facts (bucketKey instant .day)) := by
  have hseen : seenUsers facts (bucketKey instant .day) ⊆ (facts.within .day (bucketKey instant .day)).users := by
    refine Finset.biUnion_subset.mpr fun hour hmem => ?_
    rw [within_hour facts (List.mem_filter.mp (List.mem_toFinset.mp hmem)).1]
    exact users_filter_subset _ _
  have hsplit := Finset.card_sdiff_add_card_eq_card hseen
  have hle := card_biUnion_counted facts (bucketKey instant .day) fun hour => (facts.within .hour hour).users
  rw [sum_counted, missedUsers, repeatedUsers, ← hsplit]
  rw [← seenUsers] at hle
  split
  · rename_i henters
    simp only [henters, forall_const]
    omega
  · rename_i henters
    simp only [henters, false_implies, iff_true, Bool.false_eq_true]
    exact Int.natCast_nonneg _

/-- **The calls of a day** are not more than those of its hours. -/
theorem calls_le (instant : Instant) :
    (if (facts.within .day (bucketKey instant .day)).enters then
        ((facts.within .day (bucketKey instant .day)).calls.card : Int) else 0)
      ≤ ((hoursOf (bucketKey instant .day)).map fun hour =>
        if (facts.within .hour hour).enters then ((facts.within .hour hour).calls.card : Int) else 0).sum := by
  rw [sum_counted]
  split
  · refine Int.ofNat_le.mpr (le_trans (Finset.card_le_card fun call hcall => ?_)
      (card_biUnion_counted facts (bucketKey instant .day) fun hour => (facts.within .hour hour).calls))
    -- The call is one of the hour that it was made in, and an LLM call enters its hour.
    obtain ⟨hne, fact, hfact, hname⟩ := (UsageFacts.mem_calls _).mp hcall
    have hday : bucketKey fact.occurredAt .day = bucketKey instant .day := by
      simpa using (List.mem_filter.mp hfact).2
    have hin : fact ∈ (facts.within .hour (bucketKey fact.occurredAt .hour)).llmCalls :=
      List.mem_filter.mpr ⟨(List.mem_filter.mp hfact).1, by simp⟩
    have henters : (facts.within .hour (bucketKey fact.occurredAt .hour)).enters = true := by
      rw [UsageFacts.enters, Bool.or_eq_true, Bool.or_eq_true]
      exact .inl (.inr (List.any_eq_true.mpr ⟨fact, hin, rfl⟩))
    exact Finset.mem_biUnion.mpr ⟨_, List.mem_toFinset.mpr (List.mem_filter.mpr ⟨bucketKey_hour_mem hday, henters⟩),
      (UsageFacts.mem_calls _).mpr ⟨hne, fact, hin, hname⟩⟩
  · exact Int.natCast_nonneg _

/-- **The numbers of different things are bounded exactly where** no day misses more users than appear again. -/
theorem distinctBounded_iff :
    DistinctBounded (bucketsAs facts categories .hour) (bucketsAs facts categories .day)
      ↔ ∀ instant, (facts.within .day (bucketKey instant .day)).enters = true →
        (missedUsers facts (bucketKey instant .day)).card ≤ repeatedUsers facts (bucketKey instant .day) := by
  simp only [DistinctBounded, distinctMetrics, List.forall_mem_cons, List.not_mem_nil, false_implies, implies_true,
    and_true, valueIn_bucketsAs, finished_users, finished_calls, users_le_iff]
  exact ⟨fun h instant => (h instant).1.2, fun h instant =>
    ⟨⟨fun hour hmem => hour_le_day facts hmem users_filter_subset, h instant⟩,
      fun hour hmem => hour_le_day facts hmem calls_filter_subset, calls_le facts instant⟩⟩

/-! ## MES calls -/

theorem gained_cons (name : String) (value : Int) (increments : List (String × Int)) (metric : String) :
    gained ((name, value) :: increments) metric = (if name = metric then value else 0) + gained increments metric := by
  unfold gained
  by_cases heq : name = metric
  · rw [List.filter_cons_of_pos (by simpa using heq), if_pos heq, List.map_cons, List.sum_cons]
  · rw [List.filter_cons_of_neg (by simpa using heq), if_neg heq, zero_add]

/-- Whether a name is one of the metrics of MES calls. -/
def isCallMetric (metric : String) : Bool :=
  metric.toList.take 5 == "mes_c".toList

/-- A measure of something else is not one of MES calls. -/
theorem measured_name {metric : String} {value : Option Int} (h : isCallMetric metric = false)
    (h' : isCallMetric (metric ++ ".count") = false) :
    ∀ increment ∈ UsageBucket.measured metric value, isCallMetric increment.1 = false := by
  cases value with
  | none => exact fun increment hmem => absurd hmem List.not_mem_nil
  | some value => exact List.forall_mem_cons.mpr ⟨h, List.forall_mem_singleton.mpr h'⟩

/-- **An interaction adds nothing to the metrics of MES calls.** -/
theorem interaction_name (fact : InteractionFactRow) :
    ∀ increment ∈ UsageBucket.interactionIncrements fact, isCallMetric increment.1 = false := by
  have hevent : ∀ increment ∈ UsageBucket.eventIncrements fact, isCallMetric increment.1 = false := by
    unfold UsageBucket.eventIncrements
    split
    · exact List.forall_mem_singleton.mpr (by decide)
    · split
      · exact List.forall_mem_singleton.mpr (by decide)
      · exact fun increment hmem => absurd hmem List.not_mem_nil
  have hstatus : ∀ increment ∈ UsageBucket.statusIncrements fact.status, isCallMetric increment.1 = false := by
    unfold UsageBucket.statusIncrements
    split
    · exact fun increment hmem => absurd hmem List.not_mem_nil
    · split
      · exact fun increment hmem => absurd hmem List.not_mem_nil
      · refine List.forall_mem_singleton.mpr ?_
        show (("status." ++ _ : String).toList.take 5 == _) = false
        rw [String.toList_append, List.take_append_of_le_length (by decide)]
        decide
  simp only [UsageBucket.interactionIncrements, List.forall_mem_append]
  exact ⟨⟨⟨⟨⟨hevent, hstatus⟩, measured_name (by decide) (by decide)⟩, measured_name (by decide) (by decide)⟩,
    measured_name (by decide) (by decide)⟩, measured_name (by decide) (by decide)⟩

/-- **An LLM call adds nothing to the metrics of MES calls.** -/
theorem llm_name (fact : LlmCallFactRow) :
    ∀ increment ∈ UsageBucket.llmIncrements fact, isCallMetric increment.1 = false := by
  simp only [UsageBucket.llmIncrements, List.forall_mem_append]
  exact ⟨⟨⟨⟨List.forall_mem_singleton.mpr (by decide), measured_name (by decide) (by decide)⟩,
    measured_name (by decide) (by decide)⟩, measured_name (by decide) (by decide)⟩,
    measured_name (by decide) (by decide)⟩

/-- **The metrics of MES calls** are what the MES calls add. -/
theorem gained_calls {metric : String} (h : isCallMetric metric = true) :
    gained (facts.increments categories) metric
      = (facts.mesCalls.map fun fact => gained (UsageBucket.mesIncrements categories fact) metric).sum := by
  have hother {α : Type} {increments : α → List (String × Int)} (elements : List α)
      (hname : ∀ element, ∀ increment ∈ increments element, isCallMetric increment.1 = false) :
      (elements.map fun element => gained (increments element) metric).sum = 0 := by
    refine List.sum_eq_zero fun value hvalue => ?_
    obtain ⟨element, -, rfl⟩ := List.mem_map.mp hvalue
    refine gained_eq_zero fun increment hmem heq => ?_
    have hfalse := hname element increment hmem
    rw [heq, h] at hfalse
    cases hfalse
  rw [gained_increments, hother _ interaction_name, hother _ llm_name, zero_add, zero_add]

/-- The metric of a category. -/
theorem isCallMetric_category (category : String) : isCallMetric ("mes_calls." ++ category) = true := by
  show (("mes_calls." ++ category : String).toList.take 5 == _) = true
  rw [String.toList_append, List.take_append_of_le_length (by decide)]
  decide

/-- What one MES call adds to the metric of a category or a status. -/
theorem gained_mesIncrements (fact : MesCallFactRow) (label : String) :
    gained (UsageBucket.mesIncrements categories fact) ("mes_calls." ++ label)
      = (if UsageBucket.callStatus fact = label then 1 else 0)
        + if UsageBucket.callCategory categories fact = label then 1 else 0 := by
  have hne : "mes_calls" ≠ "mes_calls." ++ label := by
    intro heq
    have hlength := congrArg String.length heq
    rw [String.length_append] at hlength
    have hshort : "mes_calls".length = 9 := by decide
    have hlong : "mes_calls.".length = 10 := by decide
    omega
  rw [UsageBucket.mesIncrements, gained_cons, gained_cons, gained_cons, if_neg hne]
  simp only [String.append_right_inj, zero_add]
  rw [gained, List.filter_nil, List.map_nil, List.sum_nil, add_zero]

/-- What one MES call adds to all calls. -/
theorem gained_mesIncrements_all (fact : MesCallFactRow) :
    gained (UsageBucket.mesIncrements categories fact) "mes_calls" = 1 := by
  have hne (label : String) : "mes_calls." ++ label ≠ "mes_calls" := by
    intro heq
    have hlength := congrArg String.length heq
    rw [String.length_append] at hlength
    have hshort : "mes_calls".length = 9 := by decide
    have hlong : "mes_calls.".length = 10 := by decide
    omega
  rw [UsageBucket.mesIncrements, gained_cons, gained_cons, gained_cons, if_pos rfl, if_neg (hne _), if_neg (hne _)]
  rfl

/-- The labels of MES calls that are metrics. -/
theorem mem_baseBucket_label {label : String} :
    "mes_calls." ++ label ∈ baseBucket ↔ label ∈ mesCategories ∨ label ∈ ["completed", "failed"] := by
  constructor
  · intro hmem
    have hnames : ∀ metric ∈ baseBucket.keys, "mes_calls.".toList.isPrefixOf metric.toList = true →
        ∃ label ∈ mesCategories ++ ["completed", "failed"], metric = "mes_calls." ++ label := by decide +kernel
    obtain ⟨known, hknown, heq⟩ := hnames _ (Std.ExtTreeMap.mem_keys.mpr hmem) (by
      rw [String.toList_append]
      exact List.isPrefixOf_iff_prefix.mpr (List.prefix_append _ _))
    rw [String.append_right_inj] at heq
    exact heq ▸ List.mem_append.mp hknown
  · rw [← List.mem_append]
    have hmetrics : ∀ label ∈ mesCategories ++ ["completed", "failed"], "mes_calls." ++ label ∈ baseBucket := by
      decide +kernel
    exact hmetrics label

/-- The table gives a call a category that is a metric. -/
theorem hasKnownCategory_iff {fact : MesCallFactRow} : hasKnownCategory categories fact = true
    ↔ UsageBucket.callCategory categories fact ∈ mesCategories
      ∨ UsageBucket.callCategory categories fact ∈ ["completed", "failed"] := by
  rw [hasKnownCategory, decide_eq_true_eq, mem_baseBucket_label]

/-- What a MES call adds to the two statuses. -/
theorem gained_statuses (fact : MesCallFactRow) :
    gained (UsageBucket.mesIncrements categories fact) "mes_calls.completed"
        + gained (UsageBucket.mesIncrements categories fact) "mes_calls.failed"
      = 1 + if UsageBucket.callCategory categories fact ∈ ["completed", "failed"] then 1 else 0 := by
  have hcompleted := gained_mesIncrements categories fact "completed"
  have hfailed := gained_mesIncrements categories fact "failed"
  rw [show "mes_calls." ++ "completed" = "mes_calls.completed" by decide] at hcompleted
  rw [show "mes_calls." ++ "failed" = "mes_calls.failed" by decide] at hfailed
  rw [hcompleted, hfailed, UsageBucket.callStatus]
  generalize UsageBucket.callCategory categories fact = category
  grind

/-- What a MES call adds to the categories. -/
theorem gained_categories (fact : MesCallFactRow) :
    (mesCategories.map fun category => gained (UsageBucket.mesIncrements categories fact) ("mes_calls." ++ category)).sum
      = if UsageBucket.callCategory categories fact ∈ mesCategories then 1 else 0 := by
  simp only [gained_mesIncrements, mesCategories, List.map_cons, List.map_nil, List.sum_cons, List.sum_nil,
    UsageBucket.callStatus]
  generalize UsageBucket.callCategory categories fact = category
  grind

/-- The value of a metric of MES calls in a bucket. -/
theorem valueIn_calls (granularity : Granularity) (bucket : Instant) {metric : String}
    (hcall : isCallMetric metric = true) (hbase : metric ∈ baseBucket) :
    valueIn (bucketsAs facts categories granularity) bucket metric
      = ((facts.within granularity bucket).mesCalls.map fun fact =>
          gained (UsageBucket.mesIncrements categories fact) metric).sum := by
  have hsum : metric ∉ distinctMetrics := by
    intro hmem
    have hnames : ∀ metric ∈ distinctMetrics, isCallMetric metric = false := by decide
    rw [hnames metric hmem] at hcall
    cases hcall
  rw [valueIn_bucketsAs, finished_sum _ _ hsum, if_pos hbase, gained_calls _ _ hcall]

/-- **The calls of a bucket add up**, where every category is one of those of the bill. -/
theorem callsAddUp_of_known (h : ∀ fact ∈ facts.mesCalls, UsageBucket.callCategory categories fact ∈ mesCategories)
    (granularity : Granularity) : CallsAddUp (bucketsAs facts categories granularity) := by
  intro bucket
  have hin : ∀ fact ∈ (facts.within granularity bucket).mesCalls,
      UsageBucket.callCategory categories fact ∈ mesCategories := fun fact hfact => h fact (List.mem_filter.mp hfact).1
  have hall := valueIn_calls facts categories granularity bucket (show isCallMetric "mes_calls" = true by decide)
    (by decide +kernel)
  refine ⟨?_, ?_⟩
  · rw [hall, valueIn_calls facts categories granularity bucket (by decide) (by decide +kernel),
      valueIn_calls facts categories granularity bucket (by decide) (by decide +kernel), ← List.sum_map_add]
    refine congrArg List.sum (List.map_congr_left fun fact hfact => ?_)
    rw [gained_statuses, gained_mesIncrements_all, if_neg, add_zero]
    have hapart : ∀ category ∈ mesCategories, category ∉ ["completed", "failed"] := by decide
    exact hapart _ (hin fact hfact)
  · have hvalue : ∀ category ∈ mesCategories,
        valueIn (bucketsAs facts categories granularity) bucket ("mes_calls." ++ category)
          = ((facts.within granularity bucket).mesCalls.map fun fact =>
              gained (UsageBucket.mesIncrements categories fact) ("mes_calls." ++ category)).sum := fun category hmem =>
      valueIn_calls facts categories granularity bucket (isCallMetric_category category)
        (mem_baseBucket_label.mpr (.inl hmem))
    rw [hall, List.map_congr_left hvalue, Grouping.sum_map_comm]
    refine congrArg List.sum (List.map_congr_left fun fact hfact => ?_)
    rw [gained_categories, gained_mesIncrements_all, if_pos (hin fact hfact)]

/-- **Where the calls of the days add up**, no category is one of the two statuses. -/
theorem not_status_of_callsAddUp (h : CallsAddUp (bucketsAs facts categories .day)) {fact : MesCallFactRow}
    (hfact : fact ∈ facts.mesCalls) : UsageBucket.callCategory categories fact ∉ ["completed", "failed"] := by
  intro hstatus
  have hsame := (h (bucketKey fact.occurredAt .day)).1
  rw [valueIn_calls facts categories .day _ (show isCallMetric "mes_calls" = true by decide) (by decide +kernel),
    valueIn_calls facts categories .day _ (by decide) (by decide +kernel),
    valueIn_calls facts categories .day _ (by decide) (by decide +kernel), ← List.sum_map_add] at hsame
  have hin : fact ∈ (facts.within .day (bucketKey fact.occurredAt .day)).mesCalls :=
    List.mem_filter.mpr ⟨hfact, by simp⟩
  simp only [gained_statuses, gained_mesIncrements_all, List.sum_map_add] at hsame
  have hzero : ((facts.within .day (bucketKey fact.occurredAt .day)).mesCalls.map fun fact =>
      if UsageBucket.callCategory categories fact ∈ ["completed", "failed"] then (1 : Int) else 0).sum = 0 := by
    omega
  have hpos := List.single_le_sum (l := (facts.within .day (bucketKey fact.occurredAt .day)).mesCalls.map fun fact =>
      if UsageBucket.callCategory categories fact ∈ ["completed", "failed"] then (1 : Int) else 0)
    (fun value hvalue => by
      obtain ⟨other, -, rfl⟩ := List.mem_map.mp hvalue
      split <;> decide) _ (List.mem_map_of_mem hin)
  rw [if_pos hstatus, hzero] at hpos
  exact absurd hpos (by decide)

end Facts

/-! ## The order of the facts -/

namespace UsageFacts.Shuffled

variable {facts shuffled : UsageFacts} (h : facts.Shuffled shuffled)
include h

theorem filter (p : FactStamp → Bool) : (facts.filter p).Shuffled (shuffled.filter p) :=
  ⟨h.interactions.filter _, h.llmCalls.filter _, h.mesCalls.filter _⟩

theorem stamps : facts.stamps.Perm shuffled.stamps :=
  ((h.interactions.map _).append (h.llmCalls.map _)).append (h.mesCalls.map _)

theorem increments (categories : String → Option String) :
    (facts.increments categories).Perm (shuffled.increments categories) :=
  ((h.interactions.flatMap_right _).append (h.llmCalls.flatMap_right _)).append (h.mesCalls.flatMap_right _)

theorem users : facts.users = shuffled.users := by
  ext user
  simp only [UsageFacts.mem_users, h.interactions.mem_iff]

theorem calls : facts.calls = shuffled.calls := by
  ext call
  simp only [UsageFacts.mem_calls, h.llmCalls.mem_iff]

theorem enters : facts.enters = shuffled.enters := by
  rw [UsageFacts.enters, UsageFacts.enters, h.interactions.any_eq, h.llmCalls.any_eq, h.mesCalls.any_eq]

/-- **The bucket of shuffled facts** is the same. -/
theorem finished (categories : String → Option String) :
    (bucketAs facts categories).finished = (bucketAs shuffled categories).finished := by
  have hsome : (bucketAs facts categories).metrics.isSome = (bucketAs shuffled categories).metrics.isSome := by
    rw [isSome_metrics_bucketAs, isSome_metrics_bucketAs, h.enters]
  have hget : (bucketAs facts categories).metrics.getD baseBucket
      = (bucketAs shuffled categories).metrics.getD baseBucket := by
    refine Std.ExtTreeMap.ext_getElem? fun metric => ?_
    rw [adds_bucketAs facts categories metric, adds_bucketAs shuffled categories metric,
      gained_perm (h.increments categories)]
  have hmetrics : (bucketAs facts categories).metrics = (bucketAs shuffled categories).metrics := by
    cases hleft : (bucketAs facts categories).metrics <;> cases hright : (bucketAs shuffled categories).metrics <;>
      simp_all
  rw [UsageBucket.finished, UsageBucket.finished, hmetrics, size_users_bucketAs, size_users_bucketAs,
    size_calls_bucketAs, size_calls_bucketAs, h.users, h.calls]

/-- **The roll-up of shuffled facts** is the same. -/
theorem bucketsAs (categories : String → Option String) (granularity : Granularity) :
    bucketsAs facts categories granularity = bucketsAs shuffled categories granularity := by
  refine Std.ExtTreeMap.ext_getElem? fun bucket => ?_
  rw [getElem?_bucketsAs, getElem?_bucketsAs]
  exact (h.filter _).finished categories

/-- Shuffled facts are computed where the facts are. -/
theorem computable {categories : String → Option String} (hcomputable : RollupComputable facts categories) :
    RollupComputable shuffled categories :=
  ⟨fun stamp hstamp => hcomputable.1 stamp (h.stamps.mem_iff.mpr hstamp),
    fun fact hfact => hcomputable.2 fact (h.mesCalls.mem_iff.mpr hfact)⟩

end UsageFacts.Shuffled

/-! ## Where the roll-ups are consistent -/

/-- **The roll-ups of some facts are consistent exactly where** the instants can be converted, the table gives every
call a category of the bill, and no day with a row misses more users than appear again in its hours. -/
theorem rollup_consistent_iff (facts : UsageFacts) (categories : String → Option String) :
    RollupConsistent facts categories
      ↔ (∀ stamp ∈ facts.stamps, inRange stamp.2 = true)
        ∧ (∀ fact ∈ facts.mesCalls, UsageBucket.callCategory categories fact ∈ mesCategories)
        ∧ ∀ instant, (facts.within .day (bucketKey instant .day)).enters = true →
          (missedUsers facts (bucketKey instant .day)).card ≤ repeatedUsers facts (bucketKey instant .day) := by
  constructor
  · rintro ⟨hourly, daily, hhourly, hdaily, -, hdistinct, -, hcalls, -⟩
    obtain ⟨hcomputable, rfl⟩ := (computeBucketMetrics?_eq_some facts categories).mp hhourly
    obtain ⟨-, rfl⟩ := (computeBucketMetrics?_eq_some facts categories).mp hdaily
    refine ⟨hcomputable.1, fun fact hfact => ?_, (distinctBounded_iff facts categories).mp hdistinct⟩
    have hknown := (hasKnownCategory_iff categories).mp (hcomputable.2 fact hfact)
    exact hknown.resolve_right (not_status_of_callsAddUp facts categories hcalls hfact)
  · rintro ⟨hrange, hknown, hmissed⟩
    have hcomputable : RollupComputable facts categories :=
      ⟨hrange, fun fact hfact => (hasKnownCategory_iff categories).mpr (.inl (hknown fact hfact))⟩
    refine ⟨_, _, (computeBucketMetrics?_eq_some facts categories).mpr ⟨hcomputable, rfl⟩,
      (computeBucketMetrics?_eq_some facts categories).mpr ⟨hcomputable, rfl⟩, hoursAddUp facts categories,
      (distinctBounded_iff facts categories).mpr hmissed, callsAddUp_of_known facts categories hknown .hour,
      callsAddUp_of_known facts categories hknown .day, fun shuffled h => ⟨?_, ?_⟩⟩
    · exact (computeBucketMetrics?_eq_some shuffled categories).mpr
        ⟨h.computable hcomputable, (h.bucketsAs categories .hour).symm⟩
    · exact (computeBucketMetrics?_eq_some shuffled categories).mpr
        ⟨h.computable hcomputable, (h.bucketsAs categories .day).symm⟩

/-- A fact that nothing but its user is known of. -/
def quietFact : InteractionFactRow where
  tenantId := "factory"
  occurredAt := 0
  eventType := "interaction_routed"
  userSubjectId := "zhang"

/-- A question in the next hour. -/
def questionFact : InteractionFactRow where
  tenantId := "factory"
  occurredAt := 3600000000
  eventType := "interaction_started"
  userSubjectId := "li"

/-- **Roll-ups that are not consistent**: of a call whose category the table calls "quality", and of a day whose first
hour knows nothing but a user. -/
theorem rollup_inconsistent :
    ¬ RollupConsistent { mesCalls := [⟨"factory", 0, "YskQuery", "completed"⟩] } (fun _ => some "quality")
      ∧ ¬ RollupConsistent { interactions := [quietFact, questionFact] } (fun _ => none) := by
  constructor
  · rintro ⟨hourly, -, hhourly, -⟩
    have hcategory := ((computeBucketMetrics?_eq_some _ _).mp hhourly).1.2 _ List.mem_cons_self
    exact absurd ((hasKnownCategory_iff _).mp hcategory) (by decide)
  · rintro ⟨hourly, daily, hhourly, hdaily, -, hdistinct, -⟩
    obtain ⟨-, rfl⟩ := (computeBucketMetrics?_eq_some _ _).mp hhourly
    obtain ⟨-, rfl⟩ := (computeBucketMetrics?_eq_some _ _).mp hdaily
    have hmissed := (distinctBounded_iff _ _).mp hdistinct 0 (by decide)
    exact absurd hmissed (by decide +kernel)
