import FactoryAgent.Lib.Except
import FactoryAgent.Statistics.Breakdowns
import FactoryAgent.Statistics.RollupTotals

/-!
# Two ways to a series of MES calls

The statistics surface counts the MES calls of a bucket and a category from the facts; the roll-up counts them ahead.
The two truncate an instant and classify an operation independently of each other: the hour is cut off the clock as it
stands (`hourBucket`), or off the clock in UTC (`bucketKey?`); an operation that the table does not know has a category
by default (`categoryFor`), or none but "other" (`rollupCategory`). And the one counts the calls that succeeded, the
other all of them.
-/

namespace Statistics

/-! ## The two ways -/

/-- The instant in UTC, which need not be one that `datetime` has. -/
def AwareDatetime.universal (instant : AwareDatetime) : Instant :=
  instant.wall - instant.offset

/-- **The category that the roll-up gives a call**, `categories.get(fact.operation_id, "other")`. -/
def rollupCategory (table : CategoryTable) (operationId : String) : String :=
  (table.category? operationId).getD "other"

/-- A fact of a MES call, with its tenant. -/
structure CallFact where
  tenantId : String
  fact : MesCallFact
  deriving DecidableEq, Repr

/-- The fact as the roll-up reads it. -/
def CallFact.row (call : CallFact) : MesCallFactRow where
  tenantId := call.tenantId
  occurredAt := call.fact.occurredAt.universal
  operationId := call.fact.operationId
  status := call.fact.status

/-- The number of calls of a category in a bucket, as counted from the facts. -/
def liveValue (buckets : Std.ExtTreeMap Instant SeriesBucket) (bucket : Instant) (category : String) : Int :=
  (buckets[bucket]?.bind fun metrics => metrics["mes_" ++ category]?).getD 0

/-- The facts of the roll-up of a tenant. -/
def tenantRows (calls : List CallFact) (tenantId : String) : UsageFacts where
  mesCalls := (calls.filter fun call => call.tenantId = tenantId).map CallFact.row

/-- **The complete roll-up** of each tenant with a call. -/
def rollupsOf (table : CategoryTable) (granularity : Granularity) (calls : List CallFact) :
    Option (List (Std.ExtTreeMap Instant UsageMetrics)) :=
  (calls.map (·.tenantId)).dedup.mapM fun tenantId =>
    computeBucketMetrics? (tenantRows calls tenantId) table.category? granularity

/-- **The series from the facts and the one from the roll-up agree**, bucket by bucket and category by category. -/
def SeriesAgree (table : CategoryTable) (granularity : Granularity) (calls : List CallFact) : Prop :=
  ∃ live rollups, mesCategoryBuckets table granularity (calls.map (·.fact)) = some live
    ∧ rollupsOf table granularity calls = some rollups
    ∧ ∀ bucket, ∀ category ∈ mesCategories, liveValue live bucket category
      = (rollups.map fun rollup => valueIn rollup bucket ("mes_calls." ++ category)).sum

/-! ## When they agree -/

/-- **The clock is in the same hour as in UTC**: the offset does not leave it. -/
def KeepsHour (instant : AwareDatetime) : Prop :=
  0 ≤ instant.wall % 3600000000 - instant.offset ∧ instant.wall % 3600000000 - instant.offset < 3600000000

/-- An instant has one bucket: days are those of UTC, and the hour is kept. -/
def KeepsBucket (instant : AwareDatetime) (granularity : Granularity) : Prop :=
  granularity = .day ∨ inRange instant.universal = true ∧ KeepsHour instant

/-- An operation has one category: it is in the table, or is "other" by default as well. -/
def KeepsCategory (table : CategoryTable) (operationId : String) : Prop :=
  (table.category? operationId).isSome = true
    ∨ (defaultOperationCategories.lookup operationId).getD "other" = "other"

/-- **A call is counted alike**: the roll-up can be computed, and counts the call under a status for want of a category,
or the call succeeded, and its bucket and category are kept. -/
def CountedAlike (table : CategoryTable) (granularity : Granularity) (call : CallFact) : Prop :=
  inRange call.fact.occurredAt.universal = true
    ∧ (rollupCategory table call.fact.operationId ∈ ["completed", "failed"]
      ∨ rollupCategory table call.fact.operationId ∈ mesCategories ∧ call.fact.status = "completed"
        ∧ KeepsBucket call.fact.occurredAt granularity ∧ KeepsCategory table call.fact.operationId)

/-- Two clocks are cut at the same hour where the difference does not leave the hour. -/
theorem floor_eq_iff (wall offset : Int) :
    wall - wall % 3600000000 = wall - offset - (wall - offset) % 3600000000
      ↔ 0 ≤ wall % 3600000000 - offset ∧ wall % 3600000000 - offset < 3600000000 := by
  omega

/-- **The buckets agree exactly where** they are days, or the clock is in the same hour as in UTC. -/
theorem bucketStart_eq_iff (instant : AwareDatetime) (granularity : Granularity) :
    bucketStart instant granularity = bucketKey? instant.universal granularity ↔ KeepsBucket instant granularity := by
  have hday : bucketStart instant .day = bucketKey? instant.universal .day := by
    rw [bucketStart, AwareDatetime.utc?, bucketKey?, AwareDatetime.universal]
    cases inRange (instant.wall - instant.offset) <;> rfl
  cases granularity with
  | day => exact ⟨fun _ => .inl rfl, fun _ => hday⟩
  | hour =>
    rw [KeepsBucket, or_iff_right (by decide), bucketStart, bucketKey?]
    cases inRange instant.universal with
    | false => exact ⟨fun h => absurd h (Option.some_ne_none _), fun h => absurd h.1 Bool.false_ne_true⟩
    | true =>
      rw [if_pos rfl, Option.some.injEq]
      exact (floor_eq_iff instant.wall instant.offset).trans (and_iff_right rfl).symm

/-- **The categories agree exactly where** the table knows the operation, or the default is "other" as well. -/
theorem categoryFor_eq_iff (table : CategoryTable) (operationId : String) :
    categoryFor table operationId = rollupCategory table operationId ↔ KeepsCategory table operationId := by
  rw [categoryFor, rollupCategory, KeepsCategory]
  cases table.category? operationId with
  | none => exact ⟨.inr, fun h => h.resolve_left (by decide)⟩
  | some category => exact ⟨fun _ => .inl rfl, fun _ => rfl⟩

/-! ## The series from the facts -/

/-- A call that the facts count in a bucket of a category. -/
def liveAt (table : CategoryTable) (granularity : Granularity) (bucket : Instant) (category : String)
    (fact : MesCallFact) : Bool :=
  decide (bucketStart fact.occurredAt granularity = some bucket) && decide (categoryFor table fact.operationId = category)

/-- One more call. -/
theorem liveValue_addToBucket (buckets : Std.ExtTreeMap Instant SeriesBucket) (bucket other : Instant)
    (category label : String) :
    liveValue (addToBucket buckets bucket ("mes_" ++ category) 1) other label
      = liveValue buckets other label + if bucket = other ∧ category = label then 1 else 0 := by
  rw [liveValue, liveValue, addToBucket, Std.ExtTreeMap.getElem?_alter]
  simp only [Std.LawfulEqCmp.compare_eq_iff_eq]
  by_cases hbucket : bucket = other
  · subst hbucket
    rw [if_pos rfl, Option.bind_some, Std.ExtTreeMap.getElem?_alter]
    simp only [Std.LawfulEqCmp.compare_eq_iff_eq, String.append_right_inj, true_and]
    have hmetrics : (buckets[bucket]?.bind fun metrics => metrics["mes_" ++ label]?)
        = (buckets[bucket]?.getD ∅)["mes_" ++ label]? := by
      cases buckets[bucket]? with
      | none => simp
      | some metrics => rfl
    rw [hmetrics]
    by_cases hcategory : category = label
    · subst hcategory
      rw [if_pos rfl, if_pos rfl]
      rfl
    · rw [if_neg hcategory, if_neg hcategory, Int.add_zero]
  · rw [if_neg hbucket, if_neg (fun h => hbucket h.1), Int.add_zero]

/-- **The series from the facts** counts the calls of the bucket and the category. -/
theorem liveValue_foldlM {table : CategoryTable} {granularity : Granularity} {facts : List MesCallFact}
    {init live : Std.ExtTreeMap Instant SeriesBucket}
    (h : facts.foldlM (fun buckets fact => (bucketStart fact.occurredAt granularity).map fun bucket =>
      addToBucket buckets bucket ("mes_" ++ categoryFor table fact.operationId) 1) init = some live)
    (bucket : Instant) (category : String) :
    liveValue live bucket category
      = liveValue init bucket category + facts.countP (liveAt table granularity bucket category) := by
  induction facts generalizing init with
  | nil =>
    obtain rfl := Option.some.inj h
    exact (Int.add_zero _).symm
  | cons fact facts ih =>
    rw [List.foldlM_cons, Option.bind_eq_bind, Option.bind_eq_some_iff] at h
    obtain ⟨next, hnext, hrest⟩ := h
    obtain ⟨start, hstart, rfl⟩ := Option.map_eq_some_iff.mp hnext
    rw [ih hrest, liveValue_addToBucket, List.countP_cons, liveAt, hstart]
    simp only [Option.some.injEq, Bool.and_eq_true, decide_eq_true_eq]
    split <;> omega

/-- A series from the facts is made where every call that succeeded has a bucket. -/
theorem exists_mesCategoryBuckets (table : CategoryTable) {granularity : Granularity} {facts : List MesCallFact}
    (h : ∀ fact ∈ facts, (bucketStart fact.occurredAt granularity).isSome = true) :
    ∃ live, mesCategoryBuckets table granularity facts = some live := by
  refine Option.isSome_iff_exists.mp ?_
  rw [mesCategoryBuckets]
  generalize (∅ : Std.ExtTreeMap Instant SeriesBucket) = init
  have hcompleted : ∀ fact ∈ facts.filter fun fact => fact.status = "completed",
      (bucketStart fact.occurredAt granularity).isSome = true := fun fact hfact => h fact (List.mem_filter.mp hfact).1
  generalize (facts.filter fun fact => fact.status = "completed") = completed at hcompleted ⊢
  induction completed generalizing init with
  | nil => rfl
  | cons fact facts ih =>
    obtain ⟨hfirst, hrest⟩ := List.forall_mem_cons.mp hcompleted
    obtain ⟨start, hstart⟩ := Option.isSome_iff_exists.mp hfirst
    rw [List.foldlM_cons, hstart]
    exact ih _ hrest

/-- The series from the facts, as a count. -/
theorem liveValue_mesCategoryBuckets {table : CategoryTable} {granularity : Granularity} {calls : List CallFact}
    {live : Std.ExtTreeMap Instant SeriesBucket}
    (h : mesCategoryBuckets table granularity (calls.map (·.fact)) = some live) (bucket : Instant) (category : String) :
    liveValue live bucket category = (calls.map fun call =>
      if call.fact.status = "completed" ∧ liveAt table granularity bucket category call.fact = true
      then (1 : Int) else 0).sum := by
  have hempty : liveValue ∅ bucket category = 0 := by simp [liveValue]
  rw [liveValue_foldlM h bucket category, hempty, Int.zero_add, List.countP_filter, List.countP_map]
  clear h
  induction calls with
  | nil => rfl
  | cons call calls ih =>
    rw [List.countP_cons, List.map_cons, List.sum_cons, ← ih, Int.natCast_add, Int.add_comm]
    congr 1
    by_cases hcompleted : call.fact.status = "completed" <;>
      by_cases hlive : liveAt table granularity bucket category call.fact = true <;> simp [hcompleted, hlive]

/-! ## The series from the roll-up -/

/-- A call that the roll-up counts in a bucket of a category. -/
def rolledAt (table : CategoryTable) (granularity : Granularity) (bucket : Instant) (category : String)
    (fact : MesCallFact) : Bool :=
  decide (bucketKey fact.occurredAt.universal granularity = bucket)
    && decide (rollupCategory table fact.operationId = category)

/-- **The complete roll-ups are made exactly where** every call can be counted. -/
theorem rollupsOf_eq_some {table : CategoryTable} {granularity : Granularity} {calls : List CallFact}
    {rollups : List (Std.ExtTreeMap Instant UsageMetrics)} :
    rollupsOf table granularity calls = some rollups
      ↔ (∀ call ∈ calls, inRange call.fact.occurredAt.universal = true
          ∧ (rollupCategory table call.fact.operationId ∈ mesCategories
            ∨ rollupCategory table call.fact.operationId ∈ ["completed", "failed"]))
        ∧ rollups = (calls.map (·.tenantId)).dedup.map fun tenantId =>
          bucketsAs (tenantRows calls tenantId) table.category? granularity := by
  have hcomputable : (∀ tenantId ∈ (calls.map (·.tenantId)).dedup,
      RollupComputable (tenantRows calls tenantId) table.category?)
        ↔ ∀ call ∈ calls, inRange call.fact.occurredAt.universal = true
          ∧ (rollupCategory table call.fact.operationId ∈ mesCategories
            ∨ rollupCategory table call.fact.operationId ∈ ["completed", "failed"]) := by
    constructor
    · intro h call hcall
      have hrow : call.row ∈ (tenantRows calls call.tenantId).mesCalls :=
        List.mem_map_of_mem (List.mem_filter.mpr ⟨hcall, decide_eq_true rfl⟩)
      obtain ⟨hrange, hknown⟩ := h call.tenantId (List.mem_dedup.mpr (List.mem_map_of_mem hcall))
      exact ⟨hrange (call.tenantId, call.fact.occurredAt.universal) (List.mem_append_right _ (List.mem_map_of_mem hrow)),
        (hasKnownCategory_iff _).mp (hknown call.row hrow)⟩
    · intro h tenantId _
      refine ⟨fun stamp hstamp => ?_, fun row hrow => ?_⟩
      · obtain ⟨row, hrow, rfl⟩ := List.mem_map.mp hstamp
        obtain ⟨call, hcall, rfl⟩ := List.mem_map.mp hrow
        exact (h call (List.mem_filter.mp hcall).1).1
      · obtain ⟨call, hcall, rfl⟩ := List.mem_map.mp hrow
        exact (hasKnownCategory_iff _).mpr (h call (List.mem_filter.mp hcall).1).2
  rw [← hcomputable, rollupsOf, Option.mapM_eq_some_iff]
  simp only [computeBucketMetrics?_eq_some]
  rw [List.forall₂_and_left, ← List.forall₂_map_left_iff (R := Eq), List.forall₂_eq_eq_eq]
  exact and_congr_right fun _ => eq_comm

/-- **The series from the roll-up**, as a count. -/
theorem sum_valueIn_rollups (table : CategoryTable) (granularity : Granularity) (calls : List CallFact)
    (bucket : Instant) {category : String} (hcategory : category ∈ mesCategories) :
    (((calls.map (·.tenantId)).dedup.map fun tenantId =>
        bucketsAs (tenantRows calls tenantId) table.category? granularity).map fun rollup =>
          valueIn rollup bucket ("mes_calls." ++ category)).sum
      = (calls.map fun call => if rolledAt table granularity bucket category call.fact = true then (1 : Int) else 0).sum := by
  have hstatus : ∀ row : MesCallFactRow, UsageBucket.callStatus row ≠ category := by
    intro row heq
    have hapart : ∀ label ∈ mesCategories, label ≠ "completed" ∧ label ≠ "failed" := by decide
    rw [UsageBucket.callStatus] at heq
    split at heq
    · exact (hapart category hcategory).1 heq.symm
    · exact (hapart category hcategory).2 heq.symm
  have htenant : ∀ tenantId, valueIn (bucketsAs (tenantRows calls tenantId) table.category? granularity) bucket
      ("mes_calls." ++ category) = ((calls.filter fun call => call.tenantId = tenantId).map fun call =>
        if rolledAt table granularity bucket category call.fact = true then (1 : Int) else 0).sum := by
    intro tenantId
    rw [valueIn_calls _ _ _ _ (isCallMetric_category category) (mem_baseBucket_label.mpr (.inl hcategory))]
    simp only [gained_mesIncrements, if_neg (hstatus _), zero_add]
    show ((((calls.filter fun call => call.tenantId = tenantId).map CallFact.row).filter
      fun row => decide (bucketKey row.occurredAt granularity = bucket)).map fun row =>
        if UsageBucket.callCategory table.category? row = category then (1 : Int) else 0).sum = _
    generalize (calls.filter fun call => call.tenantId = tenantId) = own
    induction own with
    | nil => rfl
    | cons call own ih =>
      rw [List.map_cons, List.map_cons, List.sum_cons, ← ih, List.filter_cons]
      have hrow : bucketKey call.row.occurredAt granularity = bucketKey call.fact.occurredAt.universal granularity := rfl
      have hlabel : UsageBucket.callCategory table.category? call.row = rollupCategory table call.fact.operationId := rfl
      rw [rolledAt, hrow]
      by_cases hbucket : bucketKey call.fact.occurredAt.universal granularity = bucket
      · simp only [hbucket, hlabel, decide_true, if_true, List.map_cons, List.sum_cons, Bool.true_and, decide_eq_true_eq]
      · simp only [hbucket, decide_false, Bool.false_and, if_false, Bool.false_eq_true, zero_add]
  rw [List.map_map]
  have hmap : ((fun rollup => valueIn rollup bucket ("mes_calls." ++ category))
      ∘ fun tenantId => bucketsAs (tenantRows calls tenantId) table.category? granularity)
        = fun tenantId => ((calls.filter fun call => call.tenantId = tenantId).map fun call =>
          if rolledAt table granularity bucket category call.fact = true then (1 : Int) else 0).sum :=
    funext htenant
  rw [hmap]
  exact Grouping.sum_map_groups CallFact.tenantId _ (List.nodup_dedup _)
    fun call hcall => List.mem_dedup.mpr (List.mem_map_of_mem hcall)

/-! ## Where the two ways agree -/

/-- An instant that can be converted has a bucket. -/
theorem isSome_bucketStart {instant : AwareDatetime} (h : inRange instant.universal = true) (granularity : Granularity) :
    (bucketStart instant granularity).isSome = true := by
  cases granularity with
  | hour => rfl
  | day =>
    have hwall : inRange (instant.wall - instant.offset) = true := h
    rw [bucketStart, AwareDatetime.utc?, if_pos hwall]
    rfl

/-- The categories of the bill are not the statuses. -/
theorem ne_of_mem_statuses {label category : String} (hlabel : label ∈ ["completed", "failed"])
    (hcategory : category ∈ mesCategories) : label ≠ category := by
  have hapart : ∀ label ∈ ["completed", "failed"], label ∉ mesCategories := by decide
  exact fun heq => hapart label hlabel (heq ▸ hcategory)

/-- A call that the table puts under a status is put there by the statistics surface too. -/
theorem categoryFor_of_status {table : CategoryTable} {operationId : String}
    (h : rollupCategory table operationId ∈ ["completed", "failed"]) :
    categoryFor table operationId = rollupCategory table operationId := by
  refine (categoryFor_eq_iff table operationId).mpr (.inl ?_)
  cases hcategory : table.category? operationId with
  | none =>
    rw [rollupCategory, hcategory] at h
    exact absurd h (by decide)
  | some category => rfl

/-- A call that is counted alike is counted in the same bucket of the same category. -/
theorem CountedAlike.at_iff {table : CategoryTable} {granularity : Granularity} {call : CallFact}
    (h : CountedAlike table granularity call) (bucket : Instant) {category : String}
    (hcategory : category ∈ mesCategories) :
    (call.fact.status = "completed" ∧ liveAt table granularity bucket category call.fact = true)
      ↔ rolledAt table granularity bucket category call.fact = true := by
  obtain ⟨hrange, hstatus | ⟨-, hcompleted, hbucket, hkept⟩⟩ := h
  · -- Neither of the two counts it under a category of the bill.
    have hne := ne_of_mem_statuses hstatus hcategory
    rw [liveAt, rolledAt, categoryFor_of_status hstatus, decide_eq_false hne, Bool.and_false, Bool.and_false]
    exact ⟨fun h => (nomatch h.2), nofun⟩
  · have hstart := (bucketStart_eq_iff call.fact.occurredAt granularity).mpr hbucket
    rw [bucketKey?, if_pos hrange] at hstart
    rw [and_iff_right hcompleted, liveAt, rolledAt, hstart, (categoryFor_eq_iff table _).mpr hkept]
    simp only [Option.some.injEq]

/-- **The series of calls that are counted alike** agree. -/
theorem seriesAgree_of_alike {table : CategoryTable} {granularity : Granularity} {calls : List CallFact}
    (h : ∀ call ∈ calls, CountedAlike table granularity call) : SeriesAgree table granularity calls := by
  have hstart : ∀ fact ∈ calls.map (·.fact), (bucketStart fact.occurredAt granularity).isSome = true := by
    intro fact hfact
    obtain ⟨call, hcall, rfl⟩ := List.mem_map.mp hfact
    exact isSome_bucketStart (h call hcall).1 granularity
  obtain ⟨live, hlive⟩ := exists_mesCategoryBuckets table hstart
  refine ⟨live, _, hlive, rollupsOf_eq_some.mpr ⟨fun call hcall => ⟨(h call hcall).1, ?_⟩, rfl⟩,
    fun bucket category hcategory => ?_⟩
  · exact (h call hcall).2.elim .inr fun halike => .inl halike.1
  · rw [liveValue_mesCategoryBuckets hlive, sum_valueIn_rollups table granularity calls bucket hcategory]
    refine congrArg List.sum (List.map_congr_left fun call hcall => ?_)
    exact if_congr ((h call hcall).at_iff bucket hcategory) rfl rfl

/-- **A call whose series agree** is counted alike. -/
theorem alike_of_seriesAgree {table : CategoryTable} {granularity : Granularity} {call : CallFact}
    (h : SeriesAgree table granularity [call]) : CountedAlike table granularity call := by
  obtain ⟨live, rollups, hlive, hrollups, hvalues⟩ := h
  obtain ⟨hknown, rfl⟩ := rollupsOf_eq_some.mp hrollups
  obtain ⟨hrange, hcategory⟩ := hknown call List.mem_cons_self
  refine ⟨hrange, hcategory.symm.imp_right fun hbill => ?_⟩
  -- The roll-up counts the call in its own bucket, so the facts do.
  have hvalue := hvalues (bucketKey call.fact.occurredAt.universal granularity) _ hbill
  rw [liveValue_mesCategoryBuckets hlive, sum_valueIn_rollups table granularity [call] _ hbill] at hvalue
  have hrolled : rolledAt table granularity (bucketKey call.fact.occurredAt.universal granularity)
      (rollupCategory table call.fact.operationId) call.fact = true := by
    rw [rolledAt, decide_eq_true rfl, decide_eq_true rfl]
    rfl
  simp only [List.map_cons, List.map_nil, List.sum_cons, List.sum_nil, add_zero, if_pos hrolled] at hvalue
  split at hvalue
  · rename_i hcounted
    obtain ⟨hcompleted, hat⟩ := hcounted
    rw [liveAt, Bool.and_eq_true, decide_eq_true_eq, decide_eq_true_eq] at hat
    refine ⟨hbill, hcompleted, (bucketStart_eq_iff _ _).mp ?_, (categoryFor_eq_iff _ _).mp hat.2⟩
    rw [hat.1, bucketKey?, if_pos hrange]
  · cases hvalue

/-- **Where the statistics surface and the roll-up agree.** They put an instant into one bucket exactly where the bucket
is a day or the offset keeps the clock in its hour; they give an operation one category exactly where the table knows it
or its default is "other"; and the series of calls of some kind agree, whatever calls of the kind there are, exactly
where every such call is counted alike. -/
theorem series_agree_iff (table : CategoryTable) (granularity : Granularity) (Drawn : CallFact → Prop) :
    (∀ instant : AwareDatetime,
      bucketStart instant granularity = bucketKey? instant.universal granularity ↔ KeepsBucket instant granularity)
      ∧ (∀ operationId, categoryFor table operationId = rollupCategory table operationId
        ↔ KeepsCategory table operationId)
      ∧ ((∀ calls : List CallFact, (∀ call ∈ calls, Drawn call) → SeriesAgree table granularity calls)
        ↔ ∀ call, Drawn call → CountedAlike table granularity call) :=
  ⟨fun instant => bucketStart_eq_iff instant granularity, categoryFor_eq_iff table,
    fun h call hcall => alike_of_seriesAgree (h [call] (List.forall_mem_singleton.mpr hcall)),
    fun h _ hcalls => seriesAgree_of_alike fun call hcall => h call (hcalls call hcall)⟩

/-- **Where they do not**: half past nine in a zone that is five and a half hours ahead; an operation that an empty
table does not know; and a call that failed. -/
theorem series_disagree :
    bucketStart ⟨34200000000, 19800000000⟩ .hour ≠ bucketKey? (AwareDatetime.universal ⟨34200000000, 19800000000⟩) .hour
      ∧ categoryFor ⟨[], List.nodup_nil⟩ "YskQuery" ≠ rollupCategory ⟨[], List.nodup_nil⟩ "YskQuery"
      ∧ ¬ SeriesAgree ⟨[("YskQuery", "output")], by decide⟩ .day [⟨"factory", ⟨0, 0⟩, "YskQuery", "failed"⟩] := by
  refine ⟨by decide +kernel, by decide +kernel, fun h => ?_⟩
  obtain ⟨-, hstatus | ⟨-, hcompleted, -⟩⟩ := alike_of_seriesAgree h
  · exact absurd hstatus (by decide +kernel)
  · exact absurd hcompleted (by decide)

end Statistics
