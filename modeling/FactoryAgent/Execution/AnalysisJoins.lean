import FactoryAgent.Execution.AnalysisQuery
import FactoryAgent.Lib.Grouping
import FactoryAgent.Lib.Keys

/-!
# Joins do not fan out

A plan may join several datasets, and an aggregate over the joined relation would count a row as often as it is
joined. The compiler admits a join where the key of the right dataset is unique
(`validateJoin`, `JoinClause.Functional`), so the joined relation has at most one row per row of the primary
dataset. The rows of the other datasets may well be repeated. But sums are of numbers, which the fact datasets
alone have, and records are counted of configurations alone; neither is ever on the right of a join
(`tableAlias_eq_zero`), so what is added up or counted belongs to the primary dataset.
-/

variable {σ : Type}

/-- **A dataset that may be joined on the right.** -/
def DatasetId.IsDimension (datasetId : DatasetId) : Prop :=
  datasetId ∈ permittedJoins.map fun permitted => permitted.2.2.1

/-- A dimension has nothing to add up and no configurations to count. -/
theorem DatasetId.IsDimension.metrics {datasetId : DatasetId} (h : datasetId.IsDimension) :
    datasetId.metrics.all (fun field => !numericFields.contains field && field != "configuration_id") = true := by
  revert h
  cases datasetId <;> simp only [DatasetId.IsDimension] <;> decide

/-- The keys of the permitted joins are texts. -/
theorem permittedJoins_text : permittedJoins.all (fun permitted => !numericFields.contains permitted.2.2.2
    && !integerFields.contains permitted.2.2.2 && !booleanFields.contains permitted.2.2.2
    && permitted.2.2.2 != "") = true := by
  decide

/-- A value of a table, where the dataset has the column. -/
theorem LoadedDataset.get_tableRow {loaded : LoadedDataset} {column : String} (h : column ∈ loaded.columns)
    (row : AnalysisRow) :
    SqlRow.get (loaded.tableRow row) column = (AnalysisRow.get row column).stored := by
  rw [SqlRow.get, LoadedDataset.tableRow, List.lookup_graph _ h, Option.getD_some]

/-- Values of a text column that are stored alike are alike. -/
theorem AnalysisValue.eq_of_stored {column : String} (hcolumn : column ∉ numericFields) {a b : AnalysisValue}
    (ha : a.IsNormal column) (hb : b.IsNormal column) (h : a.stored = b.stored) : a = b := by
  cases a with
  | decimal value => exact absurd ha.1 hcolumn
  | text _ | integer _ | boolean _ | null =>
    cases b with
    | decimal value => exact absurd hb.1 hcolumn
    | text _ | integer _ | boolean _ | null =>
      cases h <;> rfl

/-! ## What the compiler has checked of a join -/

/-- **A join that passes** has one key, unique on the right, and a dimension on the right. -/
theorem validateJoin_eq_ok {left right : LoadedDataset} {leftKeys rightKeys : List String}
    {cardinality : Cardinality} (hkeys : leftKeys.length = rightKeys.length)
    (h : validateJoin left right leftKeys rightKeys cardinality = .ok ()) :
    ∃ key other, leftKeys = [key] ∧ rightKeys = [other] ∧ right.datasetId.IsDimension ∧ other ∈ right.columns
      ∧ other ∉ numericFields ∧ (right.rows.map fun row => AnalysisRow.get row other).Nodup := by
  simp only [validateJoin, Checks.then_eq_ok, Checks.require_eq_ok] at h
  obtain ⟨-, ⟨hlength, hpermitted⟩, ⟨-, hcolumns⟩, -, hnodup, -⟩ := h
  obtain ⟨key, rfl⟩ := List.length_eq_one_iff.mp hlength
  obtain ⟨other, rfl⟩ := List.length_eq_one_iff.mp (hkeys ▸ hlength)
  have htext := List.all_eq_true.mp permittedJoins_text _ hpermitted
  simp only [List.headD_cons, Bool.and_eq_true, Bool.not_eq_true'] at htext
  refine ⟨key, other, rfl, rfl, List.mem_map.mpr ⟨_, hpermitted, rfl⟩, hcolumns other (List.mem_singleton_self _),
    ?_, ?_⟩
  · simpa using htext.1.1.1
  · have hmap : right.keyValues [other] = (right.rows.map fun row => AnalysisRow.get row other).map ([·]) := by
      rw [LoadedDataset.keyValues, List.map_map]
      rfl
    exact List.Nodup.of_map _ (hmap ▸ hnodup)

/-- **The join of a clause whose right key is unique is functional.** -/
theorem JoinClause.functional {host : AnalysisHost} {clause : JoinClause} {right : LoadedDataset}
    (htable : host.table clause.tableName = right.tableRows) {key other : String}
    (hkeys : clause.keys = [(key, other)]) (hcolumn : other ∈ right.columns) (hnumeric : other ∉ numericFields)
    (hnodup : (right.rows.map fun row => AnalysisRow.get row other).Nodup) :
    (clause.joining host.table).Functional := by
  intro row
  have hstored : (right.tableRows.map fun tableRow => SqlRow.get tableRow other).Nodup := by
    have hmap : right.tableRows.map (fun tableRow => SqlRow.get tableRow other)
        = (right.rows.map fun row => AnalysisRow.get row other).map AnalysisValue.stored := by
      rw [LoadedDataset.tableRows, List.map_map, List.map_map]
      exact List.map_congr_left fun row _ => right.get_tableRow hcolumn row
    have hnormal : ∀ value ∈ right.rows.map fun row => AnalysisRow.get row other, value.IsNormal other := by
      intro value hvalue
      obtain ⟨source, hsource, rfl⟩ := List.mem_map.mp hvalue
      obtain ⟨value, hlookup, hnormal⟩ := right.isNormal source hsource other hcolumn
      rw [AnalysisRow.get, hlookup]
      exact hnormal
    rw [hmap]
    exact hnodup.map_on fun a ha b hb h => AnalysisValue.eq_of_stored hnumeric (hnormal a ha) (hnormal b hb) h
  show ((host.table clause.tableName).filter _).length ≤ 1
  rw [htable]
  refine le_trans (List.Sublist.length_le (List.monotone_filter_right _ fun tableRow h => ?_))
    (Keys.length_filter_le_one hstored (FieldRef.value ⟨clause.leftAlias, key⟩ row))
  simp only [JoinClause.joining, hkeys, List.all_cons, List.all_nil, Bool.and_true, SqlValue.equals,
    Bool.and_eq_true, beq_iff_eq] at h
  simpa using h.2.symm

/-! ## The datasets of the plan -/

/-- A dataset that is found under a reference. -/
theorem byReference_eq_ok {loaded : List LoadedDataset} {reference : String} {found : Nat × LoadedDataset}
    (h : byReference loaded reference = .ok found) :
    loaded[found.1]? = some found.2 ∧ found.2.reference = reference := by
  unfold byReference at h
  split at h
  · rename_i dataset i hfind
    cases h
    exact ⟨List.mk_mem_zipIdx_iff_getElem?.mp (List.mem_of_find?_eq_some hfind),
      by simpa using List.find?_some hfind⟩
  · cases h

/-- **The datasets of a plan**, in the order of their references. -/
structure LoadedFor (host : AnalysisHost) (references : List String) (loaded : List LoadedDataset) : Prop where
  references_eq : loaded.map (·.reference) = references
  getDataset : ∀ dataset ∈ loaded, host.getDataset dataset.reference = some dataset
  nodup : references.Nodup

/-- The datasets that a plan loads. -/
theorem loadedFor_of_mapM {host : AnalysisHost} {references : List String} {loaded : List LoadedDataset}
    (hnodup : references.Nodup) (h : references.mapM (loadDataset host) = .ok loaded) :
    LoadedFor host references loaded := by
  have hload : ∀ reference dataset, loadDataset host reference = .ok dataset →
      host.getDataset reference = some dataset := by
    intro reference dataset hload
    unfold loadDataset at hload
    split at hload
    · rename_i found hget
      cases hload
      exact hget
    · cases hload
  refine ⟨?_, fun dataset hmem => ?_, hnodup⟩
  · have hmap := Except.map_of_mapM (g := LoadedDataset.reference) (h := id)
      (fun reference _ dataset hok => host.referenced reference dataset (hload reference dataset hok)) h
    rwa [List.map_id] at hmap
  · obtain ⟨reference, -, hok⟩ := Except.exists_of_mem_mapM h hmem
    have hget := hload reference dataset hok
    rwa [host.referenced reference dataset hget]

/-- The table of a dataset of the plan. -/
theorem LoadedFor.table {host : AnalysisHost} {references : List String} {loaded : List LoadedDataset}
    (h : LoadedFor host references loaded) {dataset : LoadedDataset} (hmem : dataset ∈ loaded) :
    host.table dataset.tableName = dataset.tableRows :=
  host.registered _ _ (h.getDataset dataset hmem)

/-- A dataset of the plan is known by its reference. -/
theorem LoadedFor.index_unique {host : AnalysisHost} {references : List String} {loaded : List LoadedDataset}
    (h : LoadedFor host references loaded) {i j : Nat} {a b : LoadedDataset} (ha : loaded[i]? = some a)
    (hb : loaded[j]? = some b) (hab : a.reference = b.reference) : i = j := by
  have hnodup : (loaded.map (·.reference)).Nodup := h.references_eq ▸ h.nodup
  have hi : (loaded.map (·.reference))[i]? = some a.reference := by rw [List.getElem?_map, ha]; rfl
  have hj : (loaded.map (·.reference))[j]? = some a.reference := by rw [List.getElem?_map, hb, hab]; rfl
  exact (List.getElem?_inj (List.getElem?_eq_some_iff.mp hi).1 hnodup).mp (hi.trans hj.symm)

/-! ## The clauses -/

/-- **What is known of the clauses** while the joins of a plan are compiled: each joins a dataset of the plan by a
functional join, and whatever is connected is the primary dataset or a dimension with its clause. -/
structure ClausesSound (host : AnalysisHost) (loaded : List LoadedDataset) (primary : LoadedDataset)
    (state : List String × List JoinClause) : Prop where
  functional : ∀ clause ∈ state.2, (clause.joining host.table).Functional
  tables : ∀ clause ∈ state.2, ∃ dataset, loaded[clause.tableAlias]? = some dataset
    ∧ clause.tableName = dataset.tableName
  connected : ∀ reference ∈ state.1, reference = primary.reference
    ∨ ∃ clause ∈ state.2, ∃ dataset, loaded[clause.tableAlias]? = some dataset
      ∧ dataset.reference = reference ∧ dataset.datasetId.IsDimension

/-- **One join keeps the clauses sound.** -/
theorem clausesSound_compileJoin {host : AnalysisHost} {references : List String} {loaded : List LoadedDataset}
    {primary : LoadedDataset} {state next : List String × List JoinClause} {join : PlanJoin}
    (hloaded : LoadedFor host references loaded) (hkeys : join.leftKeys.length = join.rightKeys.length)
    (hsound : ClausesSound host loaded primary state) (h : compileJoin loaded state join = .ok next) :
    ClausesSound host loaded primary next := by
  simp only [compileJoin, Except.bind_eq_ok, Except.pure_eq_ok] at h
  obtain ⟨_, -, left, -, right, hright, _, hvalid, rfl⟩ := h
  obtain ⟨hindex, -⟩ := byReference_eq_ok hright
  obtain ⟨key, other, hleft, hright, hdimension, hcolumn, hnumeric, hnodup⟩ := validateJoin_eq_ok hkeys hvalid
  have htable := hloaded.table (List.mem_of_getElem? hindex)
  refine ⟨?_, ?_, ?_⟩
  · simp only [List.mem_append, List.mem_singleton]
    rintro clause (hclause | rfl)
    · exact hsound.functional clause hclause
    · exact JoinClause.functional htable (show _ = [(key, other)] by rw [hleft, hright]; rfl) hcolumn hnumeric hnodup
  · simp only [List.mem_append, List.mem_singleton]
    rintro clause (hclause | rfl)
    · exact hsound.tables clause hclause
    · exact ⟨right.2, hindex, rfl⟩
  · simp only [List.mem_append, List.mem_singleton]
    rintro reference (hreference | rfl)
    · rcases hsound.connected reference hreference with hprimary | ⟨clause, hclause, hdataset⟩
      · exact .inl hprimary
      · exact .inr ⟨clause, .inl hclause, hdataset⟩
    · exact .inr ⟨_, .inr rfl, right.2, hindex, rfl, hdimension⟩

/-! ## The select list -/

/-- **What a metric of the select list is taken of**: a dataset of the plan with that metric. -/
structure MetricOf (loaded : List LoadedDataset) (item : SelectItem) (operation : MetricOperation)
    (ref : FieldRef) : Prop where
  owned : ∃ owner, loaded[ref.tableAlias]? = some owner ∧ ref.field ∈ owner.datasetId.metrics
  numeric : operation = .sum → ref.field ∈ numericFields
  configuration : operation = .count → ref.field = "configuration_id"
  output : item.output = ref.field ++ "_" ++ operation.name

/-- **What is known of the select list** while it is compiled. The names of the metrics are their own, and the
columns of the result are those of the list. -/
structure SelectSound (loaded : List LoadedDataset) (state : SelectState) : Prop where
  measured : ∀ item ∈ state.select, ∀ operation ref, item.expr = .metric operation ref →
    MetricOf loaded item operation ref
  named : ∀ item ∈ state.select, item.output ∈ state.outputNames
  fresh : state.select.Pairwise fun item later => item.expr.isMetric = true ∨ later.expr.isMetric = true →
    item.output ≠ later.output
  described : state.columns.map (fun column => (column.name, column.metricName.isSome))
    = state.select.map fun item => (item.output, item.expr.isMetric)

/-- The column of a field that was found. -/
theorem fieldExpression_eq_ok {loaded : List LoadedDataset} {allowSensitive : Bool} {name : String}
    {expression : FieldRef × String} (h : fieldExpression loaded allowSensitive name = .ok expression) :
    expression.1.field = expression.2 ∧ loaded.find? (namedField name).2 = loaded[expression.1.tableAlias]? := by
  unfold fieldExpression at h
  dsimp only at h
  split at h
  · cases h
  split at h
  · rename_i dataset i hchoices
    split at h
    · cases h
    · cases h
      have hmem : (dataset, i) ∈ loaded.zipIdx := List.mem_of_mem_filter (hchoices ▸ List.mem_singleton_self _)
      have hfilter : loaded.filter (namedField name).2 = [dataset] := by
        have hmap : (loaded.zipIdx.map Prod.fst).filter (namedField name).2 = [dataset] := by
          rw [List.filter_map]
          exact congrArg (List.map Prod.fst) hchoices
        rwa [List.zipIdx_map_fst] at hmap
      rw [← List.head?_filter, hfilter, List.mk_mem_zipIdx_iff_getElem?.mp hmem]
      exact ⟨rfl, rfl⟩
  · split at h <;> cases h
  · cases h

/-- A select list with one more item, under a name of its own where it is a metric. -/
theorem SelectSound.append {loaded : List LoadedDataset} {state : SelectState} (h : SelectSound loaded state)
    {item : SelectItem} {column : ResultColumnMeta} {group : List SelectExpr}
    (hplain : item.expr.isMetric = false → ∀ earlier ∈ state.select, earlier.expr.isMetric = false)
    (hfresh : item.expr.isMetric = true → item.output ∉ state.outputNames)
    (hmeasured : ∀ operation ref, item.expr = .metric operation ref → MetricOf loaded item operation ref)
    (hcolumn : (column.name, column.metricName.isSome) = (item.output, item.expr.isMetric)) :
    SelectSound loaded ⟨state.select ++ [item], group, state.columns ++ [column],
      state.outputNames ++ [item.output]⟩ where
  measured := by
    simp only [List.mem_append, List.mem_singleton]
    rintro earlier (hearlier | rfl)
    · exact h.measured earlier hearlier
    · exact hmeasured
  named := by
    simp only [List.mem_append, List.mem_singleton]
    rintro earlier (hearlier | rfl)
    · exact .inl (h.named earlier hearlier)
    · exact .inr rfl
  fresh := by
    rw [List.pairwise_append]
    refine ⟨h.fresh, List.pairwise_singleton _ _, fun earlier hearlier later hlater hmetric heq => ?_⟩
    rw [List.mem_singleton] at hlater
    subst hlater
    cases hitem : later.expr.isMetric with
    | true => exact hfresh hitem (heq ▸ h.named earlier hearlier)
    | false =>
      rw [hplain hitem earlier hearlier, hitem] at hmetric
      simp at hmetric
  described := by
    rw [List.map_append, List.map_append, h.described, List.map_singleton, List.map_singleton, hcolumn]

/-- **The groups and the bucket** of a plan: a sound select list without metrics, and what is grouped by. -/
def Plain (loaded : List LoadedDataset) (state : SelectState) : Prop :=
  SelectSound loaded state ∧ ∀ item ∈ state.select, item.expr.isMetric = false

/-- One more group keeps a select list plain. -/
theorem Plain.append {loaded : List LoadedDataset} {state : SelectState} (h : Plain loaded state)
    (item : SelectItem) {group : List SelectExpr} (hitem : item.expr.isMetric = false) :
    Plain loaded ⟨state.select ++ [item], group, state.columns ++ [textColumn item.output],
      state.outputNames ++ [item.output]⟩ := by
  refine ⟨h.1.append (fun _ => h.2) (fun hmetric => ?_) (fun operation ref hexpr => ?_) ?_, ?_⟩
  · rw [hitem] at hmetric
    cases hmetric
  · rw [hexpr] at hitem
    cases hitem
  · rw [hitem]
    rfl
  · simp only [List.mem_append, List.mem_singleton]
    rintro earlier (hearlier | rfl)
    · exact h.2 earlier hearlier
    · exact hitem

/-- **One metric keeps the select list sound**, and what is grouped by. -/
theorem selectSound_compileMetric {host : AnalysisHost} {loaded : List LoadedDataset} {state next : SelectState}
    {metric : PlanMetric} (hsound : SelectSound loaded state)
    (h : compileMetric host loaded state metric = .ok next) :
    SelectSound loaded next ∧ next.group = state.group ∧ next.select ≠ [] := by
  simp only [compileMetric, Except.bind_eq_ok] at h
  obtain ⟨expression, hexpression, _, -, h⟩ := h
  obtain ⟨hfield, hfound⟩ := fieldExpression_eq_ok hexpression
  split at h
  · cases h
  rename_i owner howner
  simp only [Except.bind_eq_ok, Except.pure_eq_ok] at h
  obtain ⟨_, hmetrics, _, hfresh, _, hoperation, rfl⟩ := h
  rw [Checks.require_eq_ok] at hmetrics hfresh
  refine ⟨hsound.append (fun hmetric => ?_) (fun _ => hfresh) (fun operation ref hexpr => ?_) rfl, rfl, by simp⟩
  · cases hmetric
  · cases hexpr
    refine ⟨⟨owner, hfound ▸ howner, hfield ▸ hmetrics⟩, fun hsum => ?_, fun hcount => ?_, by rw [hfield]⟩
    · rw [hsum] at hoperation
      exact hfield ▸ Checks.require_eq_ok.mp hoperation
    · rw [hcount] at hoperation
      rw [hfield]
      by_contra hne
      exact Checks.require_eq_ok.mp hoperation (.inl hne)

/-- The columns of the primary dataset are a sound select list. -/
theorem selectSound_selectColumns {loaded : List LoadedDataset} {state : SelectState}
    (h : SelectSound loaded state) (primary : LoadedDataset) :
    SelectSound loaded (selectColumns primary state) := by
  unfold selectColumns
  split
  · rename_i hempty
    have hselect : state.select = [] := List.isEmpty_iff.mp hempty
    have hcolumns : state.columns = [] := by
      have hdescribed := h.described
      rwa [hselect, List.map_nil, List.map_eq_nil_iff] at hdescribed
    refine ⟨?_, ?_, ?_, ?_⟩
    · intro item hitem operation ref hexpr
      obtain ⟨field, -, rfl⟩ := List.mem_map.mp hitem
      cases hexpr
    · intro item hitem
      obtain ⟨field, hfield, rfl⟩ := List.mem_map.mp hitem
      exact List.mem_append_right _ hfield
    · refine List.pairwise_map.mpr (List.pairwise_of_forall fun field other hmetric => ?_)
      rcases hmetric with hmetric | hmetric <;> cases hmetric
    · dsimp only
      rw [hcolumns, List.nil_append, List.map_map, List.map_map]
      rfl
  · exact h

/-- **The select list of a plan is sound**, and nothing is grouped by where the plan says so. -/
theorem selectSound_compileSelect {host : AnalysisHost} {loaded : List LoadedDataset} {primary : LoadedDataset}
    {plan : AnalysisPlan σ} {state : SelectState} (h : compileSelect host loaded primary plan = .ok state) :
    SelectSound loaded state ∧ (plan.groupBy = [] → plan.timeBucket = none → state.group = []) := by
  simp only [compileSelect, Except.bind_eq_ok, Except.pure_eq_ok] at h
  obtain ⟨grouped, hgrouped, bucketed, hbucketed, measured, hmeasured, _, -, rfl⟩ := h
  have hplain : Plain loaded grouped := by
    refine Except.foldlM_induction (fun state name next _ hstate hstep => ?_)
      ⟨⟨fun _ hmem => absurd hmem List.not_mem_nil, fun _ hmem => absurd hmem List.not_mem_nil,
        List.Pairwise.nil, rfl⟩, fun _ hmem => absurd hmem List.not_mem_nil⟩ hgrouped
    simp only [compileGroup, Except.bind_eq_ok, Except.pure_eq_ok] at hstep
    obtain ⟨expression, -, _, -, rfl⟩ := hstep
    exact hstate.append ⟨.field expression.1, outputName name⟩ rfl
  have hbucket : Plain loaded bucketed := by
    cases htime : plan.timeBucket with
    | none =>
      rw [htime] at hbucketed
      cases hbucketed
      exact hplain
    | some bucket =>
      rw [htime] at hbucketed
      simp only [Option.elim_some, compileBucket, Except.bind_eq_ok, Except.pure_eq_ok] at hbucketed
      obtain ⟨expression, -, _, -, rfl⟩ := hbucketed
      exact hplain.append ⟨.bucket bucket.unit expression.1, "period"⟩ rfl
  have hmetrics : SelectSound loaded measured ∧ measured.group = bucketed.group := by
    refine Except.foldlM_induction (I := fun state => SelectSound loaded state ∧ state.group = bucketed.group)
      (fun state metric next _ hstate hstep => ?_) ⟨hbucket.1, rfl⟩ hmeasured
    obtain ⟨hsound, hgroup, -⟩ := selectSound_compileMetric hstate.1 hstep
    exact ⟨hsound, hgroup.trans hstate.2⟩
  constructor
  · exact selectSound_selectColumns hmetrics.1 primary
  · intro hgroups htime
    rw [hgroups] at hgrouped
    rw [htime] at hbucketed
    cases hgrouped
    cases hbucketed
    rw [selectColumns]
    split
    · exact hmetrics.2
    · exact hmetrics.2

/-! ## The compiled query -/

/-- **What is known of a compiled query.** -/
structure CompiledFor (host : AnalysisHost) (plan : AnalysisPlan σ) (compiled : CompiledAnalysis σ)
    (loaded : List LoadedDataset) (primary : LoadedDataset) : Prop where
  loadedFor : LoadedFor host plan.datasetRefs loaded
  primary_eq : loaded[0]? = some primary
  fromTable_eq : host.table compiled.fromTable = primary.tableRows
  functional : ∀ clause ∈ compiled.joins, (clause.joining host.table).Functional
  tables : ∀ clause ∈ compiled.joins, ∃ dataset, loaded[clause.tableAlias]? = some dataset
    ∧ clause.tableName = dataset.tableName
  connected : ∀ i dataset, loaded[i]? = some dataset → i ≠ 0 →
    dataset.datasetId.IsDimension ∧ ∃ clause ∈ compiled.joins, clause.tableAlias = i
  measured : ∀ item ∈ compiled.select, ∀ operation ref, item.expr = .metric operation ref →
    MetricOf loaded item operation ref
  fresh : compiled.select.Pairwise fun item later => item.expr.isMetric = true ∨ later.expr.isMetric = true →
    item.output ≠ later.output
  described : compiled.columns.map (fun column => (column.name, column.metricName.isSome))
    = compiled.select.map fun item => (item.output, item.expr.isMetric)
  ungrouped : plan.groupBy = [] → plan.timeBucket = none → compiled.group = []
  limit_eq : compiled.limit = plan.limit + 1

/-- **A plan that compiles.** -/
theorem compiledFor_of_compileAnalysis {host : AnalysisHost} {plan : AnalysisPlan σ}
    {compiled : CompiledAnalysis σ} (h : compileAnalysis host plan = .ok compiled) :
    ∃ loaded primary, CompiledFor host plan compiled loaded primary := by
  simp only [compileAnalysis, Except.bind_eq_ok] at h
  obtain ⟨_, hvalid, loaded, hload, h⟩ := h
  rw [Checks.require_eq_ok] at hvalid
  simp only [AnalysisPlan.valid, Bool.and_eq_true, decide_eq_true_eq, List.all_eq_true] at hvalid
  obtain ⟨⟨⟨⟨-, hjoinsValid⟩, -⟩, hnodup⟩, -⟩ := hvalid
  have hloaded := loadedFor_of_mapM hnodup hload
  cases loaded with
  | nil => cases h
  | cons primary rest =>
    simp only [Except.bind_eq_ok, Except.pure_eq_ok] at h
    obtain ⟨joined, hjoined, _, hconnected, state, hstate, conditions, -, ordering, -, rfl⟩ := h
    obtain ⟨-, hconnected⟩ := Checks.require_eq_ok.mp hconnected
    have hsound : ClausesSound host (primary :: rest) primary joined := by
      refine Except.foldlM_induction (fun state join next hmem hstate hstep =>
        clausesSound_compileJoin hloaded ?_ hstate hstep) ⟨?_, ?_, ?_⟩ hjoined
      · have hjoin := hjoinsValid join hmem
        simp only [PlanJoin.valid, Bool.and_eq_true, beq_iff_eq] at hjoin
        exact hjoin.2
      · exact fun _ hmem => absurd hmem List.not_mem_nil
      · exact fun _ hmem => absurd hmem List.not_mem_nil
      · exact fun reference hmem => .inl (List.mem_singleton.mp hmem)
    obtain ⟨hselect, hungrouped⟩ := selectSound_compileSelect hstate
    refine ⟨primary :: rest, primary, hloaded, rfl, hloaded.table List.mem_cons_self, hsound.functional,
      hsound.tables, fun i dataset hi hne => ?_, hselect.measured, hselect.fresh, hselect.described, hungrouped, rfl⟩
    have hreference : dataset.reference ∈ plan.datasetRefs :=
      hloaded.references_eq ▸ List.mem_map_of_mem (List.mem_of_getElem? hi)
    rcases hsound.connected _ (hconnected hreference) with hprimary | ⟨clause, hclause, other, hother, heq, hdim⟩
    · exact absurd (hloaded.index_unique hi rfl hprimary) hne
    · have hindex := hloaded.index_unique hother hi heq
      rw [hindex, hi, Option.some.injEq] at hother
      exact ⟨hother ▸ hdim, clause, hclause, hindex⟩

/-- **Sums and counts are of the primary dataset.** -/
theorem CompiledFor.tableAlias_eq_zero {host : AnalysisHost} {plan : AnalysisPlan σ}
    {compiled : CompiledAnalysis σ} {loaded : List LoadedDataset} {primary : LoadedDataset}
    (h : CompiledFor host plan compiled loaded primary) {item : SelectItem} (hitem : item ∈ compiled.select)
    {operation : MetricOperation} {ref : FieldRef} (hexpr : item.expr = .metric operation ref)
    (hoperation : operation ≠ .countDistinct) : ref.tableAlias = 0 := by
  obtain ⟨⟨owner, howner, hmetrics⟩, hnumeric, hconfiguration, -⟩ := h.measured item hitem operation ref hexpr
  by_contra hne
  have hdimension := List.all_eq_true.mp (h.connected _ owner howner hne).1.metrics _ hmetrics
  simp only [Bool.and_eq_true, Bool.not_eq_true', bne_iff_ne, ne_eq] at hdimension
  cases operation with
  | sum => exact absurd (List.contains_iff_mem.mpr (hnumeric rfl)) (by rw [hdimension.1]; exact Bool.false_ne_true)
  | count => exact hdimension.2 (hconfiguration rfl)
  | countDistinct => exact hoperation rfl

section

variable {host : AnalysisHost} {plan : AnalysisPlan σ} {compiled : CompiledAnalysis σ}
  {loaded : List LoadedDataset} {primary : LoadedDataset}

/-- The joins of the query are functional. -/
theorem CompiledFor.joinings_functional (h : CompiledFor host plan compiled loaded primary) :
    ∀ joining ∈ compiled.joins.map (JoinClause.joining host.table), joining.Functional := by
  intro joining hjoining
  obtain ⟨clause, hclause, rfl⟩ := List.mem_map.mp hjoining
  exact h.functional clause hclause

/-- **A joined row has a row of each dataset of the plan.** -/
theorem CompiledFor.lookup_mem (h : CompiledFor host plan compiled loaded primary) {i : Nat}
    {owner : LoadedDataset} (howner : loaded[i]? = some owner) {row : JoinedRow}
    (hrow : row ∈ compiled.joined host.table) : ∃ tableRow ∈ owner.tableRows, row.lookup i = some tableRow := by
  obtain ⟨hentries, hfirst, haliases⟩ := InnerJoin.mem_joined hrow
  have halias : i ∈ row.map Prod.fst := by
    by_cases hzero : i = 0
    · exact hzero ▸ hfirst
    · obtain ⟨-, clause, hclause, rfl⟩ := h.connected i owner howner hzero
      exact haliases _ (List.mem_map_of_mem hclause)
  obtain ⟨entry, hentry, hkey⟩ := List.mem_map.mp halias
  cases hlookup : row.lookup i with
  | none => exact absurd (List.lookup_eq_none_iff.mp hlookup entry hentry) (by simp [hkey])
  | some tableRow =>
    refine ⟨tableRow, ?_, rfl⟩
    obtain ⟨before, after, hsplit, -⟩ := List.lookup_eq_some_iff.mp hlookup
    rcases hentries (i, tableRow) (hsplit ▸ List.mem_append_right _ List.mem_cons_self) with
      ⟨rfl, hmem⟩ | ⟨joining, hjoining, hi, hmem⟩
    · rw [h.fromTable_eq] at hmem
      rwa [h.primary_eq.symm.trans howner |> Option.some.inj] at hmem
    · obtain ⟨clause, hclause, rfl⟩ := List.mem_map.mp hjoining
      obtain ⟨dataset, hdataset, htable⟩ := h.tables clause hclause
      dsimp only [JoinClause.joining] at hi hmem
      rw [← hi, howner] at hdataset
      cases hdataset
      rwa [htable, h.loadedFor.table (List.mem_of_getElem? howner)] at hmem

/-- The value of a column in a joined row is that of the row of its table. -/
theorem FieldRef.value_of_lookup {ref : FieldRef} {row : JoinedRow} {tableRow : SqlRow}
    (h : row.lookup ref.tableAlias = some tableRow) : ref.value row = SqlRow.get tableRow ref.field := by
  rw [FieldRef.value, h]
  rfl

/-- **The values of a column over joined rows are those of the rows of its dataset that are matched**, apart from
how often they occur. -/
theorem CompiledFor.mem_values (h : CompiledFor host plan compiled loaded primary) {ref : FieldRef}
    {owner : LoadedDataset} (howner : loaded[ref.tableAlias]? = some owner) {rows : List JoinedRow}
    (hrows : rows ⊆ compiled.joined host.table) (value : SqlValue) :
    value ∈ rows.map ref.value
      ↔ value ∈ (InnerJoin.matched ref.tableAlias owner.tableRows rows).map fun row => SqlRow.get row ref.field := by
  rw [List.mem_map, List.mem_map]
  constructor
  · rintro ⟨row, hrow, rfl⟩
    obtain ⟨tableRow, hmem, hlookup⟩ := h.lookup_mem howner (hrows hrow)
    exact ⟨tableRow, InnerJoin.mem_matched.mpr ⟨hmem, row, hrow, hlookup⟩, (FieldRef.value_of_lookup hlookup).symm⟩
  · rintro ⟨tableRow, hmatched, rfl⟩
    obtain ⟨-, row, hrow, hlookup⟩ := InnerJoin.mem_matched.mp hmatched
    exact ⟨row, hrow, FieldRef.value_of_lookup hlookup⟩

/-- **The joined rows are the matched rows of the primary dataset**, one for one. -/
theorem CompiledFor.map_value (h : CompiledFor host plan compiled loaded primary) {ref : FieldRef}
    (hzero : ref.tableAlias = 0) (keep : JoinedRow → Bool) :
    ((compiled.joined host.table).filter keep).map ref.value
      = (InnerJoin.matched 0 primary.tableRows ((compiled.joined host.table).filter keep)).map
        fun row => SqlRow.get row ref.field := by
  have hmatched := InnerJoin.filterMap_lookup_filter 0 (host.table compiled.fromTable) h.joinings_functional keep
  rw [h.fromTable_eq] at hmatched
  rw [CompiledAnalysis.joined, h.fromTable_eq, ← hmatched, List.map_filterMap, ← List.filterMap_eq_map]
  refine List.filterMap_congr fun row hrow => ?_
  rw [← h.fromTable_eq] at hrow
  obtain ⟨tableRow, -, hlookup⟩ := h.lookup_mem h.primary_eq (List.mem_of_mem_filter hrow)
  rw [hlookup, Function.comp_apply, FieldRef.value_of_lookup (hzero ▸ hlookup)]
  rfl

/-- **A metric over joined rows is that metric over the matched rows of its dataset.** -/
theorem CompiledFor.overJoined_eq (h : CompiledFor host plan compiled loaded primary) {item : SelectItem}
    (hitem : item ∈ compiled.select) {operation : MetricOperation} {ref : FieldRef}
    (hexpr : item.expr = .metric operation ref) {owner : LoadedDataset}
    (howner : loaded[ref.tableAlias]? = some owner) (keep : JoinedRow → Bool) :
    operation.overJoined ref ((compiled.joined host.table).filter keep)
      = operation.overRows ref.field
        (InnerJoin.matched ref.tableAlias owner.tableRows ((compiled.joined host.table).filter keep)) := by
  have hprimary : operation ≠ .countDistinct →
      ((compiled.joined host.table).filter keep).map ref.value
        = (InnerJoin.matched ref.tableAlias owner.tableRows ((compiled.joined host.table).filter keep)).map
          fun row => SqlRow.get row ref.field := by
    intro hoperation
    have hzero := h.tableAlias_eq_zero hitem hexpr hoperation
    rw [hzero, h.primary_eq] at howner
    cases howner
    rw [hzero]
    exact h.map_value hzero keep
  cases operation with
  | sum =>
    have hvalues := congrArg (fun values => (values.map SqlValue.toRat).sum) (hprimary (by decide))
    rw [List.map_map, List.map_map] at hvalues
    exact hvalues
  | count =>
    have hvalues := congrArg List.length (hprimary (by decide))
    rw [List.length_map, List.length_map] at hvalues
    exact congrArg Nat.cast hvalues
  | countDistinct =>
    refine congrArg Nat.cast (List.Perm.length_eq ((List.perm_ext_iff_of_nodup (List.nodup_dedup _)
      (List.nodup_dedup _)).mpr fun value => ?_))
    rw [List.mem_dedup, List.mem_dedup, List.mem_filter, List.mem_filter,
      h.mem_values howner (List.filter_subset_self _)]

end

/-! ## Groups -/

/-- What one joined row adds to a metric. -/
def MetricOperation.weight (operation : MetricOperation) (ref : FieldRef) (row : JoinedRow) : ℚ :=
  match operation with
  | sum => (ref.value row).toRat
  | count => 1
  | countDistinct => 0

/-- Sums and counts are sums over the rows. -/
theorem MetricOperation.overJoined_eq_sum {operation : MetricOperation} (h : operation ≠ .countDistinct)
    (ref : FieldRef) (rows : List JoinedRow) :
    operation.overJoined ref rows = (rows.map (operation.weight ref)).sum := by
  cases operation with
  | sum => rfl
  | count =>
    show (rows.length : ℚ) = (rows.map fun _ => (1 : ℚ)).sum
    rw [List.map_const', List.sum_replicate, nsmul_eq_mul, mul_one]
  | countDistinct => exact absurd rfl h

/-- **The groups of a sum or a count add up** to its value over all rows; without groups there is one value. -/
theorem CompiledAnalysis.sum_groups (compiled : CompiledAnalysis σ) (database : Database σ)
    {item : SelectItem} (hitem : item ∈ compiled.select) {operation : MetricOperation} {ref : FieldRef}
    (hexpr : item.expr = .metric operation ref) (hadds : operation = .countDistinct → compiled.group = [])
    (rows : List JoinedRow) :
    ((compiled.groups database rows).map (operation.overJoined ref)).sum = operation.overJoined ref rows := by
  unfold CompiledAnalysis.groups
  split
  · rename_i hgroup
    have hoperation : operation ≠ .countDistinct := fun h => hgroup (hadds h)
    simp only [List.map_map, Function.comp_def, MetricOperation.overJoined_eq_sum hoperation]
    exact Grouping.sum_map_groups (compiled.groupKey database) (operation.weight ref) (List.nodup_dedup _)
      fun row hrow => List.mem_dedup.mpr (List.mem_map_of_mem hrow)
  · rw [if_pos (List.any_eq_true.mpr ⟨item, hitem, by rw [hexpr]; rfl⟩), List.map_singleton, List.sum_singleton]

/-! ## Totals -/

section

variable {host : AnalysisHost} {plan : AnalysisPlan σ} {compiled : CompiledAnalysis σ}
  {loaded : List LoadedDataset} {primary : LoadedDataset}

/-- **A metric is found in a row of the result under its name.** -/
theorem CompiledFor.resultNumber_eq (h : CompiledFor host plan compiled loaded primary) (database : Database σ)
    {item : SelectItem} (hitem : item ∈ compiled.select) {operation : MetricOperation} {ref : FieldRef}
    (hexpr : item.expr = .metric operation ref) (group : List JoinedRow) :
    resultNumber (compiled.resultRow database group) item.output = operation.overJoined ref group := by
  obtain ⟨before, after, hsplit⟩ := List.append_of_mem hitem
  have hlater : ∀ later ∈ after, item.output ≠ later.output := by
    have hfresh := h.fresh
    rw [hsplit, List.pairwise_append, List.pairwise_cons] at hfresh
    exact fun later hmem => hfresh.2.1.1 later hmem (.inl (by rw [hexpr]; rfl))
  have hnone : ((after.map fun item => (item.output, item.expr.overGroup database group)).reverse).lookup
      item.output = none := by
    refine List.lookup_eq_none_iff.mpr fun entry hentry => ?_
    obtain ⟨later, hmem, rfl⟩ := List.mem_map.mp (List.mem_reverse.mp hentry)
    exact bne_iff_ne.mpr (hlater later hmem)
  have hlookup : (compiled.resultRow database group).reverse.lookup item.output
      = some (.number (operation.overJoined ref group)) := by
    rw [CompiledAnalysis.resultRow, hsplit, List.map_append, List.map_cons, List.reverse_append,
      List.reverse_cons, List.append_assoc, List.lookup_append, hnone, Option.none_or, List.singleton_append,
      List.lookup_cons_self, hexpr]
    rfl
  rw [resultNumber, hlookup]

/-- A metric that has a total adds up over the groups. -/
theorem CompiledFor.group_eq_nil (h : CompiledFor host plan compiled loaded primary) {item : SelectItem}
    (hitem : item ∈ compiled.select) {operation : MetricOperation} {ref : FieldRef}
    (hexpr : item.expr = .metric operation ref) {column : ResultColumnMeta} (hcolumn : column.name = item.output)
    (htotal : withoutTotal plan column = false) (hoperation : operation = .countDistinct) :
    compiled.group = [] := by
  have hsuffix : "_count_distinct".toList.isSuffixOf column.name.toList = true := by
    rw [hcolumn, (h.measured item hitem operation ref hexpr).output, hoperation]
    refine List.isSuffixOf_iff_suffix.mpr ⟨ref.field.toList, ?_⟩
    rw [String.toList_append, String.toList_append, List.append_assoc]
    rfl
  rw [withoutTotal, hsuffix, Bool.true_and, Bool.or_eq_false_iff, Bool.not_eq_false'] at htotal
  exact h.ungrouped (List.isEmpty_iff.mp htotal.1) (Option.isNone_iff_eq_none.mp (by simpa using htotal.2))

/-- **The totals of a complete result are the ungrouped values**: the groups of a result that is complete are all
there, in whatever order. -/
theorem CompiledFor.total_eq (h : CompiledFor host plan compiled loaded primary) (database : Database σ)
    (hcompiled : compileAnalysis host plan = .ok compiled) {result : AnalysisResult}
    (hresult : analyze host database plan = .ok (some result)) {total : String × ℚ} (htotal : total ∈ result.totals) :
    ∃ item ∈ compiled.select, ∃ operation ref, item.expr = .metric operation ref
      ∧ total = (item.output, operation.overJoined ref (compiled.relation database host.table)) := by
  rw [analyze, hcompiled] at hresult
  simp only [Except.map, Except.ok.injEq] at hresult
  split at hresult
  · cases hresult
  rename_i hlength
  cases hresult
  obtain ⟨column, hcolumn, rfl⟩ := List.mem_map.mp htotal
  rw [List.mem_filter, Bool.and_eq_true, Bool.not_eq_true'] at hcolumn
  obtain ⟨hcolumn, hmetric, hwithout⟩ := hcolumn
  have hdescribed : (column.name, column.metricName.isSome)
      ∈ compiled.select.map fun item => (item.output, item.expr.isMetric) :=
    h.described ▸ List.mem_map_of_mem hcolumn
  obtain ⟨item, hitem, heq⟩ := List.mem_map.mp hdescribed
  rw [hmetric, Prod.mk.injEq] at heq
  obtain ⟨operation, ref, hexpr⟩ : ∃ operation ref, item.expr = .metric operation ref := by
    cases hexpr : item.expr with
    | field ref => rw [hexpr] at heq; exact absurd heq.2 Bool.false_ne_true
    | bucket unit ref => rw [hexpr] at heq; exact absurd heq.2 Bool.false_ne_true
    | metric operation ref => exact ⟨operation, ref, rfl⟩
  refine ⟨item, hitem, operation, ref, hexpr, ?_⟩
  have hall : (compiled.run database host.table).Perm ((compiled.groups database
      (compiled.relation database host.table)).map (compiled.resultRow database)) := by
    rw [CompiledAnalysis.run, h.limit_eq] at hlength ⊢
    rw [List.length_take] at hlength
    rw [List.take_of_length_le (by omega)]
    exact database.arranged_perm _ _
  have hsum := (hall.map fun row => resultNumber row item.output).sum_eq
  rw [List.map_map, Function.comp_def] at hsum
  simp only [h.resultNumber_eq database hitem hexpr] at hsum
  rw [heq.1.symm, hsum, compiled.sum_groups database hitem hexpr
    (h.group_eq_nil hitem hexpr heq.1.symm hwithout)]

end

/-- **Analysis joins do not fan out.** The joined relation of a plan that compiles has at most one row per row of
the primary dataset. Every metric over joined rows, whatever is kept of them, is that metric over the matched rows
of its dataset alone. The sums and counts of the groups add up to the ungrouped value, and so the totals of a
result are the ungrouped values. -/
theorem analysis_joins_do_not_fan_out {host : AnalysisHost} (database : Database σ) {plan : AnalysisPlan σ}
    {compiled : CompiledAnalysis σ} (h : compileAnalysis host plan = .ok compiled) :
    ∃ (loaded : List LoadedDataset) (primary : LoadedDataset), plan.datasetRefs.map host.getDataset = loaded.map some ∧ loaded[0]? = some primary
      ∧ ((compiled.joined host.table).filterMap fun row => row.lookup 0).Sublist primary.tableRows
      ∧ ((compiled.joined host.table).filterMap fun row => row.lookup 0).length = (compiled.joined host.table).length
      ∧ (∀ item ∈ compiled.select, ∀ operation ref, item.expr = .metric operation ref →
        (∃ owner, loaded[ref.tableAlias]? = some owner ∧ ref.field ∈ owner.datasetId.metrics
          ∧ ∀ keep : JoinedRow → Bool, operation.overJoined ref ((compiled.joined host.table).filter keep)
            = operation.overRows ref.field (InnerJoin.matched ref.tableAlias owner.tableRows
              ((compiled.joined host.table).filter keep)))
        ∧ (operation ≠ .countDistinct → ((compiled.groups database (compiled.relation database host.table)).map
            (operation.overJoined ref)).sum = operation.overJoined ref (compiled.relation database host.table)))
      ∧ ∀ result, analyze host database plan = .ok (some result) → ∀ total ∈ result.totals,
        ∃ item ∈ compiled.select, ∃ operation ref, item.expr = .metric operation ref
          ∧ total = (item.output, operation.overJoined ref (compiled.relation database host.table)) := by
  obtain ⟨loaded, primary, hfor⟩ := compiledFor_of_compileAnalysis h
  obtain ⟨hsublist, hlength⟩ := InnerJoin.filterMap_lookup_sublist 0 (host.table compiled.fromTable)
    hfor.joinings_functional
  refine ⟨loaded, primary, ?_, hfor.primary_eq, hfor.fromTable_eq ▸ hsublist, hlength,
    fun item hitem operation ref hexpr => ⟨?_, fun hoperation => ?_⟩,
    fun result hresult total htotal => hfor.total_eq database h hresult htotal⟩
  · rw [← hfor.loadedFor.references_eq, List.map_map]
    exact List.map_congr_left fun dataset hmem => hfor.loadedFor.getDataset dataset hmem
  · obtain ⟨⟨owner, howner, hmetrics⟩, -⟩ := hfor.measured item hitem operation ref hexpr
    exact ⟨owner, howner, hmetrics, fun keep => hfor.overJoined_eq hitem hexpr howner keep⟩
  · exact compiled.sum_groups database hitem hexpr (fun hcount => absurd hcount hoperation) _

/-- Reported production of two styles. -/
def sampleProduction : LoadedDataset where
  reference := "dataset:1"
  datasetId := .reportedProduction
  tableName := "analysis_data_0"
  rows := [[("style_id", .text "S1"), ("quantity", .decimal (.finite false 2 0))],
    [("style_id", .text "S1"), ("quantity", .decimal (.finite false 3 0))]]
  columns := ["style_id", "quantity"]
  isNormal := by
    simp [IsNormalTable, AnalysisValue.IsNormal, List.lookup_cons, numericFields, integerFields, booleanFields,
      Decimal.isFinite]

/-- The styles of that production. -/
def sampleStyles : LoadedDataset where
  reference := "dataset:2"
  datasetId := .styles
  tableName := "analysis_data_1"
  rows := [[("style_id", .text "S1"), ("name", .text "shirt")], [("style_id", .text "S2"), ("name", .text "skirt")]]
  columns := ["style_id", "name"]
  isNormal := by
    simp [IsNormalTable, AnalysisValue.IsNormal, List.lookup_cons, numericFields, integerFields, booleanFields]

/-- The host that has loaded both. -/
def sampleHost : AnalysisHost where
  getDataset reference :=
    if reference = "dataset:1" then some sampleProduction
    else if reference = "dataset:2" then some sampleStyles else none
  table name :=
    if name = "analysis_data_0" then sampleProduction.tableRows
    else if name = "analysis_data_1" then sampleStyles.tableRows else []
  authorizeMetric _ := true
  referenced := by
    intro reference loaded h
    split at h
    · cases h; rename_i heq; exact heq.symm
    · split at h
      · cases h; rename_i heq; exact heq.symm
      · cases h
  registered := by
    intro reference loaded h
    split at h
    · cases h; rfl
    · split at h
      · cases h; rfl
      · cases h

/-- The quantity by the name of the style. -/
def samplePlan : AnalysisPlan String where
  datasetRefs := ["dataset:1", "dataset:2"]
  groupBy := ["name"]
  metrics := [⟨"quantity", .sum⟩]
  filters := []
  orderBy := []
  joins := [⟨"dataset:1", "dataset:2", ["style_id"], ["style_id"], .manyToOne⟩]
  timeBucket := none
  limit := 10

/-- A database that compares texts. The one group of the sample is in order as it is. -/
def sampleDatabase : Database String where
  holds _ value values := values.any fun text => value == .text text
  truncated _ value := value
  arranged _ rows := rows
  arranged_perm _ rows := List.Perm.refl rows

/-- The production by style compiles, and its total is that of all its rows. -/
theorem analysis_joins_do_not_fan_out_sample :
    ∃ compiled, compileAnalysis sampleHost samplePlan = .ok compiled
      ∧ (∃ primary : LoadedDataset, ((compiled.joined sampleHost.table).filterMap fun row => row.lookup 0).Sublist
        primary.tableRows)
      ∧ ∀ result, analyze sampleHost sampleDatabase samplePlan = .ok (some result) → ∀ total ∈ result.totals,
        ∃ item ∈ compiled.select, ∃ operation ref, item.expr = .metric operation ref
          ∧ total = (item.output, operation.overJoined ref (compiled.relation sampleDatabase sampleHost.table)) := by
  obtain ⟨compiled, h⟩ := Except.exists_eq_ok_of_isOk
    (show (compileAnalysis sampleHost samplePlan).isOk = true by decide +kernel)
  obtain ⟨_, primary, -, -, hsublist, -, -, htotals⟩ := analysis_joins_do_not_fan_out sampleDatabase h
  exact ⟨compiled, h, ⟨primary, hsublist⟩, htotals⟩

example : (analyze sampleHost sampleDatabase samplePlan).toOption.join.map (·.totals)
    = some [("quantity_sum", 5)] := by
  decide +kernel
