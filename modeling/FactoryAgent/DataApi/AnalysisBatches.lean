import FactoryAgent.Cache.ServingRuns
import FactoryAgent.DataApi.AnalysisSource

/-!
# Batches of facts

What `CachedFactSource` makes of the answers of the executor. A projection of rows is characterised first
(`projects_of_project`): the rows of the scope in their order, and the columns that one of them lacks or garbles. The
validation and the projection read each value by code of their own, but they agree about rows that can be projected
(`requiredFieldsValid_of_projects`), so what the cache was allowed to serve is whole, and in shadow mode a batch that is
not whole is not complete. With what is known of the executor in every run, the batch of each question is founded on
what was answered to it (`fetch_run`).

The two do not agree about what is raised: a day outside the years of `datetime` is valid, and raises in the projection.
-/

namespace Facts

open LocalTime (Zone)
open Serving

/-! ## Two readings of a row -/

/-- **The two readings of a value agree**, where the projection reads it at all. -/
theorem valid_of_reading {zone : Zone} {column : String} {value : Cell} {read : Option AnalysisValue}
    (h : reading zone column value = .ok read) : valid column value = .ok read.isSome := by
  unfold reading at h
  unfold valid
  split_ifs at h ⊢ with hnumeric hdate
  · cases hnumber : number? value with
    | error raised =>
      rw [hnumber] at h
      cases h
    | ok number =>
      rw [hnumber] at h
      cases h
      cases number <;> rfl
  · split at h
    · next hnone =>
      cases h
      rw [hnone]
      rfl
    · next date hsome =>
      split at h
      · cases h
      · cases h
        rw [hsome]
        rfl
  · split at h
    · cases h
      rfl
    · next hother =>
      cases h
      cases value with
      | text value => exact absurd rfl (hother value)
      | _ => rfl

section Readings

variable (query : FactQuery) (fields : Fields) (zone : Zone)

/-- **A row of the scope.** -/
def FactQuery.inScope (row : Row) : Bool :=
  (query.scopeContains row).toOption.getD false

/-- A row that says whose it is. -/
def FactQuery.Proven (row : Row) : Prop :=
  ∃ inside, query.scopeContains row = .ok inside

/-- **A row whose numbers and days are in range**, whether or not they are valid. -/
def InRange (row : Row) : Prop :=
  ∀ field ∈ fields, ∀ value, row[field.2]? = some value → ∃ read, reading zone field.1 value = .ok read

/-- What can be read of a column of a row. -/
def read? (row : Row) (field : String × String) : Option (String × AnalysisValue) :=
  (row[field.2]?).bind fun value => ((reading zone field.1 value).toOption.join).map fun read => (field.1, read)

/-- **What can be read of a row.** -/
def projected (row : Row) : Std.ExtTreeMap String AnalysisValue :=
  .ofList (fields.filterMap (read? zone row))

/-- A column that a row does not have. -/
def Lacks (row : Row) (column : String) : Prop :=
  ∃ original, (column, original) ∈ fields ∧ row[original]? = none

/-- A column of a row that cannot be read. -/
def Garbles (row : Row) (column : String) : Prop :=
  ∃ original value, (column, original) ∈ fields ∧ row[original]? = some value ∧ reading zone column value = .ok none

/-- **What a projection of rows is.** -/
structure Projects (rows : List Row) (projection : Projection) : Prop where
  proven : ∀ row ∈ rows, query.Proven row
  read : ∀ row ∈ rows, query.inScope row = true → InRange fields zone row
  rows_eq : projection.rows = (rows.filter query.inScope).map (projected fields zone)
  missing : ∀ column, column ∈ projection.missing ↔
    column ∈ query.columns ∧ ∃ row ∈ rows, query.inScope row = true ∧ Lacks fields row column
  invalid : ∀ column, column ∈ projection.invalid ↔
    column ∈ query.columns ∧ ∃ row ∈ rows, query.inScope row = true ∧ Garbles fields zone row column

end Readings

variable {query : FactQuery} {fields : Fields} {zone : Zone}

theorem FactQuery.inScope_of_ok {row : Row} {inside : Bool} (h : query.scopeContains row = .ok inside) :
    query.inScope row = inside := by
  rw [FactQuery.inScope, h]
  rfl

/-- A column of a row that can be read, or not, or is missing. -/
theorem projectField_eq_ok {row : Row} {done result : Projecting} {field : String × String}
    (h : query.projectField zone row done field = .ok result) :
    (∀ value, row[field.2]? = some value → ∃ read, reading zone field.1 value = .ok read)
    ∧ result.values = done.values.insertMany (read? zone row field).toList
    ∧ (∀ column, column ∈ result.missing ↔
      column ∈ done.missing ∨ column = field.1 ∧ column ∈ query.columns ∧ row[field.2]? = none)
    ∧ (∀ column, column ∈ result.invalid ↔ column ∈ done.invalid ∨ column = field.1 ∧ column ∈ query.columns
      ∧ ∃ value, row[field.2]? = some value ∧ reading zone field.1 value = .ok none) := by
  unfold FactQuery.projectField at h
  unfold read?
  cases hvalue : row[field.2]? with
  | none =>
    rw [hvalue] at h
    simp only [Except.ok.injEq] at h
    subst h
    refine ⟨fun value hsome => (by cases hsome), ?_, fun column => ?_, fun column => ?_⟩
    · split_ifs <;> rfl
    · split_ifs with hasked
      · rw [Std.ExtTreeSet.mem_insert, Std.LawfulEqCmp.compare_eq_iff_eq]
        grind
      · grind
    · split_ifs <;> grind
  | some value =>
    rw [hvalue] at h
    obtain ⟨read, hread, hresult⟩ := Except.bind_eq_ok.mp h
    refine ⟨fun other hother => (by cases hother; exact ⟨read, hread⟩), ?_⟩
    rw [Option.bind_some, hread]
    cases read with
    | none =>
      simp only [Except.pure_eq_ok] at hresult
      subst hresult
      refine ⟨by split_ifs <;> rfl, fun column => ?_, fun column => ?_⟩
      · split_ifs <;> grind
      · split_ifs with hasked
        · rw [Std.ExtTreeSet.mem_insert, Std.LawfulEqCmp.compare_eq_iff_eq]
          grind
        · grind
    | some read =>
      simp only [Except.pure_eq_ok] at hresult
      subst hresult
      refine ⟨rfl, fun column => ?_, fun column => ?_⟩ <;> grind

/-- **The columns of a row.** -/
theorem projectFields_eq_ok {row : Row} {done result : Projecting}
    (h : fields.foldlM (query.projectField zone row) done = .ok result) :
    InRange fields zone row
    ∧ result.values = done.values.insertMany (fields.filterMap (read? zone row))
    ∧ (∀ column, column ∈ result.missing ↔
      column ∈ done.missing ∨ column ∈ query.columns ∧ Lacks fields row column)
    ∧ (∀ column, column ∈ result.invalid ↔
      column ∈ done.invalid ∨ column ∈ query.columns ∧ Garbles fields zone row column) := by
  induction fields generalizing done with
  | nil =>
    cases h
    refine ⟨fun _ hmem => absurd hmem List.not_mem_nil, rfl, fun column => ?_, fun column => ?_⟩
    · simp [Lacks]
    · simp [Garbles]
  | cons field fields ih =>
    rw [List.foldlM_cons] at h
    obtain ⟨next, hnext, hrest⟩ := Except.bind_eq_ok.mp h
    obtain ⟨hread, hvalues, hmissing, hinvalid⟩ := projectField_eq_ok hnext
    obtain ⟨hreads, hvalues', hmissing', hinvalid'⟩ := ih hrest
    refine ⟨List.forall_mem_cons.mpr ⟨hread, hreads⟩, ?_, fun column => ?_, fun column => ?_⟩
    · rw [hvalues', hvalues, List.filterMap_cons]
      cases read? zone row field with
      | none => rfl
      | some entry => rw [Std.ExtTreeMap.insertMany_cons]; rfl
    · rw [hmissing', hmissing]
      obtain ⟨name, original⟩ := field
      simp only [Lacks, List.mem_cons, Prod.mk.injEq]
      grind
    · rw [hinvalid', hinvalid]
      obtain ⟨name, original⟩ := field
      simp only [Garbles, List.mem_cons, Prod.mk.injEq]
      grind

/-- **A row more.** -/
theorem projectRow_eq_ok {row : Row} {done result : Projection}
    (h : query.projectRow fields zone done row = .ok result) :
    query.Proven row
    ∧ (query.inScope row = true → InRange fields zone row)
    ∧ result.rows = done.rows ++ ([row].filter query.inScope).map (projected fields zone)
    ∧ (∀ column, column ∈ result.missing ↔ column ∈ done.missing
      ∨ column ∈ query.columns ∧ query.inScope row = true ∧ Lacks fields row column)
    ∧ (∀ column, column ∈ result.invalid ↔ column ∈ done.invalid
      ∨ column ∈ query.columns ∧ query.inScope row = true ∧ Garbles fields zone row column) := by
  obtain ⟨inside, hinside, hresult⟩ := Except.bind_eq_ok.mp h
  refine ⟨⟨inside, hinside⟩, ?_⟩
  rw [FactQuery.inScope_of_ok hinside]
  cases inside with
  | false =>
    cases hresult
    refine ⟨fun hfalse => (by cases hfalse), ?_, fun column => ?_, fun column => ?_⟩
    · rw [List.filter_cons_of_neg (by rw [FactQuery.inScope_of_ok hinside]; decide), List.filter_nil, List.map_nil,
        List.append_nil]
    · simp
    · simp
  | true =>
    obtain ⟨projecting, hprojecting, hpure⟩ := Except.bind_eq_ok.mp hresult
    obtain ⟨hreads, hvalues, hmissing, hinvalid⟩ := projectFields_eq_ok hprojecting
    cases hpure
    refine ⟨fun _ => hreads, ?_, fun column => ?_, fun column => ?_⟩
    · rw [List.filter_cons_of_pos (FactQuery.inScope_of_ok hinside), List.filter_nil, List.map_singleton, hvalues,
        projected, Std.ExtTreeMap.ofList_eq_insertMany_empty]
    · rw [hmissing]
      simp
    · rw [hinvalid]
      simp

/-- **What a projection is**, after the rows that were projected before. -/
theorem projectRows_eq_ok {rows : List Row} {done result : Projection}
    (h : rows.foldlM (query.projectRow fields zone) done = .ok result) :
    (∀ row ∈ rows, query.Proven row)
    ∧ (∀ row ∈ rows, query.inScope row = true → InRange fields zone row)
    ∧ result.rows = done.rows ++ (rows.filter query.inScope).map (projected fields zone)
    ∧ (∀ column, column ∈ result.missing ↔ column ∈ done.missing
      ∨ column ∈ query.columns ∧ ∃ row ∈ rows, query.inScope row = true ∧ Lacks fields row column)
    ∧ (∀ column, column ∈ result.invalid ↔ column ∈ done.invalid
      ∨ column ∈ query.columns ∧ ∃ row ∈ rows, query.inScope row = true ∧ Garbles fields zone row column) := by
  induction rows generalizing done with
  | nil =>
    cases h
    refine ⟨fun _ hmem => absurd hmem List.not_mem_nil, fun _ hmem => absurd hmem List.not_mem_nil,
      (List.append_nil _).symm, fun column => ?_, fun column => ?_⟩
    · simp
    · simp
  | cons row rows ih =>
    rw [List.foldlM_cons] at h
    obtain ⟨next, hnext, hrest⟩ := Except.bind_eq_ok.mp h
    obtain ⟨hproven, hread, hrow, hmissing, hinvalid⟩ := projectRow_eq_ok hnext
    obtain ⟨hprovens, hreads, hrows, hmissings, hinvalids⟩ := ih hrest
    refine ⟨List.forall_mem_cons.mpr ⟨hproven, hprovens⟩, List.forall_mem_cons.mpr ⟨hread, hreads⟩, ?_,
      fun column => ?_, fun column => ?_⟩
    · rw [hrows, hrow, List.append_assoc, ← List.map_append, ← List.filter_append]
      rfl
    · rw [hmissings, hmissing, List.exists_mem_cons_iff]
      tauto
    · rw [hinvalids, hinvalid, List.exists_mem_cons_iff]
      tauto

/-- **What comes out of a projection.** -/
theorem projects_of_project {rows : List Row} {projection : Projection}
    (h : query.project fields zone rows = .ok projection) : Projects query fields zone rows projection := by
  obtain ⟨hproven, hread, hrows, hmissing, hinvalid⟩ := projectRows_eq_ok h
  refine ⟨hproven, hread, hrows, fun column => ?_, fun column => ?_⟩
  · rw [hmissing]
    simp
  · rw [hinvalid]
    simp

/-! ## The validation and the projection -/

/-- The column of the MES of a column that is there once. -/
theorem lookup_eq_some_of_mem (hnodup : (fields.map Prod.fst).Nodup) {column original : String}
    (h : (column, original) ∈ fields) : fields.lookup column = some original := by
  induction fields with
  | nil => cases h
  | cons field fields ih =>
    rw [List.map_cons, List.nodup_cons] at hnodup
    rcases List.mem_cons.mp h with rfl | hmem
    · exact List.lookup_cons_self
    · have hne : column ≠ field.1 := fun heq => hnodup.1 (heq ▸ List.mem_map_of_mem hmem)
      rw [List.lookup_cons, beq_eq_false_iff_ne.mpr hne]
      exact ih hnodup.2 hmem

/-- A row in which the columns can be validated. -/
theorem columnsValid_eq_all {row : Row} {columns : List String} {f : String → Bool}
    (h : ∀ column ∈ columns, FactQuery.columnValid fields row column = .ok (f column)) :
    FactQuery.columnsValid fields row columns = .ok (columns.all f) := by
  induction columns with
  | nil => rfl
  | cons column columns ih =>
    rw [FactQuery.columnsValid, h column List.mem_cons_self, List.all_cons]
    cases f column with
    | false => rfl
    | true =>
      rw [Bool.true_and]
      exact ih fun other hother => h other (List.mem_cons_of_mem _ hother)

/-- Rows that say whose they are, and in which the columns can be validated. -/
theorem requiredFieldsValid_eq_all {rows : List Row} {f : Row → Bool}
    (hproven : ∀ row ∈ rows, query.Proven row)
    (h : ∀ row ∈ rows, query.inScope row = true →
      FactQuery.columnsValid fields row query.columns = .ok (f row)) :
    query.requiredFieldsValid fields rows = .ok (rows.all fun row => !query.inScope row || f row) := by
  induction rows with
  | nil => rfl
  | cons row rows ih =>
    obtain ⟨inside, hinside⟩ := hproven row List.mem_cons_self
    have hrest := ih (fun other hother => hproven other (List.mem_cons_of_mem _ hother))
      fun other hother => h other (List.mem_cons_of_mem _ hother)
    have hrow := h row List.mem_cons_self
    rw [FactQuery.inScope_of_ok hinside] at hrow
    rw [FactQuery.requiredFieldsValid, hinside, List.all_cons, FactQuery.inScope_of_ok hinside]
    cases inside with
    | false => exact hrest
    | true =>
      show (FactQuery.columnsValid fields row query.columns >>= fun valid =>
        if valid = true then query.requiredFieldsValid fields rows else pure false) = _
      rw [hrow rfl]
      cases f row with
      | false => rfl
      | true => exact hrest

/-- What can be read of the columns that were asked for. -/
def readable (fields : Fields) (zone : Zone) (row : Row) (column : String) : Bool :=
  ((fields.lookup column).bind (row[·]?)).any fun value => (reading zone column value).toOption.join.isSome

/-- **A column of a row is valid where it can be read.** -/
theorem columnValid_of_reading {row : Row} {column original : String} (hlookup : fields.lookup column = some original)
    (hread : ∀ value, row[original]? = some value → ∃ read, reading zone column value = .ok read) :
    FactQuery.columnValid fields row column = .ok (readable fields zone row column) := by
  unfold FactQuery.columnValid readable
  rw [hlookup, Option.bind_some]
  simp only
  cases hvalue : row[original]? with
  | none => rfl
  | some value =>
    obtain ⟨read, hread⟩ := hread value hvalue
    rw [Option.any_some, hread]
    exact valid_of_reading hread

/-- **What can be read is what is neither missing nor garbled.** -/
theorem readable_iff {row : Row} {column original : String} (hnodup : (fields.map Prod.fst).Nodup)
    (hfield : (column, original) ∈ fields) (hrange : InRange fields zone row) :
    readable fields zone row column = true ↔ ¬Lacks fields row column ∧ ¬Garbles fields zone row column := by
  have hlookup := lookup_eq_some_of_mem hnodup hfield
  have hsame : ∀ other, (column, other) ∈ fields → other = original := fun other hother =>
    Option.some.inj ((lookup_eq_some_of_mem hnodup hother).symm.trans hlookup)
  rw [readable, hlookup, Option.bind_some]
  cases hvalue : row[original]? with
  | none => exact ⟨fun hnone => (by cases hnone), fun hwhole => absurd ⟨original, hfield, hvalue⟩ hwhole.1⟩
  | some value =>
    obtain ⟨read, hread⟩ := hrange _ hfield value hvalue
    rw [Option.any_some, hread]
    cases read with
    | none =>
      exact ⟨fun hnone => (by cases hnone), fun hwhole => absurd ⟨original, value, hfield, hvalue, hread⟩ hwhole.2⟩
    | some read =>
      refine ⟨fun _ => ⟨?_, ?_⟩, fun _ => rfl⟩
      · rintro ⟨other, hother, hnone⟩
        rw [hsame other hother, hvalue] at hnone
        cases hnone
      · rintro ⟨other, value', hother, hvalue', hnone⟩
        obtain rfl := hsame other hother
        rw [hvalue] at hvalue'
        cases hvalue'
        rw [hread] at hnone
        cases hnone

/-- **The validation and the projection agree** about rows that can be projected: the columns are valid where none is
missing and none invalid. -/
theorem requiredFieldsValid_of_projects {rows : List Row} {projection : Projection}
    (h : Projects query fields zone rows projection) (hnodup : (fields.map Prod.fst).Nodup)
    (hcolumns : ∀ column ∈ query.columns, column ∈ fields.map Prod.fst) :
    query.requiredFieldsValid fields rows = .ok (projection.missing.isEmpty && projection.invalid.isEmpty) := by
  have hfield : ∀ column ∈ query.columns, ∃ original, (column, original) ∈ fields := fun column hcolumn => by
    obtain ⟨field, hfield, rfl⟩ := List.mem_map.mp (hcolumns column hcolumn)
    exact ⟨field.2, hfield⟩
  -- the projection raised nothing, so neither does the validation, wherever it stops
  rw [requiredFieldsValid_eq_all (f := fun row => query.columns.all (readable fields zone row)) h.proven]
  · have hreadable : ∀ row ∈ rows, query.inScope row = true → ∀ column ∈ query.columns,
        (readable fields zone row column = true ↔ ¬Lacks fields row column ∧ ¬Garbles fields zone row column) := by
      intro row hrow hinside column hcolumn
      obtain ⟨original, hfield⟩ := hfield column hcolumn
      exact readable_iff hnodup hfield (h.read row hrow hinside)
    congr 1
    rw [Bool.eq_iff_iff, Bool.and_eq_true, Std.ExtTreeSet.isEmpty_iff, Std.ExtTreeSet.isEmpty_iff,
      Std.ExtTreeSet.eq_empty_iff_forall_not_mem, Std.ExtTreeSet.eq_empty_iff_forall_not_mem]
    simp only [h.missing, h.invalid, List.all_eq_true, Bool.or_eq_true, Bool.not_eq_true']
    constructor
    · intro hall
      have hwhole : ∀ row ∈ rows, query.inScope row = true → ∀ column ∈ query.columns,
          ¬Lacks fields row column ∧ ¬Garbles fields zone row column := fun row hrow hinside column hcolumn =>
        (hreadable row hrow hinside column hcolumn).mp
          ((hall row hrow).resolve_left (by simp [hinside]) column hcolumn)
      refine ⟨?_, ?_⟩
      · rintro column ⟨hcolumn, row, hrow, hinside, hlacks⟩
        exact (hwhole row hrow hinside column hcolumn).1 hlacks
      · rintro column ⟨hcolumn, row, hrow, hinside, hgarbles⟩
        exact (hwhole row hrow hinside column hcolumn).2 hgarbles
    · rintro ⟨hmissing, hinvalid⟩ row hrow
      by_cases hinside : query.inScope row = true
      · exact .inr fun column hcolumn => (hreadable row hrow hinside column hcolumn).mpr
          ⟨fun hlacks => hmissing column ⟨hcolumn, row, hrow, hinside, hlacks⟩,
            fun hgarbles => hinvalid column ⟨hcolumn, row, hrow, hinside, hgarbles⟩⟩
      · exact .inl (Bool.eq_false_iff.mpr hinside)
  · intro row hrow hinside
    refine columnsValid_eq_all fun column hcolumn => ?_
    obtain ⟨original, hfield⟩ := hfield column hcolumn
    exact columnValid_of_reading (lookup_eq_some_of_mem hnodup hfield) fun value hvalue =>
      h.read row hrow hinside _ hfield value hvalue

/-! ## What a question may be about -/

/-- **The columns of a question that is asked** are columns of its dataset, each of which is there once; and it is about
what the scope of its caller has. -/
theorem plan_eq_ask {operationId : String} {params : Params} (h : query.plan = .ok (.ask fields operationId params)) :
    query.unbound = false ∧ query.outside = false ∧ (fields.map Prod.fst).Nodup
      ∧ ∀ column ∈ query.columns, column ∈ fields.map Prod.fst := by
  -- what was reviewed is read from another column of the MES, under the same name
  have hkeys (given : Fields) : (query.anchored given).map Prod.fst = given.map Prod.fst := by
    unfold FactQuery.anchored
    split_ifs
    · rw [List.map_map]
      refine List.map_congr_left fun field _ => ?_
      rw [Function.comp_apply]
      split_ifs with hdate
      · rfl
      · rfl
    · rfl
  have hnodup {given : Fields} (hgiven : datasetFields query.datasetId = some given) :
      (given.map Prod.fst).Nodup := by
    unfold datasetFields at hgiven
    split at hgiven
    · cases hgiven
      decide
    · cases hgiven
      decide
    · cases hgiven
  unfold FactQuery.plan at h
  split at h
  · cases h
  · next hscope =>
    obtain ⟨-, hunbound, houtside⟩ := not_or.mp hscope |>.imp_right not_or.mp
    refine ⟨Bool.eq_false_iff.mpr hunbound, Bool.eq_false_iff.mpr houtside, ?_⟩
    split at h
    · cases h
    · next given hgiven =>
      split at h
      · cases h
      · next hcolumns =>
        have hmem : ∀ column ∈ query.columns, column ∈ given.map Prod.fst := by
          simpa using hcolumns
        split at h
        · split_ifs at h <;> cases h
          · rw [hkeys]
            exact ⟨hnodup hgiven, hmem⟩
          · exact ⟨hnodup hgiven, hmem⟩
        · cases h

/-- **A row that the scope of a caller has**: its employee, for an employee and wherever the MES does not narrow; its
department, where one was not asked for that the MES is trusted with. -/
structure FactQuery.Allowed (query : FactQuery) (row : Row) : Prop where
  employee : query.role = .employee ∨ query.scope.mesFiltered = false ∧ query.filters.employeeIds.isSome = true →
    ∃ uid, row["uid"]? = some uid ∧ uid.str ∈ query.scope.employeeIds
  department : query.departmentIds.isSome = true →
    query.filters.requestedDeptIds = none ∨ query.scope.mesFiltered = false →
    ∃ dept, row["dept"]? = some dept ∧ dept.str ∈ query.scope.deptIds

/-- **A row of the scope says so.** -/
theorem inScope_iff {row : Row} : query.inScope row = true ↔
    (∀ ids ∈ query.filters.employeeIds, ∃ uid, row["uid"]? = some uid ∧ uid.str ≠ "" ∧ uid.str ∈ ids)
    ∧ ∀ ids ∈ query.departmentIds, ∃ dept, row["dept"]? = some dept ∧ dept.str ∈ ids := by
  unfold FactQuery.inScope FactQuery.scopeContains FactQuery.employeeContains FactQuery.departmentContains
  cases query.filters.employeeIds with
  | none =>
    cases query.departmentIds with
    | none => simp [Except.toOption, bind, Except.bind]
    | some depts => cases row["dept"]? <;> simp [Except.toOption, bind, Except.bind]
  | some ids =>
    cases row["uid"]? with
    | none => simp [Except.toOption, bind, Except.bind]
    | some uid =>
      by_cases hempty : uid.str = ""
      · simp [hempty, Except.toOption, bind, Except.bind]
      · by_cases huid : uid.str ∈ ids
        · cases query.departmentIds with
          | none => simp [hempty, huid, Except.toOption, bind, Except.bind]
          | some depts => cases row["dept"]? <;> simp [hempty, huid, Except.toOption, bind, Except.bind]
        · simp [hempty, huid, Except.toOption, bind, Except.bind, pure, Except.pure]

/-- **The rows of the scope are the caller's.** -/
theorem allowed_of_inScope {row : Row} (hunbound : query.unbound = false) (houtside : query.outside = false)
    (h : query.inScope row = true) : query.Allowed row := by
  obtain ⟨hemployee, hdepartment⟩ := inScope_iff.mp h
  refine ⟨fun hwho => ?_, fun hsome hwhose => ?_⟩
  -- the filter of an employee is held to the scope by one check, and that of others by the next
  · have hbound : ∃ ids ∈ query.filters.employeeIds, ∀ id ∈ ids, id ∈ query.scope.employeeIds := by
      rcases hwho with hrole | ⟨hfiltered, hsome⟩
      · cases hids : query.filters.employeeIds with
        | none => simp [FactQuery.unbound, hrole, hids] at hunbound
        | some ids =>
          simp only [FactQuery.unbound, hrole, hids, decide_true, Bool.true_and, Option.all_some, Bool.or_eq_false_iff,
            Bool.not_eq_false', List.all_eq_true, decide_eq_true_eq] at hunbound
          exact ⟨ids, rfl, hunbound.2⟩
      · obtain ⟨ids, hids⟩ := Option.isSome_iff_exists.mp hsome
        simp only [FactQuery.outside, hfiltered, hids, Bool.not_false, Bool.true_and, Option.any_some,
          Bool.or_eq_false_iff, Bool.not_eq_false', List.all_eq_true, decide_eq_true_eq] at houtside
        exact ⟨ids, hids, houtside.1⟩
    obtain ⟨ids, hids, hwithin⟩ := hbound
    obtain ⟨uid, huid, -, hmem⟩ := hemployee ids hids
    exact ⟨uid, huid, hwithin _ hmem⟩
  · obtain ⟨ids, hids⟩ := Option.isSome_iff_exists.mp hsome
    obtain ⟨dept, hdept, hmem⟩ := hdepartment ids hids
    refine ⟨dept, hdept, ?_⟩
    unfold FactQuery.departmentIds at hids
    cases hrequested : query.filters.requestedDeptIds with
    | none =>
      rw [hrequested] at hids
      simp only [Option.ite_none_right_eq_some, Option.some.injEq] at hids
      rw [hids.2]
      exact hmem
    | some requested =>
      rw [hrequested] at hids hwhose
      cases hids
      have hfiltered := hwhose.resolve_left (Option.some_ne_none _)
      simp only [FactQuery.outside, hfiltered, hrequested, Bool.not_false, Bool.true_and, Option.any_some,
        Bool.or_eq_false_iff, Bool.not_eq_false', List.all_eq_true, decide_eq_true_eq] at houtside
      exact houtside.2 _ hmem

/-! ## What comes of an answer -/

/-- **A batch of some rows**: it has each row of the scope, as far as that can be read, and such rows are the caller's;
it names the columns that were asked for and that one of them lacks, or garbles; and where it names none, each of its
rows has all columns that were asked for. -/
structure FactBatch.Of (batch : FactBatch) (query : FactQuery) (fields : Fields) (zone : Zone) (rows : List Row) :
    Prop where
  rows_eq : batch.rows = (rows.filter query.inScope).map (projected fields zone)
  allowed : ∀ row ∈ rows, query.inScope row = true → query.Allowed row
  missing : ∀ column, column ∈ batch.missingFields ↔
    column ∈ query.columns ∧ ∃ row ∈ rows, query.inScope row = true ∧ Lacks fields row column
  invalid : ∀ column, column ∈ batch.invalidFields ↔
    column ∈ query.columns ∧ ∃ row ∈ rows, query.inScope row = true ∧ Garbles fields zone row column
  carried : batch.missingFields = [] → batch.invalidFields = [] →
    ∀ values ∈ batch.rows, ∀ column ∈ query.columns, column ∈ values

/-- A column that can be read. -/
theorem mem_projected {row : Row} {column original : String} (hfield : (column, original) ∈ fields) {value : Cell}
    (hvalue : row[original]? = some value) {read : AnalysisValue}
    (hread : reading zone column value = .ok (some read)) : column ∈ projected fields zone row := by
  rw [projected, Std.ExtTreeMap.mem_ofList, List.contains_iff_mem]
  refine List.mem_map.mpr ⟨(column, read), List.mem_filterMap.mpr ⟨(column, original), hfield, ?_⟩, rfl⟩
  rw [read?, hvalue, Option.bind_some, hread]
  rfl

/-- **A projection makes such a batch.** -/
theorem of_projects {rows : List Row} {projection : Projection} {batch : FactBatch}
    (h : Projects query fields zone rows projection) (hrows : batch.rows = projection.rows)
    (hmissing : batch.missingFields = projection.missing.toList)
    (hinvalid : batch.invalidFields = projection.invalid.toList) (hunbound : query.unbound = false)
    (houtside : query.outside = false) (hcolumns : ∀ column ∈ query.columns, column ∈ fields.map Prod.fst) :
    batch.Of query fields zone rows where
  rows_eq := hrows.trans h.rows_eq
  allowed _ _ hinside := allowed_of_inScope hunbound houtside hinside
  missing column := by rw [hmissing, Std.ExtTreeSet.mem_toList, h.missing]
  invalid column := by rw [hinvalid, Std.ExtTreeSet.mem_toList, h.invalid]
  carried hnone hnone' values hvalues column hcolumn := by
    rw [hmissing, Std.ExtTreeSet.toList_eq_nil_iff, Std.ExtTreeSet.eq_empty_iff_forall_not_mem] at hnone
    rw [hinvalid, Std.ExtTreeSet.toList_eq_nil_iff, Std.ExtTreeSet.eq_empty_iff_forall_not_mem] at hnone'
    rw [hrows, h.rows_eq] at hvalues
    obtain ⟨row, hrow, rfl⟩ := List.mem_map.mp hvalues
    obtain ⟨hrow, hinside⟩ := List.mem_filter.mp hrow
    obtain ⟨⟨_, original⟩, hfield, rfl⟩ := List.mem_map.mp (hcolumns column hcolumn)
    cases hvalue : row[original]? with
    | none =>
      exact absurd ((h.missing _).mpr ⟨hcolumn, row, hrow, hinside, original, hfield, hvalue⟩) (hnone _)
    | some value =>
      obtain ⟨read, hread⟩ := h.read row hrow hinside _ hfield value hvalue
      cases read with
      | none =>
        exact absurd ((h.invalid _).mpr ⟨hcolumn, row, hrow, hinside, original, value, hfield, hvalue, hread⟩)
          (hnone' _)
      | some read => exact mem_projected hfield hvalue hread

/-- The rows of the scope, as texts. -/
theorem approvedRows_eq {rows : List Row} (h : ∀ row ∈ rows, query.Proven row) :
    query.approvedRows fields rows = .ok ((rows.filter query.inScope).map (FactQuery.texts fields)) := by
  induction rows with
  | nil => rfl
  | cons row rows ih =>
    obtain ⟨inside, hinside⟩ := h row List.mem_cons_self
    rw [FactQuery.approvedRows, hinside, ih fun other hother => h other (List.mem_cons_of_mem _ hother),
      List.filter_cons, FactQuery.inScope_of_ok hinside]
    cases inside <;> rfl

/-- What was validated says whose it is. -/
theorem proven_of_requiredFieldsValid {rows : List Row} (h : query.requiredFieldsValid fields rows = .ok true) :
    ∀ row ∈ rows, query.Proven row := by
  induction rows with
  | nil => exact fun _ hmem => absurd hmem List.not_mem_nil
  | cons row rows ih =>
    obtain ⟨inside, hinside, hrest⟩ := Except.bind_eq_ok.mp h
    refine List.forall_mem_cons.mpr ⟨⟨inside, hinside⟩, ?_⟩
    cases inside with
    | false => exact ih hrest
    | true =>
      obtain ⟨valid, -, hrest⟩ := Except.bind_eq_ok.mp hrest
      cases valid with
      | false => cases hrest
      | true => exact ih hrest

/-- A row whose columns can be read can be projected. -/
theorem exists_projectFields {row : Row} (done : Projecting) (h : InRange fields zone row) :
    ∃ result, fields.foldlM (query.projectField zone row) done = .ok result := by
  induction fields generalizing done with
  | nil => exact ⟨done, rfl⟩
  | cons field fields ih =>
    have hfield : ∃ next, query.projectField zone row done field = .ok next := by
      unfold FactQuery.projectField
      cases hvalue : row[field.2]? with
      | none => exact ⟨_, rfl⟩
      | some value =>
        obtain ⟨read, hread⟩ := h field List.mem_cons_self value hvalue
        simp only [hread]
        cases read <;> exact ⟨_, rfl⟩
    obtain ⟨next, hnext⟩ := hfield
    obtain ⟨result, hresult⟩ := ih next fun other hother => h other (List.mem_cons_of_mem _ hother)
    exact ⟨result, by rw [List.foldlM_cons, hnext]; exact hresult⟩

/-- **Rows that say whose they are**, and whose columns can be read, can be projected. -/
theorem exists_projectRows {rows : List Row} (done : Projection)
    (hproven : ∀ row ∈ rows, query.Proven row)
    (hread : ∀ row ∈ rows, query.inScope row = true → InRange fields zone row) :
    ∃ projection, rows.foldlM (query.projectRow fields zone) done = .ok projection := by
  induction rows generalizing done with
  | nil => exact ⟨done, rfl⟩
  | cons row rows ih =>
    have hrow : ∃ next, query.projectRow fields zone done row = .ok next := by
      obtain ⟨inside, hinside⟩ := hproven row List.mem_cons_self
      unfold FactQuery.projectRow
      rw [hinside]
      cases inside with
      | false => exact ⟨_, rfl⟩
      | true =>
        obtain ⟨result, hresult⟩ := exists_projectFields ⟨∅, done.missing, done.invalid⟩
          (hread row List.mem_cons_self (FactQuery.inScope_of_ok hinside))
        exact ⟨_, Except.bind_eq_ok.mpr ⟨true, rfl, Except.bind_eq_ok.mpr ⟨result, hresult, rfl⟩⟩⟩
    obtain ⟨next, hnext⟩ := hrow
    obtain ⟨projection, hprojection⟩ := ih next
      (fun other hother => hproven other (List.mem_cons_of_mem _ hother))
      fun other hother => hread other (List.mem_cons_of_mem _ hother)
    exact ⟨projection, by rw [List.foldlM_cons, hnext]; exact hprojection⟩

/-- **The end of a question**: what it is made of, and what comes of that. -/
theorem finish_eq_ok {answer : Answer} {now : DateTime} {batch : FactBatch} {agrees : Option Bool}
    (h : query.finish fields zone answer now = .ok (batch, agrees)) (hunbound : query.unbound = false)
    (houtside : query.outside = false) (hnodup : (fields.map Prod.fst).Nodup)
    (hcolumns : ∀ column ∈ query.columns, column ∈ fields.map Prod.fst) :
    ∃ source, query.source fields answer = .ok (source, agrees)
      ∧ batch.Of query fields zone source.rows ∧ batch.complete = source.complete
      ∧ batch.sourceCalls = source.sourceCallCount.getD (if source.cacheSource.isNone then 1 else 0)
      ∧ (∀ row ∈ source.rows, query.Proven row)
      ∧ query.requiredFieldsValid fields source.rows
        = .ok (decide (batch.missingFields = []) && decide (batch.invalidFields = [])) := by
  obtain ⟨⟨source, told⟩, hsource, hrest⟩ := Except.bind_eq_ok.mp h
  obtain ⟨projection, hprojection, hbatch⟩ := Except.bind_eq_ok.mp hrest
  have hprojects := projects_of_project hprojection
  cases Except.ok.inj hbatch
  refine ⟨source, hsource, of_projects hprojects rfl rfl rfl hunbound houtside hcolumns, rfl, rfl, hprojects.proven, ?_⟩
  rw [requiredFieldsValid_of_projects hprojects hnodup hcolumns]
  simp only [Std.ExtTreeSet.toList_eq_nil_iff, ← Std.ExtTreeSet.isEmpty_iff, Bool.decide_eq_true]

/-! ## Runs -/

section Runs

variable {Key Lock : Type} {config : Config Key Lock} {world : World config} {call : Call}

/-- **The view of one publication**: of the tenant, the operation and the parameters of a call, over a window that
covers its question, and not yet expired when it was read. -/
def Published (world : World config) (call : Call) (rows : List Row) : Prop :=
  ∃ publication ∈ world.published, ∃ window detail, publication.tenant = call.tenant
    ∧ cacheableGrain call.request.operationId = some publication.operation
    ∧ keyParams publication.operation publication.params publication.window
      = keyParams publication.operation call.request.params publication.window
    ∧ call.request.window? config.zone = some window ∧ Covers publication.window window
    ∧ (publication.writtenAt ≤ call.readAt ∧ call.readAt < publication.expiresAt)
    ∧ detailRows publication.rows publication.operation = .ok detail
    ∧ projectRows config.cache.context (detail.map (Row.restored (columnsOf detail))) publication.operation
      call.request.filters call.request.role call.request.params window = .ok rows

/-- **What the batch of an answer is.** From the MES, it is of what the MES returned. From the cache, it is whole, asked
the MES for nothing, and is of the view of one publication. In shadow mode it is of what the MES returned, it is
complete only where nothing is missing or invalid, and the executor is told to keep what it served exactly where that
has the same rows of the scope. -/
def Founded (world : World config) (call : Call) (query : FactQuery) (fields : Fields) (zone : Zone)
    (batch : FactBatch) (agrees : Option Bool) : Answer → Prop
  | .realtime fetched => batch.Of query fields zone fetched.rows ∧ batch.complete = fetched.complete
  | .served result none => batch.Of query fields zone result.rows ∧ batch.complete = true ∧ batch.missingFields = []
      ∧ batch.invalidFields = [] ∧ call.made = 0 ∧ Published world call result.rows
  | .served result (some shadow) => batch.Of query fields zone shadow.rows
      ∧ (batch.complete = true ↔ shadow.complete = true ∧ batch.missingFields = [] ∧ batch.invalidFields = [])
      ∧ (agrees = some true ↔ batch.missingFields = [] ∧ batch.invalidFields = []
        ∧ ((result.rows.filter query.inScope).map (FactQuery.texts fields)).Perm
          ((shadow.rows.filter query.inScope).map (FactQuery.texts fields)))

/-- What is served to a question for facts has been validated. -/
theorem validated_of_served {operationId : String} {params : Params} {result : ResourceFetchResult}
    (hrequest : call.request = query.request fields operationId params) (h : Served config world call result) :
    query.requiredFieldsValid fields result.rows = .ok true := by
  obtain ⟨_, _, _, _, _, _, _, hvalid⟩ := h
  rw [hrequest] at hvalid
  have hoption : (query.requiredFieldsValid fields result.rows).toOption = some true := hvalid
  cases hvalidated : query.requiredFieldsValid fields result.rows with
  | error raised =>
    rw [hvalidated] at hoption
    cases hoption
  | ok valid =>
    rw [hvalidated] at hoption
    exact congrArg _ (Option.some.inj hoption)

/-- **What is served without an owner** was published, and costs nothing. -/
theorem published_of_served {result : ResourceFetchResult} (h : Served config world call result)
    (hsnapshot : call.snapshot = none) :
    result.complete = true ∧ result.sourceCallCount = 0 ∧ Published world call result.rows := by
  obtain ⟨operation, window, hit, hgrain, hwindow, hsourced, hserve, -⟩ := h
  have hcount := sourceCallCount_serve hserve
  obtain ⟨rows, hrows, hresult⟩ := Except.bind_eq_ok.mp hserve
  cases Except.ok.inj hresult
  cases hsourced with
  | stored publication detail mem tenant operation_eq params covers fresh derived rows_eq footer named free =>
    subst operation_eq
    rw [rows_eq] at hrows
    exact ⟨rfl, hcount.trans free, publication, mem, window, detail, tenant, hgrain, params, hwindow, covers, fresh,
      derived, hrows⟩
  | fetched snapshot mem =>
    rw [hsnapshot] at mem
    cases mem

/-- A batch says what its answer says. -/
theorem sourceCalls_of_source {answer : Answer} {source : Source} {agrees : Option Bool}
    (h : query.source fields answer = .ok (source, agrees)) :
    source.sourceCallCount.getD (if source.cacheSource.isNone then 1 else 0) = answer.callCount := by
  cases answer with
  | realtime fetched =>
    cases h
    rfl
  | served result shadow =>
    cases shadow with
    | none =>
      cases h
      rfl
    | some shadow =>
      obtain ⟨valid, -, hrest⟩ := Except.bind_eq_ok.mp h
      obtain ⟨told, -, hpure⟩ := Except.bind_eq_ok.mp hrest
      cases hpure
      rfl

/-- **In shadow mode** the MES is what counts. -/
theorem founded_of_shadow {result : ResourceFetchResult} {shadow : Fetched} {source : Source} {batch : FactBatch}
    {agrees : Option Bool} (hsource : query.source fields (.served result (some shadow)) = .ok (source, agrees))
    (hof : batch.Of query fields zone source.rows) (hcomplete : batch.complete = source.complete)
    (hproven : ∀ row ∈ source.rows, query.Proven row)
    (hserved : ∀ row ∈ result.rows, query.Proven row)
    (hvalid : query.requiredFieldsValid fields source.rows
      = .ok (decide (batch.missingFields = []) && decide (batch.invalidFields = []))) :
    Founded world call query fields zone batch agrees (.served result (some shadow)) := by
  obtain ⟨valid, hvalidated, hrest⟩ := Except.bind_eq_ok.mp hsource
  obtain ⟨told, htold, hpure⟩ := Except.bind_eq_ok.mp hrest
  cases hpure
  rw [hvalidated] at hvalid
  obtain rfl := Except.ok.inj hvalid
  refine ⟨hof, ?_, ?_⟩
  · rw [hcomplete]
    simp
  · by_cases hwhole : batch.missingFields = [] ∧ batch.invalidFields = []
    · have hagrees : query.agrees fields true result.rows shadow.rows = .ok told := by
        rw [← htold, hwhole.1, hwhole.2]
        rfl
      rw [FactQuery.agrees, if_pos rfl, approvedRows_eq hserved, approvedRows_eq hproven] at hagrees
      obtain rfl := Except.ok.inj hagrees
      simp [hwhole.1, hwhole.2]
    -- what is not valid is not compared
    · have hnot : (decide (batch.missingFields = []) && decide (batch.invalidFields = [])) = false := by
        rw [← Bool.decide_and, decide_eq_false hwhole]
      rw [hnot] at htold
      cases htold
      exact ⟨fun htrue => (by cases htrue), fun hall => absurd ⟨hall.1, hall.2.1⟩ hwhole⟩

variable [DecidableEq Key] [DecidableEq Lock]

/-- **Facts over every run.** Whatever else the executor does, the batch of each question for facts is founded on what
it answered (`Founded`), and says how often the MES was asked; and what it serves from the cache always makes a batch,
unless a number or a day of a row of the scope is out of range. -/
theorem fetch_run (hkeys : config.TenantsApart) (h : Machine.Reach (machine config) Machine.free world)
    {operationId : String} {params : Params} (hplan : query.plan = .ok (.ask fields operationId params))
    (hcall : call ∈ world.calls) (hrequest : call.request = query.request fields operationId params) {answer : Answer}
    (hended : call.stage = .ended answer) (now : DateTime) :
    (∀ batch agrees, query.finish fields zone answer now = .ok (batch, agrees) →
      batch.sourceCalls = call.made ∧ Founded world call query fields zone batch agrees answer)
    ∧ ∀ result, answer = .served result none →
      (∀ row ∈ result.rows, query.inScope row = true → InRange fields zone row) →
      ∃ batch agrees, query.finish fields zone answer now = .ok (batch, agrees) := by
  obtain ⟨hunbound, houtside, hnodup, hcolumns⟩ := plan_eq_ask hplan
  have hhonest := (invariant_of_reach hkeys h).honest hcall hended
  have hsourced := hhonest.sourced
  refine ⟨fun batch agrees hfinish => ?_, ?_⟩
  · obtain ⟨source, hsource, hof, hcomplete, hcalls, hproven, hvalid⟩ :=
      finish_eq_ok hfinish hunbound houtside hnodup hcolumns
    refine ⟨?_, ?_⟩
    · rw [hcalls, ← hhonest.counted]
      exact sourceCalls_of_source hsource
    · cases answer with
      | realtime fetched =>
        cases hsource
        exact ⟨hof, hcomplete⟩
      | served result shadow =>
        cases shadow with
        | none =>
          cases hsource
          obtain ⟨-, -, hserved⟩ := hsourced
          -- no owner fetched for the call, so what was served was in the store
          have hsnapshot : call.snapshot = none := (unaided_of_reach h call hcall).snapshot (by rw [hrequest]; rfl)
          obtain ⟨hwhole, hfree, hpublished⟩ := published_of_served hserved hsnapshot
          rw [validated_of_served hrequest hserved] at hvalid
          obtain ⟨hmissing, hinvalid⟩ := Bool.and_eq_true_iff.mp (Except.ok.inj hvalid).symm
          exact ⟨hof, hcomplete.trans hwhole, of_decide_eq_true hmissing, of_decide_eq_true hinvalid,
            hhonest.counted.symm.trans hfree, hpublished⟩
        | some shadow =>
          obtain ⟨-, served, hserved, rfl⟩ := hsourced
          have hvalidated := validated_of_served hrequest hserved
          exact founded_of_shadow hsource hof hcomplete hproven (proven_of_requiredFieldsValid hvalidated) hvalid
  · rintro result rfl hread
    obtain ⟨-, -, hserved⟩ := hsourced
    have hproven := proven_of_requiredFieldsValid (validated_of_served hrequest hserved)
    obtain ⟨projection, hprojection⟩ := exists_projectRows {} hproven hread
    refine ⟨_, none, Except.bind_eq_ok.mpr ⟨_, rfl, Except.bind_eq_ok.mpr ⟨projection, hprojection, rfl⟩⟩⟩

end Runs

/-! ## A question that the cache answers -/

/-- An employee asks for the pieces of 2025-09-01, the day 20332 of the epoch. -/
def piecesQuery : FactQuery where
  datasetId := "reported_production"
  columns := ["business_date", "quantity"]
  filters := { NarrowedFilters.ofTenant "t" with employeeIds := some ["u1"] }
  scope := ⟨"t", ["u1"], ["d1"], true⟩
  role := .employee
  start := .inZone (20332 * LocalTime.dayLength)
  stop := .inZone (20333 * LocalTime.dayLength)

/-- The columns of wages. -/
def wageFields : Fields :=
  commonFields ++ [("business_date", "inputdate"), ("quantity", "sl"), ("payroll_amount", "je"),
    ("source_type", "type")]

/-- The parameters of wages as they are reported. -/
def wageParams : Params :=
  Std.ExtTreeMap.ofList [("Flag", ParamValue.text "0"), ("Type", ParamValue.text "0,1,2")]

/-- The wages of the tenant, one of which is no amount. -/
def wagesOfTenant : Publication smallConfig.cache.policy where
  tenant := "t"
  operation := .payroll
  rows := [Row.ofTexts [("inputdate", "2025-09-01"), ("uid", "u1"), ("sl", "2.5"), ("je", "1e30")],
    Row.ofTexts [("inputdate", "2025-09-01"), ("uid", "u2"), ("sl", "3"), ("je", "4")]]
  footer := none
  params := wageParams
  window := ("2025-09-01", "2025-09-01")
  source := "precompute"
  generatedAt := "2025-09-16T08:00:00+00:00"
  today := V2ResultCache.askedOn
  writtenAt := 0
  origin := .elsewhere

/-- They are published before the employee asks. -/
def piecesAsked : List (Event (String × Params) smallConfig.cache.policy) :=
  [.published wagesOfTenant, .arrive (piecesQuery.request wageFields "GongziClQuery" wageParams),
    .act 0 (.begin V2ResultCache.askedOn), .act 0 (.looked .answered), .act 0 (.looked .answered),
    .act 0 (.looked .answered)]

/-- An hour of the day of the question. -/
def askedAt : DateTime :=
  ⟨⟨2025, 9, 16, 9, 0, 0, 0, some 0⟩, by decide⟩

/-- The batch that the employee is given. -/
def piecesBatch (call : Call) : Option FactBatch :=
  match call.stage with
  | .ended answer => ((piecesQuery.finish wageFields (.fixed 0) answer askedAt).toOption).map Prod.fst
  | _ => none

/-- The batch is whole, and cost nothing. -/
theorem fetch_run_pieces :
    (∀ call ∈ ((machine smallConfig).after piecesAsked).calls, ∀ answer, call.stage = .ended answer →
      ∀ batch agrees, piecesQuery.finish wageFields (.fixed 0) answer askedAt = .ok (batch, agrees) →
        batch.sourceCalls = call.made)
    ∧ ((machine smallConfig).after piecesAsked).calls.map (fun call => (call.made, (piecesBatch call).map fun batch =>
      (batch.rows.map Std.ExtTreeMap.keys, batch.missingFields, batch.cacheSource)))
        = [(0, some ([["business_date", "quantity"]], [], "cache"))] := by
  have hkeys : smallConfig.TenantsApart := fun _ _ _ _ h => congrArg Prod.fst h
  have hrun : ((machine smallConfig).run Machine.free (machine smallConfig).init piecesAsked).isSome = true := by
    decide +kernel
  refine ⟨fun call hmem answer hended batch agrees hfinish => ?_, by decide +kernel⟩
  have hrequest : call.request = piecesQuery.request wageFields "GongziClQuery" wageParams := by
    simpa [piecesAsked] using arrived_of_run (Machine.run_after piecesAsked hrun) call hmem
  exact ((fetch_run hkeys (Machine.reach_after (m := machine smallConfig) piecesAsked hrun) rfl hmem hrequest hended
    askedAt).1 batch agrees hfinish).1

end Facts
