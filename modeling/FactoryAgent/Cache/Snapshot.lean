import FactoryAgent.Cache.View

/-!
# Stored snapshots

The value that the cache stores for one operation and window: the columns of all rows once, and each
row as its values under them. A column that a row lacks is stored as the empty text, and reading a row
back turns every value into a text. The JSON text in between is the identity on these values and is
left out.
-/

/-! ## Credentials and parameters -/

/-- The fields that no row may carry. -/
def forbiddenRowFields : List String := ["app_key", "accesstoken", "sign", "movepassword"]

/-- The parameters that no request to the cache may carry. -/
def forbiddenRequestParams : List String :=
  forbiddenRowFields ++ ["timestamp", "uid", "dept", "tenant_id", "employee_ids", "dept_ids"]

/-- Whether a name is that of a credential, or of a total of one. -/
def isCredentialField (key : String) : Bool :=
  decide ((Text.dropSuffix? "_total" (Text.lower key)).getD (Text.lower key) ∈ forbiddenRowFields)

/-- `_has_credential_fields`. -/
def hasCredentialFields (keys : List String) : Bool :=
  keys.any isCredentialField

/-- A forbidden field is that of a credential. -/
theorem isCredentialField_of_mem {key : String} (h : Text.lower key ∈ forbiddenRowFields) :
    isCredentialField key = true := by
  have hfield : ∀ field ∈ forbiddenRowFields,
      (Text.dropSuffix? "_total" field).getD field ∈ forbiddenRowFields := by decide
  exact decide_eq_true (hfield _ h)

/-- The parameters that only shape the view. -/
def viewParams : List String := ["groupbyFields", "orderbyFields", "orderByType"]

/-- `detail_params`: the parameters without those of the view. -/
def detailParams (params : Params) : Params :=
  params.filter (fun key _ => decide (key ∉ viewParams))

/-- The sorted distinct parts of an enumeration. -/
def normalizedType : ParamValue → ParamValue
  | .text value =>
    .text (",".intercalate (Std.ExtTreeSet.ofList
      (((value.toList.splitOn ',').filter (· ≠ [])).map String.ofList)).toList)
  | value => value

/-- `normalize_params`: the parameters that reach the MES, and the window. -/
def normalizeParams (params : Params) (window : String × String) : Params :=
  let sent := params.filter (fun key _ => decide (key ∉ ["dates", "datee"] ++ viewParams))
  ((sent.map (fun key value => if key = "Type" then normalizedType value else value)).insert "dates"
    (.text window.1)).insert "datee" (.text window.2)

/-- `_key_params`: the parameters that a snapshot is stored under. -/
def keyParams (operation : Operation) (params : Params) (window : String × String) : Params :=
  (Std.ExtTreeMap.ofList [("api", ParamValue.text operation.id),
    ("grain", .text "default-detail-v4")]).insertMany (normalizeParams params window).toList

/-- A snapshot is stored under the parameters of the request, its operation and its window. -/
theorem mem_keyParams {operation : Operation} {params : Params} {window : String × String}
    {key : String} (h : key ∈ keyParams operation params window) :
    key ∈ ["api", "grain", "dates", "datee"] ∨ key ∈ params := by
  rw [keyParams, Std.ExtTreeMap.mem_insertMany_list, Std.ExtTreeMap.mem_ofList,
    Std.ExtTreeMap.map_fst_toList_eq_keys] at h
  rcases h with hkey | hkey
  · exact .inl (by simpa using Or.imp_right Or.inl (by simpa using hkey))
  · rw [List.contains_iff_mem, Std.ExtTreeMap.mem_keys, normalizeParams,
      Std.ExtTreeMap.mem_insert, Std.ExtTreeMap.mem_insert, Std.ExtTreeMap.mem_map,
      Std.ExtTreeMap.mem_filter] at hkey
    rcases hkey with hdatee | hdates | ⟨hmem, -⟩
    · exact .inl (by simp [← Std.LawfulEqCmp.compare_eq_iff_eq.mp hdatee])
    · exact .inl (by simp [← Std.LawfulEqCmp.compare_eq_iff_eq.mp hdates])
    · exact .inr hmem

/-- **Any other parameter** is stored as it is. -/
theorem getElem?_keyParams {operation : Operation} {params : Params} {window : String × String}
    {key : String} (hkey : key ∉ ["api", "grain", "dates", "datee", "Type"] ++ viewParams) :
    (keyParams operation params window)[key]? = params[key]? := by
  simp only [viewParams, List.cons_append, List.nil_append, List.mem_cons, List.not_mem_nil, or_false,
    not_or] at hkey
  obtain ⟨hapi, hgrain, hdates, hdatee, htype, hgroupby, horderby, hordertype⟩ := hkey
  have hnormalized : (normalizeParams params window)[key]? = params[key]? := by
    simp only [normalizeParams, Std.ExtTreeMap.getElem?_insert, Std.LawfulEqCmp.compare_eq_iff_eq,
      Ne.symm hdatee, Ne.symm hdates, if_false, Std.ExtTreeMap.getElem?_map,
      Std.ExtTreeMap.getElem?_filter']
    cases params[key]? <;> simp [viewParams, *]
  cases hvalue : params[key]? with
  | none =>
    rw [hvalue] at hnormalized
    rw [keyParams, Std.ExtTreeMap.getElem?_insertMany_list_of_contains_eq_false]
    · exact Std.ExtTreeMap.getElem?_ofList_of_contains_eq_false (by simp [hapi, hgrain])
    · rw [Std.ExtTreeMap.map_fst_toList_eq_keys, List.contains_eq_mem, decide_eq_false_iff_not,
        Std.ExtTreeMap.mem_keys, Std.ExtTreeMap.mem_iff_isSome_getElem?, hnormalized]
      exact Bool.false_ne_true
  | some value =>
    rw [hvalue] at hnormalized
    exact Std.ExtTreeMap.getElem?_insertMany_list_of_mem (Std.LawfulEqCmp.compare_eq_iff_eq.mpr rfl)
      Std.ExtTreeMap.distinct_keys_toList
      (Std.ExtTreeMap.mem_toList_iff_getElem?_eq_some.mpr hnormalized)

/-- The parameters of the view do not change what a snapshot is stored under. -/
theorem normalizeParams_detailParams (params : Params) (window : String × String) :
    normalizeParams (detailParams params) window = normalizeParams params window := by
  have hsent : (detailParams params).filter
        (fun key _ => decide (key ∉ ["dates", "datee"] ++ viewParams))
      = params.filter (fun key _ => decide (key ∉ ["dates", "datee"] ++ viewParams)) := by
    refine Std.ExtTreeMap.ext_getElem? (fun key => ?_)
    simp only [detailParams, Std.ExtTreeMap.getElem?_filter']
    cases params[key]? with
    | none => rfl
    | some value =>
      by_cases hview : key ∈ viewParams <;> simp [hview]
  simp only [normalizeParams, hsent]

/-! ## The stored value -/

/-- **A stored snapshot**, the value of `encode_result_set`. -/
structure ResultSet where
  version : Nat
  api : String
  window : String × String
  filters : Params
  groupby : List String
  derived : List String
  columns : List String
  rows : List (List Cell)
  footer : Footer
  generatedAt : String
  source : String

/-- The version of the stored values. -/
def resultSetVersion : Nat := 4

/-- The sorted elements of the parameter `groupby`, or its sorted characters. -/
def groupbyOf (params : Params) : List String :=
  match params["groupby"]? with
  | none => []
  | some (.sequence values) => values.insertionSort (· ≤ ·)
  | some (.text value) => (value.toList.map (fun c => String.ofList [c])).insertionSort (· ≤ ·)

/-- The value of a row under a column; what it lacks is the empty text. -/
def storedCell (row : Row) (column : String) : Cell :=
  row.getD column (.text "")

/-- **Encoding a snapshot**, `encode_result_set`. -/
def encodeResultSet (operation : Operation) (rows : List Row) (footer : Option Footer)
    (window : String × String) (filters : Params) (generatedAt source : String) : ResultSet where
  version := resultSetVersion
  api := operation.id
  window := window
  filters := filters
  groupby := groupbyOf filters
  derived := []
  columns := columnsOf rows
  rows := rows.map (fun row => (columnsOf rows).map (storedCell row))
  footer := footer.getD ∅
  generatedAt := generatedAt
  source := source

/-- A stored value as it is read back: nothing is the empty text, everything else its text. -/
def restoredText : Cell → String
  | .null => ""
  | cell => cell.str

namespace ResultSet

/-- Whether a stored snapshot has the structure of one: the checks of `_decode_result_set`. -/
def wellFormed (stored : ResultSet) : Bool :=
  stored.version = resultSetVersion
    && decide stored.columns.Nodup && !hasCredentialFields stored.columns
    && !hasCredentialFields stored.footer.keys
    && stored.rows.all (fun values => values.length = stored.columns.length)

/-- The rows of a stored snapshot: every column of each, as texts. -/
def decodedRows (stored : ResultSet) : List Row :=
  stored.rows.map (fun values => Row.ofTexts (stored.columns.zip (values.map restoredText)))

/-- `_snapshot_rejection_reason`: whether a snapshot is not the one that was asked for. -/
def rejected (stored : ResultSet) (operation : Operation) (params : Params)
    (window : String × String) : Bool :=
  stored.api ≠ operation.id || decide (stored.filters ≠ params) || stored.groupby ≠ []
    || stored.window ≠ window
    || (operation = .progress && stored.rows ≠ [] && decide ("rq" ∉ stored.columns))

/-- Whether the rows may be served: their dates are normalized, and none carries a credential. -/
def servable (stored : ResultSet) (operation : Operation) : Bool :=
  (operation = .payroll || stored.decodedRows.all (fun row =>
      match normalizeProgressDate row["rq"]?, row["rq"]? with
      | .ok day, some (.text value) => day = value
      | _, _ => false))
    && stored.decodedRows.all (fun row =>
      !row.keys.any (fun key => decide (Text.lower key ∈ forbiddenRowFields)))

/-- The rows of a stored snapshot are texts. -/
theorem isText_decodedRows (stored : ResultSet) : ∀ row ∈ stored.decodedRows, row.IsText := by
  intro row hrow
  obtain ⟨values, -, rfl⟩ := List.mem_map.mp hrow
  exact Row.isText_ofTexts _

/-- The snapshot that is served of a stored value. -/
def hit (stored : ResultSet) (operation : Operation) (window : String × String) :
    CacheHit operation where
  rows := stored.decodedRows
  footer := if stored.footer.isEmpty then none else some stored.footer
  generatedAt := stored.generatedAt
  source := stored.source
  window := window
  sourceCallCount := 0
  normalized := fun _ => stored.isText_decodedRows

/-- No totals are as good as an empty mapping of them. -/
theorem getD_footer_hit (stored : ResultSet) (operation : Operation) (window : String × String) :
    (stored.hit operation window).footer.getD ∅ = stored.footer := by
  unfold hit
  dsimp only
  split
  · next hempty => exact (Std.ExtTreeMap.isEmpty_iff.mp hempty).symm
  · rfl

/-- **Reading a snapshot back**, one candidate of `V2ResultCache.read`. -/
def read (stored : ResultSet) (operation : Operation) (params : Params)
    (window : String × String) : Option (CacheHit operation) :=
  if stored.wellFormed && !stored.rejected operation (keyParams operation params window) window
      && stored.servable operation then some (stored.hit operation window)
  else none

end ResultSet

/-! ## Rows that are stored and read back -/

/-- **A row as it is read back** from a snapshot with these columns. -/
def Row.restored (columns : List String) (row : Row) : Row :=
  Row.ofTexts (columns.map (fun column => (column, restoredText (storedCell row column))))

/-- The rows of an encoded snapshot are the restored rows. -/
theorem decodedRows_encodeResultSet (operation : Operation) (rows : List Row)
    (footer : Option Footer) (window : String × String) (filters : Params)
    (generatedAt source : String) :
    (encodeResultSet operation rows footer window filters generatedAt source).decodedRows
      = rows.map (Row.restored (columnsOf rows)) := by
  have hzip : ∀ (columns : List String) (row : Row),
      columns.zip ((columns.map (storedCell row)).map restoredText)
        = columns.map (fun column => (column, restoredText (storedCell row column))) := by
    intro columns row
    induction columns with
    | nil => rfl
    | cons column columns ih => simp only [List.map_cons, List.zip_cons_cons, ih]
  simp only [ResultSet.decodedRows, encodeResultSet, List.map_map]
  exact List.map_congr_left (fun row _ => congrArg Row.ofTexts (hzip _ row))

/-- The columns of some rows are distinct. -/
theorem nodup_columnsOf (rows : List Row) : (columnsOf rows).Nodup := by
  unfold columnsOf
  exact Std.ExtTreeSet.distinct_toList.imp
    (fun hne heq => hne (Std.LawfulEqCmp.compare_eq_iff_eq.mpr heq))

/-- The values of a restored row. -/
theorem Row.getElem?_restored (columns : List String) (row : Row) (column : String) :
    (row.restored columns)[column]?
      = if column ∈ columns then some (.text (restoredText (storedCell row column))) else none := by
  have hgraph := Row.getElem?_insertMany_graph ∅
    (fun column => Cell.text (restoredText (storedCell row column))) columns column
  simpa only [Row.restored, Row.ofTexts, List.map_map, Function.comp_def,
    Std.ExtTreeMap.ofList_eq_insertMany_empty, Std.ExtTreeMap.getElem?_empty] using hgraph

/-- The text of a restored value. -/
theorem Row.field_restored {columns : List String} {column : String} (row : Row)
    (hcolumn : column ∈ columns) :
    (row.restored columns).field column = restoredText (storedCell row column) := by
  rw [Row.field, Row.cell_eq, Row.getElem?_restored, if_pos hcolumn, Option.getD_some,
    Cell.orElse_text]
  split
  · next hempty => exact hempty.symm
  · rfl

/-- **A value that is not empty is read back as it was.** -/
theorem Row.restoredText_storedCell {row : Row} {column : String} (h : row.field column ≠ "") :
    restoredText (storedCell row column) = row.field column := by
  rw [Row.field, Row.cell_eq] at h ⊢
  rw [storedCell, Std.ExtTreeMap.getD_eq_getD_getElem?]
  cases hcell : row[column]? with
  | none => rw [hcell] at h; exact absurd rfl h
  | some cell =>
    rw [hcell] at h
    simp only [Option.getD_some, Cell.orElse] at h ⊢
    split
    · cases cell <;> first | rfl | contradiction
    · next hfalse => exact absurd (if_neg hfalse) h

/-- A row has a column where it has a value that is not empty. -/
theorem Row.mem_of_field_ne_empty {row : Row} {column : String} (h : row.field column ≠ "") :
    column ∈ row := by
  rw [Std.ExtTreeMap.mem_iff_isSome_getElem?]
  rw [Row.field, Row.cell_eq] at h
  cases hcell : row[column]? with
  | none => rw [hcell] at h; exact absurd rfl h
  | some cell => rfl

/-- **A row is read back as it was** exactly where it has all columns, with text values. -/
theorem Row.restored_eq_self_iff {columns : List String} {row : Row}
    (hcolumns : ∀ column ∈ row, column ∈ columns) :
    row.restored columns = row ↔ (∀ column ∈ columns, column ∈ row) ∧ row.IsText := by
  constructor
  · intro h
    refine ⟨fun column hcolumn => ?_, h ▸ Row.isText_ofTexts _⟩
    rw [Std.ExtTreeMap.mem_iff_isSome_getElem?, ← h, Row.getElem?_restored, if_pos hcolumn]
    rfl
  · rintro ⟨hall, htext⟩
    refine Std.ExtTreeMap.ext_getElem? (fun column => ?_)
    rw [Row.getElem?_restored]
    split
    · next hcolumn =>
      obtain ⟨cell, hcell⟩ :=
        Option.isSome_iff_exists.mp (Std.ExtTreeMap.mem_iff_isSome_getElem?.mp (hall column hcolumn))
      have hstored : storedCell row column = cell := by
        rw [storedCell, Std.ExtTreeMap.getD_eq_getD_getElem?, hcell, Option.getD_some]
      have hisText := htext column cell hcell
      rw [hstored, hcell]
      cases cell <;> first | rfl | exact absurd hisText Bool.false_ne_true
    · next hcolumn =>
      have habsent : ¬ column ∈ row := fun h => hcolumn (hcolumns column h)
      rw [Std.ExtTreeMap.getElem?_eq_none habsent]

/-- **A normalized row is read back normalized.** -/
theorem Row.isNormalized_restored {columns : List String} {row : Row} (h : row.IsNormalized)
    (hrq : "rq" ∈ columns) (hdate : "dh_date" ∉ columns) : (row.restored columns).IsNormalized := by
  obtain ⟨day, hday, hiso⟩ := h.date
  refine ⟨Row.isText_ofTexts _, ⟨day, ?_, hiso⟩, ?_⟩
  · rw [Row.getElem?_restored, if_pos hrq, storedCell, Std.ExtTreeMap.getD_eq_getD_getElem?, hday]
    rfl
  · rw [Std.ExtTreeMap.mem_iff_isSome_getElem?, Row.getElem?_restored, if_neg hdate]
    exact Bool.false_ne_true
