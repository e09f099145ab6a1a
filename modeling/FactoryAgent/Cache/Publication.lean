import FactoryAgent.Cache.Snapshot

/-!
# Publishing an owner fetch

The complete detail that the owner of a tenant fetched: how it is served at once, and how it is
stored. `writeResultSet` is the gate of `V2ResultCache.write`. Whatever of an owner's fetch passes it
is read back as a snapshot, and its rows are the restored rows of the fetch: the checks of the reader
reject nothing that the checks of the writer let through.
-/

/-! ## The gate -/

/-- Whether a parameter asks for grouping. -/
def ParamValue.truthy : ParamValue → Bool
  | .text value => value ≠ ""
  | .sequence values => values ≠ []

/-- Whether something in a write carries a credential, or a parameter narrows the fetch. -/
def carriesForbidden (rows : List Row) (footer : Option Footer) (params : Params) : Bool :=
  rows.any (fun row => hasCredentialFields row.keys) || hasCredentialFields (footerKeys footer)
    || hasCredentialFields params.keys
    || params.keys.any (fun key => decide (Text.lower key ∈ forbiddenRequestParams))

/-- **The gate of `V2ResultCache.write`**: the value that is stored, unless the write is refused. -/
def writeResultSet (context : DecimalContext) (close : Decimal → Decimal → Bool)
    (operation : Operation) (rows : List Row) (footer : Option Footer) (params : Params)
    (window : String × String) (generatedAt source : String) : Option ResultSet :=
  if (params["groupbyFields"]?).any ParamValue.truthy then none
  else if carriesForbidden rows footer params then none
  else if !footerReconciles context close rows footer then none
  else match detailRows rows operation with
    | .error _ => none
    | .ok stored =>
      match validateTimeAnchors stored operation params with
      | .error _ => none
      | .ok _ => some (encodeResultSet operation stored footer window
          (keyParams operation params window) generatedAt source)

/-- **What the gate lets through.** -/
theorem writeResultSet_eq_some {context : DecimalContext} {close : Decimal → Decimal → Bool}
    {operation : Operation} {rows : List Row} {footer : Option Footer} {params : Params}
    {window : String × String} {generatedAt source : String} {stored : ResultSet}
    (h : writeResultSet context close operation rows footer params window generatedAt source
      = some stored) :
    carriesForbidden rows footer params = false ∧ ∃ detail, detailRows rows operation = .ok detail
      ∧ validateTimeAnchors detail operation params = .ok ()
      ∧ stored = encodeResultSet operation detail footer window (keyParams operation params window)
          generatedAt source := by
  unfold writeResultSet at h
  split at h
  · cases h
  · split at h
    · cases h
    · next hforbidden =>
      split at h
      · cases h
      · split at h
        · cases h
        · next detail hdetail =>
          split at h
          · cases h
          · next hvalid =>
            exact ⟨Bool.not_eq_true _ ▸ hforbidden, detail, hdetail, hvalid,
              (Option.some.inj h).symm⟩

/-! ## The fetch of an owner -/

/-- `_snapshot_params`: whether the parameters narrow and group nothing, so that an owner may fetch a
snapshot with them. -/
def snapshotParams (operation : Operation) (params : Params) : Bool :=
  params.keys.all (fun key => operation = .payroll && decide (key ∈ ["Flag", "Type"]))
    && (match params["Flag"]? with
      | none => true
      | some (.text value) => decide (value ∈ ["0", "1"])
      | some (.sequence _) => false)
    && (match params["Type"]? with
      | none => true
      | some (.text value) => value ≠ "" && ((value.toList.splitOn ',').map String.ofList).all
          (fun part => decide (part ∈ ["0", "1", "2"]))
      | some (.sequence _) => false)

/-- **A complete fetch of the owner**: default detail, with parameters that an owner may fetch a
snapshot with. -/
structure OwnerFetch (operation : Operation) where
  params : Params
  window : String × String
  rows : List Row
  footer : Option Footer
  /-- the instant of the fetch -/
  fetchedAt : String
  admitted : snapshotParams operation params = true

/-- The detail of a progress operation is normalized. -/
theorem isNormalized_of_detailRows {rows detail : List Row}
    (h : detailRows rows .progress = .ok detail) : ∀ row ∈ detail, row.IsNormalized := by
  intro row hrow
  obtain ⟨_, -, hderived⟩ := Except.exists_of_mem_mapM h hrow
  exact isNormalized_of_deriveProgressRow hderived

/-- The columns of normalized rows have the date, where there are rows, and not the older one. -/
theorem columnsOf_of_isNormalized {rows : List Row} (h : ∀ row ∈ rows, row.IsNormalized) :
    (∀ row ∈ rows, "rq" ∈ columnsOf rows) ∧ "dh_date" ∉ columnsOf rows := by
  refine ⟨fun row hrow => mem_columnsOf.mpr ⟨row, hrow, ?_⟩, fun hmem => ?_⟩
  · obtain ⟨day, hday, -⟩ := (h row hrow).date
    rw [Std.ExtTreeMap.mem_iff_isSome_getElem?, hday]
    rfl
  · obtain ⟨row, hrow, hold⟩ := mem_columnsOf.mp hmem
    exact (h row hrow).noOldDate hold

/-- **Restored rows are servable**: their dates are normalized, and none of their columns is
forbidden. -/
theorem ResultSet.servable_of_restored (stored : ResultSet) {operation : Operation}
    {detail : List Row} (hrows : stored.decodedRows = detail.map (Row.restored (columnsOf detail)))
    (hcolumns : ∀ column ∈ columnsOf detail, isCredentialField column = false)
    (hnormalized : operation = .progress → ∀ row ∈ detail, row.IsNormalized) :
    stored.servable operation = true := by
  rw [ResultSet.servable, hrows, Bool.and_eq_true, List.all_eq_true, Bool.or_eq_true]
  refine ⟨?_, fun restored hrestored => ?_⟩
  · cases operation with
    | payroll => exact .inl rfl
    | progress =>
      refine .inr (List.all_eq_true.mpr (fun restored hrestored => ?_))
      obtain ⟨row, hrow, rfl⟩ := List.mem_map.mp hrestored
      have hcols := columnsOf_of_isNormalized (hnormalized rfl)
      obtain ⟨day, hday, hiso⟩ :=
        (Row.isNormalized_restored (hnormalized rfl row hrow) (hcols.1 row hrow) hcols.2).date
      simp only [hday, normalizeProgressDate_of_isIsoDate hiso, decide_true]
  · obtain ⟨row, -, rfl⟩ := List.mem_map.mp hrestored
    rw [Bool.not_eq_true', List.any_eq_false]
    intro key hkey hmem
    rw [Std.ExtTreeMap.mem_keys, Std.ExtTreeMap.mem_iff_isSome_getElem?, Row.getElem?_restored] at hkey
    split at hkey
    · next hcolumn =>
      have hcredential := isCredentialField_of_mem (of_decide_eq_true hmem)
      rw [hcolumns key hcolumn] at hcredential
      cases hcredential
    · cases hkey

/-! ## Reading back what was written -/

/-- The columns of the detail are those of the written rows, and the date. -/
theorem mem_of_mem_detail {operation : Operation} {rows detail : List Row}
    (h : detailRows rows operation = .ok detail) {row : Row} (hrow : row ∈ detail) {column : String}
    (hcolumn : column ∈ row) : column = "rq" ∨ ∃ written ∈ rows, column ∈ written := by
  cases operation with
  | payroll => cases h; exact .inr ⟨row, hrow, hcolumn⟩
  | progress =>
    obtain ⟨written, hwritten, hderived⟩ := Except.exists_of_mem_mapM h hrow
    exact ((mem_of_mem_derived hderived).mp hcolumn).2.imp_right (fun hmem => ⟨written, hwritten, hmem⟩)

/-- No column of the detail is that of a credential. -/
theorem columnsOf_detail_no_credentials {operation : Operation} {rows detail : List Row}
    {footer : Option Footer} {params : Params} (h : detailRows rows operation = .ok detail)
    (hforbidden : carriesForbidden rows footer params = false) :
    ∀ column ∈ columnsOf detail, isCredentialField column = false := by
  intro column hcolumn
  obtain ⟨row, hrow, hmem⟩ := mem_columnsOf.mp hcolumn
  rcases mem_of_mem_detail h hrow hmem with rfl | ⟨written, hwritten, hcol⟩
  · decide
  · simp only [carriesForbidden, Bool.or_eq_false_iff, List.any_eq_false, hasCredentialFields,
      Bool.not_eq_true] at hforbidden
    exact hforbidden.1.1.1 written hwritten column (Std.ExtTreeMap.mem_keys.mpr hcol)

/-- **The checks of the reader against those of the writer**: a snapshot that was written is rejected
for its parameter `groupby`, or not at all. -/
theorem read_of_writeResultSet {context : DecimalContext} {close : Decimal → Decimal → Bool}
    {operation : Operation} {rows : List Row} {footer : Option Footer} {params params' : Params}
    {window : String × String} {generatedAt source : String} {stored : ResultSet}
    (h : writeResultSet context close operation rows footer params window generatedAt source
      = some stored)
    (hparams : normalizeParams params' window = normalizeParams params window) :
    ∃ detail, detailRows rows operation = .ok detail
      ∧ validateTimeAnchors detail operation params = .ok ()
      ∧ stored = encodeResultSet operation detail footer window (keyParams operation params window)
          generatedAt source
      ∧ stored.decodedRows = detail.map (Row.restored (columnsOf detail))
      ∧ stored.read operation params' window
        = if groupbyOf (keyParams operation params window) = [] then
            some (stored.hit operation window) else none := by
  obtain ⟨hforbidden, detail, hdetail, hvalid, hstored⟩ := writeResultSet_eq_some h
  have hcolumns := columnsOf_detail_no_credentials hdetail hforbidden
  have hrows : stored.decodedRows = detail.map (Row.restored (columnsOf detail)) := by
    rw [hstored, decodedRows_encodeResultSet]
  have hwellFormed : stored.wellFormed = true := by
    have hkeys : hasCredentialFields (columnsOf detail) = false :=
      List.any_eq_false.mpr (fun column hcolumn => by simp [hcolumns column hcolumn])
    have hfooter : hasCredentialFields (footer.getD ∅).keys = false := by
      simp only [carriesForbidden, Bool.or_eq_false_iff] at hforbidden
      exact hforbidden.1.1.2
    simp [ResultSet.wellFormed, hstored, encodeResultSet, nodup_columnsOf, hkeys, hfooter]
  have hkey : keyParams operation params' window = keyParams operation params window := by
    rw [keyParams, keyParams, hparams]
  have hrejected : stored.rejected operation (keyParams operation params' window) window
      = decide (groupbyOf (keyParams operation params window) ≠ []) := by
    have hdate : operation = .progress → detail ≠ [] → "rq" ∈ columnsOf detail := by
      rintro rfl hne
      obtain ⟨row, hrow⟩ := List.exists_mem_of_ne_nil detail hne
      exact (columnsOf_of_isNormalized (isNormalized_of_detailRows hdetail)).1 row hrow
    rw [hkey, hstored]
    by_cases hgroupby : groupbyOf (keyParams operation params window) = []
    · simpa [ResultSet.rejected, encodeResultSet, hgroupby] using hdate
    · simp [ResultSet.rejected, encodeResultSet, hgroupby]
  have hservable : stored.servable operation = true :=
    stored.servable_of_restored hrows hcolumns (fun hprogress => by
      subst hprogress
      exact isNormalized_of_detailRows hdetail)
  refine ⟨detail, hdetail, hvalid, hstored, hrows, ?_⟩
  rw [ResultSet.read, hwellFormed, hrejected, hservable]
  by_cases hgroupby : groupbyOf (keyParams operation params window) = [] <;> simp [hgroupby]

namespace OwnerFetch

variable {operation : Operation} (fetch : OwnerFetch operation)

/-- The parameters of an owner's fetch are those of wages. -/
theorem params_getElem?_eq_none {key : String} (h : key ∉ ["Flag", "Type"]) :
    fetch.params[key]? = none := by
  refine Std.ExtTreeMap.getElem?_eq_none (fun hmem => h ?_)
  have hall := fetch.admitted
  simp only [snapshotParams, Bool.and_eq_true, List.all_eq_true] at hall
  exact of_decide_eq_true (hall.1.1 key (Std.ExtTreeMap.mem_keys.mpr hmem)).2

/-- **The hot path**: the rows as they were fetched, those of progress normalized. -/
def fresh : Except ViewError (CacheHit operation) :=
  match h : detailRows fetch.rows operation with
  | .error refusal => .error refusal
  | .ok detail => .ok {
      rows := detail
      footer := fetch.footer
      generatedAt := fetch.fetchedAt
      source := "query"
      window := fetch.window
      sourceCallCount := 1
      normalized := fun hprogress row hrow => by
        subst hprogress
        exact (isNormalized_of_detailRows h row hrow).isText }

/-- **The cold path**: what is stored of the fetch. -/
def publish (context : DecimalContext) (close : Decimal → Decimal → Bool) : Option ResultSet :=
  writeResultSet context close operation fetch.rows fetch.footer fetch.params fetch.window
    fetch.fetchedAt "query"

/-- The rows of the hot path. -/
theorem fresh_eq_ok {detail : List Row} (h : detailRows fetch.rows operation = .ok detail) :
    ∃ hit, fetch.fresh = .ok hit ∧ hit.rows = detail ∧ hit.footer = fetch.footer := by
  unfold fresh
  split
  · next refusal hrefused => rw [h] at hrefused; cases hrefused
  · next detail' hdetail' =>
    rw [h] at hdetail'
    exact ⟨_, rfl, (Except.ok.inj hdetail').symm, rfl⟩

/-! ## Reading back -/

/-- The key of an owner's fetch has no parameter `groupby`. -/
theorem groupbyOf_keyParams : groupbyOf (keyParams operation fetch.params fetch.window) = [] := by
  have habsent : ¬ "groupby" ∈ keyParams operation fetch.params fetch.window := by
    intro hmem
    rcases mem_keyParams hmem with hkey | hkey
    · exact absurd hkey (by decide)
    · rw [Std.ExtTreeMap.mem_iff_isSome_getElem?, fetch.params_getElem?_eq_none (by decide)] at hkey
      cases hkey
  rw [groupbyOf, Std.ExtTreeMap.getElem?_eq_none habsent]

/-- **What is published is read back**, by every request for it: the rows are the restored rows of the
detail, and the totals are those that came. -/
theorem read_publish {context : DecimalContext} {close : Decimal → Decimal → Bool}
    {stored : ResultSet} (h : fetch.publish context close = some stored) {params : Params}
    (hparams : detailParams params = fetch.params) : ∃ detail hit,
      detailRows fetch.rows operation = .ok detail
      ∧ validateTimeAnchors detail operation fetch.params = .ok ()
      ∧ stored.read operation params fetch.window = some hit
      ∧ hit.rows = detail.map (Row.restored (columnsOf detail))
      ∧ hit.footer.getD ∅ = fetch.footer.getD ∅ := by
  have hnormalized : normalizeParams params fetch.window = normalizeParams fetch.params fetch.window := by
    rw [← hparams, normalizeParams_detailParams]
  obtain ⟨detail, hdetail, hvalid, hstored, hrows, hread⟩ := read_of_writeResultSet h hnormalized
  refine ⟨detail, stored.hit operation fetch.window, hdetail, hvalid, ?_, hrows, ?_⟩
  · rw [hread, if_pos fetch.groupbyOf_keyParams]
  · rw [stored.getD_footer_hit, hstored]
    rfl

end OwnerFetch
