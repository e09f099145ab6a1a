import FactoryAgent.Cache.Progress
import FactoryAgent.Lib.ExactDecimal

/-!
# The groups of progress rows

`aggregate_progress_rows` takes the detail one row after the other into the group of its key. What it
collects, where it is not refused, can be said without the order in which it goes: the group of a key has
the dimensions of any row with that key, and the totals of what these rows contribute
(`foldlM_addProgressRow_eq_ok_iff`).
-/

open DecimalContext

/-! ## The key and the contributions of a row -/

/-- The columns of a grain that name the code in another of its columns. -/
def progressNameFields (columns : List String) : List String :=
  dimensionNames.filterMap (fun (code, name) =>
    if code ∈ columns ∧ name ∈ columns then some name else none)

/-- The columns of a grain that its groups are told apart by. -/
def progressKeyFields (columns : List String) : List String :=
  (Std.ExtTreeSet.ofList (columns.filter (· ∉ progressNameFields columns))).toList

/-- **The key of a row** at a grain. -/
def groupKey (columns : List String) (row : Row) : List String :=
  (progressKeyFields columns).map (fun column => (row.cell column).scalar)

/-- **What a row contributes** to a total: a finite number that is not negative, if it is one. -/
def contributionOf (column : String) (row : Row) : Option Decimal :=
  (Decimal.parse (row.cell column).scalar).filter (fun amount =>
    amount.isFinite && !amount.isNegative)

/-- The totals of some rows. -/
def groupTotals (rows : List Row) : Std.ExtTreeMap String Decimal :=
  Std.ExtTreeMap.ofList (progressAdditiveColumns.map (fun column =>
    (column, (exact.total (rows.map (contributionOf column))).getD Decimal.zero)))

/-- **The group of some rows** of one key. -/
def groupOf (columns : List String) : List Row → Option ProgressGroup
  | [] => none
  | first :: rest => some ⟨(ProgressGroup.opened columns first).dimensions, groupTotals (first :: rest)⟩

/-- The rows of one key. -/
def keyRows (columns : List String) (key : List String) (rows : List Row) : List Row :=
  rows.filter (fun row => groupKey columns row = key)

/-- **The groups of the detail**: for each key, the group of its rows. -/
def Collected (columns : List String) (rows : List Row) (groups : ProgressGroups) : Prop :=
  ∀ key, groups[key]? = groupOf columns (keyRows columns key rows)

/-- **Detail that can be added up**: every row has the dimensions and contributes, and the rows of one key
agree on the names and the dates that they come with. -/
structure Acceptable (columns : List String) (rows : List Row) : Prop where
  dimensions : ∀ row ∈ rows, ∀ column ∈ columns, column ∈ row
  contributions : ∀ row ∈ rows, ∀ column ∈ progressAdditiveColumns,
    (contributionOf column row).isSome = true
  consistent : ∀ row ∈ rows, ∀ other ∈ rows, groupKey columns row = groupKey columns other →
    (ProgressGroup.opened columns row).dimensions = (ProgressGroup.opened columns other).dimensions

/-! ## Normalized rows -/

/-- A value of a text row, as a field. -/
theorem Row.IsText.field_eq {row : Row} (h : row.IsText) (column : String) :
    row.field column = (row.cell column).scalar := by
  unfold Row.field
  rw [Row.cell_eq]
  cases hcell : row[column]? with
  | none => rfl
  | some cell =>
    have htext := h column cell hcell
    cases cell with
    | text value =>
      rw [Option.getD_some, Cell.orElse_text]
      by_cases hempty : value = "" <;> simp [hempty, Cell.scalar, Cell.str]
    | _ => cases htext

/-- A value of a text row, as a scalar, where it is there. -/
theorem Row.IsText.cell_eq_of_mem {row : Row} (h : row.IsText) {column : String} (hmem : column ∈ row) :
    row.cell column = .text (row.cell column).scalar := by
  rw [Std.ExtTreeMap.mem_iff_isSome_getElem?, Option.isSome_iff_exists] at hmem
  obtain ⟨cell, hcell⟩ := hmem
  have htext := h column cell hcell
  rw [Row.cell_eq, hcell, Option.getD_some]
  cases cell with
  | text value => rfl
  | _ => cases htext

/-- **A contribution is accepted** where the row contributes. -/
theorem contribution_eq_ok {row : Row} (h : row.IsText) {column : String} {amount : Decimal} :
    contribution row column = .ok amount ↔ contributionOf column row = some amount := by
  unfold contribution contributionOf
  dsimp only
  rw [h.field_eq]
  split
  · next hempty =>
    have hnone : Decimal.parse "" = none := by decide
    rw [hempty, hnone]
    exact iff_of_false (by rintro ⟨⟩) (by rintro ⟨⟩)
  · cases Decimal.parse (row.cell column).scalar with
    | none => exact iff_of_false (by rintro ⟨⟩) (by rintro ⟨⟩)
    | some parsed =>
      dsimp only
      rw [Option.filter_some]
      split
      · exact ⟨fun h => congrArg some (Except.ok.inj h), fun h => congrArg _ (Option.some.inj h)⟩
      · exact iff_of_false (by rintro ⟨⟩) (by rintro ⟨⟩)

/-- A contribution is finite and not negative. -/
theorem contributionOf_eq_some {row : Row} {column : String} {amount : Decimal}
    (h : contributionOf column row = some amount) :
    amount.isFinite = true ∧ amount.isNegative = false := by
  obtain ⟨-, hamount⟩ := Option.filter_eq_some_iff.mp h
  simpa using hamount

/-! ## One row after the other -/

/-- A total takes the contribution of a row. -/
theorem addContribution_eq_ok {row : Row} (hrow : row.IsText) {group group' : ProgressGroup}
    {column : String} (h : group.addContribution exact row column = .ok group') :
    ∃ amount total, contributionOf column row = some amount
      ∧ exact.add (group.totals.getD column Decimal.zero) amount = some total
      ∧ group' = { group with totals := group.totals.insert column total } := by
  unfold ProgressGroup.addContribution at h
  obtain ⟨amount, hamount, h⟩ := Except.bind_eq_ok.mp h
  split at h
  · next total htotal =>
    exact ⟨amount, total, (contribution_eq_ok hrow).mp hamount, htotal, (Except.ok.inj h).symm⟩
  · cases h

/-- A total can take a contribution. -/
theorem exists_addContribution {row : Row} (hrow : row.IsText) {group : ProgressGroup}
    {column : String} {amount : Decimal} (hamount : contributionOf column row = some amount)
    (hfinite : (group.totals.getD column Decimal.zero).isFinite = true) :
    ∃ total, exact.add (group.totals.getD column Decimal.zero) amount = some total
      ∧ group.addContribution exact row column
        = .ok { group with totals := group.totals.insert column total } := by
  obtain ⟨total, htotal, -⟩ := exists_exact_add hfinite (contributionOf_eq_some hamount).1
  refine ⟨total, htotal, ?_⟩
  unfold ProgressGroup.addContribution
  exact Except.bind_eq_ok.mpr ⟨amount, (contribution_eq_ok hrow).mpr hamount, by rw [htotal]⟩

/-- **The totals of a group that a row is added to** are the sums with what the row contributes. -/
theorem foldlM_addContribution {row : Row} (hrow : row.IsText) {columns : List String}
    (hnodup : columns.Nodup) {group group' : ProgressGroup}
    (h : columns.foldlM (ProgressGroup.addContribution exact row) group = .ok group') :
    (∀ column ∈ columns, (contributionOf column row).isSome = true)
      ∧ group'.dimensions = group.dimensions
      ∧ ∀ column, group'.totals[column]? = if column ∈ columns then
          (contributionOf column row).bind (exact.add (group.totals.getD column Decimal.zero))
        else group.totals[column]? := by
  induction columns generalizing group with
  | nil =>
    cases h
    exact ⟨fun column hcolumn => (List.not_mem_nil hcolumn).elim, rfl,
      fun column => (if_neg List.not_mem_nil).symm⟩
  | cons first columns ih =>
    obtain ⟨hnew, hnodup⟩ := List.nodup_cons.mp hnodup
    rw [List.foldlM_cons] at h
    obtain ⟨next, hnext, h⟩ := Except.bind_eq_ok.mp h
    obtain ⟨amount, total, hamount, htotal, rfl⟩ := addContribution_eq_ok hrow hnext
    obtain ⟨hcontributions, hdimensions, htotals⟩ := ih hnodup h
    refine ⟨List.forall_mem_cons.mpr ⟨by rw [hamount]; rfl, hcontributions⟩, hdimensions,
      fun column => ?_⟩
    rw [htotals column]
    by_cases hfirst : column = first
    · subst hfirst
      rw [if_neg hnew, if_pos List.mem_cons_self, hamount, Option.bind_some, htotal]
      exact Std.ExtTreeMap.getElem?_insert_self
    · have hother : (group.totals.insert first total)[column]? = group.totals[column]? := by
        rw [Std.ExtTreeMap.getElem?_insert, if_neg]
        simpa using fun h => hfirst h.symm
      have hotherD : (group.totals.insert first total).getD column Decimal.zero
          = group.totals.getD column Decimal.zero := by
        rw [Std.ExtTreeMap.getD_eq_getD_getElem?, Std.ExtTreeMap.getD_eq_getD_getElem?, hother]
      simp only [List.mem_cons, hfirst, false_or, hother, hotherD]

/-- A row that contributes to every total can be added. -/
theorem exists_foldlM_addContribution {row : Row} (hrow : row.IsText) {columns : List String}
    (hcontributions : ∀ column ∈ columns, (contributionOf column row).isSome = true)
    {group : ProgressGroup}
    (hfinite : ∀ column, (group.totals.getD column Decimal.zero).isFinite = true) :
    ∃ group', columns.foldlM (ProgressGroup.addContribution exact row) group = .ok group' := by
  induction columns generalizing group with
  | nil => exact ⟨group, rfl⟩
  | cons first columns ih =>
    obtain ⟨hfirst, hcontributions⟩ := List.forall_mem_cons.mp hcontributions
    obtain ⟨amount, hamount⟩ := Option.isSome_iff_exists.mp hfirst
    obtain ⟨total, htotal, hadded⟩ := exists_addContribution hrow hamount (hfinite first)
    have hnext : ∀ column, ((group.totals.insert first total).getD column Decimal.zero).isFinite
        = true := by
      intro column
      rw [Std.ExtTreeMap.getD_insert]
      split
      · obtain ⟨sum, hsum, hsumFinite⟩ :=
          exists_exact_add (hfinite first) (contributionOf_eq_some hamount).1
        exact Option.some.inj (htotal.symm.trans hsum) ▸ hsumFinite
      · exact hfinite column
    obtain ⟨group', hgroup'⟩ := @ih hcontributions
      { group with totals := group.totals.insert first total } hnext
    refine ⟨group', ?_⟩
    rw [List.foldlM_cons, hadded]
    exact hgroup'

/-! ## The dimensions of a group -/

variable {columns : List String}

/-- The dimensions of a group that a row opens. -/
theorem getElem?_opened (row : Row) (column : String) :
    (ProgressGroup.opened columns row).dimensions[column]?
      = if column = "rq" ∧ "dh" ∈ columns then some (row.cell "rq")
        else if column ∈ columns then some (row.cell column) else none := by
  have hgraph : (Std.ExtTreeMap.ofList (columns.map (fun column => (column, row.cell column))) :
      Row)[column]? = if column ∈ columns then some (row.cell column) else none := by
    rw [Std.ExtTreeMap.ofList_eq_insertMany_empty, Row.getElem?_insertMany_graph]
    simp
  unfold ProgressGroup.opened
  dsimp only
  by_cases hdh : "dh" ∈ columns
  · rw [if_pos hdh, Std.ExtTreeMap.getElem?_insert, hgraph]
    simp only [Std.LawfulEqCmp.compare_eq_iff_eq, hdh, and_true, eq_comm (a := "rq")]
  · rw [if_neg hdh, hgraph]
    simp only [hdh, and_false, if_false]

/-- **Two rows open groups with the same dimensions** where they agree on these, and on the date where the
grain is of sheets. -/
theorem opened_eq_iff (hrq : "rq" ∉ columns) (row other : Row) :
    (ProgressGroup.opened columns row).dimensions = (ProgressGroup.opened columns other).dimensions ↔
      (∀ column ∈ columns, row.cell column = other.cell column)
        ∧ ("dh" ∈ columns → row.cell "rq" = other.cell "rq") := by
  constructor
  · intro h
    have hcolumn : ∀ column : String, (ProgressGroup.opened columns row).dimensions[column]?
        = (ProgressGroup.opened columns other).dimensions[column]? := fun column => by rw [h]
    refine ⟨fun column hmem => ?_, fun hdh => ?_⟩
    · have hcell := hcolumn column
      have hne : ¬(column = "rq" ∧ "dh" ∈ columns) := fun h => hrq (h.1 ▸ hmem)
      rw [getElem?_opened, getElem?_opened, if_neg hne, if_neg hne, if_pos hmem, if_pos hmem] at hcell
      exact Option.some.inj hcell
    · have hcell := hcolumn "rq"
      rw [getElem?_opened, getElem?_opened, if_pos ⟨rfl, hdh⟩, if_pos ⟨rfl, hdh⟩] at hcell
      exact Option.some.inj hcell
  · rintro ⟨hcells, hdate⟩
    refine Std.ExtTreeMap.ext_getElem? (fun column => ?_)
    rw [getElem?_opened, getElem?_opened]
    split
    · next h => rw [hdate h.2]
    · split
      · next hmem => rw [hcells column hmem]
      · rfl

/-- The dimension of a group that a row opens. -/
theorem cell_opened (hrq : "rq" ∉ columns) (row : Row) {column : String} (hmem : column ∈ columns) :
    (ProgressGroup.opened columns row).dimensions.cell column = row.cell column := by
  have hne : ¬(column = "rq" ∧ "dh" ∈ columns) := fun h => hrq (h.1 ▸ hmem)
  rw [Row.cell_eq, getElem?_opened, if_neg hne, if_pos hmem]
  rfl

/-- The date of a group that a row opens, where the grain is of sheets. -/
theorem cell_opened_rq (row : Row) (hdh : "dh" ∈ columns) :
    (ProgressGroup.opened columns row).dimensions.cell "rq" = row.cell "rq" := by
  rw [Row.cell_eq, getElem?_opened, if_pos ⟨rfl, hdh⟩]
  rfl

/-- The name fields are columns of the grain. -/
theorem mem_of_mem_progressNameFields {name : String} (h : name ∈ progressNameFields columns) :
    name ∈ columns := by
  obtain ⟨⟨code, other⟩, -, h⟩ := List.mem_filterMap.mp h
  dsimp only at h
  split at h
  · next hmem => exact Option.some.inj h ▸ hmem.2
  · cases h

/-- A column of the grain is a name or a part of the key. -/
theorem mem_progressKeyFields {column : String} :
    column ∈ progressKeyFields columns ↔ column ∈ columns ∧ column ∉ progressNameFields columns := by
  simp [progressKeyFields, Std.ExtTreeSet.mem_ofList]

/-- **Rows of one key agree on everything but the names and the date.** -/
theorem cell_eq_of_groupKey_eq {row other : Row} (hrow : row.IsText) (hother : other.IsText)
    (hmem : ∀ column ∈ columns, column ∈ row) (hmem' : ∀ column ∈ columns, column ∈ other)
    (h : groupKey columns row = groupKey columns other) {column : String}
    (hcolumn : column ∈ progressKeyFields columns) : row.cell column = other.cell column := by
  have hscalar : (row.cell column).scalar = (other.cell column).scalar :=
    List.map_inj_left.mp h column hcolumn
  have hin := (mem_progressKeyFields.mp hcolumn).1
  rw [hrow.cell_eq_of_mem (hmem column hin), hother.cell_eq_of_mem (hmem' column hin), hscalar]

/-- **A row is admitted to a group** where it opens a group with the same dimensions. -/
theorem admits_iff (hrq : "rq" ∉ columns) {group : ProgressGroup} {row first : Row}
    (hrow : row.IsText) (hfirst : first.IsText) (hmem : ∀ column ∈ columns, column ∈ row)
    (hmem' : ∀ column ∈ columns, column ∈ first)
    (hkey : groupKey columns row = groupKey columns first)
    (hgroup : group.dimensions = (ProgressGroup.opened columns first).dimensions) :
    group.admits columns (progressNameFields columns) row = .ok () ↔
      (ProgressGroup.opened columns row).dimensions
        = (ProgressGroup.opened columns first).dimensions := by
  have hnames : (progressNameFields columns).any (fun name =>
        decide (row.cell name ≠ group.dimensions.cell name)) = false
      ↔ ∀ column ∈ columns, row.cell column = first.cell column := by
    rw [List.any_eq_false]
    constructor
    · intro h column hcolumn
      by_cases hname : column ∈ progressNameFields columns
      · have hcell := h column hname
        rw [decide_eq_true_eq, not_not, hgroup, cell_opened hrq first hcolumn] at hcell
        exact hcell
      · exact cell_eq_of_groupKey_eq hrow hfirst hmem hmem' hkey
          (mem_progressKeyFields.mpr ⟨hcolumn, hname⟩)
    · intro h name hname
      have hcolumn := mem_of_mem_progressNameFields hname
      rw [decide_eq_true_eq, not_not, hgroup, cell_opened hrq first hcolumn]
      exact h name hcolumn
  rw [opened_eq_iff hrq, ← hnames]
  unfold ProgressGroup.admits
  split
  · next hany =>
    rw [hany]
    exact iff_of_false (by rintro ⟨⟩) (by rintro ⟨⟨⟩, -⟩)
  · next hany =>
    rw [Bool.not_eq_true] at hany
    rw [hany]
    split
    · next hdate =>
      refine iff_of_false (by rintro ⟨⟩) (fun h => hdate.2 ?_)
      rw [hgroup, cell_opened_rq first hdate.1]
      exact h.2 hdate.1
    · next hdate =>
      refine iff_of_true rfl ⟨rfl, fun hdh => ?_⟩
      by_contra hne
      refine hdate ⟨hdh, ?_⟩
      rw [hgroup, cell_opened_rq first hdh]
      exact hne

/-! ## The fold over the detail -/

/-- The total of a column over some rows. -/
def contributionTotal (column : String) (rows : List Row) : Option Decimal :=
  exact.total (rows.map (contributionOf column))

theorem getElem?_groupTotals (rows : List Row) (column : String) :
    (groupTotals rows)[column]? = if column ∈ progressAdditiveColumns then
        some ((contributionTotal column rows).getD Decimal.zero) else none := by
  rw [groupTotals, Std.ExtTreeMap.ofList_eq_insertMany_empty, Row.getElem?_insertMany_graph]
  simp [contributionTotal]

/-- **Rows that contribute have a total**, which is finite. -/
theorem exists_contributionTotal {rows : List Row} {column : String}
    (h : ∀ row ∈ rows, (contributionOf column row).isSome = true) :
    ∃ total, contributionTotal column rows = some total ∧ total.isFinite = true := by
  induction rows using List.reverseRecOn with
  | nil => exact ⟨Decimal.zero, rfl, rfl⟩
  | append_singleton rows row ih =>
    obtain ⟨before, hbefore, hfinite⟩ := ih (fun row hrow => h row (List.mem_append_left _ hrow))
    obtain ⟨amount, hamount⟩ := Option.isSome_iff_exists.mp
      (h row (List.mem_append_right _ (List.mem_singleton_self _)))
    obtain ⟨total, htotal, htotalFinite⟩ :=
      exists_exact_add hfinite (contributionOf_eq_some hamount).1
    refine ⟨total, ?_, htotalFinite⟩
    rw [contributionTotal, List.map_append, List.map_singleton, total_concat, ← contributionTotal,
      hbefore, hamount]
    exact htotal

/-- One more row of a key. -/
theorem keyRows_concat (key : List String) (rows : List Row) (row : Row) :
    keyRows columns key (rows ++ [row])
      = if groupKey columns row = key then keyRows columns key rows ++ [row]
        else keyRows columns key rows := by
  rw [keyRows, keyRows, List.filter_append]
  by_cases hkey : groupKey columns row = key <;> simp [hkey]

theorem mem_keyRows {key : List String} {rows : List Row} {row : Row} :
    row ∈ keyRows columns key rows ↔ row ∈ rows ∧ groupKey columns row = key := by
  rw [keyRows, List.mem_filter, decide_eq_true_eq]

/-- The group of the rows of a key, where there are any. -/
theorem groupOf_eq_some {rows : List Row} {group : ProgressGroup}
    (h : groupOf columns rows = some group) :
    ∃ first ∈ rows, group.dimensions = (ProgressGroup.opened columns first).dimensions
      ∧ group.totals = groupTotals rows := by
  cases rows with
  | nil => cases h
  | cons first rest =>
    cases h
    exact ⟨first, List.mem_cons_self, rfl, rfl⟩

/-- A group that a row opens has the totals of no rows. -/
theorem totals_opened (row : Row) : (ProgressGroup.opened columns row).totals = groupTotals [] := rfl

/-- **The group of a key with one more row.** -/
theorem groupOf_concat {rows : List Row} {row : Row} (hrows : ∀ other ∈ rows,
      (ProgressGroup.opened columns row).dimensions = (ProgressGroup.opened columns other).dimensions)
    (hcontributions : ∀ column ∈ progressAdditiveColumns, ∀ other ∈ rows,
      (contributionOf column other).isSome = true)
    {group : ProgressGroup} (hdimensions : group.dimensions
      = (ProgressGroup.opened columns row).dimensions)
    (htotals : ∀ column, group.totals[column]? = if column ∈ progressAdditiveColumns then
        (contributionOf column row).bind (exact.add ((groupTotals rows).getD column Decimal.zero))
      else (groupTotals rows)[column]?)
    (hrow : ∀ column ∈ progressAdditiveColumns, (contributionOf column row).isSome = true) :
    groupOf columns (rows ++ [row]) = some group := by
  have hsums : group.totals = groupTotals (rows ++ [row]) := by
    refine Std.ExtTreeMap.ext_getElem? (fun column => ?_)
    rw [htotals, getElem?_groupTotals, getElem?_groupTotals]
    split
    · next hcolumn =>
      obtain ⟨before, hbefore, hfinite⟩ := exists_contributionTotal (hcontributions column hcolumn)
      obtain ⟨amount, hamount⟩ := Option.isSome_iff_exists.mp (hrow column hcolumn)
      obtain ⟨total, htotal, -⟩ := exists_exact_add hfinite (contributionOf_eq_some hamount).1
      rw [Std.ExtTreeMap.getD_eq_getD_getElem?, getElem?_groupTotals, if_pos hcolumn, hbefore,
        hamount, contributionTotal, List.map_append, List.map_singleton, total_concat,
        ← contributionTotal, hbefore, hamount]
      show exact.add before amount = some ((exact.add before amount).getD Decimal.zero)
      rw [htotal]
      rfl
    · rfl
  cases rows with
  | nil => rw [List.nil_append, groupOf, ← hdimensions, ← List.nil_append [row], ← hsums]
  | cons first rest =>
    rw [List.cons_append, groupOf, ← hrows first List.mem_cons_self, ← hdimensions,
      ← List.cons_append, ← hsums]

/-- Whether a row has every dimension. -/
theorem any_not_contains_eq_false {row : Row} :
    columns.any (fun column => !row.contains column) = false ↔ ∀ column ∈ columns, column ∈ row := by
  simp [List.any_eq_false, Std.ExtTreeMap.contains_iff_mem]

/-- **What one row does**: it opens a group or is admitted to one, and its contributions are added. -/
theorem addProgressRow_eq_ok {nameFields keyFields : List String} {groups groups' : ProgressGroups}
    {row : Row} :
    addProgressRow exact columns nameFields keyFields groups row = .ok groups' ↔
      (∀ column ∈ columns, column ∈ row) ∧ ∃ group group',
        ((groups[keyFields.map row.field]? = none ∧ group = ProgressGroup.opened columns row)
          ∨ (groups[keyFields.map row.field]? = some group
            ∧ group.admits columns nameFields row = .ok ()))
        ∧ progressAdditiveColumns.foldlM (ProgressGroup.addContribution exact row) group = .ok group'
        ∧ groups' = groups.insert (keyFields.map row.field) group' := by
  unfold addProgressRow
  by_cases hmissing : columns.any (fun column => !row.contains column) = false
  · have hdimensions := any_not_contains_eq_false.mp hmissing
    simp only [hmissing, Bool.false_eq_true, if_false, pure_bind]
    cases hfound : groups[keyFields.map row.field]? with
    | none =>
      constructor
      · intro h
        obtain ⟨group', hadded, h⟩ := Except.bind_eq_ok.mp h
        exact ⟨hdimensions, _, group', .inl ⟨rfl, rfl⟩, hadded, (Except.pure_eq_ok.mp h).symm⟩
      · rintro ⟨-, group, group', ⟨-, rfl⟩ | ⟨hsome, -⟩, hadded, rfl⟩
        · exact Except.bind_eq_ok.mpr ⟨group', hadded, rfl⟩
        · cases hsome
    | some found =>
      constructor
      · intro h
        obtain ⟨⟨⟩, hadmits, h⟩ := Except.bind_eq_ok.mp h
        obtain ⟨group', hadded, h⟩ := Except.bind_eq_ok.mp h
        exact ⟨hdimensions, found, group', .inr ⟨rfl, hadmits⟩, hadded, (Except.pure_eq_ok.mp h).symm⟩
      · rintro ⟨-, group, group', ⟨hnone, -⟩ | ⟨hsome, hadmits⟩, hadded, rfl⟩
        · cases hnone
        · cases hsome
          exact Except.bind_eq_ok.mpr ⟨(), hadmits, Except.bind_eq_ok.mpr ⟨group', hadded, rfl⟩⟩
  · rw [Bool.not_eq_false] at hmissing
    have hnot : ¬ ∀ column ∈ columns, column ∈ row := fun h => by
      rw [any_not_contains_eq_false.mpr h] at hmissing
      cases hmissing
    simp only [hmissing, if_true]
    exact iff_of_false (by rintro ⟨⟩) (fun h => hnot h.1)

variable {rows : List Row}

/-- **One row more keeps the groups of the detail.** -/
theorem Collected.addProgressRow (hrq : "rq" ∉ columns) {groups groups' : ProgressGroups} {row : Row}
    (hcollected : Collected columns rows groups) (hacceptable : Acceptable columns rows)
    (htexts : ∀ other ∈ rows, other.IsText) (hrow : row.IsText)
    (h : addProgressRow exact columns (progressNameFields columns) (progressKeyFields columns) groups
      row = .ok groups') :
    Acceptable columns (rows ++ [row]) ∧ Collected columns (rows ++ [row]) groups' := by
  obtain ⟨hdimensions, group, group', hgroup, hadded, rfl⟩ := addProgressRow_eq_ok.mp h
  have hkey : (progressKeyFields columns).map row.field = groupKey columns row :=
    List.map_congr_left (fun column _ => hrow.field_eq column)
  rw [hkey] at hgroup ⊢
  have hfound := hcollected (groupKey columns row)
  -- the group before has the dimensions that the row would open it with, and the totals of its rows
  have hbefore : group.dimensions = (ProgressGroup.opened columns row).dimensions
      ∧ group.totals = groupTotals (keyRows columns (groupKey columns row) rows)
      ∧ ∀ other ∈ rows, groupKey columns other = groupKey columns row →
        (ProgressGroup.opened columns row).dimensions
          = (ProgressGroup.opened columns other).dimensions := by
    rcases hgroup with ⟨hnone, rfl⟩ | ⟨hsome, hadmits⟩
    · have hempty : keyRows columns (groupKey columns row) rows = [] := by
        rw [hfound] at hnone
        cases hrows : keyRows columns (groupKey columns row) rows with
        | nil => rfl
        | cons first rest =>
          rw [hrows] at hnone
          cases hnone
      refine ⟨rfl, by rw [hempty]; rfl, fun other hother hsame => ?_⟩
      have hmem := mem_keyRows.mpr ⟨hother, hsame⟩
      rw [hempty] at hmem
      cases hmem
    · rw [hfound] at hsome
      obtain ⟨first, hfirst, hopened, htotals⟩ := groupOf_eq_some hsome
      obtain ⟨hmem, hsame⟩ := mem_keyRows.mp hfirst
      have hrowOpened := (admits_iff hrq hrow (htexts first hmem) hdimensions
        (hacceptable.dimensions first hmem) hsame.symm hopened).mp hadmits
      refine ⟨hopened.trans hrowOpened.symm, htotals, fun other hother hsameOther => ?_⟩
      exact hrowOpened.trans (hacceptable.consistent first hmem other hother
        (hsame.trans hsameOther.symm))
  obtain ⟨hopened, htotals, hconsistent⟩ := hbefore
  have hnodup : progressAdditiveColumns.Nodup := by decide
  obtain ⟨hcontributions, hsameDimensions, hsums⟩ := foldlM_addContribution hrow hnodup hadded
  have hmore : Acceptable columns (rows ++ [row]) := by
    refine ⟨?_, ?_, ?_⟩
    · intro other hother
      rcases List.mem_append.mp hother with hother | hother
      · exact hacceptable.dimensions other hother
      · exact List.mem_singleton.mp hother ▸ hdimensions
    · intro other hother
      rcases List.mem_append.mp hother with hother | hother
      · exact hacceptable.contributions other hother
      · exact List.mem_singleton.mp hother ▸ hcontributions
    · intro first hfirst second hsecond hsame
      rcases List.mem_append.mp hfirst with hfirst | hfirst <;>
        rcases List.mem_append.mp hsecond with hsecond | hsecond
      · exact hacceptable.consistent first hfirst second hsecond hsame
      · rw [List.mem_singleton.mp hsecond] at hsame ⊢
        exact (hconsistent first hfirst hsame).symm
      · rw [List.mem_singleton.mp hfirst] at hsame ⊢
        exact hconsistent second hsecond hsame.symm
      · rw [List.mem_singleton.mp hfirst, List.mem_singleton.mp hsecond]
  refine ⟨hmore, fun key => ?_⟩
  rw [Std.ExtTreeMap.getElem?_insert, keyRows_concat]
  simp only [Std.LawfulEqCmp.compare_eq_iff_eq]
  split
  · next hsame =>
    subst hsame
    symm
    refine groupOf_concat (fun other hother => ?_) (fun column hcolumn other hother => ?_)
      (hsameDimensions.trans hopened) ?_ hcontributions
    · obtain ⟨hmem, hsame⟩ := mem_keyRows.mp hother
      exact hconsistent other hmem hsame
    · exact hacceptable.contributions other (mem_keyRows.mp hother).1 column hcolumn
    · rw [← htotals]
      exact hsums
  · exact hcollected key

/-- **Acceptable detail is collected.** -/
theorem exists_addProgressRow (hrq : "rq" ∉ columns) {groups : ProgressGroups} {row : Row}
    (hcollected : Collected columns rows groups) (htexts : ∀ other ∈ rows, other.IsText)
    (hrow : row.IsText) (h : Acceptable columns (rows ++ [row])) :
    ∃ groups', addProgressRow exact columns (progressNameFields columns) (progressKeyFields columns)
      groups row = .ok groups' := by
  have hmem : row ∈ rows ++ [row] := List.mem_append_right _ (List.mem_singleton_self _)
  have hkey : (progressKeyFields columns).map row.field = groupKey columns row :=
    List.map_congr_left (fun column _ => hrow.field_eq column)
  have hfinite : ∀ (members : List Row), (∀ other ∈ members, other ∈ rows) → ∀ column,
      ((groupTotals members).getD column Decimal.zero).isFinite = true := by
    intro members hmembers column
    rw [Std.ExtTreeMap.getD_eq_getD_getElem?, getElem?_groupTotals]
    split
    · next hcolumn =>
      obtain ⟨total, htotal, htotalFinite⟩ := exists_contributionTotal (fun other hother =>
        h.contributions other (List.mem_append_left _ (hmembers other hother)) column hcolumn)
      rw [htotal]
      exact htotalFinite
    · rfl
  have hgroup : ∃ group, ((groups[groupKey columns row]? = none
        ∧ group = ProgressGroup.opened columns row)
      ∨ (groups[groupKey columns row]? = some group
        ∧ group.admits columns (progressNameFields columns) row = .ok ()))
      ∧ ∀ column, (group.totals.getD column Decimal.zero).isFinite = true := by
    cases hfound : groups[groupKey columns row]? with
    | none => exact ⟨_, .inl ⟨rfl, rfl⟩, hfinite [] (fun _ h => (List.not_mem_nil h).elim)⟩
    | some group =>
      rw [hcollected] at hfound
      obtain ⟨first, hfirst, hopened, htotals⟩ := groupOf_eq_some hfound
      obtain ⟨hfirstMem, hsame⟩ := mem_keyRows.mp hfirst
      refine ⟨group, .inr ⟨rfl, ?_⟩, fun column => ?_⟩
      · refine (admits_iff hrq hrow (htexts first hfirstMem) (h.dimensions row hmem)
          (h.dimensions first (List.mem_append_left _ hfirstMem)) hsame.symm hopened).mpr ?_
        exact h.consistent row hmem first (List.mem_append_left _ hfirstMem) hsame.symm
      · rw [htotals]
        exact hfinite _ (fun other hother => (mem_keyRows.mp hother).1) column
  obtain ⟨group, hgroup, htotals⟩ := hgroup
  obtain ⟨group', hadded⟩ := exists_foldlM_addContribution hrow (h.contributions row hmem) htotals
  exact ⟨_, addProgressRow_eq_ok.mpr ⟨h.dimensions row hmem, group, group', by rw [hkey]; exact hgroup,
    hadded, rfl⟩⟩

/-- Fewer rows are as acceptable. -/
theorem Acceptable.mono {more : List Row} (h : Acceptable columns more)
    (hsub : ∀ row ∈ rows, row ∈ more) : Acceptable columns rows where
  dimensions := fun row hrow => h.dimensions row (hsub row hrow)
  contributions := fun row hrow => h.contributions row (hsub row hrow)
  consistent := fun row hrow other hother => h.consistent row (hsub row hrow) other (hsub other hother)

/-- **What the fold over the detail collects**: where the detail is acceptable, and only there, the groups
of its rows. -/
theorem foldlM_addProgressRow (hrq : "rq" ∉ columns) (htexts : ∀ row ∈ rows, row.IsText) :
    (∀ groups, rows.foldlM (addProgressRow exact columns (progressNameFields columns)
        (progressKeyFields columns)) ∅ = .ok groups →
      Acceptable columns rows ∧ Collected columns rows groups)
    ∧ (Acceptable columns rows → ∃ groups, rows.foldlM (addProgressRow exact columns
        (progressNameFields columns) (progressKeyFields columns)) ∅ = .ok groups) := by
  induction rows using List.reverseRecOn with
  | nil =>
    refine ⟨fun groups h => ?_, fun _ => ⟨∅, rfl⟩⟩
    cases h
    refine ⟨⟨fun _ h => (List.not_mem_nil h).elim, fun _ h => (List.not_mem_nil h).elim,
      fun _ h => (List.not_mem_nil h).elim⟩, fun key => ?_⟩
    exact Std.ExtTreeMap.getElem?_empty
  | append_singleton rows row ih =>
    have hrowText := htexts row (List.mem_append_right _ (List.mem_singleton_self _))
    have hrowsText : ∀ other ∈ rows, other.IsText := fun other hother =>
      htexts other (List.mem_append_left _ hother)
    obtain ⟨hcollect, haccept⟩ := ih hrowsText
    refine ⟨fun groups h => ?_, fun h => ?_⟩
    · obtain ⟨before, hbefore, hafter⟩ := Except.foldlM_concat_eq_ok.mp h
      obtain ⟨hacceptable, hcollected⟩ := hcollect before hbefore
      exact hcollected.addProgressRow hrq hacceptable hrowsText hrowText hafter
    · obtain ⟨before, hbefore⟩ := haccept (h.mono (fun row hrow => List.mem_append_left _ hrow))
      obtain ⟨after, hafter⟩ := exists_addProgressRow hrq (hcollect before hbefore).2 hrowsText
        hrowText h
      exact ⟨after, Except.foldlM_concat_eq_ok.mpr ⟨before, hbefore, hafter⟩⟩
