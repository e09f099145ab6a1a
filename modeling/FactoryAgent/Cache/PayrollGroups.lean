import FactoryAgent.Cache.View
import FactoryAgent.Lib.DecimalText
import FactoryAgent.Lib.DecimalValue
import FactoryAgent.Lib.Grouping

/-!
# Payroll by dimensions

What `_aggregate_payroll_rows` says about the detail, in numbers. A row of the result stands for all detail rows of its
key: its dimensions are theirs, and a measure is there where it is in one of them, as the sum of what they have
(`Coherent`). So coarser groups may be formed of the detail or of finer groups, and the order of the detail is gone from
the result.

The arithmetic is exact. What is written of a number may still differ: a sum that is zero for a while loses its decimal
places (`grouping_incoherent`), so it is the numbers that are compared.
-/

namespace Payroll

open DecimalContext

/-- The number that a cell of a measure is read as. -/
def amountOf (cell : Cell) : Option Decimal :=
  Decimal.parse (cell.orElse "0")

/-- What a row has of a measure. -/
def amount (measure : String) (row : Row) : ℚ :=
  ((row[measure]?.bind amountOf).getD Decimal.zero).value

/-- **Detail with blank or finite measures.** -/
def Measured (row : Row) : Prop :=
  ∀ {measure cell}, measure ∈ payrollMeasures → row[measure]? = some cell →
    ∃ number, amountOf cell = some number ∧ number.isFinite = true

/-- The key of a row. -/
def payrollKey (columns : List String) (row : Row) : List String :=
  columns.map row.field

/-- The rows of a key. -/
def keyRows (columns key : List String) (rows : List Row) : List Row :=
  rows.filter fun row => payrollKey columns row = key

/-- **A row in numbers**: its measures are numbers, and its other columns are as they are. -/
def inNumbers (row : Row) (column : String) : Option (Cell ⊕ ℚ) :=
  row[column]?.map fun cell => if column ∈ payrollMeasures then .inr (amount column row) else .inl cell

/-- **What the result says about the detail.** -/
structure Coherent (columns : List String) (rows out : List Row) : Prop where
  /-- The keys are distinct and in order. -/
  sorted : (out.map (payrollKey columns)).Pairwise fun key other => compare key other = .lt
  /-- There is one row for each key of the detail. -/
  keys : ∀ key, key ∈ out.map (payrollKey columns) ↔ key ∈ rows.map (payrollKey columns)
  /-- A row has the dimensions of every detail row of its key. -/
  dimensions : ∀ {group row column}, group ∈ out → row ∈ rows → payrollKey columns row = payrollKey columns group →
    column ∈ columns → group[column]? = some (.text (row.field column))
  /-- A measure is there where a detail row of the key has it. -/
  measured : ∀ {group measure}, group ∈ out → measure ∈ payrollMeasures →
    (measure ∈ group ↔ ∃ row ∈ keyRows columns (payrollKey columns group) rows, measure ∈ row)
  /-- It is the sum of what these rows have. -/
  sums : ∀ {group measure}, group ∈ out → measure ∈ payrollMeasures →
    amount measure group = ((keyRows columns (payrollKey columns group) rows).map (amount measure)).sum
  /-- There are no other columns. -/
  others : ∀ {group column}, group ∈ out → column ∈ group → column ∈ columns ∨ column ∈ payrollMeasures
  /-- The total over the result is the total over the detail. -/
  totals : ∀ {measure}, measure ∈ payrollMeasures →
    (out.map (amount measure)).sum = (rows.map (amount measure)).sum

/-! ## One row more -/

variable {columns : List String}

theorem mem_keyRows {key : List String} {rows : List Row} {row : Row} :
    row ∈ keyRows columns key rows ↔ row ∈ rows ∧ payrollKey columns row = key := by
  rw [keyRows, List.mem_filter, decide_eq_true_eq]

theorem keyRows_concat (key : List String) (rows : List Row) (row : Row) : keyRows columns key (rows ++ [row])
    = if payrollKey columns row = key then keyRows columns key rows ++ [row] else keyRows columns key rows := by
  rw [keyRows, keyRows, List.filter_append]
  by_cases hkey : payrollKey columns row = key <;> simp [hkey]

/-- Rows of one key have the same dimensions. -/
theorem field_eq_of_key_eq {row other : Row} (h : payrollKey columns row = payrollKey columns other) {column : String}
    (hcolumn : column ∈ columns) : row.field column = other.field column :=
  List.map_inj_left.mp h column hcolumn

/-- **A group has the total of a measure** over some rows, where one of them has it. -/
def HasTotal (group : PayrollGroup) (measure : String) (rows : List Row) : Prop :=
  ((∃ row ∈ rows, measure ∈ row) → ∃ total : Decimal, group[measure]? = some (.number total)
      ∧ total.isFinite = true ∧ total.value = (rows.map (amount measure)).sum)
    ∧ ((∀ row ∈ rows, measure ∉ row) → group[measure]? = none)

theorem value_zero : Decimal.zero.value = 0 :=
  (Decimal.value_eq_zero_iff rfl).mpr rfl

/-- What a row lacks adds nothing. -/
theorem amount_eq_zero {measure : String} {row : Row} (h : measure ∉ row) : amount measure row = 0 := by
  rw [amount, Std.ExtTreeMap.getElem?_eq_none h, Option.bind_none, Option.getD_none, value_zero]

/-- The total of a measure so far, as it is read again. -/
theorem parse_total {group : PayrollGroup} {measure : String} {rows : List Row} (h : HasTotal group measure rows) :
    ∃ total : Decimal, Decimal.parse ((group[measure]?.map GroupValue.orZero).getD "0") = some total
      ∧ total.isFinite = true ∧ total.value = (rows.map (amount measure)).sum := by
  by_cases hpresent : ∃ row ∈ rows, measure ∈ row
  · obtain ⟨total, hgroup, hfinite, hvalue⟩ := h.1 hpresent
    rw [hgroup, Option.map_some, Option.getD_some, GroupValue.orZero]
    split
    · next hzero =>
      refine ⟨Decimal.zero, by decide +kernel, rfl, ?_⟩
      rw [← hvalue, (Decimal.value_eq_zero_iff hfinite).mpr hzero, value_zero]
    · exact ⟨total, Decimal.parse_toText total, hfinite, hvalue⟩
  · push Not at hpresent
    rw [h.2 hpresent]
    refine ⟨Decimal.zero, by decide +kernel, rfl, ?_⟩
    rw [value_zero, List.sum_eq_zero]
    intro value hvalue
    obtain ⟨row, hrow, rfl⟩ := List.mem_map.mp hvalue
    exact amount_eq_zero (hpresent row hrow)

/-- **A measure is added.** -/
theorem addMeasure_eq_ok {group : PayrollGroup} {measure : String} {rows : List Row} {row : Row}
    (hmeasured : Measured row) (hmeasure : measure ∈ payrollMeasures) (h : HasTotal group measure rows) :
    ∃ group', addMeasure exact row group measure = .ok group' ∧ HasTotal group' measure (rows ++ [row])
      ∧ ∀ column, column ≠ measure → group'[column]? = group[column]? := by
  unfold addMeasure
  cases hcell : row[measure]? with
  | none =>
    have hmissing : measure ∉ row := fun hmem => by
      rw [Std.ExtTreeMap.mem_iff_isSome_getElem?, hcell] at hmem
      cases hmem
    refine ⟨group, rfl, ⟨fun ⟨other, hother, hmem⟩ => ?_, fun habsent => ?_⟩, fun _ _ => rfl⟩
    · obtain hother | hother := List.mem_append.mp hother
      · obtain ⟨total, hgroup, hfinite, hvalue⟩ := h.1 ⟨other, hother, hmem⟩
        refine ⟨total, hgroup, hfinite, ?_⟩
        rw [hvalue, List.map_append, List.sum_append, List.map_singleton, List.sum_singleton,
          amount_eq_zero hmissing, add_zero]
      · rw [List.mem_singleton.mp hother] at hmem
        exact absurd hmem hmissing
    · exact h.2 fun other hother => habsent other (List.mem_append_left _ hother)
  | some cell =>
    obtain ⟨total, hparse, htotalFinite, htotal⟩ := parse_total h
    obtain ⟨number, hnumber, hfinite⟩ := hmeasured hmeasure hcell
    obtain ⟨sum, hsum, hsumFinite, hvalue⟩ := value_add htotalFinite hfinite
    rw [amountOf] at hnumber
    have hamount : amount measure row = number.value := by
      rw [amount, hcell, Option.bind_some, amountOf, hnumber, Option.getD_some]
    refine ⟨group.insert measure (.number sum), ?_, ⟨fun _ => ⟨sum, Std.ExtTreeMap.getElem?_insert_self, hsumFinite, ?_⟩,
      fun habsent => ?_⟩, fun column hne => ?_⟩
    · simp only [hparse, hnumber, Option.bind_eq_bind, Option.bind_some, hsum]
    · rw [hvalue, htotal, List.map_append, List.sum_append, List.map_singleton, List.sum_singleton, hamount]
    · refine absurd ?_ (habsent row (List.mem_append_right _ (List.mem_singleton_self _)))
      rw [Std.ExtTreeMap.mem_iff_isSome_getElem?, hcell]
      rfl
    · rw [Std.ExtTreeMap.getElem?_insert, if_neg]
      simpa using hne.symm

/-- **All measures of a row are added.** -/
theorem foldlM_addMeasure {group : PayrollGroup} {rows : List Row} {row : Row} (hmeasured : Measured row)
    {measures : List String} (hmeasures : ∀ measure ∈ measures, measure ∈ payrollMeasures) (hnodup : measures.Nodup)
    (h : ∀ measure ∈ measures, HasTotal group measure rows) :
    ∃ group', measures.foldlM (addMeasure exact row) group = .ok group'
      ∧ (∀ measure ∈ measures, HasTotal group' measure (rows ++ [row]))
      ∧ ∀ column, column ∉ measures → group'[column]? = group[column]? := by
  induction measures generalizing group with
  | nil => exact ⟨group, rfl, fun _ hmem => absurd hmem List.not_mem_nil, fun _ _ => rfl⟩
  | cons measure measures ih =>
    obtain ⟨hmeasure, hmeasures⟩ := List.forall_mem_cons.mp hmeasures
    obtain ⟨htotal, htotals⟩ := List.forall_mem_cons.mp h
    obtain ⟨hnew, hnodup⟩ := List.nodup_cons.mp hnodup
    obtain ⟨added, hadded, haddedTotal, hkept⟩ := addMeasure_eq_ok hmeasured hmeasure htotal
    have hrest : ∀ other ∈ measures, HasTotal added other rows := by
      intro other hother
      have hne : other ≠ measure := fun heq => hnew (heq ▸ hother)
      rw [HasTotal, hkept other hne]
      exact htotals other hother
    obtain ⟨group', hgroup', hgroupTotals, hothers⟩ := ih hmeasures hnodup hrest
    refine ⟨group', ?_, ?_, ?_⟩
    · rw [List.foldlM_cons, hadded]
      exact hgroup'
    · refine List.forall_mem_cons.mpr ⟨?_, hgroupTotals⟩
      rw [HasTotal, hothers measure hnew]
      exact haddedTotal
    · intro column hcolumn
      rw [List.mem_cons, not_or] at hcolumn
      rw [hothers column hcolumn.2, hkept column hcolumn.1]

/-! ## The groups of the detail -/

/-- **The group of some rows of one key.** -/
structure GroupOf (columns : List String) (rows : List Row) (group : PayrollGroup) : Prop where
  dimensions : ∀ {row column}, row ∈ rows → column ∈ columns → group[column]? = some (.text (row.field column))
  totals : ∀ measure ∈ payrollMeasures, HasTotal group measure rows
  others : ∀ {column}, column ∉ columns → column ∉ payrollMeasures → group[column]? = none

/-- **The groups of the detail**: each key that a row has comes with the group of its rows. -/
structure Collected (columns : List String) (rows : List Row) (groups : PayrollGroups) : Prop where
  keys : ∀ key, key ∈ groups ↔ key ∈ rows.map (payrollKey columns)
  groups : ∀ {key group}, groups[key]? = some group → GroupOf columns (keyRows columns key rows) group

/-- The group that a row opens. -/
theorem getElem?_opened (row : Row) (column : String) :
    (Std.ExtTreeMap.ofList (columns.map fun column => (column, GroupValue.text (row.field column))) : PayrollGroup)[column]?
      = if column ∈ columns then some (.text (row.field column)) else none := by
  rw [Std.ExtTreeMap.ofList_eq_insertMany_empty, Row.getElem?_insertMany_graph, Std.ExtTreeMap.getElem?_empty]

/-- **One row more keeps the groups of the detail.** -/
theorem Collected.addRow (hdims : ∀ column ∈ columns, column ∉ payrollMeasures) {rows : List Row} {groups : PayrollGroups}
    (h : Collected columns rows groups) {row : Row} (hmeasured : Measured row) (hcolumns : ∀ column ∈ columns, column ∈ row) :
    ∃ groups', addPayrollRow exact columns groups row = .ok groups' ∧ Collected columns (rows ++ [row]) groups' := by
  have hcontains : columns.any (fun column => !row.contains column) = false := by
    rw [List.any_eq_false]
    intro column hcolumn
    simpa using hcolumns column hcolumn
  -- the group before has the dimensions of the row, whether or not the row opens it
  obtain ⟨group, hgroup, hdimensions, htotals, hothers⟩ : ∃ group : PayrollGroup,
      groups.getD (columns.map row.field) (Std.ExtTreeMap.ofList (columns.map fun column =>
        (column, GroupValue.text (row.field column)))) = group
      ∧ (∀ column ∈ columns, group[column]? = some (.text (row.field column)))
      ∧ (∀ measure ∈ payrollMeasures, HasTotal group measure (keyRows columns (payrollKey columns row) rows))
      ∧ ∀ {column}, column ∉ columns → column ∉ payrollMeasures → group[column]? = none := by
    refine ⟨_, rfl, ?_⟩
    rw [Std.ExtTreeMap.getD_eq_getD_getElem?]
    cases hfound : groups[columns.map row.field]? with
    | none =>
      rw [Option.getD_none]
      have hnew : ∀ other ∈ keyRows columns (payrollKey columns row) rows, False := by
        intro other hother
        obtain ⟨hmem, hkey⟩ := mem_keyRows.mp hother
        have hkeys := (h.keys (payrollKey columns row)).mpr (List.mem_map.mpr ⟨other, hmem, hkey⟩)
        rw [Std.ExtTreeMap.mem_iff_isSome_getElem?, payrollKey, hfound] at hkeys
        cases hkeys
      refine ⟨fun column hcolumn => ?_, fun measure hmeasure => ⟨fun ⟨other, hother, _⟩ => ?_, fun _ => ?_⟩,
        fun hcolumn _ => ?_⟩
      · rw [getElem?_opened, if_pos hcolumn]
      · exact (hnew other hother).elim
      · rw [getElem?_opened, if_neg fun hcolumn => hdims measure hcolumn hmeasure]
      · rw [getElem?_opened, if_neg hcolumn]
    | some group =>
      rw [Option.getD_some]
      have hgroup := h.groups hfound
      have hkey : columns.map row.field ∈ groups := by
        rw [Std.ExtTreeMap.mem_iff_isSome_getElem?, hfound]
        rfl
      obtain ⟨other, hother, hsame⟩ := List.mem_map.mp ((h.keys _).mp hkey)
      refine ⟨fun column hcolumn => ?_, hgroup.totals, hgroup.others⟩
      rw [hgroup.dimensions (mem_keyRows.mpr ⟨hother, hsame⟩) hcolumn,
        field_eq_of_key_eq (hsame.trans (rfl : columns.map row.field = payrollKey columns row)) hcolumn]
  obtain ⟨group', hadded, htotals', hkept⟩ := foldlM_addMeasure hmeasured (fun _ => id) (by decide) htotals
  refine ⟨groups.insert (columns.map row.field) group', ?_, ?_, ?_⟩
  · unfold addPayrollRow
    simp only [hcontains, Bool.false_eq_true, if_false, hgroup, hadded]
    rfl
  · intro key
    rw [Std.ExtTreeMap.mem_insert, h.keys, List.map_append, List.mem_append, List.map_singleton, List.mem_singleton,
      Std.LawfulEqCmp.compare_eq_iff_eq, or_comm, eq_comm]
    rfl
  · intro key found hfound
    rw [Std.ExtTreeMap.getElem?_insert] at hfound
    rw [keyRows_concat]
    simp only [Std.LawfulEqCmp.compare_eq_iff_eq] at hfound
    rw [← payrollKey] at hfound
    by_cases hkey : payrollKey columns row = key
    · rw [if_pos hkey] at hfound ⊢
      cases hfound
      subst hkey
      refine ⟨fun {other column} hother hcolumn => ?_, htotals', fun hcolumn hmeasure => ?_⟩
      · rw [hkept column (hdims column hcolumn), hdimensions column hcolumn]
        obtain hother | hother := List.mem_append.mp hother
        · rw [field_eq_of_key_eq (mem_keyRows.mp hother).2 hcolumn]
        · rw [List.mem_singleton.mp hother]
      · rw [hkept _ hmeasure, hothers hcolumn hmeasure]
    · rw [if_neg hkey] at hfound ⊢
      exact h.groups hfound

/-- **The detail is collected**, where its rows have the dimensions. -/
theorem foldlM_addPayrollRow (hdims : ∀ column ∈ columns, column ∉ payrollMeasures) {rows : List Row}
    (hmeasured : ∀ row ∈ rows, Measured row) (hcolumns : ∀ row ∈ rows, ∀ column ∈ columns, column ∈ row) :
    ∃ groups, rows.foldlM (addPayrollRow exact columns) ∅ = .ok groups ∧ Collected columns rows groups := by
  induction rows using List.reverseRecOn with
  | nil =>
    refine ⟨∅, rfl, fun key => ?_, fun hgroup => ?_⟩
    · simp
    · rw [Std.ExtTreeMap.getElem?_empty] at hgroup
      cases hgroup
  | append_singleton rows row ih =>
    obtain ⟨groups, hgroups, hcollected⟩ := ih (fun other hother => hmeasured other (List.mem_append_left _ hother))
      (fun other hother => hcolumns other (List.mem_append_left _ hother))
    have hlast := List.mem_append_right rows (List.mem_singleton_self row)
    obtain ⟨groups', hadded, hcollected'⟩ := hcollected.addRow hdims (hmeasured row hlast) (hcolumns row hlast)
    exact ⟨groups', Except.foldlM_concat_eq_ok.mpr ⟨groups, hgroups, hadded⟩, hcollected'⟩

/-! ## The rows of the result -/

/-- The row that a group is written as. -/
def written (group : PayrollGroup) : Row :=
  group.map fun _ value => .text value.str

theorem getElem?_written (group : PayrollGroup) (column : String) :
    (written group)[column]? = group[column]?.map fun value => .text value.str := by
  rw [written, Std.ExtTreeMap.getElem?_map]

/-- A number is read back as it is written. -/
theorem amountOf_toText (number : Decimal) : amountOf (.text number.toText) = some number := by
  have hne : number.toText ≠ "" := by
    intro h
    have hparse := Decimal.parse_toText number
    rw [h] at hparse
    exact absurd hparse (by rw [show Decimal.parse "" = none by decide +kernel]; simp)
  rw [amountOf, Cell.orElse_text, if_neg hne, Decimal.parse_toText]

section Written

variable {rows : List Row} {group : PayrollGroup} (h : GroupOf columns rows group)
include h

/-- A dimension is written as it is. -/
theorem field_written {row : Row} (hrow : row ∈ rows) {column : String} (hcolumn : column ∈ columns) :
    (written group).field column = row.field column := by
  rw [Row.field, Row.cell_eq, getElem?_written, h.dimensions hrow hcolumn, Option.map_some, Option.getD_some,
    GroupValue.str, Cell.orElse_text]
  split
  · next hblank => rw [hblank]
  · rfl

/-- A measure is written where a row has it. -/
theorem mem_written_iff {measure : String} (hmeasure : measure ∈ payrollMeasures) :
    measure ∈ written group ↔ ∃ row ∈ rows, measure ∈ row := by
  rw [Std.ExtTreeMap.mem_iff_isSome_getElem?, getElem?_written, Option.isSome_map]
  by_cases hpresent : ∃ row ∈ rows, measure ∈ row
  · obtain ⟨total, hgroup, -⟩ := (h.totals measure hmeasure).1 hpresent
    rw [hgroup]
    exact iff_of_true rfl hpresent
  · refine iff_of_false ?_ hpresent
    push Not at hpresent
    rw [(h.totals measure hmeasure).2 hpresent]
    exact Bool.false_ne_true

/-- It is written as the sum. -/
theorem amount_written {measure : String} (hmeasure : measure ∈ payrollMeasures) :
    amount measure (written group) = (rows.map (amount measure)).sum := by
  by_cases hpresent : ∃ row ∈ rows, measure ∈ row
  · obtain ⟨total, hgroup, -, hvalue⟩ := (h.totals measure hmeasure).1 hpresent
    rw [amount, getElem?_written, hgroup, Option.map_some, Option.bind_some, GroupValue.str, amountOf_toText,
      Option.getD_some, hvalue]
  · rw [amount_eq_zero fun hmem => hpresent ((mem_written_iff h hmeasure).mp hmem)]
    push Not at hpresent
    rw [List.sum_eq_zero]
    intro value hvalue
    obtain ⟨row, hrow, rfl⟩ := List.mem_map.mp hvalue
    exact amount_eq_zero (hpresent row hrow)

/-- What is written of a group can be grouped again. -/
theorem measured_written : Measured (written group) := by
  intro measure cell hmeasure hcell
  rw [getElem?_written] at hcell
  obtain ⟨value, hvalue, rfl⟩ := Option.map_eq_some_iff.mp hcell
  by_cases hpresent : ∃ row ∈ rows, measure ∈ row
  · obtain ⟨total, hgroup, hfinite, -⟩ := (h.totals measure hmeasure).1 hpresent
    cases hvalue.symm.trans hgroup
    exact ⟨total, amountOf_toText total, hfinite⟩
  · push Not at hpresent
    rw [(h.totals measure hmeasure).2 hpresent] at hvalue
    cases hvalue

end Written

/-- **Grouping by dimensions**: where the detail has them, its rows are grouped; the result says about the detail what it
should, and can be grouped again. -/
theorem aggregatePayrollRows_eq_ok {fields : List String} (hdims : ∀ column ∈ fields, column ∉ payrollMeasures)
    {rows : List Row} (hmeasured : ∀ row ∈ rows, Measured row) (hcolumns : ∀ row ∈ rows, ∀ column ∈ fields, column ∈ row) :
    ∃ out, aggregatePayrollRows exact rows fields = .ok out ∧ Coherent fields.eraseDups rows out
      ∧ ∀ group ∈ out, Measured group := by
  have hmem : ∀ {column}, column ∈ fields.eraseDups ↔ column ∈ fields := List.mem_eraseDups
  obtain ⟨groups, hgroups, hcollected⟩ := foldlM_addPayrollRow (fun column hcolumn => hdims column (hmem.mp hcolumn))
    hmeasured fun row hrow column hcolumn => hcolumns row hrow column (hmem.mp hcolumn)
  have hout : aggregatePayrollRows exact rows fields = .ok (groups.values.map written) := by
    unfold aggregatePayrollRows
    rw [hgroups]
    rfl
  have hgroup : ∀ entry ∈ groups.toList, GroupOf fields.eraseDups (keyRows fields.eraseDups entry.1 rows) entry.2 :=
    fun entry hentry => hcollected.groups (Std.ExtTreeMap.mem_toList_iff_getElem?_eq_some.mp hentry)
  have hkeyOf : ∀ entry ∈ groups.toList, payrollKey fields.eraseDups (written entry.2) = entry.1 := by
    intro entry hentry
    have hkey : entry.1 ∈ groups := by
      rw [Std.ExtTreeMap.mem_iff_isSome_getElem?, Std.ExtTreeMap.mem_toList_iff_getElem?_eq_some.mp hentry]
      rfl
    obtain ⟨row, hrow, hsame⟩ := List.mem_map.mp ((hcollected.keys _).mp hkey)
    rw [← hsame]
    exact List.map_congr_left fun column hcolumn =>
      field_written (hgroup entry hentry) (mem_keyRows.mpr ⟨hrow, hsame⟩) hcolumn
  have hvalues : groups.values.map written = groups.toList.map fun entry => written entry.2 := by
    rw [Grouping.values_eq_map_snd_toList, List.map_map]
    rfl
  have hkeys : (groups.values.map written).map (payrollKey fields.eraseDups) = groups.keys := by
    rw [hvalues, List.map_map, ← Std.ExtTreeMap.map_fst_toList_eq_keys]
    exact List.map_congr_left hkeyOf
  have hentry : ∀ {group}, group ∈ groups.values.map written →
      ∃ entry ∈ groups.toList, written entry.2 = group ∧ entry.1 = payrollKey fields.eraseDups group := by
    intro group hgroup
    rw [hvalues] at hgroup
    obtain ⟨entry, hmem, rfl⟩ := List.mem_map.mp hgroup
    exact ⟨entry, hmem, rfl, (hkeyOf entry hmem).symm⟩
  have hsums : ∀ {group measure}, group ∈ groups.values.map written → measure ∈ payrollMeasures → amount measure group
      = ((keyRows fields.eraseDups (payrollKey fields.eraseDups group) rows).map (amount measure)).sum := by
    intro group measure hmember hmeasure
    obtain ⟨entry, hmem, rfl, hkey⟩ := hentry hmember
    rw [← hkey, amount_written (hgroup entry hmem) hmeasure]
  refine ⟨_, hout, ⟨?_, ?_, ?_, ?_, hsums, ?_, ?_⟩, ?_⟩
  · rw [hkeys]
    exact Std.ExtTreeMap.ordered_keys
  · intro key
    rw [hkeys, Std.ExtTreeMap.mem_keys, hcollected.keys]
  · intro group row column hmember hrow hsame hcolumn
    obtain ⟨entry, hmem, rfl, hkey⟩ := hentry hmember
    rw [getElem?_written, (hgroup entry hmem).dimensions (mem_keyRows.mpr ⟨hrow, hsame.trans hkey.symm⟩) hcolumn]
    rfl
  · intro group measure hmember hmeasure
    obtain ⟨entry, hmem, rfl, hkey⟩ := hentry hmember
    rw [← hkey]
    exact mem_written_iff (hgroup entry hmem) hmeasure
  · intro group column hmember hcolumn
    obtain ⟨entry, hmem, rfl, -⟩ := hentry hmember
    by_contra hother
    rw [not_or] at hother
    rw [Std.ExtTreeMap.mem_iff_isSome_getElem?, getElem?_written, (hgroup entry hmem).others hother.1 hother.2] at hcolumn
    cases hcolumn
  · intro measure hmeasure
    have hnodup : groups.keys.Nodup := Std.ExtTreeMap.nodup_keys
    have hrows : ∀ row ∈ rows, payrollKey fields.eraseDups row ∈ groups.keys := by
      intro row hrow
      rw [Std.ExtTreeMap.mem_keys, hcollected.keys]
      exact List.mem_map_of_mem hrow
    rw [← Grouping.sum_map_groups (payrollKey fields.eraseDups) (amount measure) hnodup hrows, ← hkeys, @List.map_map _ _ _ _ _ (groups.values.map written)]
    exact congrArg List.sum (List.map_congr_left fun group hmember => hsums hmember hmeasure)
  · intro group hmember
    obtain ⟨entry, hmem, rfl, -⟩ := hentry hmember
    exact measured_written (hgroup entry hmem)

/-! ## The result in numbers -/

/-- What a result has for a key, in numbers. -/
def keyNumbers (columns : List String) (rows : List Row) (key : List String) (column : String) : Option (Cell ⊕ ℚ) :=
  if column ∈ columns then key[columns.idxOf column]?.map fun text => .inl (.text text)
  else if column ∈ payrollMeasures ∧ (keyRows columns key rows).any (·.contains column) then
    some (.inr ((keyRows columns key rows).map (amount column)).sum)
  else none

variable {rows out : List Row}

/-- A dimension in a key. -/
theorem getElem?_payrollKey (row : Row) {column : String} (hcolumn : column ∈ columns) :
    (payrollKey columns row)[columns.idxOf column]? = some (row.field column) := by
  rw [payrollKey, List.getElem?_map, List.getElem?_idxOf hcolumn, Option.map_some]

/-- A measure is in one of some rows. -/
theorem any_contains_iff {column : String} : rows.any (·.contains column) = true ↔ ∃ row ∈ rows, column ∈ row := by
  simp [List.any_eq_true]

namespace Coherent

/-- **A row of the result is decided by its key.** -/
theorem inNumbers_eq (h : Coherent columns rows out) (hdims : ∀ column ∈ columns, column ∉ payrollMeasures) {group : Row}
    (hgroup : group ∈ out) : inNumbers group = keyNumbers columns rows (payrollKey columns group) := by
  funext column
  obtain ⟨row, hrow, hkey⟩ := List.mem_map.mp ((h.keys _).mp (List.mem_map_of_mem hgroup))
  rw [inNumbers, keyNumbers]
  by_cases hcolumn : column ∈ columns
  · rw [if_pos hcolumn, h.dimensions hgroup hrow hkey hcolumn, Option.map_some, if_neg (hdims column hcolumn), ← hkey,
      getElem?_payrollKey row hcolumn, Option.map_some]
  rw [if_neg hcolumn]
  by_cases hmeasure : column ∈ payrollMeasures
  · by_cases hpresent : column ∈ group
    · obtain ⟨cell, hcell⟩ := Option.isSome_iff_exists.mp (Std.ExtTreeMap.mem_iff_isSome_getElem?.mp hpresent)
      rw [hcell, Option.map_some, if_pos hmeasure, if_pos ⟨hmeasure, any_contains_iff.mpr ((h.measured hgroup hmeasure).mp
        hpresent)⟩, h.sums hgroup hmeasure]
    · rw [Std.ExtTreeMap.getElem?_eq_none hpresent, Option.map_none, if_neg]
      rw [any_contains_iff]
      exact fun hmissing => hpresent ((h.measured hgroup hmeasure).mpr hmissing.2)
  · rw [Std.ExtTreeMap.getElem?_eq_none fun hpresent => (h.others hgroup hpresent).elim hcolumn hmeasure, Option.map_none,
      if_neg fun hboth => hmeasure hboth.1]

/-- Keys in order are decided by which they are. -/
theorem keys_eq {other result : List Row} (h : Coherent columns rows out) (hother : Coherent columns other result)
    (hsame : ∀ key, key ∈ rows.map (payrollKey columns) ↔ key ∈ other.map (payrollKey columns)) :
    out.map (payrollKey columns) = result.map (payrollKey columns) := by
  refine Grouping.eq_of_ordered h.sorted hother.sorted fun key => ?_
  rw [h.keys, hsame, hother.keys]

/-- **Results of detail with the same keys and the same numbers are the same in numbers.** -/
theorem map_inNumbers_eq {other result : List Row} (h : Coherent columns rows out)
    (hother : Coherent columns other result) (hdims : ∀ column ∈ columns, column ∉ payrollMeasures)
    (hsame : ∀ key, key ∈ rows.map (payrollKey columns) ↔ key ∈ other.map (payrollKey columns))
    (hpresent : ∀ key measure, measure ∈ payrollMeasures → ((∃ row ∈ keyRows columns key rows, measure ∈ row)
      ↔ ∃ row ∈ keyRows columns key other, measure ∈ row))
    (hsums : ∀ key measure, measure ∈ payrollMeasures → ((keyRows columns key rows).map (amount measure)).sum
      = ((keyRows columns key other).map (amount measure)).sum) : out.map inNumbers = result.map inNumbers := by
  have hnumbers : keyNumbers columns rows = keyNumbers columns other := by
    funext key column
    rw [keyNumbers, keyNumbers]
    by_cases hmeasure : column ∈ payrollMeasures
    · have hany : (keyRows columns key rows).any (·.contains column) = (keyRows columns key other).any (·.contains column) := by
        rw [Bool.eq_iff_iff, any_contains_iff, any_contains_iff, hpresent key column hmeasure]
      rw [hany, hsums key column hmeasure]
    · simp only [hmeasure, false_and, if_false]
  calc out.map inNumbers
      = (out.map (payrollKey columns)).map (keyNumbers columns rows) := by
        rw [List.map_map]
        exact List.map_congr_left fun group hgroup => h.inNumbers_eq hdims hgroup
    _ = (result.map (payrollKey columns)).map (keyNumbers columns other) := by
        rw [h.keys_eq hother hsame, hnumbers]
    _ = result.map inNumbers := by
        rw [List.map_map]
        exact (List.map_congr_left fun group hgroup => hother.inNumbers_eq hdims hgroup).symm

/-- A row of the result has the coarser key of the detail rows that it stands for. -/
theorem coarser_key {coarser : List String} (h : Coherent columns rows out) (hsub : ∀ column ∈ coarser, column ∈ columns)
    {group row : Row} (hgroup : group ∈ out) (hrow : row ∈ rows) (hkey : payrollKey columns row = payrollKey columns group) :
    payrollKey coarser row = payrollKey coarser group := by
  refine List.map_congr_left fun column hcolumn => ?_
  rw [Row.field, Row.field, Row.cell_eq group, h.dimensions hgroup hrow hkey (hsub column hcolumn), Option.getD_some,
    Cell.orElse_text]
  split
  · next hblank => rwa [Row.field] at hblank
  · rfl

/-- **The detail has the keys of the result**, at coarser dimensions as well. -/
theorem coarser_keys {coarser : List String} (h : Coherent columns rows out)
    (hsub : ∀ column ∈ coarser, column ∈ columns) (key : List String) :
    key ∈ out.map (payrollKey coarser) ↔ key ∈ rows.map (payrollKey coarser) := by
  constructor
  · intro hkey
    obtain ⟨group, hgroup, rfl⟩ := List.mem_map.mp hkey
    obtain ⟨row, hrow, hsame⟩ := List.mem_map.mp ((h.keys _).mp (List.mem_map_of_mem hgroup))
    exact List.mem_map.mpr ⟨row, hrow, h.coarser_key hsub hgroup hrow hsame⟩
  · intro hkey
    obtain ⟨row, hrow, rfl⟩ := List.mem_map.mp hkey
    obtain ⟨group, hgroup, hsame⟩ := List.mem_map.mp ((h.keys _).mpr (List.mem_map_of_mem hrow))
    exact List.mem_map.mpr ⟨group, hgroup, (h.coarser_key hsub hgroup hrow hsame.symm).symm⟩

/-- **A measure is in the rows of a coarser key** of the detail where it is in those of the result. -/
theorem coarser_measured {coarser : List String} (h : Coherent columns rows out)
    (hsub : ∀ column ∈ coarser, column ∈ columns) (key : List String) {measure : String}
    (hmeasure : measure ∈ payrollMeasures) : (∃ group ∈ keyRows coarser key out, measure ∈ group)
      ↔ ∃ row ∈ keyRows coarser key rows, measure ∈ row := by
  constructor
  · rintro ⟨group, hgroup, hmem⟩
    obtain ⟨hout, rfl⟩ := mem_keyRows.mp hgroup
    obtain ⟨row, hrow, hpresent⟩ := (h.measured hout hmeasure).mp hmem
    obtain ⟨hrows, hkey⟩ := mem_keyRows.mp hrow
    exact ⟨row, mem_keyRows.mpr ⟨hrows, h.coarser_key hsub hout hrows hkey⟩, hpresent⟩
  · rintro ⟨row, hrow, hmem⟩
    obtain ⟨hrows, rfl⟩ := mem_keyRows.mp hrow
    obtain ⟨group, hout, hkey⟩ := List.mem_map.mp ((h.keys _).mpr (List.mem_map_of_mem hrows))
    exact ⟨group, mem_keyRows.mpr ⟨hout, (h.coarser_key hsub hout hrows hkey.symm).symm⟩,
      (h.measured hout hmeasure).mpr ⟨row, mem_keyRows.mpr ⟨hrows, hkey.symm⟩, hmem⟩⟩

/-- **What the rows of a coarser key have** adds up to the same in the result and in the detail. -/
theorem coarser_sums {coarser : List String} (h : Coherent columns rows out)
    (hsub : ∀ column ∈ coarser, column ∈ columns) (key : List String) {measure : String}
    (hmeasure : measure ∈ payrollMeasures) : ((keyRows coarser key out).map (amount measure)).sum
      = ((keyRows coarser key rows).map (amount measure)).sum := by
  have hnodup : ((keyRows coarser key out).map (payrollKey columns)).Nodup :=
    List.Nodup.sublist (List.filter_sublist.map _) (Grouping.nodup_of_ordered h.sorted)
  have hkeys : ∀ row ∈ keyRows coarser key rows, payrollKey columns row ∈ (keyRows coarser key out).map (payrollKey columns) := by
    intro row hrow
    obtain ⟨hrows, rfl⟩ := mem_keyRows.mp hrow
    obtain ⟨group, hout, hkey⟩ := List.mem_map.mp ((h.keys _).mpr (List.mem_map_of_mem hrows))
    exact List.mem_map.mpr ⟨group, mem_keyRows.mpr ⟨hout, (h.coarser_key hsub hout hrows hkey.symm).symm⟩, hkey⟩
  rw [← Grouping.sum_map_groups (payrollKey columns) (amount measure) hnodup hkeys,
    @List.map_map _ _ _ _ _ (keyRows coarser key out)]
  refine congrArg List.sum (List.map_congr_left fun group hgroup => ?_)
  obtain ⟨hout, rfl⟩ := mem_keyRows.mp hgroup
  rw [h.sums hout hmeasure, Function.comp_apply]
  refine congrArg (fun rows : List Row => (rows.map (amount measure)).sum) ?_
  rw [keyRows, keyRows, List.filter_filter]
  refine List.filter_congr fun row hrow => ?_
  by_cases hkey : payrollKey columns row = payrollKey columns group
  · simp [hkey, h.coarser_key hsub hout hrow hkey]
  · simp [hkey]

end Coherent

/-! ## Grouping again -/

/-- The refusal of detail that lacks a dimension. -/
def lacksDimensions : ViewError :=
  .invalidRequest "payroll detail does not contain the requested dimensions"

/-- **Detail that lacks a dimension is refused.** -/
theorem foldlM_addPayrollRow_error (hdims : ∀ column ∈ columns, column ∉ payrollMeasures)
    (hmeasured : ∀ row ∈ rows, Measured row) (hlacks : ∃ row ∈ rows, ∃ column ∈ columns, column ∉ row) :
    rows.foldlM (addPayrollRow exact columns) ∅ = .error lacksDimensions := by
  induction rows using List.reverseRecOn with
  | nil =>
    obtain ⟨row, hrow, -⟩ := hlacks
    cases hrow
  | append_singleton rows row ih =>
    have hbefore : ∀ other ∈ rows, Measured other := fun other hother => hmeasured other (List.mem_append_left _ hother)
    rw [List.foldlM_append]
    by_cases hearlier : ∃ other ∈ rows, ∃ column ∈ columns, column ∉ other
    · rw [ih hbefore hearlier]
      rfl
    · have hcolumns : ∀ other ∈ rows, ∀ column ∈ columns, column ∈ other := by
        push Not at hearlier
        exact hearlier
      obtain ⟨groups, hgroups, -⟩ := foldlM_addPayrollRow hdims hbefore hcolumns
      obtain ⟨other, hother, column, hcolumn, hmissing⟩ := hlacks
      obtain hother | hother := List.mem_append.mp hother
      · exact absurd ⟨other, hother, column, hcolumn, hmissing⟩ hearlier
      · rw [List.mem_singleton.mp hother] at hmissing
        have hany : columns.any (fun column => !row.contains column) = true := by
          refine List.any_eq_true.mpr ⟨column, hcolumn, ?_⟩
          rw [Bool.not_eq_true', ← Bool.not_eq_true, Std.ExtTreeMap.contains_iff_mem]
          exact hmissing
        have hrefused : addPayrollRow exact columns groups row = .error lacksDimensions := by
          unfold addPayrollRow
          rw [if_pos hany]
          rfl
        rw [hgroups]
        show (addPayrollRow exact columns groups row >>= _) = _
        rw [hrefused]
        rfl

/-- **Payroll grouping is coherent.** Detail that lacks a dimension is refused. Otherwise the result says about the detail
what it should; grouping it by some of its dimensions gives the numbers that grouping the detail by them does; and the
order of the detail does not matter to the numbers. -/
theorem payroll_grouping_coherent {fields coarser : List String} (hdims : ∀ column ∈ fields, column ∉ payrollMeasures)
    (hsub : ∀ column ∈ coarser, column ∈ fields) (hmeasured : ∀ row ∈ rows, Measured row) :
    ((∃ row ∈ rows, ∃ column ∈ fields, column ∉ row) → aggregatePayrollRows exact rows fields = .error lacksDimensions)
      ∧ ((∀ row ∈ rows, ∀ column ∈ fields, column ∈ row) → ∃ out again direct,
        aggregatePayrollRows exact rows fields = .ok out ∧ Coherent fields.eraseDups rows out
          ∧ aggregatePayrollRows exact out coarser = .ok again ∧ aggregatePayrollRows exact rows coarser = .ok direct
          ∧ again.map inNumbers = direct.map inNumbers
          ∧ ∀ other, rows.Perm other → ∃ result,
            aggregatePayrollRows exact other fields = .ok result ∧ result.map inNumbers = out.map inNumbers) := by
  have hcoarserDims : ∀ column ∈ coarser, column ∉ payrollMeasures := fun column hcolumn => hdims column (hsub column hcolumn)
  have hdedup : ∀ column ∈ coarser.eraseDups, column ∈ fields.eraseDups := fun column hcolumn =>
    List.mem_eraseDups.mpr (hsub column (List.mem_eraseDups.mp hcolumn))
  refine ⟨fun ⟨row, hrow, column, hcolumn, hmissing⟩ => ?_, fun hcolumns => ?_⟩
  · unfold aggregatePayrollRows
    rw [foldlM_addPayrollRow_error (fun column hcolumn => hdims column (List.mem_eraseDups.mp hcolumn)) hmeasured
      ⟨row, hrow, column, List.mem_eraseDups.mpr hcolumn, hmissing⟩]
    rfl
  · obtain ⟨out, hout, hcoherent, houtMeasured⟩ := aggregatePayrollRows_eq_ok hdims hmeasured hcolumns
    have houtColumns : ∀ group ∈ out, ∀ column ∈ coarser, column ∈ group := by
      intro group hgroup column hcolumn
      obtain ⟨row, hrow, hkey⟩ := List.mem_map.mp ((hcoherent.keys _).mp (List.mem_map_of_mem hgroup))
      rw [Std.ExtTreeMap.mem_iff_isSome_getElem?,
        hcoherent.dimensions hgroup hrow hkey (List.mem_eraseDups.mpr (hsub column hcolumn))]
      rfl
    obtain ⟨again, hagain, hagainCoherent, -⟩ := aggregatePayrollRows_eq_ok hcoarserDims houtMeasured houtColumns
    obtain ⟨direct, hdirect, hdirectCoherent, -⟩ := aggregatePayrollRows_eq_ok hcoarserDims hmeasured
      fun row hrow column hcolumn => hcolumns row hrow column (hsub column hcolumn)
    refine ⟨out, again, direct, hout, hcoherent, hagain, hdirect, ?_, fun other hperm => ?_⟩
    · exact hagainCoherent.map_inNumbers_eq hdirectCoherent
        (fun column hcolumn => hcoarserDims column (List.mem_eraseDups.mp hcolumn)) (hcoherent.coarser_keys hdedup)
        (fun key measure => hcoherent.coarser_measured hdedup key) fun key measure => hcoherent.coarser_sums hdedup key
    · obtain ⟨result, hresult, hresultCoherent, -⟩ := aggregatePayrollRows_eq_ok hdims
        (fun row hrow => hmeasured row (hperm.mem_iff.mpr hrow)) fun row hrow => hcolumns row (hperm.mem_iff.mpr hrow)
      have hrows : ∀ key, (keyRows fields.eraseDups key other).Perm (keyRows fields.eraseDups key rows) :=
        fun key => hperm.symm.filter _
      refine ⟨result, hresult, hresultCoherent.map_inNumbers_eq hcoherent
        (fun column hcolumn => hdims column (List.mem_eraseDups.mp hcolumn)) ?_ ?_ ?_⟩
      · exact fun key => (hperm.symm.map _).mem_iff
      · exact fun key measure _ => exists_congr fun row => and_congr_left' (hrows key).mem_iff
      · exact fun key measure _ => ((hrows key).map _).sum_eq

/-! ## Detail of two rows -/

/-- Detail whose measures are read and are finite. -/
theorem measured_of_all {row : Row} (h : (payrollMeasures.all fun measure =>
    row[measure]?.all fun cell => (amountOf cell).any Decimal.isFinite) = true) : Measured row := by
  intro measure cell hmeasure hcell
  have hnumber := List.all_eq_true.mp h measure hmeasure
  rw [hcell, Option.all_some, Option.any_eq_true] at hnumber
  exact hnumber

/-- A row of nothing earned. -/
def unpaidRow : Row :=
  .ofTexts [("userid", "7"), ("je", "0.00")]

/-- A row of one yuan. -/
def paidRow : Row :=
  .ofTexts [("userid", "7"), ("je", "1")]

theorem measured_pair : ∀ row ∈ [unpaidRow, paidRow], Measured row := by
  intro row hrow
  obtain rfl | hrow := List.mem_cons.mp hrow
  · exact measured_of_all (by decide +kernel)
  · rw [List.mem_singleton.mp hrow]
    exact measured_of_all (by decide +kernel)

/-- Two rows of a worker, grouped by workers. -/
theorem payroll_grouping_coherent_pair : ∃ out again direct,
    aggregatePayrollRows exact [unpaidRow, paidRow] ["userid"] = .ok out
      ∧ Coherent ["userid"].eraseDups [unpaidRow, paidRow] out ∧ aggregatePayrollRows exact out [] = .ok again
      ∧ aggregatePayrollRows exact [unpaidRow, paidRow] [] = .ok direct ∧ again.map inNumbers = direct.map inNumbers
      ∧ ∀ other, [unpaidRow, paidRow].Perm other → ∃ result,
        aggregatePayrollRows exact other ["userid"] = .ok result ∧ result.map inNumbers = out.map inNumbers :=
  (payroll_grouping_coherent (by decide) (fun _ h => absurd h List.not_mem_nil) measured_pair).2 (by
    have hall : ([unpaidRow, paidRow].all fun row => row.contains "userid") = true := by decide +kernel
    intro row hrow column hcolumn
    rw [List.mem_singleton.mp hcolumn, ← Std.ExtTreeMap.contains_iff_mem]
    exact List.all_eq_true.mp hall row hrow)

/-- **Detail need not have a dimension that the coarser groups do without; and the order of the detail shows** in how
the numbers are written. -/
theorem grouping_incoherent :
    (¬∀ (rows : List Row) (fields coarser : List String), (∀ column ∈ fields, column ∉ payrollMeasures) →
      (∀ column ∈ coarser, column ∈ fields) → (∀ row ∈ rows, Measured row) → ∃ out again direct,
        aggregatePayrollRows exact rows fields = .ok out ∧ aggregatePayrollRows exact out coarser = .ok again
          ∧ aggregatePayrollRows exact rows coarser = .ok direct ∧ again.map inNumbers = direct.map inNumbers)
      ∧ ¬∀ (rows other : List Row) (fields : List String), (∀ column ∈ fields, column ∉ payrollMeasures) →
        (∀ row ∈ rows, Measured row) → (∀ row ∈ rows, ∀ column ∈ fields, column ∈ row) → rows.Perm other →
        aggregatePayrollRows exact rows fields = aggregatePayrollRows exact other fields := by
  constructor
  · intro h
    obtain ⟨out, -, -, hout, -⟩ := h [unpaidRow, paidRow] ["userid", "jhdh"] ["userid"] (by decide) (by decide)
      measured_pair
    have hrefused : (aggregatePayrollRows exact [unpaidRow, paidRow] ["userid", "jhdh"]).isOk = false := by decide +kernel
    rw [hout] at hrefused
    cases hrefused
  · intro h
    have hsame := h [unpaidRow, paidRow] [paidRow, unpaidRow] [] (fun _ hcolumn => absurd hcolumn List.not_mem_nil)
      measured_pair (fun _ _ _ hcolumn => absurd hcolumn List.not_mem_nil) (List.Perm.swap _ _ _)
    have htexts := congrArg (fun result : Except ViewError (List Row) => result.toOption.map (List.map (·.field "je"))) hsame
    exact absurd htexts (by decide +kernel)

end Payroll
