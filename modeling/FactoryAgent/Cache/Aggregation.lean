import FactoryAgent.Cache.ProgressGroups
import FactoryAgent.Lib.DecimalText
import FactoryAgent.Lib.DecimalValue
import FactoryAgent.Lib.Grouping

/-!
# Progress at a grain

What `aggregate_progress_rows` says about the detail, in numbers. A row of the result stands for all
detail rows of its key: its dimensions are theirs, its totals are the sums of what they contribute, and
its completion rate is computed from these sums. Nothing is lost and nothing is counted twice, so the
totals over the result are the totals over the detail.

The arithmetic is exact. Then the order of the detail is gone from the result, and whole groups can be
selected before or after the groups are formed.
-/

open DecimalContext

/-- The number that a row contributes to a total. -/
def contributionValue (column : String) (row : Row) : ℚ :=
  ((contributionOf column row).getD Decimal.zero).value

/-- **The completion rate**, received by issued in percent: zero where nothing was issued, and otherwise
rounded half up to two decimals. -/
def completion (received issued : ℚ) : ℚ :=
  if issued = 0 then 0 else halfUpCents (100 * received / issued)

/-- **The grounds of a refusal**: the grain is not reviewed, a row lacks a dimension, a date or a
contribution, or rows of one key disagree on a name or on the date of their sheet. A contribution is
lacking where it is missing, is no number, is not finite or is negative. -/
def Refuses (columns : List String) (rows : List Row) : Prop :=
  isReviewedGrain columns = false
  ∨ (∃ row ∈ rows, (∃ column ∈ columns, column ∉ row)
      ∨ (∀ day, normalizeProgressDate row["rq"]? ≠ .ok day)
      ∨ ∃ column ∈ progressAdditiveColumns, contributionOf column row = none)
  ∨ ∃ row ∈ rows, ∃ other ∈ rows, groupKey columns row = groupKey columns other
      ∧ ((∃ name ∈ progressNameFields columns, (row.cell name).scalar ≠ (other.cell name).scalar)
        ∨ ("dh" ∈ columns
          ∧ normalizeProgressDate row["rq"]? ≠ normalizeProgressDate other["rq"]?))

/-- **What the result says about the detail.** -/
structure Aggregated (columns : List String) (rows out : List Row) : Prop where
  /-- The keys are distinct and in order. -/
  sorted : (out.map (groupKey columns)).Pairwise (fun key other => compare key other = .lt)
  /-- There is one row for each key of the detail. -/
  keys : ∀ key, key ∈ out.map (groupKey columns) ↔ key ∈ rows.map (groupKey columns)
  /-- A row has the dimensions of every detail row of its key. -/
  dimensions : ∀ group ∈ out, ∀ row ∈ rows, groupKey columns row = groupKey columns group →
    ∀ column ∈ columns, group[column]? = some (.text (row.cell column).scalar)
  /-- A total is the sum of what the detail rows of the key contribute. -/
  sums : ∀ group ∈ out, ∀ column ∈ progressAdditiveColumns, ∃ total : Decimal,
    group[column]? = some (.text total.toText) ∧ total.value
      = ((keyRows columns (groupKey columns group) rows).map (contributionValue column)).sum
  /-- The totals over the result are the totals over the detail. -/
  totals : ∀ column ∈ progressAdditiveColumns,
    (out.map (contributionValue column)).sum = (rows.map (contributionValue column)).sum
  /-- The completion rate is that of the totals. -/
  rates : ∀ group ∈ out, ∃ rate : Decimal, group["wcl"]? = some (.text rate.toText) ∧ rate.value
      = completion (contributionValue "sssl" group) (contributionValue "fhsl" group)

/-! ## Columns of a grain -/

variable {columns : List String} {rows : List Row}

/-- **A dimension is neither a date nor a total.** -/
theorem isDimension_of_isReviewedGrain (h : isReviewedGrain columns = true) {column : String}
    (hcolumn : column ∈ columns) :
    column ∉ ["rq", "dh_date", "wcl"] ∧ column ∉ progressAdditiveColumns := by
  obtain ⟨grain, hgrain, hsame⟩ := List.any_eq_true.mp h
  rw [Bool.and_eq_true, List.all_eq_true] at hsame
  have hmem := of_decide_eq_true (hsame.1 column hcolumn)
  have hall : ∀ grain ∈ progressReviewedGrains, ∀ column ∈ grain,
      column ∉ ["rq", "dh_date", "wcl"] ∧ column ∉ progressAdditiveColumns := by decide
  exact hall grain hgrain column hmem

/-- A dimension of a derived row is that of the row. -/
theorem getElem?_of_deriveProgressRow {row derived : Row} (h : deriveProgressRow row = .ok derived)
    {column : String} (hdate : column ∉ ["rq", "dh_date"]) :
    derived[column]? = row[column]?.map (fun cell => .text cell.scalar) := by
  obtain ⟨rq, -, rfl⟩ := deriveProgressRow_eq_ok h
  simp only [List.mem_cons, List.not_mem_nil, or_false, not_or] at hdate
  rw [getElem?_derived, if_neg hdate.2, if_neg hdate.1]

/-- A value of a derived row is that of the row. -/
theorem scalar_of_deriveProgressRow {row derived : Row} (h : deriveProgressRow row = .ok derived)
    {column : String} (hdate : column ∉ ["rq", "dh_date"]) :
    (derived.cell column).scalar = (row.cell column).scalar := by
  rw [Row.cell_eq, Row.cell_eq, getElem?_of_deriveProgressRow h hdate]
  cases row[column]? <;> rfl

/-- What a derived row contributes. -/
theorem contributionOf_of_deriveProgressRow {row derived : Row}
    (h : deriveProgressRow row = .ok derived) {column : String}
    (hcolumn : column ∈ progressAdditiveColumns) :
    contributionOf column derived = contributionOf column row := by
  have hdate : ∀ column ∈ progressAdditiveColumns, column ∉ ["rq", "dh_date"] := by decide
  rw [contributionOf, contributionOf, scalar_of_deriveProgressRow h (hdate column hcolumn)]

/-- The key of a derived row. -/
theorem groupKey_of_deriveProgressRow (hgrain : isReviewedGrain columns = true) {row derived : Row}
    (h : deriveProgressRow row = .ok derived) : groupKey columns derived = groupKey columns row := by
  refine List.map_congr_left (fun column hcolumn => scalar_of_deriveProgressRow h (fun hdate => ?_))
  refine (isDimension_of_isReviewedGrain hgrain (mem_progressKeyFields.mp hcolumn).1).1 ?_
  exact List.mem_append_left ["wcl"] hdate

/-! ## Refusal -/

/-- A row with a date is derived. -/
theorem exists_deriveProgressRow {row : Row} {day : String}
    (h : normalizeProgressDate row["rq"]? = .ok day) :
    ∃ derived, deriveProgressRow row = .ok derived ∧ derived["rq"]? = some (.text day) := by
  refine ⟨_, by rw [deriveProgressRow, h]; rfl, ?_⟩
  rw [getElem?_derived, if_neg (by decide), if_pos rfl]

/-- A derived row has the normalized date of the row. -/
theorem normalizeProgressDate_of_deriveProgressRow {row derived : Row}
    (h : deriveProgressRow row = .ok derived) :
    ∃ day, normalizeProgressDate row["rq"]? = .ok day ∧ derived.cell "rq" = .text day := by
  obtain ⟨day, hday, rfl⟩ := deriveProgressRow_eq_ok h
  refine ⟨day, hday, ?_⟩
  rw [Row.cell_eq, getElem?_derived, if_neg (by decide), if_pos rfl]
  rfl

/-- A dimension of a derived row is there where the row has it. -/
theorem mem_of_deriveProgressRow_iff (hgrain : isReviewedGrain columns = true) {row derived : Row}
    (h : deriveProgressRow row = .ok derived) {column : String} (hcolumn : column ∈ columns) :
    column ∈ derived ↔ column ∈ row := by
  have hdimension := (isDimension_of_isReviewedGrain hgrain hcolumn).1
  simp only [List.mem_cons, List.not_mem_nil, or_false, not_or] at hdimension
  rw [mem_of_mem_derived h]
  exact ⟨fun h => h.2.resolve_left hdimension.1, fun h => ⟨hdimension.2.1, .inr h⟩⟩

/-- **Two derived rows of one key open the same group** where the rows agree on the names and, where the
grain is of sheets, on the date. -/
theorem opened_eq_iff_of_derived (hgrain : isReviewedGrain columns = true) {row other derived derived' : Row}
    (h : deriveProgressRow row = .ok derived) (h' : deriveProgressRow other = .ok derived')
    (hmem : ∀ column ∈ columns, column ∈ derived) (hmem' : ∀ column ∈ columns, column ∈ derived')
    (hkey : groupKey columns derived = groupKey columns derived') :
    (ProgressGroup.opened columns derived).dimensions
        = (ProgressGroup.opened columns derived').dimensions ↔
      (∀ name ∈ progressNameFields columns, (row.cell name).scalar = (other.cell name).scalar)
        ∧ ("dh" ∈ columns →
          normalizeProgressDate row["rq"]? = normalizeProgressDate other["rq"]?) := by
  have hrq : "rq" ∉ columns := fun hrq =>
    (isDimension_of_isReviewedGrain hgrain hrq).1 (by decide)
  have hnormal := isNormalized_of_deriveProgressRow h
  have hnormal' := isNormalized_of_deriveProgressRow h'
  obtain ⟨day, hday, hrqCell⟩ := normalizeProgressDate_of_deriveProgressRow h
  obtain ⟨day', hday', hrqCell'⟩ := normalizeProgressDate_of_deriveProgressRow h'
  have hdate : ∀ column ∈ columns, column ∉ ["rq", "dh_date"] := fun column hcolumn hdate =>
    (isDimension_of_isReviewedGrain hgrain hcolumn).1 (List.mem_append_left ["wcl"] hdate)
  rw [opened_eq_iff hrq, hday, hday', hrqCell, hrqCell', Cell.text.injEq, Except.ok.injEq]
  refine and_congr_left (fun _ => ⟨fun hcells name hname => ?_, fun hnames column hcolumn => ?_⟩)
  · have hcolumn := mem_of_mem_progressNameFields hname
    rw [← scalar_of_deriveProgressRow h (hdate name hcolumn),
      ← scalar_of_deriveProgressRow h' (hdate name hcolumn), hcells name hcolumn]
  · by_cases hname : column ∈ progressNameFields columns
    · rw [hnormal.isText.cell_eq_of_mem (hmem column hcolumn),
        hnormal'.isText.cell_eq_of_mem (hmem' column hcolumn),
        scalar_of_deriveProgressRow h (hdate column hcolumn),
        scalar_of_deriveProgressRow h' (hdate column hcolumn), hnames column hname]
    · exact cell_eq_of_groupKey_eq hnormal.isText hnormal'.isText hmem hmem' hkey
        (mem_progressKeyFields.mpr ⟨hcolumn, hname⟩)

/-- **Detail is acceptable unless there are grounds to refuse it.** -/
theorem not_refuses_iff : ¬ Refuses columns rows ↔ isReviewedGrain columns = true
    ∧ ∃ detail, deriveProgressRows rows = .ok detail ∧ Acceptable columns detail := by
  constructor
  · intro h
    rw [Refuses, not_or, not_or, Bool.not_eq_false] at h
    obtain ⟨hgrain, hrows, hgroups⟩ := h
    push Not at hrows hgroups
    obtain ⟨detail, hdetail⟩ : ∃ detail, deriveProgressRows rows = .ok detail := by
      refine Except.exists_mapM_eq_ok (fun row hrow => ?_)
      obtain ⟨day, hday⟩ := (hrows row hrow).2.1
      obtain ⟨derived, hderived, -⟩ := exists_deriveProgressRow hday
      exact ⟨derived, hderived⟩
    have hdimensions : ∀ derived ∈ detail, ∀ column ∈ columns, column ∈ derived := by
      intro derived hmem column hcolumn
      obtain ⟨row, hrow, hderived⟩ := Except.exists_of_mem_mapM hdetail hmem
      exact (mem_of_deriveProgressRow_iff hgrain hderived hcolumn).mpr
        ((hrows row hrow).1 column hcolumn)
    refine ⟨hgrain, detail, hdetail, hdimensions, ?_, ?_⟩
    · intro derived hmem column hcolumn
      obtain ⟨row, hrow, hderived⟩ := Except.exists_of_mem_mapM hdetail hmem
      rw [contributionOf_of_deriveProgressRow hderived hcolumn]
      exact Option.ne_none_iff_isSome.mp ((hrows row hrow).2.2 column hcolumn)
    · intro first hfirst second hsecond hkey
      obtain ⟨row, hrow, hderived⟩ := Except.exists_of_mem_mapM hdetail hfirst
      obtain ⟨other, hother, hderived'⟩ := Except.exists_of_mem_mapM hdetail hsecond
      refine (opened_eq_iff_of_derived hgrain hderived hderived' (hdimensions first hfirst)
        (hdimensions second hsecond) hkey).mpr (hgroups row hrow other hother ?_)
      rw [← groupKey_of_deriveProgressRow hgrain hderived,
        ← groupKey_of_deriveProgressRow hgrain hderived', hkey]
  · rintro ⟨hgrain, detail, hdetail, hacceptable⟩ hrefuses
    have hderive : ∀ row ∈ rows, ∃ derived ∈ detail, deriveProgressRow row = .ok derived :=
      fun row hrow => Except.exists_mem_of_mapM hdetail hrow
    rcases hrefuses with hnot | ⟨row, hrow, hground⟩ | ⟨row, hrow, other, hother, hkey, hground⟩
    · rw [hgrain] at hnot
      cases hnot
    · obtain ⟨derived, hmem, hderived⟩ := hderive row hrow
      rcases hground with ⟨column, hcolumn, hmissing⟩ | hdate | ⟨column, hcolumn, hnone⟩
      · exact hmissing ((mem_of_deriveProgressRow_iff hgrain hderived hcolumn).mp
          (hacceptable.dimensions derived hmem column hcolumn))
      · obtain ⟨day, hday, -⟩ := normalizeProgressDate_of_deriveProgressRow hderived
        exact hdate day hday
      · have hsome := hacceptable.contributions derived hmem column hcolumn
        rw [contributionOf_of_deriveProgressRow hderived hcolumn, hnone] at hsome
        cases hsome
    · obtain ⟨derived, hmem, hderived⟩ := hderive row hrow
      obtain ⟨derived', hmem', hderived'⟩ := hderive other hother
      have hsame : groupKey columns derived = groupKey columns derived' := by
        rw [groupKey_of_deriveProgressRow hgrain hderived,
          groupKey_of_deriveProgressRow hgrain hderived', hkey]
      obtain ⟨hnames, hdates⟩ := (opened_eq_iff_of_derived hgrain hderived hderived'
        (hacceptable.dimensions derived hmem) (hacceptable.dimensions derived' hmem') hsame).mp
        (hacceptable.consistent derived hmem derived' hmem' hsame)
      rcases hground with ⟨name, hname, hdiffers⟩ | ⟨hdh, hdiffers⟩
      · exact hdiffers (hnames name hname)
      · exact hdiffers (hdates hdh)

/-! ## The rows of the result -/

/-- The texts of the totals, over the dimensions. -/
theorem getElem?_foldl_insert (value : String → Cell) (row : Row) (names : List String) (column : String) :
    (names.foldl (fun (row : Row) column => row.insert column (value column)) row)[column]?
      = if column ∈ names then some (value column) else row[column]? := by
  induction names generalizing row with
  | nil => rw [List.foldl_nil, if_neg List.not_mem_nil]
  | cons name names ih =>
    rw [List.foldl_cons, ih, Std.ExtTreeMap.getElem?_insert]
    simp only [Std.LawfulEqCmp.compare_eq_iff_eq, List.mem_cons]
    by_cases hname : column = name
    · subst hname
      simp
    · have hname' : name ≠ column := fun h => hname h.symm
      simp only [hname, false_or, hname', if_false]

/-- The total of what some rows contribute, as a number. -/
theorem value_contributionTotal {members : List Row} {column : String}
    (h : ∀ row ∈ members, (contributionOf column row).isSome = true) {total : Decimal}
    (htotal : contributionTotal column members = some total) :
    total.isFinite = true ∧ total.isNegative = false
      ∧ total.value = (members.map (contributionValue column)).sum := by
  have hvalues : members.map (contributionOf column)
      = (members.map (fun row => (contributionOf column row).getD Decimal.zero)).map some := by
    rw [List.map_map]
    refine List.map_congr_left (fun row hrow => ?_)
    obtain ⟨amount, hamount⟩ := Option.isSome_iff_exists.mp (h row hrow)
    rw [hamount]
    exact congrArg some (by simp [hamount])
  have hamounts : ∀ d ∈ members.map (fun row => (contributionOf column row).getD Decimal.zero),
      d.isFinite = true ∧ d.isNegative = false := by
    intro d hd
    obtain ⟨row, hrow, rfl⟩ := List.mem_map.mp hd
    obtain ⟨amount, hamount⟩ := Option.isSome_iff_exists.mp (h row hrow)
    rw [hamount]
    exact contributionOf_eq_some hamount
  unfold contributionTotal at htotal
  rw [hvalues] at htotal
  obtain ⟨sum, hsum, hfinite, hvalue⟩ := value_total (fun d hd => (hamounts d hd).1)
  cases htotal.symm.trans hsum
  refine ⟨hfinite, isNegative_total (fun d hd => ?_) htotal, ?_⟩
  · obtain ⟨d', hd', heq⟩ := List.mem_map.mp hd
    exact Option.some.inj heq ▸ hamounts d' hd'
  · rw [hvalue, List.map_map]
    rfl

/-- **The row of a group**: the dimensions of its rows, their totals and the rate of these. -/
theorem toRow_groupOf {members : List Row} {group : ProgressGroup}
    (hgroup : groupOf columns members = some group)
    (hcontributions : ∀ row ∈ members, ∀ column ∈ progressAdditiveColumns,
      (contributionOf column row).isSome = true) :
    ∃ row, group.toRow exact = .ok row
      ∧ (∀ column ∈ progressAdditiveColumns, ∃ total,
        contributionTotal column members = some total ∧ row[column]? = some (.text total.toText))
      ∧ (∃ rate : Decimal, row["wcl"]? = some (.text rate.toText) ∧ rate.value
        = completion ((members.map (contributionValue "sssl")).sum)
          ((members.map (contributionValue "fhsl")).sum))
      ∧ ∀ column, column ∉ progressAdditiveColumns → column ≠ "wcl" →
        row[column]? = group.dimensions[column]? := by
  obtain ⟨-, -, -, htotals⟩ := groupOf_eq_some hgroup
  have htotal : ∀ column ∈ progressAdditiveColumns, ∃ total,
      contributionTotal column members = some total
        ∧ group.totals.getD column Decimal.zero = total := by
    intro column hcolumn
    obtain ⟨total, htotal, -⟩ :=
      exists_contributionTotal (fun row hrow => hcontributions row hrow column hcolumn)
    refine ⟨total, htotal, ?_⟩
    rw [htotals, Std.ExtTreeMap.getD_eq_getD_getElem?, getElem?_groupTotals, if_pos hcolumn, htotal]
    rfl
  obtain ⟨received, hreceived, hreceivedD⟩ := htotal "sssl" (by decide)
  obtain ⟨issued, hissued, hissuedD⟩ := htotal "fhsl" (by decide)
  obtain ⟨hreceivedFinite, hreceivedSign, hreceivedValue⟩ := value_contributionTotal
    (fun row hrow => hcontributions row hrow "sssl" (by decide)) hreceived
  obtain ⟨hissuedFinite, hissuedSign, hissuedValue⟩ := value_contributionTotal
    (fun row hrow => hcontributions row hrow "fhsl" (by decide)) hissued
  obtain ⟨rate, hrate, hrateValue⟩ :=
    value_percentage hreceivedFinite hissuedFinite hreceivedSign hissuedSign
  have hrow : group.toRow exact = .ok ((progressAdditiveColumns.foldl (fun (row : Row) column =>
      row.insert column (.text (group.totals.getD column Decimal.zero).toText))
      group.dimensions).insert "wcl" (.text rate.toText)) := by
    unfold ProgressGroup.toRow
    rw [hreceivedD, hissuedD, hrate]
  refine ⟨_, hrow, fun column hcolumn => ?_, ⟨rate, ?_, ?_⟩, fun column hcolumn hwcl => ?_⟩
  · obtain ⟨total, htotal, htotalD⟩ := htotal column hcolumn
    refine ⟨total, htotal, ?_⟩
    have hne : "wcl" ≠ column := fun h => absurd (h ▸ hcolumn) (by decide)
    rw [Std.ExtTreeMap.getElem?_insert, if_neg (by simpa using hne), getElem?_foldl_insert,
      if_pos hcolumn, htotalD]
  · exact Std.ExtTreeMap.getElem?_insert_self
  · rw [hrateValue, hissuedValue, hreceivedValue]
    rfl
  · rw [Std.ExtTreeMap.getElem?_insert, if_neg (by simpa using fun h => hwcl h.symm),
      getElem?_foldl_insert, if_neg hcolumn]

/-! ## The result -/

/-- The rows of a key contribute what their derived rows do. -/
theorem map_contributionValue_keyRows (hgrain : isReviewedGrain columns = true) {detail : List Row}
    (hdetail : deriveProgressRows rows = .ok detail) (key : List String) {column : String}
    (hcolumn : column ∈ progressAdditiveColumns) :
    (keyRows columns key detail).map (contributionValue column)
      = (keyRows columns key rows).map (contributionValue column) := by
  have hfilter : (keyRows columns key rows).mapM deriveProgressRow
      = .ok (keyRows columns key detail) := by
    refine Except.mapM_filter_of_keeps (fun row _ derived hderived => ?_) hdetail
    rw [groupKey_of_deriveProgressRow hgrain hderived]
  refine Except.map_of_mapM (fun row _ derived hderived => ?_) hfilter
  rw [contributionValue, contributionValue, contributionOf_of_deriveProgressRow hderived hcolumn]

/-- A total that was written down is contributed by its row. -/
theorem contributionOf_of_toText {row : Row} {column : String} {total : Decimal}
    (hfinite : total.isFinite = true) (hsign : total.isNegative = false)
    (h : row[column]? = some (.text total.toText)) : contributionOf column row = some total := by
  rw [contributionOf, Row.cell_eq, h]
  show (Decimal.parse total.toText).filter _ = _
  rw [Decimal.parse_toText, Option.filter_some, if_pos (by rw [hfinite, hsign]; rfl)]

/-- **The row of a key**: what its group writes down, said of the detail rows. -/
theorem toRow_of_collected (hgrain : isReviewedGrain columns = true) {detail : List Row}
    (hdetail : deriveProgressRows rows = .ok detail) (hacceptable : Acceptable columns detail)
    {groups : ProgressGroups} (hcollected : Collected columns detail groups) {key : List String}
    {group : ProgressGroup} (hgroup : groups[key]? = some group) :
    ∃ row, group.toRow exact = .ok row ∧ groupKey columns row = key
      ∧ (∀ other ∈ rows, groupKey columns other = key → ∀ column ∈ columns,
        row[column]? = some (.text (other.cell column).scalar))
      ∧ (∀ column ∈ progressAdditiveColumns, ∃ total : Decimal,
        row[column]? = some (.text total.toText)
          ∧ total.value = ((keyRows columns key rows).map (contributionValue column)).sum
          ∧ contributionValue column row = total.value)
      ∧ ∃ rate : Decimal, row["wcl"]? = some (.text rate.toText) ∧ rate.value
        = completion ((keyRows columns key rows).map (contributionValue "sssl")).sum
          ((keyRows columns key rows).map (contributionValue "fhsl")).sum := by
  rw [hcollected] at hgroup
  have hcontributions : ∀ row ∈ keyRows columns key detail, ∀ column ∈ progressAdditiveColumns,
      (contributionOf column row).isSome = true :=
    fun row hrow => hacceptable.contributions row (mem_keyRows.mp hrow).1
  obtain ⟨row, hrow, htotals, ⟨rate, hrate, hrateValue⟩, hothers⟩ :=
    toRow_groupOf hgroup hcontributions
  obtain ⟨first, hfirst, hopened, -⟩ := groupOf_eq_some hgroup
  obtain ⟨hfirstMem, hfirstKey⟩ := mem_keyRows.mp hfirst
  -- a dimension is that of any detail row of the key
  have hcell : ∀ derived ∈ detail, groupKey columns derived = key → ∀ column ∈ columns,
      row[column]? = some (derived.cell column) := by
    intro derived hderived hkey column hcolumn
    obtain ⟨hdate, htotal⟩ := isDimension_of_isReviewedGrain hgrain hcolumn
    simp only [List.mem_cons, List.not_mem_nil, or_false, not_or] at hdate
    rw [hothers column htotal hdate.2.2, hopened, hacceptable.consistent first hfirstMem derived
      hderived (hfirstKey.trans hkey.symm), getElem?_opened, if_neg (fun h => hdate.1 h.1),
      if_pos hcolumn]
  have hdimensions : ∀ other ∈ rows, groupKey columns other = key → ∀ column ∈ columns,
      row[column]? = some (.text (other.cell column).scalar) := by
    intro other hother hkey column hcolumn
    obtain ⟨derived, hmem, hderived⟩ := Except.exists_mem_of_mapM hdetail hother
    have hdate : column ∉ ["rq", "dh_date"] := fun hdate =>
      (isDimension_of_isReviewedGrain hgrain hcolumn).1 (List.mem_append_left ["wcl"] hdate)
    rw [hcell derived hmem ((groupKey_of_deriveProgressRow hgrain hderived).trans hkey) column hcolumn,
      (isNormalized_of_deriveProgressRow hderived).isText.cell_eq_of_mem
        (hacceptable.dimensions derived hmem column hcolumn), scalar_of_deriveProgressRow hderived hdate]
  refine ⟨row, hrow, ?_, hdimensions, fun column hcolumn => ?_, rate, hrate, ?_⟩
  · rw [← hfirstKey]
    refine List.map_congr_left (fun column hcolumn => ?_)
    rw [Row.cell_eq, hcell first hfirstMem hfirstKey column (mem_progressKeyFields.mp hcolumn).1]
    rfl
  · obtain ⟨total, htotal, htext⟩ := htotals column hcolumn
    obtain ⟨hfinite, hsign, hvalue⟩ := value_contributionTotal
      (fun row hrow => hcontributions row hrow column hcolumn) htotal
    rw [map_contributionValue_keyRows hgrain hdetail key hcolumn] at hvalue
    refine ⟨total, htext, hvalue, ?_⟩
    rw [contributionValue, contributionOf_of_toText hfinite hsign htext]
    rfl
  · rw [hrateValue, map_contributionValue_keyRows hgrain hdetail key (by decide),
      map_contributionValue_keyRows hgrain hdetail key (by decide)]

/-- **The rows of the groups say about the detail what they should.** -/
theorem aggregated_of_collected (hgrain : isReviewedGrain columns = true) {detail : List Row}
    (hdetail : deriveProgressRows rows = .ok detail) (hacceptable : Acceptable columns detail)
    {groups : ProgressGroups} (hcollected : Collected columns detail groups) {out : List Row}
    (hout : groups.toList.mapM (fun group => group.2.toRow exact) = .ok out) :
    out.map (groupKey columns) = groups.keys ∧ Aggregated columns rows out := by
  have hgroup : ∀ group ∈ groups.toList, groups[group.1]? = some group.2 := fun group hmem =>
    Std.ExtTreeMap.mem_toList_iff_getElem?_eq_some.mp hmem
  have hmapKeys : out.map (groupKey columns) = groups.keys := by
    rw [← Std.ExtTreeMap.map_fst_toList_eq_keys]
    refine Except.map_of_mapM (fun group hmem row hrow => ?_) hout
    obtain ⟨row', hrow', hkey, -⟩ := toRow_of_collected hgrain hdetail hacceptable hcollected
      (hgroup group hmem)
    exact Except.ok.inj (hrow.symm.trans hrow') ▸ hkey
  have hkeys : ∀ key, key ∈ groups.keys ↔ key ∈ rows.map (groupKey columns) := by
    intro key
    have hsame : detail.map (groupKey columns) = rows.map (groupKey columns) :=
      Except.map_of_mapM (fun row _ derived hderived => groupKey_of_deriveProgressRow hgrain hderived)
        hdetail
    rw [Std.ExtTreeMap.mem_keys, Std.ExtTreeMap.mem_iff_isSome_getElem?, hcollected, ← hsame,
      List.mem_map]
    constructor
    · intro hsome
      obtain ⟨group, hgroup⟩ := Option.isSome_iff_exists.mp hsome
      obtain ⟨first, hfirst, -⟩ := groupOf_eq_some hgroup
      exact ⟨first, mem_keyRows.mp hfirst⟩
    · rintro ⟨derived, hderived, hkey⟩
      have hmem := mem_keyRows.mpr ⟨hderived, hkey⟩
      cases hrows : keyRows columns key detail with
      | nil =>
        rw [hrows] at hmem
        cases hmem
      | cons first rest => rfl
  -- what is known of each row of the result
  have hrow : ∀ row ∈ out, ∃ group ∈ groups.toList, group.2.toRow exact = .ok row := by
    intro row hrow
    obtain ⟨group, hmem, hrow⟩ := Except.exists_of_mem_mapM hout hrow
    exact ⟨group, hmem, hrow⟩
  have hspec : ∀ row ∈ out, (∀ other ∈ rows, groupKey columns other = groupKey columns row →
        ∀ column ∈ columns, row[column]? = some (.text (other.cell column).scalar))
      ∧ (∀ column ∈ progressAdditiveColumns, ∃ total : Decimal,
        row[column]? = some (.text total.toText) ∧ total.value
          = ((keyRows columns (groupKey columns row) rows).map (contributionValue column)).sum
        ∧ contributionValue column row = total.value)
      ∧ ∃ rate : Decimal, row["wcl"]? = some (.text rate.toText) ∧ rate.value = completion
        ((keyRows columns (groupKey columns row) rows).map (contributionValue "sssl")).sum
        ((keyRows columns (groupKey columns row) rows).map (contributionValue "fhsl")).sum := by
    intro row hmem
    obtain ⟨group, hgroupMem, hrow⟩ := hrow row hmem
    obtain ⟨row', hrow', hkey, hfacts⟩ := toRow_of_collected hgrain hdetail hacceptable hcollected
      (hgroup group hgroupMem)
    cases hrow.symm.trans hrow'
    rw [hkey]
    exact hfacts
  have hsums : ∀ row ∈ out, ∀ column ∈ progressAdditiveColumns, contributionValue column row
      = ((keyRows columns (groupKey columns row) rows).map (contributionValue column)).sum := by
    intro row hmem column hcolumn
    obtain ⟨total, -, hvalue, hcontributed⟩ := (hspec row hmem).2.1 column hcolumn
    rw [hcontributed, hvalue]
  refine ⟨hmapKeys, ?_, ?_, fun row hmem => (hspec row hmem).1, fun row hmem column hcolumn => ?_,
    fun column hcolumn => ?_, fun row hmem => ?_⟩
  · rw [hmapKeys]
    exact Std.ExtTreeMap.ordered_keys
  · intro key
    rw [hmapKeys]
    exact hkeys key
  · obtain ⟨total, htext, hvalue, -⟩ := (hspec row hmem).2.1 column hcolumn
    exact ⟨total, htext, hvalue⟩
  · have hmap : out.map (contributionValue column) = groups.keys.map (fun key =>
        ((keyRows columns key rows).map (contributionValue column)).sum) := by
      rw [← hmapKeys, List.map_map]
      exact List.map_congr_left (fun row hmem => hsums row hmem column hcolumn)
    rw [hmap]
    exact Grouping.sum_map_groups (groupKey columns) (contributionValue column)
      Std.ExtTreeMap.nodup_keys (fun row hrow => (hkeys _).mpr (List.mem_map_of_mem hrow))
  · obtain ⟨rate, hrate, hvalue⟩ := (hspec row hmem).2.2
    refine ⟨rate, hrate, ?_⟩
    rw [hvalue, hsums row hmem "sssl" (by decide), hsums row hmem "fhsl" (by decide)]

/-! ## Aggregation -/

variable {fields : List String}

/-- **What aggregation does** at a reviewed grain. -/
theorem aggregateProgressRows_eq_ok (hgrain : isReviewedGrain fields.eraseDups = true)
    {out : List Row} :
    aggregateProgressRows exact rows fields = .ok out ↔ ∃ detail groups,
      deriveProgressRows rows = .ok detail
      ∧ detail.foldlM (addProgressRow exact fields.eraseDups (progressNameFields fields.eraseDups)
          (progressKeyFields fields.eraseDups)) ∅ = .ok groups
      ∧ groups.toList.mapM (fun group => group.2.toRow exact) = .ok out := by
  have hne : fields.eraseDups ≠ [] := by
    intro hnil
    rw [hnil] at hgrain
    exact absurd hgrain (by decide)
  have hunfold : aggregateProgressRows exact rows fields = (do
      let detail ← deriveProgressRows rows
      let groups ← detail.foldlM (addProgressRow exact fields.eraseDups
        (progressNameFields fields.eraseDups) (progressKeyFields fields.eraseDups)) ∅
      groups.values.mapM (ProgressGroup.toRow exact)) := by
    unfold aggregateProgressRows
    dsimp only
    rw [if_neg hne, if_pos hgrain]
    rfl
  rw [hunfold]
  simp only [Except.bind_eq_ok, Grouping.values_eq_map_snd_toList, List.mapM_map]
  exact ⟨fun ⟨detail, hdetail, groups, hgroups, hout⟩ => ⟨detail, groups, hdetail, hgroups, hout⟩,
    fun ⟨detail, groups, hdetail, hgroups, hout⟩ => ⟨detail, hdetail, groups, hgroups, hout⟩⟩

/-- A successful aggregation, in terms of the detail and its groups. -/
theorem exists_of_aggregateProgressRows (hgrain : isReviewedGrain fields.eraseDups = true)
    {out : List Row} (h : aggregateProgressRows exact rows fields = .ok out) :
    ∃ detail groups, deriveProgressRows rows = .ok detail ∧ Acceptable fields.eraseDups detail
      ∧ Collected fields.eraseDups detail groups
      ∧ groups.toList.mapM (fun group => group.2.toRow exact) = .ok out := by
  obtain ⟨detail, groups, hdetail, hgroups, hout⟩ := (aggregateProgressRows_eq_ok hgrain).mp h
  have hrq : "rq" ∉ fields.eraseDups := fun hrq =>
    (isDimension_of_isReviewedGrain hgrain hrq).1 (by decide)
  have htexts : ∀ row ∈ detail, row.IsText := by
    intro derived hmem
    obtain ⟨row, -, hderived⟩ := Except.exists_of_mem_mapM hdetail hmem
    exact (isNormalized_of_deriveProgressRow hderived).isText
  obtain ⟨hacceptable, hcollected⟩ := (foldlM_addProgressRow hrq htexts).1 groups hgroups
  exact ⟨detail, groups, hdetail, hacceptable, hcollected, hout⟩

/-- **Acceptable detail is aggregated**, whatever groups are collected from it. -/
theorem exists_aggregateProgressRows (hgrain : isReviewedGrain fields.eraseDups = true)
    {detail : List Row} (hdetail : deriveProgressRows rows = .ok detail)
    (hacceptable : Acceptable fields.eraseDups detail) :
    ∃ groups out, Collected fields.eraseDups detail groups
      ∧ groups.toList.mapM (fun group => group.2.toRow exact) = .ok out
      ∧ aggregateProgressRows exact rows fields = .ok out := by
  have hrq : "rq" ∉ fields.eraseDups := fun hrq =>
    (isDimension_of_isReviewedGrain hgrain hrq).1 (by decide)
  have htexts : ∀ row ∈ detail, row.IsText := by
    intro derived hmem
    obtain ⟨row, -, hderived⟩ := Except.exists_of_mem_mapM hdetail hmem
    exact (isNormalized_of_deriveProgressRow hderived).isText
  obtain ⟨groups, hgroups⟩ := (foldlM_addProgressRow hrq htexts).2 hacceptable
  have hcollected := ((foldlM_addProgressRow hrq htexts).1 groups hgroups).2
  obtain ⟨out, hout⟩ : ∃ out, groups.toList.mapM (fun group => group.2.toRow exact) = .ok out := by
    refine Except.exists_mapM_eq_ok (fun group hmem => ?_)
    obtain ⟨row, hrow, -⟩ := toRow_of_collected hgrain hdetail hacceptable hcollected
      (Std.ExtTreeMap.mem_toList_iff_getElem?_eq_some.mp hmem)
    exact ⟨row, hrow⟩
  exact ⟨groups, out, hcollected, hout,
    (aggregateProgressRows_eq_ok hgrain).mpr ⟨detail, groups, hdetail, hgroups, hout⟩⟩

/-- Aggregation refuses a grain that is not reviewed. -/
theorem aggregateProgressRows_of_not_reviewed (hfields : fields ≠ [])
    (hgrain : isReviewedGrain fields.eraseDups = false) :
    aggregateProgressRows exact rows fields = .error (.derivation "unsupported_grain") := by
  have hne : fields.eraseDups ≠ [] := by
    cases fields with
    | nil => exact absurd rfl hfields
    | cons field fields => simp [List.eraseDups_cons]
  unfold aggregateProgressRows
  dsimp only
  rw [if_neg hne, hgrain]
  rfl

/-- The group of some rows does not depend on their order. -/
theorem groupOf_of_perm {members members' : List Row} (h : members.Perm members')
    (hacceptable : Acceptable columns members)
    (hkey : ∀ row ∈ members, ∀ other ∈ members, groupKey columns row = groupKey columns other) :
    groupOf columns members = groupOf columns members' := by
  have htotals : groupTotals members = groupTotals members' := by
    refine Std.ExtTreeMap.ext_getElem? (fun column => ?_)
    rw [getElem?_groupTotals, getElem?_groupTotals]
    split
    · next hcolumn =>
      have hnumbers : ∀ members : List Row,
          number? (contributionTotal column members) = contributionTotal column members := by
        intro members
        refine number?_total (fun d hd => ?_)
        obtain ⟨row, -, hrow⟩ := List.mem_map.mp hd
        obtain ⟨hfinite, -⟩ := contributionOf_eq_some hrow
        cases d with
        | finite _ _ _ => rfl
        | infinity _ => rfl
        | nan _ _ _ => cases hfinite
      rw [← hnumbers members, ← hnumbers members', contributionTotal, contributionTotal,
        number?_total_of_perm (h.map _)]
    · rfl
  cases members with
  | nil => rw [List.nil_perm.mp h]
  | cons first rest =>
    cases members' with
    | nil => exact absurd h.symm (List.not_perm_nil_cons first rest)
    | cons first' rest' =>
      have hmem := h.mem_iff.mpr (List.mem_cons_self (a := first') (l := rest'))
      rw [groupOf, groupOf, htotals, hacceptable.consistent first List.mem_cons_self first' hmem
        (hkey first List.mem_cons_self first' hmem)]

/-- **Permuted detail is aggregated to the same rows.** -/
theorem aggregateProgressRows_of_perm (hgrain : isReviewedGrain fields.eraseDups = true)
    {rows' : List Row} (h : rows.Perm rows') {out : List Row}
    (hout : aggregateProgressRows exact rows fields = .ok out) :
    aggregateProgressRows exact rows' fields = .ok out := by
  obtain ⟨detail, groups, hdetail, hacceptable, hcollected, hout⟩ :=
    exists_of_aggregateProgressRows hgrain hout
  obtain ⟨detail', hdetail', hperm⟩ := Except.mapM_perm h hdetail
  have hacceptable' := hacceptable.mono (fun row hrow => hperm.mem_iff.mpr hrow)
  obtain ⟨groups', out', hcollected', hout', hresult⟩ :=
    exists_aggregateProgressRows hgrain hdetail' hacceptable'
  have hgroups : groups' = groups := by
    refine Std.ExtTreeMap.ext_getElem? (fun key => ?_)
    rw [hcollected', hcollected]
    symm
    refine groupOf_of_perm (hperm.filter _) (hacceptable.mono (fun row hrow => ?_)) ?_
    · exact (mem_keyRows.mp hrow).1
    · intro row hrow other hother
      rw [(mem_keyRows.mp hrow).2, (mem_keyRows.mp hother).2]
  rw [hgroups, hout] at hout'
  rw [hresult, ← hout']

/-- The rows of a key among those of selected keys. -/
theorem keyRows_filter (selects : List String → Bool) (key : List String) (detail : List Row) :
    keyRows columns key (detail.filter (fun row => selects (groupKey columns row)))
      = if selects key then keyRows columns key detail else [] := by
  rw [keyRows, keyRows, List.filter_filter]
  split
  · next hselects =>
    refine List.filter_congr (fun row _ => ?_)
    by_cases hkey : groupKey columns row = key
    · rw [hkey, hselects, Bool.and_true]
    · rw [decide_eq_false hkey, Bool.false_and]
  · next hselects =>
    rw [List.filter_eq_nil_iff]
    intro row _ h
    rw [Bool.and_eq_true, decide_eq_true_eq] at h
    exact hselects (h.1 ▸ h.2)

/-- **Whole groups can be selected before or after** they are formed. -/
theorem aggregateProgressRows_filter (hgrain : isReviewedGrain fields.eraseDups = true)
    (selects : List String → Bool) {out : List Row}
    (hout : aggregateProgressRows exact rows fields = .ok out) :
    aggregateProgressRows exact (rows.filter (fun row => selects (groupKey fields.eraseDups row))) fields
      = .ok (out.filter (fun row => selects (groupKey fields.eraseDups row))) := by
  obtain ⟨detail, groups, hdetail, hacceptable, hcollected, hout⟩ :=
    exists_of_aggregateProgressRows hgrain hout
  have hselected : deriveProgressRows (rows.filter (fun row => selects (groupKey fields.eraseDups row)))
      = .ok (detail.filter (fun row => selects (groupKey fields.eraseDups row))) := by
    refine Except.mapM_filter_of_keeps (fun row _ derived hderived => ?_) hdetail
    rw [groupKey_of_deriveProgressRow hgrain hderived]
  obtain ⟨groups', out', hcollected', hout', hresult⟩ := exists_aggregateProgressRows hgrain hselected
    (hacceptable.mono (fun row hrow => (List.mem_filter.mp hrow).1))
  have hgroups : groups' = groups.filter (fun key _ => selects key) := by
    refine Std.ExtTreeMap.ext_getElem? (fun key => ?_)
    rw [Std.ExtTreeMap.getElem?_filter', hcollected', hcollected]
    rw [keyRows_filter]
    cases hselects : selects key with
    | true =>
      rw [if_pos rfl]
      cases groupOf fields.eraseDups (keyRows fields.eraseDups key detail) <;> rfl
    | false =>
      rw [if_neg Bool.false_ne_true]
      cases groupOf fields.eraseDups (keyRows fields.eraseDups key detail) <;> rfl
  have hfiltered : (groups.toList.filter (fun group => selects group.1)).mapM
      (fun group => group.2.toRow exact)
      = .ok (out.filter (fun row => selects (groupKey fields.eraseDups row))) := by
    refine Except.mapM_filter_of_keeps (fun group hmem row hrow => ?_) hout
    obtain ⟨row', hrow', hkey, -⟩ := toRow_of_collected hgrain hdetail hacceptable hcollected
      (Std.ExtTreeMap.mem_toList_iff_getElem?_eq_some.mp hmem)
    cases hrow.symm.trans hrow'
    rw [hkey]
  rw [hgroups, Std.ExtTreeMap.toList_filter, hfiltered] at hout'
  rw [hresult, ← hout']

/-- **Aggregation conserves the detail.** At every requested grain, aggregation refuses exactly where there
are grounds to, and otherwise returns rows that say about the detail what they should; the order of the
detail does not matter for either; and whole groups can be selected before or after. Which of several
grounds a refusal names depends on the row that comes first. -/
theorem aggregateProgressRows_conserves (rows : List Row) (fields : List String) (hfields : fields ≠ []) :
    ((Refuses fields.eraseDups rows ∧ ∃ refusal, aggregateProgressRows exact rows fields = .error refusal)
      ∨ (¬ Refuses fields.eraseDups rows ∧ ∃ out, aggregateProgressRows exact rows fields = .ok out
        ∧ Aggregated fields.eraseDups rows out))
    ∧ (∀ rows', rows.Perm rows' → (aggregateProgressRows exact rows' fields).toOption
        = (aggregateProgressRows exact rows fields).toOption)
    ∧ ∀ (selects : List String → Bool) (out : List Row),
      aggregateProgressRows exact rows fields = .ok out →
      aggregateProgressRows exact (rows.filter (fun row => selects (groupKey fields.eraseDups row))) fields
        = .ok (out.filter (fun row => selects (groupKey fields.eraseDups row))) := by
  cases hgrain : isReviewedGrain fields.eraseDups with
  | false =>
    have hrefused : ∀ rows, aggregateProgressRows exact rows fields
        = .error (.derivation "unsupported_grain") :=
      fun rows => aggregateProgressRows_of_not_reviewed hfields hgrain
    refine ⟨.inl ⟨.inl hgrain, _, hrefused rows⟩, fun rows' _ => ?_, fun selects out hout => ?_⟩
    · rw [hrefused, hrefused]
    · rw [hrefused] at hout
      cases hout
  | true =>
    refine ⟨?_, fun rows' hperm => ?_, fun selects out hout =>
      aggregateProgressRows_filter hgrain selects hout⟩
    · by_cases hrefuses : Refuses fields.eraseDups rows
      · refine .inl ⟨hrefuses, ?_⟩
        cases hresult : aggregateProgressRows exact rows fields with
        | error refusal => exact ⟨refusal, rfl⟩
        | ok out =>
          obtain ⟨detail, -, hdetail, hacceptable, -⟩ := exists_of_aggregateProgressRows hgrain hresult
          exact absurd hrefuses (not_refuses_iff.mpr ⟨hgrain, detail, hdetail, hacceptable⟩)
      · obtain ⟨-, detail, hdetail, hacceptable⟩ := not_refuses_iff.mp hrefuses
        obtain ⟨groups, out, hcollected, hout, hresult⟩ :=
          exists_aggregateProgressRows hgrain hdetail hacceptable
        exact .inr ⟨hrefuses, out, hresult,
          (aggregated_of_collected hgrain hdetail hacceptable hcollected hout).2⟩
    · cases hresult : aggregateProgressRows exact rows fields with
      | ok out => rw [aggregateProgressRows_of_perm hgrain hperm hresult]
      | error refusal =>
        cases hresult' : aggregateProgressRows exact rows' fields with
        | error refusal' => rfl
        | ok out =>
          rw [aggregateProgressRows_of_perm hgrain hperm.symm hresult'] at hresult
          cases hresult

/-- A detail row of a sheet, with what was issued and received. -/
def sheetRow (sheet bundle issued received : String) : Row :=
  Row.ofTexts [("rq", "2024-05-01"), ("dh", sheet), ("baohao", bundle), ("userid", "m1"),
    ("color", "red"), ("chima", "XL"), ("bs", "1"), ("fhsl", issued), ("sssl", received),
    ("zpsl", "0"), ("wgs", "0"), ("wts", "2")]

/-- Two bundles of one sheet, one of them in two detail rows. -/
theorem aggregateProgressRows_conserves_bundles :
    ∃ out, aggregateProgressRows exact
        [sheetRow "s1" "b2" "3" "1", sheetRow "s1" "b1" "1.50" "0", sheetRow "s1" "b2" "0" "1"]
        ["dh", "baohao", "userid", "color", "chima"] = .ok out
      ∧ Aggregated ["dh", "baohao", "userid", "color", "chima"]
        [sheetRow "s1" "b2" "3" "1", sheetRow "s1" "b1" "1.50" "0", sheetRow "s1" "b2" "0" "1"] out := by
  have hsome : (aggregateProgressRows exact
      [sheetRow "s1" "b2" "3" "1", sheetRow "s1" "b1" "1.50" "0", sheetRow "s1" "b2" "0" "1"]
      ["dh", "baohao", "userid", "color", "chima"]).toOption.isSome = true := by decide +kernel
  rcases (aggregateProgressRows_conserves
      [sheetRow "s1" "b2" "3" "1", sheetRow "s1" "b1" "1.50" "0", sheetRow "s1" "b2" "0" "1"]
      ["dh", "baohao", "userid", "color", "chima"] (by decide)).1 with
    ⟨-, refusal, hrefused⟩ | ⟨-, out, hout, haggregated⟩
  · rw [hrefused] at hsome
    cases hsome
  · exact ⟨out, hout, haggregated⟩
