import FactoryAgent.Cache.Footer
import FactoryAgent.Lib.DecimalText
import FactoryAgent.Lib.ExactDecimal

/-!
# The order of the rows that a footer is checked against

`footer_reconciles` scans the rows for the columns that it can check and stops at the row that completes
the wanted ones. The sum columns are wanted, so the scan finds each of them wherever it stands. The
completion rate is checked from two columns that need not be wanted: whether the scan has seen them where
it stops depends on which rows came first, and with it whether a wrong rate is refused or passed over.

Everything else is the same for every order of the rows: in exact arithmetic a sum is
(`DecimalContext.number?_total_of_perm`), except that a NaN may come before or after the two infinities
that it keeps from meeting.
-/

open DecimalContext

/-! ## What the scan sees -/

/-- The rows without a column. -/
def lackingRows (column : String) (rows : List Row) : List Row :=
  rows.filter (fun row => !row.contains column)

/-- The received and the issued quantity, from which the completion rate is computed. -/
def rateColumns : List String := ["sssl", "fhsl"]

/-- **The rate can be checked in some order**: the rows without some wanted column, and one more row,
have both quantities. -/
def Hearable (wanted : List String) (rows : List Row) : Prop :=
  ∃ column ∈ wanted, ∃ row ∈ rows, ∀ quantity ∈ rateColumns,
    hasColumn (lackingRows column rows ++ [row]) quantity = true

/-- **The check of the rate can be missed in some order**: the rows without one of the quantities have
every wanted column. -/
def Missable (wanted : List String) (rows : List Row) : Prop :=
  ∃ quantity ∈ rateColumns, ∀ column ∈ wanted, hasColumn (lackingRows quantity rows) column = true

theorem hasColumn_iff {rows : List Row} {column : String} :
    hasColumn rows column = true ↔ ∃ row ∈ rows, row.contains column = true :=
  List.any_eq_true

@[simp] theorem hasColumn_nil (column : String) : hasColumn [] column = false := rfl

theorem hasColumn_append (rows more : List Row) (column : String) :
    hasColumn (rows ++ more) column = (hasColumn rows column || hasColumn more column) :=
  List.any_append

/-- More rows have more columns. -/
theorem hasColumn_mono {rows more : List Row} (h : ∀ row ∈ rows, row ∈ more) {column : String}
    (hcolumn : hasColumn rows column = true) : hasColumn more column = true := by
  rw [hasColumn_iff] at hcolumn ⊢
  obtain ⟨row, hrow, hcontains⟩ := hcolumn
  exact ⟨row, h row hrow, hcontains⟩

theorem hasColumn_of_perm {rows rows' : List Row} (h : rows.Perm rows') (column : String) :
    hasColumn rows column = hasColumn rows' column :=
  h.any_eq

theorem mem_lackingRows {column : String} {rows : List Row} {row : Row} :
    row ∈ lackingRows column rows ↔ row ∈ rows ∧ row.contains column = false := by
  simp [lackingRows]

theorem hasColumn_lackingRows (column : String) (rows : List Row) :
    hasColumn (lackingRows column rows) column = false := by
  rw [Bool.eq_false_iff, ne_eq, hasColumn_iff]
  rintro ⟨row, hrow, hcontains⟩
  rw [(mem_lackingRows.mp hrow).2] at hcontains
  cases hcontains

/-- Rows without a column are rows that lack it. -/
theorem mem_lackingRows_of_hasColumn_false {rows more : List Row} {column : String}
    (h : ∀ row ∈ rows, row ∈ more) (hcolumn : hasColumn rows column = false) :
    ∀ row ∈ rows, row ∈ lackingRows column more := by
  intro row hrow
  refine mem_lackingRows.mpr ⟨h row hrow, ?_⟩
  rw [Bool.eq_false_iff]
  intro hcontains
  rw [hasColumn_iff.mpr ⟨row, hrow, hcontains⟩] at hcolumn
  cases hcolumn

theorem Hearable.of_perm {wanted : List String} {rows rows' : List Row} (h : rows.Perm rows')
    (hhearable : Hearable wanted rows) : Hearable wanted rows' := by
  obtain ⟨column, hwanted, row, hrow, hcolumns⟩ := hhearable
  refine ⟨column, hwanted, row, h.mem_iff.mp hrow, fun quantity hquantity => ?_⟩
  rw [← hcolumns quantity hquantity]
  exact hasColumn_of_perm (((h.filter _).append_right _).symm) quantity

/-- Where the rate can be checked, the rows have both quantities. -/
theorem Hearable.hasColumn {wanted : List String} {rows : List Row} (h : Hearable wanted rows) :
    ∀ quantity ∈ rateColumns, hasColumn rows quantity = true := by
  obtain ⟨column, -, row, hrow, hquantities⟩ := h
  intro quantity hquantity
  refine hasColumn_mono (fun other hother => ?_) (hquantities quantity hquantity)
  rcases List.mem_append.mp hother with hother | hother
  · exact (mem_lackingRows.mp hother).1
  · exact List.mem_singleton.mp hother ▸ hrow

theorem Missable.of_perm {wanted : List String} {rows rows' : List Row} (h : rows.Perm rows')
    (hmissable : Missable wanted rows) : Missable wanted rows' := by
  obtain ⟨quantity, hquantity, hcolumns⟩ := hmissable
  refine ⟨quantity, hquantity, fun column hcolumn => ?_⟩
  rw [← hcolumns column hcolumn]
  exact hasColumn_of_perm ((h.filter _).symm) column

variable {wanted : List String}

/-- The columns of a row, by membership in its keys. -/
theorem mem_keys_iff {row : Row} {column : String} : column ∈ row.keys ↔ row.contains column = true := by
  rw [Std.ExtTreeMap.mem_keys, Std.ExtTreeMap.contains_iff_mem]

/-- **Where the scan stops**: at a row before which some wanted column was missing, and after which
none is, or there are no more rows. It has seen the columns of the rows up to there. -/
theorem exists_scannedColumns {seen : List String} {before rows : List Row}
    (hseen : ∀ column, column ∈ seen ↔ hasColumn before column = true)
    (hmissing : ∃ column ∈ wanted, hasColumn before column = false) (hrows : rows ≠ []) :
    ∃ front row rest, before ++ rows = front ++ row :: rest
      ∧ (∀ column, column ∈ scannedColumns wanted seen rows
          ↔ hasColumn (front ++ [row]) column = true)
      ∧ (∃ column ∈ wanted, hasColumn front column = false)
      ∧ (rest = [] ∨ ∀ column ∈ wanted, hasColumn (front ++ [row]) column = true) := by
  induction rows generalizing seen before with
  | nil => exact absurd rfl hrows
  | cons row rows ih =>
    have hnext : ∀ column, column ∈ seen ++ row.keys ↔ hasColumn (before ++ [row]) column = true := by
      intro column
      rw [List.mem_append, hseen, mem_keys_iff, hasColumn_append, Bool.or_eq_true]
      simp [hasColumn]
    rw [scannedColumns]
    by_cases hall : wanted.all (fun column => decide (column ∈ seen ++ row.keys)) = true
    · simp only [hall, if_true]
      refine ⟨before, row, rows, rfl, hnext, hmissing, .inr (fun column hcolumn => ?_)⟩
      exact (hnext column).mp (of_decide_eq_true (List.all_eq_true.mp hall column hcolumn))
    · simp only [hall, Bool.false_eq_true, if_false]
      by_cases hlast : rows = []
      · subst hlast
        exact ⟨before, row, [], rfl, hnext, hmissing, .inl rfl⟩
      · have hmissing' : ∃ column ∈ wanted, hasColumn (before ++ [row]) column = false := by
          rw [Bool.not_eq_true, List.all_eq_false] at hall
          obtain ⟨column, hcolumn, hnot⟩ := hall
          refine ⟨column, hcolumn, Bool.eq_false_iff.mpr (fun h => hnot ?_)⟩
          exact decide_eq_true ((hnext column).mpr h)
        rw [List.append_cons]
        exact ih hnext hmissing' hlast

/-- **Where the scan of all rows stops.** -/
theorem exists_stop (hwanted : wanted ≠ []) {rows : List Row} (hrows : rows ≠ []) :
    ∃ front row rest, rows = front ++ row :: rest
      ∧ (∀ column, column ∈ scannedColumns wanted [] rows
          ↔ hasColumn (front ++ [row]) column = true)
      ∧ (∃ column ∈ wanted, hasColumn front column = false)
      ∧ (rest = [] ∨ ∀ column ∈ wanted, hasColumn (front ++ [row]) column = true) := by
  have hstart : ∀ column, column ∈ ([] : List String) ↔ hasColumn [] column = true := by simp
  obtain ⟨column, hcolumn⟩ := List.exists_mem_of_ne_nil _ hwanted
  exact exists_scannedColumns hstart ⟨column, hcolumn, rfl⟩ hrows

/-- **The scan sees the rows that lack a wanted column**, and the one after them. -/
theorem mem_scannedColumns_of_lacking {column quantity : String} {seen : List String}
    {front rest : List Row} (hwanted : column ∈ wanted) (hseen : column ∉ seen)
    (hfront : ∀ row ∈ front, row.contains column = false)
    (h : quantity ∈ seen ∨ hasColumn (front ++ rest.take 1) quantity = true) :
    quantity ∈ scannedColumns wanted seen (front ++ rest) := by
  have hkeep : ∀ (rows : List Row) (seen : List String), quantity ∈ seen →
      quantity ∈ scannedColumns wanted seen rows := by
    intro rows
    induction rows with
    | nil => exact fun seen h => h
    | cons row rows ih =>
      intro seen h
      rw [scannedColumns]
      split
      · exact List.mem_append_left _ h
      · exact ih _ (List.mem_append_left _ h)
  induction front generalizing seen with
  | nil =>
    rcases h with h | h
    · exact hkeep _ _ h
    · cases rest with
      | nil => cases h
      | cons row rest =>
        have hrow : quantity ∈ row.keys := mem_keys_iff.mpr (by simpa [hasColumn] using h)
        rw [List.nil_append, scannedColumns]
        split
        · exact List.mem_append_right _ hrow
        · exact hkeep _ _ (List.mem_append_right _ hrow)
  | cons row front ih =>
    have hrow := hfront row List.mem_cons_self
    have hstill : column ∉ seen ++ row.keys := by
      rw [List.mem_append, mem_keys_iff, hrow]
      simpa using hseen
    rw [List.cons_append, scannedColumns, if_neg]
    · refine ih hstill (fun row hrow => hfront row (List.mem_cons_of_mem _ hrow)) ?_
      rw [List.cons_append] at h
      rw [List.mem_append, mem_keys_iff]
      rcases h with h | h
      · exact .inl (.inl h)
      · rw [hasColumn, List.any_cons, Bool.or_eq_true] at h
        rcases h with h | h
        · exact .inl (.inr h)
        · exact .inr h
    · intro hall
      exact hstill (of_decide_eq_true (List.all_eq_true.mp hall column hwanted))

/-- **The scan sees no row after the wanted columns are complete.** -/
theorem hasColumn_of_mem_scannedColumns {quantity : String} {seen : List String}
    {front rest : List Row} (hmissing : ∃ column ∈ wanted, column ∉ seen)
    (hfront : ∀ column ∈ wanted, column ∈ seen ∨ hasColumn front column = true)
    (h : quantity ∈ scannedColumns wanted seen (front ++ rest)) :
    quantity ∈ seen ∨ hasColumn front quantity = true := by
  induction front generalizing seen with
  | nil =>
    obtain ⟨column, hcolumn, hnot⟩ := hmissing
    rcases hfront column hcolumn with hseen | hnil
    · exact absurd hseen hnot
    · cases hnil
  | cons row front ih =>
    rw [List.cons_append, scannedColumns] at h
    have hrow : ∀ {column}, column ∈ seen ++ row.keys →
        column ∈ seen ∨ hasColumn (row :: front) column = true := by
      intro column hcolumn
      refine (List.mem_append.mp hcolumn).imp_right (fun hkey => ?_)
      exact hasColumn_iff.mpr ⟨row, List.mem_cons_self, mem_keys_iff.mp hkey⟩
    split at h
    · exact hrow h
    · next hall =>
      rw [List.all_eq_true] at hall
      push Not at hall
      obtain ⟨column, hcolumn, hnot⟩ := hall
      have hnot : column ∉ seen ++ row.keys := fun hmem => hnot (decide_eq_true hmem)
      have hfront' : ∀ column ∈ wanted,
          column ∈ seen ++ row.keys ∨ hasColumn front column = true := by
        intro column hcolumn
        rw [List.mem_append, mem_keys_iff]
        rcases hfront column hcolumn with hseen | hhas
        · exact .inl (.inl hseen)
        · rw [hasColumn, List.any_cons, Bool.or_eq_true] at hhas
          exact hhas.imp_left .inr
      rcases ih ⟨column, hcolumn, hnot⟩ hfront' h with hmem | hmem
      · exact hrow hmem
      · exact .inr (hasColumn_mono (fun row hrow => List.mem_cons_of_mem _ hrow) hmem)

/-! ## The verdict -/

/-- A quantity of a row, with zero for what is empty. -/
def quantityOf (column : String) (row : Row) : Option Decimal :=
  Decimal.parse ((row.cell column).orElse "0")

/-- The values of a column that count: those that are neither blank nor missing. -/
def columnValues (column : String) (rows : List Row) : List (Option Decimal) :=
  (rows.filter (fun row => row.cell column ≠ .null ∧ row.cell column ≠ .text "")).map
    (fun row => Decimal.parse (row.cell column).str)

/-- Whether the sum of a column agrees with the total that came. -/
def sumAgrees (context : DecimalContext) (close : Decimal → Decimal → Bool) (rows : List Row)
    (column expected : String) : Bool :=
  match columnTotal context rows column, Decimal.parse expected with
  | some total, some expected =>
    expected.isFinite && total.isFinite
      && if column ≠ "je" ∧ expected.isIntegral then total.eqValue expected else close total expected
  | _, _ => false

/-- Whether the completion rate of the rows agrees with the one that came, to two decimals. -/
def rateAgrees (context : DecimalContext) (rows : List Row) (expected : String) : Bool :=
  match completionRate context rows, (Decimal.parse expected).bind context.quantizeCents with
  | some ratio, some expected => ratio.eqValue expected
  | _, _ => false

/-- **The sums agree with the totals that came**, where the rows have their columns. -/
def SumsAgree (context : DecimalContext) (close : Decimal → Decimal → Bool) (rows : List Row)
    (footer : Option Footer) : Prop :=
  ∀ key expected column, (footer.getD ∅)[key]? = some expected → totalColumn? key = some column →
    column ∉ nonAdditiveFooterColumns → hasColumn rows column = true →
    sumAgrees context close rows column expected = true

theorem measureTotal_eq (context : DecimalContext) (rows : List Row) (column : String) :
    measureTotal context rows column = context.total (rows.map (quantityOf column)) := by
  rw [measureTotal, DecimalContext.total, List.foldlM_map]
  rfl

theorem columnTotal_eq (context : DecimalContext) (rows : List Row) (column : String) :
    columnTotal context rows column = context.total (columnValues column rows) := by
  rw [columnTotal, DecimalContext.total, columnValues, List.foldlM_map]
  generalize Decimal.zero = sum
  induction rows generalizing sum with
  | nil => rfl
  | cons row rows ih =>
    rw [List.foldlM_cons, addCell]
    by_cases hblank : row.cell column = .null ∨ row.cell column = .text ""
    · have hskip : ¬(row.cell column ≠ .null ∧ row.cell column ≠ .text "") := by
        rw [not_and_or, not_not, not_not]
        exact hblank
      rw [if_pos hblank, List.filter_cons_of_neg (by simpa using hskip)]
      exact ih sum
    · have hcount : row.cell column ≠ .null ∧ row.cell column ≠ .text "" := by
        rw [not_or] at hblank
        exact hblank
      rw [if_neg hblank, List.filter_cons_of_pos (by simpa using hcount), List.foldlM_cons]
      exact bind_congr ih

/-- The only total that is a ratio. -/
theorem totalColumn?_wcl : totalColumn? "wcl_total" = some "wcl" := by decide

/-- A wanted column is seen by the scan where the rows have it. -/
theorem mem_scannedColumns_iff {rows : List Row} {column : String} (hwanted : column ∈ wanted)
    (hrows : rows ≠ []) :
    column ∈ scannedColumns wanted [] rows ↔ hasColumn rows column = true := by
  obtain ⟨front, row, rest, hsplit, hseen, -, hstop⟩ :=
    exists_stop (List.ne_nil_of_mem hwanted) hrows
  rw [hseen]
  rcases hstop with rfl | hall
  · rw [hsplit]
  · refine iff_of_true (hall column hwanted) ?_
    refine hasColumn_mono (fun row hrow => ?_) (hall column hwanted)
    rw [hsplit, List.append_cons]
    exact List.mem_append_left _ hrow

/-- What the scan sees, the rows have. -/
theorem hasColumn_of_mem_scanned {rows : List Row} {column : String}
    (h : column ∈ scannedColumns wanted [] rows) : hasColumn rows column = true := by
  have hsub : ∀ (rows : List Row) (seen : List String), column ∈ scannedColumns wanted seen rows →
      column ∈ seen ∨ hasColumn rows column = true := by
    intro rows
    induction rows with
    | nil => exact fun seen h => .inl h
    | cons row rows ih =>
      intro seen h
      have hrow : column ∈ seen ++ row.keys → column ∈ seen ∨ hasColumn (row :: rows) column = true := by
        intro hmem
        refine (List.mem_append.mp hmem).imp_right (fun hkey => ?_)
        exact hasColumn_iff.mpr ⟨row, List.mem_cons_self, mem_keys_iff.mp hkey⟩
      rw [scannedColumns] at h
      split at h
      · exact hrow h
      · rcases ih _ h with hmem | hmem
        · exact hrow hmem
        · exact .inr (hasColumn_mono (fun row hrow => List.mem_cons_of_mem _ hrow) hmem)
  exact (hsub rows [] h).resolve_left (fun hnil => nomatch hnil)

/-- The check of a sum. -/
theorem totalReconciles_sum (context : DecimalContext) (close : Decimal → Decimal → Bool)
    {rows : List Row} (hrows : rows ≠ []) {seen : List String} {key expected column : String}
    (hkey : totalColumn? key = some column) (hsum : column ∉ nonAdditiveFooterColumns) :
    totalReconciles context close rows seen key expected = true ↔
      (column ∈ seen → sumAgrees context close rows column expected = true) := by
  unfold totalReconciles
  simp only [hkey, hrows, hsum, if_false]
  by_cases hseen : column ∈ seen
  · rw [if_neg (not_not.mpr hseen)]
    exact ⟨fun h _ => h, fun h => h hseen⟩
  · rw [if_pos hseen]
    exact iff_of_true rfl (fun h => absurd h hseen)

/-- The check of the completion rate. -/
theorem totalReconciles_rate (context : DecimalContext) (close : Decimal → Decimal → Bool)
    {rows : List Row} (hrows : rows ≠ []) (expected : String) :
    totalReconciles context close rows (scannedColumns wanted [] rows) "wcl_total" expected = true ↔
      ((∀ quantity ∈ rateColumns, quantity ∈ scannedColumns wanted [] rows) →
        rateAgrees context rows expected = true) := by
  have hratio : "wcl" ∈ nonAdditiveFooterColumns := by decide
  unfold totalReconciles
  simp only [totalColumn?_wcl, hrows, hratio, if_false, if_true]
  by_cases hseen : "sssl" ∈ scannedColumns wanted [] rows ∧ "fhsl" ∈ scannedColumns wanted [] rows
  · have hboth : ∀ quantity ∈ rateColumns, quantity ∈ scannedColumns wanted [] rows := by
      simpa [rateColumns] using hseen
    have hvalue : (recomputedTotal context rows "wcl_total").bind Decimal.parse
        = completionRate context rows := by
      unfold recomputedTotal
      simp only [totalColumn?_wcl, hratio, hasColumn_of_mem_scanned hseen.1,
        hasColumn_of_mem_scanned hseen.2, if_true, Bool.and_self]
      cases completionRate context rows with
      | none => rfl
      | some ratio => exact Decimal.parse_toText ratio
    rw [if_pos hseen, hvalue]
    exact ⟨fun h _ => h, fun h => h hboth⟩
  · rw [if_neg hseen]
    refine iff_of_true rfl (fun h => absurd ?_ hseen)
    exact ⟨h "sssl" (by decide), h "fhsl" (by decide)⟩

/-- The only total of a ratio is that of the completion rate. -/
theorem eq_wcl_total {key column : String} (hkey : totalColumn? key = some column)
    (hratio : column ∈ nonAdditiveFooterColumns) : key = "wcl_total" := by
  rw [List.mem_singleton.mp hratio] at hkey
  exact Text.dropSuffix?_eq_some.mp hkey

/-- **A footer reconciles** where its sums agree with the rows, and the completion rate does if the scan
has seen what it is computed from. -/
theorem footerReconciles_iff (context : DecimalContext) (close : Decimal → Decimal → Bool)
    {rows : List Row} (hrows : rows ≠ []) (footer : Option Footer) :
    footerReconciles context close rows footer = true ↔
      SumsAgree context close rows footer ∧ ∀ expected, (footer.getD ∅)["wcl_total"]? = some expected →
        (∀ quantity ∈ rateColumns, quantity
          ∈ scannedColumns ((footerKeys footer).filterMap totalColumn?) [] rows) →
        rateAgrees context rows expected = true := by
  have hwanted : ∀ {key expected column}, (footer.getD ∅)[key]? = some expected →
      totalColumn? key = some column → column ∈ (footerKeys footer).filterMap totalColumn? := by
    intro key expected column hmem hkey
    refine List.mem_filterMap.mpr ⟨key, ?_, hkey⟩
    rw [footerKeys, Std.ExtTreeMap.mem_keys, Std.ExtTreeMap.mem_iff_isSome_getElem?, hmem]
    rfl
  unfold footerReconciles
  simp only [List.all_eq_true, Prod.forall, Std.ExtTreeMap.mem_toList_iff_getElem?_eq_some]
  constructor
  · intro h
    refine ⟨fun key expected column hmem hkey hsum hcolumn => ?_, fun expected hmem => ?_⟩
    · refine (totalReconciles_sum context close hrows hkey hsum).mp (h key expected hmem) ?_
      exact (mem_scannedColumns_iff (hwanted hmem hkey) hrows).mpr hcolumn
    · exact (totalReconciles_rate context close hrows expected).mp (h _ expected hmem)
  · rintro ⟨hsums, hrate⟩ key expected hmem
    cases hkey : totalColumn? key with
    | none =>
      unfold totalReconciles
      rw [hkey]
    | some column =>
      by_cases hratio : column ∈ nonAdditiveFooterColumns
      · obtain rfl := eq_wcl_total hkey hratio
        exact (totalReconciles_rate context close hrows expected).mpr (hrate expected hmem)
      · refine (totalReconciles_sum context close hrows hkey hratio).mpr (fun hseen => ?_)
        exact hsums key expected column hmem hkey hratio (hasColumn_of_mem_scanned hseen)

/-! ## What the order decides -/

/-- Whether a rate of zero agrees with the rate that came. -/
def zeroRateAgrees (expected : String) : Bool :=
  match (Decimal.parse expected).bind exact.quantizeCents with
  | some expected => (Decimal.finite false 0 (-2)).eqValue expected
  | none => false

/-- Whether the rate of two quantities agrees with the rate that came. -/
def quotientAgrees (numerator denominator : Decimal) (expected : String) : Bool :=
  match exact.percentage numerator denominator, (Decimal.parse expected).bind exact.quantizeCents with
  | some ratio, some expected => ratio.eqValue expected
  | _, _ => false

/-- **Nothing was issued, and whether the received quantities have a total is undecided**: then the rate
is zero, as the total that came, or there is none. -/
def Absorbed (rows : List Row) (expected : String) : Prop :=
  Undecided (rows.map (quantityOf "sssl"))
    ∧ (∃ denominator, number? (measureTotal exact rows "fhsl") = some denominator
      ∧ denominator.isZero = true)
    ∧ zeroRateAgrees expected = true

/-- The rows whose received quantity is a number. -/
def numberRows (rows : List Row) : List Row :=
  rows.filter (fun row => (number? (quantityOf "sssl" row)).isSome)

/-- **The rate can be checked with the two infinities before the NaNs**: on numbers only, or after the
rows without some wanted column, where the infinities are among these. -/
def Contested (wanted : List String) (rows : List Row) : Prop :=
  Hearable wanted (numberRows rows) ∨ ∃ column ∈ wanted,
    (∀ negative, ∃ row ∈ lackingRows column rows,
      quantityOf "sssl" row = some (Decimal.infinity negative))
    ∧ ∃ row ∈ rows, ∀ quantity ∈ rateColumns,
      hasColumn (lackingRows column rows ++ [row]) quantity = true

/-- **The order of the rows decides the verdict**: a completion rate came, every sum agrees, and the rate
does not, where some order of the rows has it checked and some order does not. Where a NaN and the two
infinities were received and nothing was issued, an order that has the rate checked can also pass. -/
def OrderMatters (close : Decimal → Decimal → Bool) (rows : List Row) (footer : Option Footer) : Prop :=
  ∃ expected, (footer.getD ∅)["wcl_total"]? = some expected ∧ SumsAgree exact close rows footer
    ∧ ((Absorbed rows expected ∧ Contested ((footerKeys footer).filterMap totalColumn?) rows)
      ∨ (¬ Absorbed rows expected ∧ rateAgrees exact rows expected = false
        ∧ Hearable ((footerKeys footer).filterMap totalColumn?) rows
        ∧ Missable ((footerKeys footer).filterMap totalColumn?) rows))

variable {rows rows' : List Row}

/-- The exact sum of a column agrees with its total in every order, or in none. -/
theorem sumAgrees_of_perm (close : Decimal → Decimal → Bool) (h : rows.Perm rows')
    (column expected : String) :
    sumAgrees exact close rows column expected = sumAgrees exact close rows' column expected := by
  have hnumber : ∀ rows, sumAgrees exact close rows column expected
      = match number? (columnTotal exact rows column), Decimal.parse expected with
        | some total, some expected =>
          expected.isFinite && total.isFinite
            && if column ≠ "je" ∧ expected.isIntegral then total.eqValue expected
              else close total expected
        | _, _ => false := by
    intro rows
    unfold sumAgrees
    cases columnTotal exact rows column with
    | none => rfl
    | some total => cases total with
      | finite _ _ _ => rfl
      | infinity _ => rfl
      | nan _ _ _ => cases Decimal.parse expected with
        | none => rfl
        | some expected => simp [Decimal.isFinite]
  rw [hnumber, hnumber, columnTotal_eq, columnTotal_eq, columnValues, columnValues,
    number?_total_of_perm ((h.filter _).map _)]

theorem SumsAgree.of_perm {close : Decimal → Decimal → Bool} {footer : Option Footer}
    (h : rows.Perm rows') (hsums : SumsAgree exact close rows footer) :
    SumsAgree exact close rows' footer := by
  intro key expected column hmem hkey hsum hcolumn
  rw [← sumAgrees_of_perm close h]
  exact hsums key expected column hmem hkey hsum (hasColumn_of_perm h column ▸ hcolumn)

theorem number?_measureTotal_of_perm (h : rows.Perm rows') (column : String) :
    number? (measureTotal exact rows column) = number? (measureTotal exact rows' column) := by
  rw [measureTotal_eq, measureTotal_eq]
  exact number?_total_of_perm (h.map _)

/-- The cents of a NaN times one hundred are a NaN. -/
theorem isNan_cents {quotient ratio : Decimal} (hquotient : quotient.isNan = true)
    (h : (timesHundred 28 quotient).bind exact.quantizeCents = some ratio) : ratio.isNan = true := by
  cases quotient with
  | finite _ _ _ => cases hquotient
  | infinity _ => cases hquotient
  | nan _ signaling _ => cases signaling with
    | true => cases h
    | false =>
      cases h
      rfl

/-- A NaN is propagated. -/
theorem isNan_propagated {a b sum : Decimal} (hnan : a.anyNan b = true)
    (h : Decimal.propagated a b = some sum) : sum.isNan = true := by
  cases a with
  | nan _ signaling _ => cases signaling with
    | true => cases h
    | false => cases b with
      | finite _ _ _ => exact Option.some.inj h ▸ rfl
      | infinity _ => exact Option.some.inj h ▸ rfl
      | nan _ signaling _ => cases signaling with
        | true => cases h
        | false => exact Option.some.inj h ▸ rfl
  | finite _ _ _ => cases b with
    | finite _ _ _ => cases hnan
    | infinity _ => cases hnan
    | nan _ signaling _ => cases signaling with
      | true => cases h
      | false => exact Option.some.inj h ▸ rfl
  | infinity _ => cases b with
    | finite _ _ _ => cases hnan
    | infinity _ => cases hnan
    | nan _ signaling _ => cases signaling with
      | true => cases h
      | false => exact Option.some.inj h ▸ rfl

/-- A rate with a NaN in it, where something was issued, is a NaN. -/
theorem isNan_percentage {numerator denominator ratio : Decimal}
    (hnan : numerator.anyNan denominator = true) (hzero : denominator.isZero = false)
    (h : exact.percentage numerator denominator = some ratio) : ratio.isNan = true := by
  have hdivide : (divide 28 numerator denominator).bind
      (fun quotient => (timesHundred 28 quotient).bind exact.quantizeCents) = some ratio := by
    unfold percentage at h
    rw [hzero] at h
    cases numerator with
    | finite _ _ _ => cases denominator with
      | finite _ _ _ => cases hnan
      | infinity _ => cases hnan
      | nan _ _ _ => exact h
    | infinity _ => exact h
    | nan _ _ _ => exact h
  obtain ⟨quotient, hquotient, h⟩ := Option.bind_eq_some_iff.mp hdivide
  unfold divide at hquotient
  rw [if_pos hnan] at hquotient
  exact isNan_cents (isNan_propagated hnan hquotient) h

/-- **The rate of some rows**, read off the totals as numbers and off whether the received quantities
have a total. -/
theorem rateAgrees_eq (rows : List Row) (expected : String) :
    rateAgrees exact rows expected
      = match number? (measureTotal exact rows "fhsl") with
        | none => false
        | some denominator =>
          if denominator.isZero then
            (measureTotal exact rows "sssl").isSome && zeroRateAgrees expected
          else match number? (measureTotal exact rows "sssl") with
            | none => false
            | some numerator => quotientAgrees numerator denominator expected := by
  have hrate : completionRate exact rows = (measureTotal exact rows "sssl").bind (fun numerator =>
      (measureTotal exact rows "fhsl").bind (exact.percentage numerator)) := rfl
  -- a rate that is a NaN agrees with nothing
  have hnever : ∀ {numerator denominator}, numerator.anyNan denominator = true →
      denominator.isZero = false → quotientAgrees numerator denominator expected = false := by
    intro numerator denominator hnan hzero
    unfold quotientAgrees
    cases hratio : exact.percentage numerator denominator with
    | none => rfl
    | some ratio =>
      have hnan := isNan_percentage hnan hzero hratio
      cases ratio with
      | finite _ _ _ => cases hnan
      | infinity _ => cases hnan
      | nan _ _ _ => cases (Decimal.parse expected).bind exact.quantizeCents <;> rfl
  unfold rateAgrees
  rw [hrate]
  cases measureTotal exact rows "fhsl" with
  | none => cases measureTotal exact rows "sssl" <;> rfl
  | some denominator =>
    cases hnumerator : measureTotal exact rows "sssl" with
    | none => cases denominator with
      | finite _ _ _ => simp
      | infinity _ => rfl
      | nan _ _ _ => rfl
    | some numerator =>
      show quotientAgrees numerator denominator expected = _
      cases hzero : denominator.isZero with
      | true => cases denominator with
        | infinity _ => cases hzero
        | nan _ _ _ => cases hzero
        | finite n c e =>
          rw [number?_finite]
          simp only [hzero, if_true, Option.isSome_some, Bool.true_and]
          have hratio : exact.percentage numerator (Decimal.finite n c e)
              = some (Decimal.finite false 0 (-2)) := by
            unfold percentage
            rw [hzero, if_pos rfl]
            rfl
          unfold quotientAgrees zeroRateAgrees
          rw [hratio]
          cases (Decimal.parse expected).bind exact.quantizeCents <;> rfl
      | false => cases denominator with
        | nan _ _ _ => exact hnever (by cases numerator <;> rfl) hzero
        | finite _ _ _ => cases numerator with
          | nan _ _ _ =>
            simp only [number?_finite, hzero, number?_nan, Bool.false_eq_true, if_false]
            exact hnever rfl hzero
          | finite _ _ _ => simp [hzero]
          | infinity _ => simp [hzero]
        | infinity _ => cases numerator with
          | nan _ _ _ =>
            simp only [number?_infinity, hzero, number?_nan, Bool.false_eq_true, if_false]
            exact hnever rfl hzero
          | finite _ _ _ => simp [hzero]
          | infinity _ => simp [hzero]

theorem Absorbed.of_perm {expected : String} (h : rows.Perm rows') (habsorbed : Absorbed rows expected) :
    Absorbed rows' expected := by
  obtain ⟨hundecided, hissued, hzero⟩ := habsorbed
  rw [number?_measureTotal_of_perm h] at hissued
  exact ⟨hundecided.of_perm (h.map _), hissued, hzero⟩

theorem Contested.of_perm (h : rows.Perm rows') (hcontested : Contested wanted rows) :
    Contested wanted rows' := by
  rcases hcontested with hnumbers | ⟨column, hcolumn, hinfinities, row, hrow, hquantities⟩
  · exact .inl (hnumbers.of_perm (h.filter _))
  · refine .inr ⟨column, hcolumn, fun negative => ?_, row, h.mem_iff.mp hrow, fun quantity hquantity => ?_⟩
    · obtain ⟨row, hrow, hinfinity⟩ := hinfinities negative
      exact ⟨row, (h.filter _).mem_iff.mp hrow, hinfinity⟩
    · rw [← hquantities quantity hquantity]
      exact hasColumn_of_perm (((h.filter _).append_right _).symm) quantity

/-- The rate agrees in every order or in none, unless a NaN keeps infinities from meeting. -/
theorem rateAgrees_of_perm {expected : String} (h : rows.Perm rows')
    (hnot : ¬ Absorbed rows expected) :
    rateAgrees exact rows expected = rateAgrees exact rows' expected := by
  rw [rateAgrees_eq, rateAgrees_eq, ← number?_measureTotal_of_perm h "sssl",
    ← number?_measureTotal_of_perm h "fhsl"]
  cases hissued : number? (measureTotal exact rows "fhsl") with
  | none => rfl
  | some denominator =>
    by_cases hzero : denominator.isZero = true ∧ zeroRateAgrees expected = true
    · have hdecided : ¬ Undecided (rows.map (quantityOf "sssl")) := fun hundecided =>
        hnot ⟨hundecided, ⟨denominator, hissued, hzero.1⟩, hzero.2⟩
      rw [measureTotal_eq _ rows "sssl", measureTotal_eq _ rows' "sssl",
        isSome_total_of_perm (h.map _) hdecided]
    · cases hissuedZero : denominator.isZero with
      | false => simp only [hissuedZero, Bool.false_eq_true, if_false]
      | true =>
        have hdiffers : zeroRateAgrees expected = false := by
          rw [Bool.eq_false_iff]
          exact fun h => hzero ⟨hissuedZero, h⟩
        simp only [hdiffers, Bool.and_false]

/-- Where the infinities may be kept from meeting, the rate agrees where they are. -/
theorem rateAgrees_of_absorbed {expected : String} (habsorbed : Absorbed rows expected) :
    rateAgrees exact rows expected = (measureTotal exact rows "sssl").isSome := by
  obtain ⟨-, ⟨denominator, hissued, hzero⟩, hagrees⟩ := habsorbed
  rw [rateAgrees_eq, hissued, hagrees]
  simp only [hzero, if_true, Bool.and_true]

/-! ## Orders of the rows -/

/-- A list with the rows that pass a test first. -/
theorem perm_filter_append (p : Row → Bool) (rows : List Row) :
    rows.Perm (rows.filter p ++ rows.filter (fun row => !p row)) :=
  (List.filter_append_perm p rows).symm

/-- The rows without a column come first, and a row that completes the quantities after them. -/
theorem exists_lacking_order {column : String} {row : Row} (hrow : row ∈ rows)
    (h : ∀ quantity ∈ rateColumns, hasColumn (lackingRows column rows ++ [row]) quantity = true) :
    ∃ rest, rows.Perm (lackingRows column rows ++ rest) ∧
      ∀ quantity ∈ rateColumns, hasColumn (lackingRows column rows ++ rest.take 1) quantity = true := by
  have hperm := perm_filter_append (fun row => !row.contains column) rows
  by_cases hcontains : row.contains column = true
  · have hmem : row ∈ rows.filter (fun row => !!row.contains column) :=
      List.mem_filter.mpr ⟨hrow, by simpa using hcontains⟩
    exact ⟨row :: (rows.filter (fun row => !!row.contains column)).erase row,
      hperm.trans ((List.perm_cons_erase hmem).append_left _), h⟩
  · refine ⟨_, hperm, fun quantity hquantity => ?_⟩
    -- the row is one of those without the column
    refine hasColumn_mono (fun other hother => ?_) (h quantity hquantity)
    rcases List.mem_append.mp hother with hother | hother
    · exact List.mem_append_left _ hother
    · rw [List.mem_singleton.mp hother]
      exact List.mem_append_left _ (mem_lackingRows.mpr
        ⟨hrow, Bool.eq_false_iff.mpr hcontains⟩)

/-- **An order that has the rate checked**, with more rows behind. -/
theorem Hearable.exists_order (h : Hearable wanted rows) (more : List Row) :
    ∃ rows', rows.Perm rows'
      ∧ ∀ quantity ∈ rateColumns, quantity ∈ scannedColumns wanted [] (rows' ++ more) := by
  obtain ⟨column, hcolumn, row, hrow, hquantities⟩ := h
  obtain ⟨rest, hperm, hheard⟩ := exists_lacking_order hrow hquantities
  refine ⟨_, hperm, fun quantity hquantity => ?_⟩
  rw [List.append_assoc]
  refine mem_scannedColumns_of_lacking hcolumn List.not_mem_nil
    (fun row hrow => (mem_lackingRows.mp hrow).2) (.inr ?_)
  refine hasColumn_mono (fun other hother => ?_) (hheard quantity hquantity)
  rcases List.mem_append.mp hother with hother | hother
  · exact List.mem_append_left _ hother
  · refine List.mem_append_right _ ?_
    cases rest with
    | nil => cases hother
    | cons first rest => exact hother

/-- **An order in which the check of the rate is missed.** -/
theorem Missable.exists_order (hwanted : wanted ≠ []) (h : Missable wanted rows) :
    ∃ rows', rows.Perm rows'
      ∧ ¬ ∀ quantity ∈ rateColumns, quantity ∈ scannedColumns wanted [] rows' := by
  obtain ⟨quantity, hquantity, hcolumns⟩ := h
  refine ⟨_, perm_filter_append (fun row => !row.contains quantity) rows, fun hheard => ?_⟩
  obtain ⟨column, hcolumn⟩ := List.exists_mem_of_ne_nil _ hwanted
  rcases hasColumn_of_mem_scannedColumns ⟨column, hcolumn, List.not_mem_nil⟩
    (fun column hcolumn => .inr (hcolumns column hcolumn)) (hheard quantity hquantity) with hnil | hhas
  · cases hnil
  · exact Bool.noConfusion ((hasColumn_lackingRows quantity rows).symm.trans hhas)

/-- **An order that has the rate checked and the infinities meet.** -/
theorem Contested.exists_order {expected : String} (habsorbed : Absorbed rows expected)
    (h : Contested wanted rows) :
    ∃ rows', rows.Perm rows' ∧ measureTotal exact rows' "sssl" = none
      ∧ ∀ quantity ∈ rateColumns, quantity ∈ scannedColumns wanted [] rows' := by
  -- the infinities meet where only numbers come before them
  have hmeet : ∀ (front rest : List Row),
      (∀ row ∈ front, (number? (quantityOf "sssl" row)).isSome = true) →
      (∀ negative, ∃ row ∈ front, quantityOf "sssl" row = some (Decimal.infinity negative)) →
      measureTotal exact (front ++ rest) "sssl" = none := by
    intro front rest hnumbers hinfinities
    rw [measureTotal_eq, List.map_append]
    refine total_eq_none_of_infinities _ (fun d hd => ?_) (fun negative => ?_)
    · obtain ⟨row, hrow, hquantity⟩ := List.mem_map.mp hd
      have hnumber := hnumbers row hrow
      rw [hquantity] at hnumber
      cases d with
      | nan _ _ _ => cases hnumber
      | finite _ _ _ => rfl
      | infinity _ => rfl
    · obtain ⟨row, hrow, hquantity⟩ := hinfinities negative
      exact List.mem_map.mpr ⟨row, hrow, hquantity⟩
  rcases h with hnumbers | ⟨column, hcolumn, hinfinities, row, hrow, hquantities⟩
  · obtain ⟨front, hperm, hheard⟩ := hnumbers.exists_order
      (rows.filter (fun row => !(number? (quantityOf "sssl" row)).isSome))
    refine ⟨_, (perm_filter_append _ rows).trans (hperm.append_right _), ?_, hheard⟩
    refine hmeet front _ (fun row hrow => ?_) (fun negative => ?_)
    · exact (List.mem_filter.mp (hperm.mem_iff.mpr hrow)).2
    · obtain ⟨row, hrow, hinfinity⟩ := List.mem_map.mp (habsorbed.1.2.2 negative)
      refine ⟨row, hperm.mem_iff.mp (List.mem_filter.mpr ⟨hrow, ?_⟩), hinfinity⟩
      rw [hinfinity]
      rfl
  · obtain ⟨rest, hperm, hheard⟩ := exists_lacking_order hrow hquantities
    have hfront := perm_filter_append (fun row => (number? (quantityOf "sssl" row)).isSome)
      (lackingRows column rows)
    refine ⟨_, hperm.trans (hfront.append_right _), ?_, fun quantity hquantity => ?_⟩
    · rw [List.append_assoc]
      refine hmeet _ _ (fun row hrow => (List.mem_filter.mp hrow).2) (fun negative => ?_)
      obtain ⟨row, hrow, hinfinity⟩ := hinfinities negative
      refine ⟨row, List.mem_filter.mpr ⟨hrow, ?_⟩, hinfinity⟩
      rw [hinfinity]
      rfl
    · refine mem_scannedColumns_of_lacking hcolumn List.not_mem_nil
        (fun row hrow => (mem_lackingRows.mp (hfront.mem_iff.mpr hrow)).2) (.inr ?_)
      rw [hasColumn_of_perm (hfront.append_right _).symm]
      exact hheard quantity hquantity

/-- An order that has the rate checked shows that it can be. -/
theorem hearable_of_scanned (hwanted : wanted ≠ []) (hrows : rows ≠ [])
    (h : ∀ quantity ∈ rateColumns, quantity ∈ scannedColumns wanted [] rows) :
    Hearable wanted rows := by
  obtain ⟨front, row, rest, hsplit, hseen, ⟨missing, hmissing, hlacks⟩, -⟩ :=
    exists_stop hwanted hrows
  refine ⟨missing, hmissing, row, by simp [hsplit], fun quantity hquantity => ?_⟩
  refine hasColumn_mono (fun other hother => ?_) ((hseen quantity).mp (h quantity hquantity))
  rcases List.mem_append.mp hother with hother | hother
  · refine List.mem_append_left _ (mem_lackingRows_of_hasColumn_false (fun row hrow => ?_) hlacks
      other hother)
    rw [hsplit]
    exact List.mem_append_left _ hrow
  · exact List.mem_append_right _ hother

/-- An order in which the check of the rate is missed shows that it can be. -/
theorem missable_of_not_scanned (hwanted : wanted ≠ []) (hrows : rows ≠ [])
    (hhearable : Hearable wanted rows)
    (h : ¬ ∀ quantity ∈ rateColumns, quantity ∈ scannedColumns wanted [] rows) :
    Missable wanted rows := by
  obtain ⟨front, row, rest, hsplit, hseen, -, hstop⟩ := exists_stop hwanted hrows
  push Not at h
  obtain ⟨quantity, hquantity, hmissed⟩ := h
  rw [hseen, Bool.not_eq_true] at hmissed
  rcases hstop with rfl | hall
  · -- the scan saw every row, so no order has the rate checked
    have hhas := hhearable.hasColumn quantity hquantity
    rw [hsplit, hmissed] at hhas
    cases hhas
  · refine ⟨quantity, hquantity, fun column hcolumn => ?_⟩
    refine hasColumn_mono (mem_lackingRows_of_hasColumn_false (fun row hrow => ?_) hmissed)
      (hall column hcolumn)
    rw [hsplit, List.append_cons]
    exact List.mem_append_left _ hrow

/-- **An order that has the rate checked and refused** has the infinities before the NaNs. -/
theorem contested_of_scanned {expected : String} (hwanted : wanted ≠ []) (hrows : rows ≠ [])
    (habsorbed : Absorbed rows expected) (htotal : measureTotal exact rows "sssl" = none)
    (h : ∀ quantity ∈ rateColumns, quantity ∈ scannedColumns wanted [] rows) :
    Contested wanted rows := by
  obtain ⟨front, row, rest, hsplit, hseen, ⟨missing, hmissing, hlacks⟩, -⟩ :=
    exists_stop hwanted hrows
  -- the rows up to where the infinities meet
  obtain ⟨quantities, others, hmap, hnumbers, hinfinities⟩ :=
    exists_prefix_of_total_none habsorbed.1.1 ((measureTotal_eq _ _ _).symm.trans htotal)
  obtain ⟨met, unmet, hmet, rfl, rfl⟩ := List.map_eq_append_iff.mp hmap
  have hnumberRows : ∀ row ∈ met, row ∈ numberRows rows := by
    intro row hrow
    refine List.mem_filter.mpr ⟨by rw [hmet]; exact List.mem_append_left _ hrow, ?_⟩
    have hraises := habsorbed.1.1 (quantityOf "sssl" row)
      (List.mem_map_of_mem (by rw [hmet]; exact List.mem_append_left _ hrow))
    cases hquantity : quantityOf "sssl" row with
    | none =>
      rw [hquantity] at hraises
      cases hraises
    | some d =>
      have hnan := hnumbers d (hquantity ▸ List.mem_map_of_mem hrow)
      cases d with
      | nan _ _ _ => cases hnan
      | finite _ _ _ => rfl
      | infinity _ => rfl
  have hcompare : (front ++ [row]) <+: met ∨ met <+: front := by
    have hmetPrefix : met <+: (front ++ [row]) ++ rest := by
      rw [← List.append_cons, ← hsplit, hmet]
      exact List.prefix_append _ _
    rcases List.prefix_or_prefix_of_prefix hmetPrefix (List.prefix_append _ _) with hle | hle
    · rcases List.prefix_concat_iff.mp hle with heq | hle
      · exact .inl (heq ▸ List.prefix_refl _)
      · exact .inr hle
    · exact .inl hle
  rcases hcompare with hbefore | hafter
  · refine .inl ⟨missing, hmissing, row, hnumberRows row (hbefore.mem (by simp)),
      fun quantity hquantity => ?_⟩
    refine hasColumn_mono (fun other hother => ?_) ((hseen quantity).mp (h quantity hquantity))
    rcases List.mem_append.mp hother with hother | hother
    · refine List.mem_append_left _ (mem_lackingRows_of_hasColumn_false (fun row hrow => ?_) hlacks
        other hother)
      exact hnumberRows row (hbefore.mem (List.mem_append_left _ hrow))
    · exact List.mem_append_right _ hother
  · have hfront : ∀ other ∈ front, other ∈ lackingRows missing rows :=
      mem_lackingRows_of_hasColumn_false (fun row hrow => by
        rw [hsplit]
        exact List.mem_append_left _ hrow) hlacks
    refine .inr ⟨missing, hmissing, fun negative => ?_, row, by simp [hsplit],
      fun quantity hquantity => ?_⟩
    · obtain ⟨other, hother, hinfinity⟩ := List.mem_map.mp (hinfinities negative)
      exact ⟨other, hfront other (hafter.mem hother), hinfinity⟩
    · refine hasColumn_mono (fun other hother => ?_) ((hseen quantity).mp (h quantity hquantity))
      rcases List.mem_append.mp hother with hother | hother
      · exact List.mem_append_left _ (hfront other hother)
      · exact List.mem_append_right _ hother

/-! ## Order independence -/

theorem OrderMatters.of_perm {close : Decimal → Decimal → Bool} {footer : Option Footer}
    (h : rows.Perm rows') (hmatters : OrderMatters close rows footer) :
    OrderMatters close rows' footer := by
  obtain ⟨expected, hmem, hsums, hmatters⟩ := hmatters
  refine ⟨expected, hmem, hsums.of_perm h, ?_⟩
  rcases hmatters with ⟨habsorbed, hcontested⟩ | ⟨hnot, hdiffers, hhearable, hmissable⟩
  · exact .inl ⟨habsorbed.of_perm h, hcontested.of_perm h⟩
  · refine .inr ⟨fun habsorbed => hnot (habsorbed.of_perm h.symm), ?_, hhearable.of_perm h,
      hmissable.of_perm h⟩
    rw [← rateAgrees_of_perm h hnot]
    exact hdiffers

/-- The completion rate of a footer is a wanted column. -/
theorem wanted_ne_nil {footer : Option Footer} {expected : String}
    (hmem : (footer.getD ∅)["wcl_total"]? = some expected) :
    (footerKeys footer).filterMap totalColumn? ≠ [] := by
  refine List.ne_nil_of_mem (List.mem_filterMap.mpr ⟨"wcl_total", ?_, totalColumn?_wcl⟩)
  rw [footerKeys, Std.ExtTreeMap.mem_keys, Std.ExtTreeMap.mem_iff_isSome_getElem?, hmem]
  rfl

/-- **Two orders with two verdicts** show that the order matters. -/
theorem orderMatters_of_differs {close : Decimal → Decimal → Bool} {footer : Option Footer}
    (h : rows.Perm rows') (hrows : rows ≠ [])
    (haccepted : footerReconciles exact close rows' footer = true)
    (hrefused : footerReconciles exact close rows footer = false) : OrderMatters close rows footer := by
  have hrows' : rows' ≠ [] := fun hnil => hrows (List.perm_nil.mp (hnil ▸ h))
  obtain ⟨hsums', hrate'⟩ := (footerReconciles_iff exact close hrows' footer).mp haccepted
  have hsums := hsums'.of_perm h.symm
  have hrate := mt (footerReconciles_iff exact close hrows footer).mpr (by rw [hrefused]; decide)
  push Not at hrate
  obtain ⟨expected, hmem, hheard, hdiffers⟩ := hrate hsums
  rw [ne_eq, Bool.not_eq_true] at hdiffers
  have hwanted := wanted_ne_nil hmem
  refine ⟨expected, hmem, hsums, ?_⟩
  by_cases habsorbed : Absorbed rows expected
  · rw [rateAgrees_of_absorbed habsorbed, Option.isSome_eq_false_iff, Option.isNone_iff_eq_none] at hdiffers
    exact .inl ⟨habsorbed, contested_of_scanned hwanted hrows habsorbed hdiffers hheard⟩
  · have hhearable := hearable_of_scanned hwanted hrows hheard
    refine .inr ⟨habsorbed, hdiffers, hhearable, ?_⟩
    refine (missable_of_not_scanned hwanted hrows' (hhearable.of_perm h) (fun hheard' => ?_)).of_perm h.symm
    have hagrees := hrate' expected hmem hheard'
    rw [← rateAgrees_of_perm h habsorbed, hdiffers] at hagrees
    cases hagrees

/-- **The verdict on a footer is the same for every order of the rows**, in exact arithmetic, if and only
if the order does not matter: a footer without a completion rate, or with one that agrees with the rows, or
with a sum that does not, gets one verdict, and so do rows whose quantities every scan sees or none. -/
theorem footerReconciles_order_free_iff (close : Decimal → Decimal → Bool) (rows : List Row)
    (footer : Option Footer) :
    (∀ rows', rows.Perm rows' →
        footerReconciles exact close rows footer = footerReconciles exact close rows' footer)
      ↔ ¬ OrderMatters close rows footer := by
  constructor
  · rintro hsame ⟨expected, hmem, hsums, hmatters⟩
    have hwanted := wanted_ne_nil hmem
    -- two orders, of which one is accepted and one refused
    have hdiffers : ∀ {accepted refused : List Row}, rows.Perm accepted → rows.Perm refused →
        accepted ≠ [] → refused ≠ [] →
        ((∀ quantity ∈ rateColumns, quantity
            ∈ scannedColumns ((footerKeys footer).filterMap totalColumn?) [] accepted) →
          rateAgrees exact accepted expected = true) →
        (∀ quantity ∈ rateColumns, quantity
          ∈ scannedColumns ((footerKeys footer).filterMap totalColumn?) [] refused) →
        rateAgrees exact refused expected = false → False := by
      intro accepted refused haccepted hrefused hne hne' hpasses hheard hfails
      have htrue : footerReconciles exact close accepted footer = true := by
        refine (footerReconciles_iff exact close hne footer).mpr ⟨hsums.of_perm haccepted, ?_⟩
        intro other hother
        rw [hmem] at hother
        exact Option.some.inj hother ▸ hpasses
      rw [← hsame accepted haccepted, hsame refused hrefused] at htrue
      have hrate := ((footerReconciles_iff exact close hne' footer).mp htrue).2 expected hmem hheard
      rw [hfails] at hrate
      cases hrate
    have hne : ∀ {row : Row} {rows' : List Row}, rows.Perm rows' → row ∈ rows → rows' ≠ [] :=
      fun hperm hrow => List.ne_nil_of_mem (hperm.mem_iff.mp hrow)
    rcases hmatters with ⟨habsorbed, hcontested⟩ | ⟨hnot, hfails, hhearable, hmissable⟩
    · obtain ⟨refused, hrefused, htotal, hheard⟩ := hcontested.exists_order habsorbed
      obtain ⟨value, hvalue, hnan⟩ := habsorbed.1.2.1
      obtain ⟨row, hrow, rfl⟩ := List.mem_map.mp hvalue
      have haccepted := List.perm_cons_erase hrow
      refine hdiffers haccepted hrefused (hne haccepted hrow) (hne hrefused hrow) (fun _ => ?_) hheard ?_
      · rw [rateAgrees_of_absorbed (habsorbed.of_perm haccepted), measureTotal_eq]
        exact isSome_total_cons_nan hnan (habsorbed.of_perm haccepted).1.1
      · rw [rateAgrees_of_absorbed (habsorbed.of_perm hrefused), htotal]
        rfl
    · obtain ⟨refused, hrefused, hheard⟩ := hhearable.exists_order []
      rw [List.append_nil] at hheard
      obtain ⟨accepted, haccepted, hmissed⟩ := hmissable.exists_order hwanted
      obtain ⟨-, -, row, hrow, -⟩ := hhearable
      refine hdiffers haccepted hrefused (hne haccepted hrow) (hne hrefused hrow)
        (fun hheard => absurd hheard hmissed) hheard ?_
      rw [← rateAgrees_of_perm hrefused hnot]
      exact hfails
  · intro hnot rows' hperm
    by_cases hrows : rows = []
    · subst hrows
      rw [List.nil_perm.mp hperm]
    · have hrows' : rows' ≠ [] := fun hnil => hrows (List.perm_nil.mp (hnil ▸ hperm))
      cases hverdict : footerReconciles exact close rows footer <;>
        cases hverdict' : footerReconciles exact close rows' footer
      · rfl
      · exact absurd (orderMatters_of_differs hperm hrows hverdict' hverdict) hnot
      · exact absurd ((orderMatters_of_differs hperm.symm hrows' hverdict hverdict').of_perm hperm.symm) hnot
      · rfl

/-- Two rows of payroll by day: one with a rate and without quantities, one with all three. -/
def rateFirst : List Row :=
  [Row.ofTexts [("wcl", "50.00")], Row.ofTexts [("fhsl", "10"), ("sssl", "5"), ("wcl", "50.00")]]

/-- **A wrong rate is passed over or refused**, depending on which row came first. -/
theorem footerReconciles_reordered :
    rateFirst.Perm rateFirst.reverse
      ∧ footerReconciles exact Decimal.eqValue rateFirst
          (some (Std.ExtTreeMap.ofList [("wcl_total", "99.00")])) = true
      ∧ footerReconciles exact Decimal.eqValue rateFirst.reverse
          (some (Std.ExtTreeMap.ofList [("wcl_total", "99.00")])) = false := by
  refine ⟨(List.reverse_perm _).symm, ?_, ?_⟩
  · decide +kernel
  · decide +kernel
