import FactoryAgent.Cache.Rows

/-!
# Totals

The two sides of a footer: `recomputed_footer` sums the rows that are served, `footer_reconciles`
compares the sums of fetched rows with the totals that came with them. A completion rate is no sum:
it is computed again from the received and the issued quantities.

Both take the decimal context as a parameter. The comparison of two totals as floats, within a
relative tolerance, is a parameter as well.
-/

variable (context : DecimalContext)

/-- The totals that are ratios, `NON_ADDITIVE_FOOTER_COLUMNS`. -/
def nonAdditiveFooterColumns : List String := ["wcl"]

/-- Whether one of the rows has a column. -/
def hasColumn (rows : List Row) (column : String) : Bool :=
  rows.any (fun row => row.contains column)

/-- A total with the value of one more row: blank and missing values do not count. -/
def addCell (column : String) (total : Decimal) (row : Row) : Option Decimal :=
  if row.cell column = .null ∨ row.cell column = .text "" then some total
  else (Decimal.parse (row.cell column).str).bind (context.add total)

/-- The sum of a column, where its values are numbers. -/
def columnTotal (rows : List Row) (column : String) : Option Decimal :=
  rows.foldlM (addCell context column) Decimal.zero

/-- The sum of a measure, with zero for what is empty. -/
def measureTotal (rows : List Row) (column : String) : Option Decimal :=
  rows.foldlM (fun total row =>
    (Decimal.parse ((row.cell column).orElse "0")).bind (context.add total)) Decimal.zero

/-- The completion rate of some rows: received by issued, in percent. -/
def completionRate (rows : List Row) : Option Decimal := do
  let numerator ← measureTotal context rows "sssl"
  let denominator ← measureTotal context rows "fhsl"
  context.percentage numerator denominator

/-- The total of one name over some rows, where it can be computed. -/
def recomputedTotal (rows : List Row) (key : String) : Option String :=
  match totalColumn? key with
  | none => none
  | some column =>
    if column ∈ nonAdditiveFooterColumns then
      if hasColumn rows "sssl" && hasColumn rows "fhsl" then
        (completionRate context rows).map Decimal.toText
      else none
    else if rows ≠ [] && !hasColumn rows column then none
    else (columnTotal context rows column).map Decimal.toText

/-- **The totals of the rows that are served**, under the names that the footer has:
`recomputed_footer`. -/
def recomputedFooter (rows : List Row) (footer : Option Footer) : Option Footer :=
  let totals : Footer := (footer.getD ∅).filterMap (fun key _ => recomputedTotal context rows key)
  if totals.isEmpty then none else some totals

/-- **Of a footer, only its names are served.** -/
theorem recomputedFooter_congr (rows : List Row) {left right : Option Footer}
    (h : ∀ key, key ∈ footerKeys left ↔ key ∈ footerKeys right) :
    recomputedFooter context rows left = recomputedFooter context rows right := by
  have hmem : ∀ key, key ∈ left.getD ∅ ↔ key ∈ right.getD ∅ := fun key => by
    rw [← Std.ExtTreeMap.mem_keys, ← Std.ExtTreeMap.mem_keys]
    exact h key
  have htotals : (left.getD ∅).filterMap (fun key _ => recomputedTotal context rows key)
      = (right.getD ∅).filterMap (fun key _ => recomputedTotal context rows key) := by
    refine Std.ExtTreeMap.ext_getElem? (fun key => ?_)
    rw [Std.ExtTreeMap.getElem?_filterMap', Std.ExtTreeMap.getElem?_filterMap']
    have hkey := hmem key
    rw [Std.ExtTreeMap.mem_iff_isSome_getElem?, Std.ExtTreeMap.mem_iff_isSome_getElem?] at hkey
    cases hl : (left.getD ∅)[key]? <;> cases hr : (right.getD ∅)[key]? <;> simp_all
  unfold recomputedFooter
  rw [htotals]

/-! ## The check of a fetched footer -/

/-- The columns that the scan of the rows sees: it stops at the row that completes the wanted
ones. -/
def scannedColumns (wanted : List String) : List String → List Row → List String
  | seen, [] => seen
  | seen, row :: rows =>
    let seen := seen ++ row.keys
    if wanted.all (fun column => decide (column ∈ seen)) then seen
    else scannedColumns wanted seen rows

/-- Whether one total that came agrees with the rows. What cannot be computed is not checked. -/
def totalReconciles (close : Decimal → Decimal → Bool) (rows : List Row) (seen : List String)
    (key expected : String) : Bool :=
  match totalColumn? key with
  | none => true
  | some column =>
    if rows = [] then (Decimal.parse expected).any Decimal.isZero
    else if column ∈ nonAdditiveFooterColumns then
      if "sssl" ∈ seen ∧ "fhsl" ∈ seen then
        match (recomputedTotal context rows key).bind Decimal.parse,
            (Decimal.parse expected).bind context.quantizeCents with
        | some ratio, some expected => ratio.eqValue expected
        | _, _ => false
      else true
    else if column ∉ seen then true
    else
      match columnTotal context rows column, Decimal.parse expected with
      | some total, some expected =>
        expected.isFinite && total.isFinite
          -- Amounts of money are compared as floats even where the total is a whole number.
          && if column ≠ "je" ∧ expected.isIntegral then total.eqValue expected
            else close total expected
      | _, _ => false

/-- **Whether the totals that came agree with the rows**: `footer_reconciles`. -/
def footerReconciles (close : Decimal → Decimal → Bool) (rows : List Row)
    (footer : Option Footer) : Bool :=
  let wanted := (footerKeys footer).filterMap totalColumn?
  let seen := scannedColumns wanted [] rows
  (footer.getD ∅).toList.all (fun total =>
    totalReconciles context close rows seen total.1 total.2)
