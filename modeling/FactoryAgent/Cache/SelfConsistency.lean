import FactoryAgent.Cache.Reconciliation
import FactoryAgent.Cache.View
import FactoryAgent.Lib.DecimalFloat

/-!
# The totals that are served with rows

`recomputed_footer` and `footer_reconciles` are two readings of the same rows. The first looks at the
columns of all rows, the second stops early; the first drops what it cannot compute, the second refuses
it. They agree on what the first writes down: a total that is served is read back as the number that was
computed (`Decimal.parse_toText`), the sum of finite numbers is finite, and a rate that was rounded to two
decimals is not rounded again. The second may look at fewer totals, never at others.
-/

open DecimalContext

/-- **The numbers of the rows are finite**: every cell is blank, a finite number, or no number. -/
def FiniteCells (rows : List Row) : Prop :=
  ∀ row ∈ rows, ∀ column d, Decimal.parse (row.cell column).str = some d → d.isFinite = true

/-- Only the cells that are there count: a missing cell is no number. -/
theorem finiteCells_iff (rows : List Row) :
    FiniteCells rows ↔ (rows.all (fun row => row.toList.all (fun cell =>
      (Decimal.parse cell.2.str).all Decimal.isFinite))) = true := by
  simp only [List.all_eq_true, Prod.forall, Std.ExtTreeMap.mem_toList_iff_getElem?_eq_some,
    Option.all_eq_true]
  constructor
  · intro h row hrow column cell hcell d hd
    refine h row hrow column d ?_
    rw [Row.cell_eq, hcell]
    exact hd
  · intro h row hrow column d hd
    rw [Row.cell_eq] at hd
    cases hcell : row[column]? with
    | none =>
      have hnone : Decimal.parse Cell.null.str = none := by decide
      rw [hcell, Option.getD_none, hnone] at hd
      cases hd
    | some cell =>
      rw [hcell, Option.getD_some] at hd
      exact h row hrow column cell hcell d hd

instance (rows : List Row) : Decidable (FiniteCells rows) :=
  decidable_of_iff _ (finiteCells_iff rows).symm

namespace DecimalContext

variable {context : DecimalContext}

/-- The total of finite numbers is finite. -/
theorem isFinite_total {values : List (Option Decimal)}
    (hvalues : ∀ d, some d ∈ values → d.isFinite = true) {sum : Decimal}
    (h : context.total values = some sum) : sum.isFinite = true :=
  total_induction (I := fun d => d.isFinite = true) rfl isFinite_add hvalues h

/-- A number with two decimals is not rounded, where its digits fit. -/
theorem quantizeCents_cents {negative : Bool} {cents : Nat}
    (h : context.precision.all (fun precision => decide (Decimal.digitCount cents ≤ precision)) = true) :
    context.quantizeCents (.finite negative cents (-2)) = some (.finite negative cents (-2)) := by
  unfold quantizeCents
  dsimp only
  rw [if_pos (Int.le_refl _), Decimal.coefficientAt_self, if_pos h]

/-- **What is rounded to two decimals is not rounded again.** -/
theorem quantizeCents_quantized {d cents : Decimal} (hfinite : d.isFinite = true)
    (h : context.quantizeCents d = some cents) :
    cents.isFinite = true ∧ context.quantizeCents cents = some cents := by
  cases d with
  | infinity _ => cases hfinite
  | nan _ _ _ => cases hfinite
  | finite negative coefficient exponent =>
    obtain ⟨digits, hdigits⟩ : ∃ digits, context.quantizeCents (.finite negative coefficient exponent)
        = if context.precision.all (fun precision => decide (Decimal.digitCount digits ≤ precision)) then
            some (.finite negative digits (-2)) else none := ⟨_, rfl⟩
    rw [hdigits] at h
    split at h
    · next hfits =>
      cases h
      exact ⟨rfl, quantizeCents_cents hfits⟩
    · cases h

/-- A quotient of finite numbers is finite. -/
theorem isFinite_divide {precision : Nat} {a b quotient : Decimal} (ha : a.isFinite = true)
    (hb : b.isFinite = true) (h : divide precision a b = some quotient) :
    quotient.isFinite = true := by
  cases a with
  | infinity _ => cases ha
  | nan _ _ _ => cases ha
  | finite n₁ c₁ e₁ => cases b with
    | infinity _ => cases hb
    | nan _ _ _ => cases hb
    | finite n₂ c₂ e₂ =>
      have hround : ∀ coefficient exponent,
          (Decimal.rounded precision (n₁ != n₂) coefficient exponent).isFinite = true :=
        @isFinite_round ⟨some precision⟩ _
      unfold divide at h
      rw [if_neg (show ¬ (Decimal.finite n₁ c₁ e₁).anyNan (.finite n₂ c₂ e₂) = true from
        Bool.false_ne_true)] at h
      dsimp only at h
      split at h
      · exact Option.some.inj h ▸ rfl
      · exact Option.some.inj h ▸ hround _ _

/-- A rate of finite numbers is finite and has two decimals. -/
theorem percentage_quantized {numerator denominator ratio : Decimal}
    (hnumerator : numerator.isFinite = true) (hdenominator : denominator.isFinite = true)
    (h : context.percentage numerator denominator = some ratio) :
    ratio.isFinite = true ∧ context.quantizeCents ratio = some ratio := by
  cases numerator with
  | infinity _ => cases hnumerator
  | nan _ _ _ => cases hnumerator
  | finite n₁ c₁ e₁ => cases denominator with
    | infinity _ => cases hdenominator
    | nan _ _ _ => cases hdenominator
    | finite n₂ c₂ e₂ =>
      unfold percentage at h
      split at h
      · exact quantizeCents_quantized rfl h
      · cases hprecision : context.precision with
        | none =>
          rw [hprecision] at h
          exact Option.some.inj h ▸ ⟨rfl, quantizeCents_cents (by rw [hprecision]; rfl)⟩
        | some precision =>
          rw [hprecision] at h
          obtain ⟨quotient, hquotient, h⟩ := Option.bind_eq_some_iff.mp h
          obtain ⟨percent, hpercent, h⟩ := Option.bind_eq_some_iff.mp h
          refine quantizeCents_quantized ?_ h
          have hfinite := isFinite_divide rfl rfl hquotient
          cases quotient with
          | infinity _ => cases hfinite
          | nan _ _ _ => cases hfinite
          | finite _ _ _ =>
            exact Option.some.inj hpercent ▸ @isFinite_round ⟨some _⟩ _ _ _

end DecimalContext

/-! ## What is computed from finite cells -/

section

variable {context : DecimalContext} {rows : List Row}

/-- The sum of a column with finite cells is finite. -/
theorem FiniteCells.isFinite_columnTotal (h : FiniteCells rows) {column : String} {total : Decimal}
    (htotal : columnTotal context rows column = some total) : total.isFinite = true := by
  rw [columnTotal_eq] at htotal
  refine isFinite_total (fun d hd => ?_) htotal
  obtain ⟨row, hrow, hvalue⟩ := List.mem_map.mp hd
  exact h row (List.mem_filter.mp hrow).1 column d hvalue

/-- The total of a quantity with finite cells is finite. -/
theorem FiniteCells.isFinite_measureTotal (h : FiniteCells rows) {column : String} {total : Decimal}
    (htotal : measureTotal context rows column = some total) : total.isFinite = true := by
  rw [measureTotal_eq] at htotal
  refine isFinite_total (fun d hd => ?_) htotal
  obtain ⟨row, hrow, hvalue⟩ := List.mem_map.mp hd
  unfold quantityOf Cell.orElse at hvalue
  split at hvalue
  · exact h row hrow column d hvalue
  · have hzero : Decimal.parse "0" = some .zero := by decide
    rw [hzero] at hvalue
    exact Option.some.inj hvalue ▸ rfl

/-- The rate of rows with finite cells is finite and has two decimals. -/
theorem FiniteCells.completionRate_quantized (h : FiniteCells rows) {ratio : Decimal}
    (hratio : completionRate context rows = some ratio) :
    ratio.isFinite = true ∧ context.quantizeCents ratio = some ratio := by
  obtain ⟨numerator, hnumerator, hratio⟩ := Option.bind_eq_some_iff.mp hratio
  obtain ⟨denominator, hdenominator, hratio⟩ := Option.bind_eq_some_iff.mp hratio
  exact percentage_quantized (h.isFinite_measureTotal hnumerator)
    (h.isFinite_measureTotal hdenominator) hratio

/-- A finite number is the same number as itself. -/
theorem eqValue_self {d : Decimal} (h : d.isFinite = true) : d.eqValue d = true := by
  cases d with
  | infinity _ => cases h
  | nan _ _ _ => cases h
  | finite _ _ _ => exact decide_eq_true rfl

/-- A sum that was written down agrees with itself. -/
theorem FiniteCells.sumAgrees_toText (h : FiniteCells rows) {close : Decimal → Decimal → Bool}
    (hclose : ∀ d, close d d = true) {column : String} {total : Decimal}
    (htotal : columnTotal context rows column = some total) :
    sumAgrees context close rows column total.toText = true := by
  have hfinite := h.isFinite_columnTotal htotal
  unfold sumAgrees
  rw [htotal, Decimal.parse_toText]
  dsimp only
  rw [hfinite, Bool.true_and, Bool.true_and]
  split
  · exact eqValue_self hfinite
  · exact hclose total

/-- A rate that was written down agrees with itself. -/
theorem FiniteCells.rateAgrees_toText (h : FiniteCells rows) {ratio : Decimal}
    (hratio : completionRate context rows = some ratio) :
    rateAgrees context rows ratio.toText = true := by
  obtain ⟨hfinite, hquantized⟩ := h.completionRate_quantized hratio
  unfold rateAgrees
  rw [hratio, Decimal.parse_toText, Option.bind_some, hquantized]
  exact eqValue_self hfinite

/-! ## Computing and checking -/

/-- A total that is served is the one that the rows have. -/
theorem recomputedTotal_of_mem {footer : Option Footer} {totals : Footer} {key text : String}
    (h : recomputedFooter context rows footer = some totals) (hmem : totals[key]? = some text) :
    recomputedTotal context rows key = some text := by
  unfold recomputedFooter at h
  dsimp only at h
  split at h
  · cases h
  · cases h
    rw [Std.ExtTreeMap.getElem?_filterMap'] at hmem
    obtain ⟨-, -, hmem⟩ := Option.bind_eq_some_iff.mp hmem
    exact hmem

/-- **Recomputing served totals gives them again.** -/
theorem recomputedFooter_recomputed {footer : Option Footer} {totals : Footer}
    (h : recomputedFooter context rows footer = some totals) :
    recomputedFooter context rows (some totals) = some totals := by
  have hsame : totals.filterMap (fun key _ => recomputedTotal context rows key) = totals := by
    ext key text
    rw [Std.ExtTreeMap.getElem?_filterMap']
    cases hmem : totals[key]? with
    | none => rfl
    | some text' =>
      rw [Option.bind_some, recomputedTotal_of_mem h hmem]
  have hsome : totals.isEmpty = false := by
    unfold recomputedFooter at h
    dsimp only at h
    split at h
    · cases h
    · next hnot =>
      cases h
      exact Bool.eq_false_iff.mpr hnot
  unfold recomputedFooter
  dsimp only [Option.getD_some]
  rw [hsame, hsome]
  rfl

/-- Totals of no rows are zeros. -/
theorem totalReconciles_nil {close : Decimal → Decimal → Bool} {seen : List String}
    {key text : String} (h : recomputedTotal context [] key = some text) :
    totalReconciles context close [] seen key text = true := by
  unfold recomputedTotal at h
  unfold totalReconciles
  cases hkey : totalColumn? key with
  | none => rfl
  | some column =>
    simp only [hkey, hasColumn_nil, Bool.and_self, Bool.false_eq_true, if_false] at h
    split at h
    · cases h
    · have htext : text = "0" := (Option.some.inj h).symm
      subst htext
      show (Decimal.parse "0").any Decimal.isZero = true
      decide

/-- **Recomputed totals reconcile** with the rows that they were computed from. -/
theorem recomputedFooter_reconciles {footer : Option Footer} {totals : Footer}
    (hcells : FiniteCells rows) (h : recomputedFooter context rows footer = some totals) :
    footerReconciles context Decimal.closeAsFloats rows (some totals) = true := by
  by_cases hrows : rows = []
  · subst hrows
    unfold footerReconciles
    simp only [List.all_eq_true, Prod.forall, Std.ExtTreeMap.mem_toList_iff_getElem?_eq_some]
    exact fun key text hmem => totalReconciles_nil (recomputedTotal_of_mem h hmem)
  · refine (footerReconciles_iff context _ hrows _).mpr ⟨?_, fun text hmem hscanned => ?_⟩
    · intro key text column hmem hkey hsum hcolumn
      have htotal := recomputedTotal_of_mem h hmem
      unfold recomputedTotal at htotal
      simp only [hkey, hsum, hcolumn, if_false, Bool.not_true, Bool.and_false, Bool.false_eq_true]
        at htotal
      obtain ⟨total, hsum, rfl⟩ := Option.map_eq_some_iff.mp htotal
      exact hcells.sumAgrees_toText Decimal.closeAsFloats_self hsum
    · have hrate := recomputedTotal_of_mem h hmem
      have hratio : "wcl" ∈ nonAdditiveFooterColumns := by decide
      have hreceived := hasColumn_of_mem_scanned (hscanned "sssl" (by decide))
      have hissued := hasColumn_of_mem_scanned (hscanned "fhsl" (by decide))
      unfold recomputedTotal at hrate
      simp only [totalColumn?_wcl, hratio, hreceived, hissued, if_true, Bool.and_self] at hrate
      obtain ⟨ratio, hcomputed, rfl⟩ := Option.map_eq_some_iff.mp hrate
      exact hcells.rateAgrees_toText hcomputed

/-- **Served totals are what the acceptance check accepts.** For rows whose numbers are finite and any
footer that came with them, the totals that are recomputed from the rows reconcile with these rows, and
recomputing them gives them again. -/
theorem recomputedFooter_self_consistent (context : DecimalContext) (rows : List Row)
    (footer : Option Footer) (totals : Footer) (hcells : FiniteCells rows)
    (h : recomputedFooter context rows footer = some totals) :
    footerReconciles context Decimal.closeAsFloats rows (some totals) = true
      ∧ recomputedFooter context rows (some totals) = some totals :=
  ⟨recomputedFooter_reconciles hcells h, recomputedFooter_recomputed h⟩

/-- Totals of two rows that have no column in common but the blank one. -/
theorem recomputedFooter_self_consistent_ragged :
    footerReconciles python Decimal.closeAsFloats
        [Row.ofTexts [("fhsl", "30"), ("je", "1.50"), ("sssl", "10")],
          Row.ofTexts [("je", ""), ("sl", "n/a"), ("wcl", "99")]]
        (some (Std.ExtTreeMap.ofList [("je_total", "1.50"), ("wcl_total", "33.33")])) = true
      ∧ recomputedFooter python
          [Row.ofTexts [("fhsl", "30"), ("je", "1.50"), ("sssl", "10")],
            Row.ofTexts [("je", ""), ("sl", "n/a"), ("wcl", "99")]]
          (some (Std.ExtTreeMap.ofList [("je_total", "1.50"), ("wcl_total", "33.33")]))
        = some (Std.ExtTreeMap.ofList [("je_total", "1.50"), ("wcl_total", "33.33")]) :=
  recomputedFooter_self_consistent python _
    (some (Std.ExtTreeMap.ofList
      [("je_total", "7"), ("rows", "2"), ("sl_total", "8"), ("wcl_total", "9"), ("zpsl_total", "3")]))
    _ (by decide +kernel) (by decide +kernel)

/-- **A hit is served with totals that its rows have**: none, or totals that reconcile with the rows of
the view. -/
theorem CacheHit.serve_reconciles {operation : Operation} {hit : CacheHit operation}
    {request : ViewRequest} {result : ResourceFetchResult}
    (h : hit.serve context request = .ok result) (hcells : FiniteCells result.rows) :
    footerReconciles context Decimal.closeAsFloats result.rows result.footer = true := by
  obtain ⟨rows, -, hresult⟩ := Except.bind_eq_ok.mp h
  rw [Except.pure_eq_ok] at hresult
  subst hresult
  cases htotals : recomputedFooter context rows hit.footer with
  | none => rfl
  | some totals => exact recomputedFooter_reconciles hcells htotals

end
