import FactoryAgent.Lib.IsoDate
import Mathlib.Algebra.GroupWithZero.Nat
import Mathlib.Tactic.ByContra
import Mathlib.Tactic.SplitIfs

/-!
# Calendar days

Python's `date`: a year from 1 to 9999, a month and a day, in the order of their ordinals. The ordinals of the days
are the numbers from 1 to `maxOrdinal`, each of one day (`Date.ofOrdinal?_eq_some`), so that adding days is adding
numbers; what leaves the range has no day.
-/

namespace Calendar

open IsoDate (isLeap monthLengths daysInMonth daysBeforeYear monthAndDay)

/-! ## Years and months -/

/-- A year is 365 days long, or 366. -/
theorem daysBeforeYear_succ {year : Nat} (h : 1 ≤ year) :
    daysBeforeYear (year + 1) = daysBeforeYear year + 365 + (if isLeap year then 1 else 0) := by
  obtain ⟨before, rfl⟩ := Nat.exists_eq_add_of_le' h
  have hleap : isLeap (before + 1) = true ↔ 4 ∣ before + 1 ∧ (¬100 ∣ before + 1 ∨ 400 ∣ before + 1) := by
    simp only [isLeap, Bool.and_eq_true, decide_eq_true_eq, Bool.or_eq_true, Nat.dvd_iff_mod_eq_zero, ne_eq]
  have hcentury : 100 ∣ before + 1 → 4 ∣ before + 1 := Nat.dvd_trans (by decide)
  have hcycle : 400 ∣ before + 1 → 100 ∣ before + 1 := Nat.dvd_trans (by decide)
  have hcount : before / 100 ≤ before / 4 := Nat.div_le_div_left (by decide) (by decide)
  unfold daysBeforeYear
  simp only [Nat.add_sub_cancel, Nat.succ_div, hleap]
  generalize before / 4 = quads, before / 100 = centuries, before / 400 = cycles at hcount ⊢
  split_ifs <;> grind

/-- The years come one after the other. -/
theorem daysBeforeYear_mono {a b : Nat} (h : a ≤ b) : daysBeforeYear a ≤ daysBeforeYear b := by
  induction h with
  | refl => exact Nat.le_refl _
  | @step year _ ih =>
    refine Nat.le_trans ih ?_
    rcases Nat.eq_zero_or_pos year with rfl | hpos
    · exact Nat.zero_le _
    · rw [daysBeforeYear_succ hpos, Nat.add_assoc]
      exact Nat.le_add_right _ _

/-- The months of a year make up the year. -/
theorem sum_monthLengths (year : Nat) : (monthLengths year).sum = 365 + (if isLeap year then 1 else 0) := by
  unfold monthLengths
  split <;> rfl

/-- The days of a year before a month. -/
def daysBeforeMonth (year month : Nat) : Nat :=
  ((monthLengths year).take (month - 1)).sum

/-- The months come one after the other. -/
theorem daysBeforeMonth_mono (year : Nat) {a b : Nat} (h : a ≤ b) : daysBeforeMonth year a ≤ daysBeforeMonth year b := by
  obtain ⟨rest, hrest⟩ := List.take_prefix_take_left (l := monthLengths year) (Nat.sub_le_sub_right h 1)
  unfold daysBeforeMonth
  rw [← hrest, List.sum_append]
  exact Nat.le_add_right _ _

/-- After the days before a month come its days. -/
theorem daysBeforeMonth_succ (year : Nat) {month : Nat} (hfirst : 1 ≤ month) (hlast : month ≤ 12) :
    daysBeforeMonth year (month + 1) = daysBeforeMonth year month + daysInMonth year month := by
  have hlength : month - 1 < (monthLengths year).length := by
    show month - 1 < 12
    omega
  have hsplit : (monthLengths year).take (month - 1 + 1)
      = (monthLengths year).take (month - 1) ++ [(monthLengths year)[month - 1]] :=
    List.take_succ_eq_append_getElem hlength
  unfold daysBeforeMonth daysInMonth
  rw [Nat.add_sub_cancel, List.getD_eq_getElem?_getD, List.getElem?_eq_getElem hlength, Option.getD_some]
  rw [Nat.sub_add_cancel hfirst] at hsplit
  rw [hsplit, List.sum_append, List.sum_singleton]

/-- The days of a month are days of its year. -/
theorem daysBeforeMonth_add_le (year : Nat) {month : Nat} (hfirst : 1 ≤ month) (hlast : month ≤ 12) :
    daysBeforeMonth year month + daysInMonth year month ≤ 365 + (if isLeap year then 1 else 0) := by
  rw [← daysBeforeMonth_succ year hfirst hlast, ← sum_monthLengths]
  have h := daysBeforeMonth_mono year (a := month + 1) (b := 13) (by omega)
  exact h

/-! ## Days -/

/-- The last ordinal. -/
def maxOrdinal : Nat := 3652059

/-- **`datetime.date`** -/
structure Date where
  year : Nat
  month : Nat
  day : Nat
  valid : (1 ≤ year ∧ year ≤ 9999) ∧ (1 ≤ month ∧ month ≤ 12) ∧ 1 ≤ day ∧ day ≤ daysInMonth year month
  deriving DecidableEq, Repr

namespace Date

/-- **`date(year, month, day)`**; `none` is a raised `ValueError`. -/
def of? (year month day : Nat) : Option Date :=
  if h : (1 ≤ year ∧ year ≤ 9999) ∧ (1 ≤ month ∧ month ≤ 12) ∧ 1 ≤ day ∧ day ≤ daysInMonth year month then
    some ⟨year, month, day, h⟩
  else none

/-- `date.toordinal` -/
def ordinal (d : Date) : Nat :=
  daysBeforeYear d.year + daysBeforeMonth d.year d.month + d.day

/-- **`date.fromordinal`**; `none` is the `OverflowError` of a day out of range. -/
def ofOrdinal? (n : Int) : Option Date :=
  if 1 ≤ n ∧ n ≤ maxOrdinal then
    of? (IsoDate.ofOrdinal n.toNat).1 (IsoDate.ofOrdinal n.toNat).2.1 (IsoDate.ofOrdinal n.toNat).2.2
  else none

/-- **`date + timedelta(days=…)`**; `none` is a raised `OverflowError`. -/
def addDays (d : Date) (days : Int) : Option Date :=
  ofOrdinal? (d.ordinal + days)

/-- `date.weekday`: Monday is 0. -/
def weekday (d : Date) : Nat :=
  (d.ordinal + 6) % 7

/-- `date.isoformat` -/
def isoformat (d : Date) : String :=
  IsoDate.isoformat (d.year, d.month, d.day)

/-- Which fields are those of a day. -/
theorem of?_eq_some {year month day : Nat} {d : Date} :
    of? year month day = some d ↔ d.year = year ∧ d.month = month ∧ d.day = day := by
  constructor
  · intro h
    unfold of? at h
    split at h
    · cases h
      exact ⟨rfl, rfl, rfl⟩
    · cases h
  · rintro ⟨rfl, rfl, rfl⟩
    exact dif_pos d.valid

/-- A day is the day of its year that follows the days of the months before. -/
theorem ordinal_bounds (d : Date) :
    daysBeforeYear d.year < d.ordinal ∧ d.ordinal ≤ daysBeforeYear (d.year + 1) := by
  have hmonth := daysBeforeMonth_add_le d.year d.valid.2.1.1 d.valid.2.1.2
  have hyear := daysBeforeYear_succ d.valid.1.1
  have hday := d.valid.2.2
  unfold ordinal
  omega

/-- The ordinals are in range. -/
theorem ordinal_mem (d : Date) : 1 ≤ d.ordinal ∧ d.ordinal ≤ maxOrdinal := by
  have hbounds := d.ordinal_bounds
  have hlast : daysBeforeYear (d.year + 1) ≤ daysBeforeYear 10000 :=
    daysBeforeYear_mono (by have := d.valid.1.2; omega)
  have hmax : daysBeforeYear 10000 = maxOrdinal := rfl
  omega

/-- A day of an earlier year has the smaller ordinal. -/
theorem ordinal_lt_of_year_lt {a b : Date} (h : a.year < b.year) : a.ordinal < b.ordinal :=
  calc a.ordinal ≤ daysBeforeYear (a.year + 1) := a.ordinal_bounds.2
    _ ≤ daysBeforeYear b.year := daysBeforeYear_mono h
    _ < b.ordinal := b.ordinal_bounds.1

/-- A day of an earlier month of the same year has the smaller ordinal. -/
theorem ordinal_lt_of_month_lt {a b : Date} (hyear : a.year = b.year) (h : a.month < b.month) :
    a.ordinal < b.ordinal := by
  have hmonth := daysBeforeMonth_mono a.year (a := a.month + 1) h
  have hsucc := daysBeforeMonth_succ a.year a.valid.2.1.1 a.valid.2.1.2
  have ha := a.valid.2.2.2
  have hb := b.valid.2.2.1
  unfold ordinal
  rw [← hyear]
  omega

/-- **The ordinal tells the day.** -/
theorem ordinal_injective {a b : Date} (h : a.ordinal = b.ordinal) : a = b := by
  have hyear : a.year = b.year := by
    rcases Nat.lt_trichotomy a.year b.year with hlt | heq | hlt
    · exact absurd h (Nat.ne_of_lt (ordinal_lt_of_year_lt hlt))
    · exact heq
    · exact absurd h.symm (Nat.ne_of_lt (ordinal_lt_of_year_lt hlt))
  have hmonth : a.month = b.month := by
    rcases Nat.lt_trichotomy a.month b.month with hlt | heq | hlt
    · exact absurd h (Nat.ne_of_lt (ordinal_lt_of_month_lt hyear hlt))
    · exact heq
    · exact absurd h.symm (Nat.ne_of_lt (ordinal_lt_of_month_lt hyear.symm hlt))
  have hday : a.day = b.day := by
    unfold ordinal at h
    rw [hyear, hmonth] at h
    omega
  obtain ⟨_, _, _, _⟩ := a
  obtain ⟨_, _, _, _⟩ := b
  cases hyear
  cases hmonth
  cases hday
  rfl

end Date

/-! ## The day of an ordinal -/

/-- The month and the day of a day of a year. -/
theorem monthAndDay_spec {lengths : List Nat} {k : Nat} (first : Nat) (h : k < lengths.sum) :
    ∃ i j, monthAndDay first k lengths = (first + i, j + 1) ∧ i < lengths.length ∧ j < lengths.getD i 0
      ∧ (lengths.take i).sum + j = k := by
  induction lengths generalizing first k with
  | nil => exact absurd h (Nat.not_lt_zero k)
  | cons days lengths ih =>
    rw [monthAndDay]
    split
    · next hlt => exact ⟨0, k, rfl, Nat.succ_pos _, hlt, by simp⟩
    · next hge =>
      rw [List.sum_cons] at h
      obtain ⟨i, j, heq, hi, hj, hsum⟩ := ih (first + 1) (k := k - days) (by omega)
      refine ⟨i + 1, j, ?_, by simpa using hi, by simpa using hj, ?_⟩
      · rw [heq]
        congr 1
        omega
      · rw [List.take_succ_cons, List.sum_cons]
        omega

/-- The day of a year whose number is known. -/
theorem ordinal_of_dayOfYear {year k : Nat} (hlast : k < 365 + if isLeap year then 1 else 0)
    (hyear : 1 ≤ year ∧ year ≤ 9999) :
    ∃ d, Date.of? year (monthAndDay 1 k (monthLengths year)).1 (monthAndDay 1 k (monthLengths year)).2 = some d
      ∧ d.ordinal = daysBeforeYear year + k + 1 := by
  rw [← sum_monthLengths] at hlast
  obtain ⟨i, j, heq, hi, hj, hsum⟩ := monthAndDay_spec 1 hlast
  have hmonth : i < 12 := hi
  have hlength : daysInMonth year (1 + i) = (monthLengths year).getD i 0 := by
    rw [daysInMonth, Nat.add_sub_cancel_left]
  refine ⟨⟨year, 1 + i, j + 1, hyear, ⟨by omega, by omega⟩, by omega, by omega⟩, ?_, ?_⟩
  · rw [heq]
    exact Date.of?_eq_some.mpr ⟨rfl, rfl, rfl⟩
  · show daysBeforeYear year + ((monthLengths year).take (1 + i - 1)).sum + (j + 1) = _
    rw [Nat.add_sub_cancel_left]
    omega

/-- The last day of a leap year. -/
theorem monthAndDay_last {year : Nat} (h : isLeap year = true) : monthAndDay 1 365 (monthLengths year) = (12, 31) := by
  unfold monthLengths
  rw [if_pos h]
  rfl

/-- The years before a year, counted by cycles, centuries and leap years. -/
theorem daysBeforeYear_eq (cycles centuries quads years : Nat) (hcenturies : centuries ≤ 3) (hquads : quads ≤ 24)
    (hyears : years ≤ 3) :
    daysBeforeYear (cycles * 400 + centuries * 100 + quads * 4 + years + 1)
      = cycles * 146097 + centuries * 36524 + quads * 1461 + years * 365 := by
  have h4 : (cycles * 400 + centuries * 100 + quads * 4 + years) / 4 = cycles * 100 + centuries * 25 + quads := by
    omega
  have h100 : (cycles * 400 + centuries * 100 + quads * 4 + years) / 100 = cycles * 4 + centuries := by
    omega
  have h400 : (cycles * 400 + centuries * 100 + quads * 4 + years) / 400 = cycles := by
    omega
  unfold daysBeforeYear
  rw [Nat.add_sub_cancel, h4, h100, h400]
  omega

/-- The year of an ordinal and the day of the year. -/
theorem ofOrdinal_spec {n : Nat} (h : 1 ≤ n) :
    ∃ year k, IsoDate.ofOrdinal n = (year, monthAndDay 1 k (monthLengths year)) ∧ 1 ≤ year
      ∧ k < 365 + (if isLeap year then 1 else 0) ∧ daysBeforeYear year + k + 1 = n := by
  obtain ⟨days, rfl⟩ := Nat.exists_eq_add_of_le' h
  unfold IsoDate.ofOrdinal
  dsimp only
  rw [Nat.add_sub_cancel]
  have hcycles : days = days / 146097 * 146097 + days % 146097 := (Nat.div_add_mod' days 146097).symm
  have hcycle : days % 146097 < 146097 := Nat.mod_lt _ (by decide)
  generalize days / 146097 = cycles, days % 146097 = cycle at hcycles hcycle ⊢
  have hcenturies : cycle = cycle / 36524 * 36524 + cycle % 36524 := (Nat.div_add_mod' cycle 36524).symm
  have hcentury : cycle % 36524 < 36524 := Nat.mod_lt _ (by decide)
  generalize cycle / 36524 = centuries, cycle % 36524 = century at hcenturies hcentury ⊢
  have hquads : century = century / 1461 * 1461 + century % 1461 := (Nat.div_add_mod' century 1461).symm
  have hquad : century % 1461 < 1461 := Nat.mod_lt _ (by decide)
  generalize century / 1461 = quads, century % 1461 = quad at hquads hquad ⊢
  have hyears : quad = quad / 365 * 365 + quad % 365 := (Nat.div_add_mod' quad 365).symm
  have hyear : quad % 365 < 365 := Nat.mod_lt _ (by decide)
  generalize quad / 365 = years, quad % 365 = k at hyears hyear ⊢
  split
  · next hlast =>
    simp only [Bool.or_eq_true, decide_eq_true_eq] at hlast
    -- the last day of a leap year: of the fourth year of four, or of the fourth century of a cycle
    rcases hlast with rfl | rfl
    · have hleap : isLeap (cycles * 400 + centuries * 100 + quads * 4 + 4) = true := by
        simp only [isLeap, Bool.and_eq_true, decide_eq_true_eq, Bool.or_eq_true, ne_eq]
        omega
      refine ⟨cycles * 400 + centuries * 100 + quads * 4 + 4, 365, ?_, by omega, by simp [hleap], ?_⟩
      · rw [monthAndDay_last hleap]
        rfl
      · rw [daysBeforeYear_eq cycles centuries quads 3 (by omega) (by omega) (by omega)]
        omega
    · have hleap : isLeap (cycles * 400 + 400) = true := by
        simp only [isLeap, Bool.and_eq_true, decide_eq_true_eq, Bool.or_eq_true, ne_eq]
        omega
      obtain ⟨rfl, rfl⟩ : quads = 0 ∧ years = 0 := by omega
      refine ⟨cycles * 400 + 400, 365, ?_, by omega, by simp [hleap], ?_⟩
      · rw [monthAndDay_last hleap]
        rfl
      · have hyear := daysBeforeYear_eq cycles 3 24 3 (by decide)
          (by decide) (by decide)
        rw [show cycles * 400 + 3 * 100 + 24 * 4 + 3 + 1 = cycles * 400 + 400 by omega] at hyear
        omega
  · next hnot =>
    simp only [Bool.or_eq_true, decide_eq_true_eq, not_or] at hnot
    refine ⟨_, k, rfl, Nat.succ_pos _, Nat.lt_add_right _ hyear, ?_⟩
    rw [daysBeforeYear_eq _ _ _ _ (by omega) (by omega) (by omega)]
    omega

namespace Date

/-- **The numbers up to the last ordinal are the ordinals of days.** -/
theorem exists_ordinal {n : Int} (h : 1 ≤ n ∧ n ≤ maxOrdinal) : ∃ d, ofOrdinal? n = some d ∧ (d.ordinal : Int) = n := by
  obtain ⟨year, k, heq, hfirst, hk, hsum⟩ := ofOrdinal_spec (n := n.toNat) (by omega)
  have hlast : year ≤ 9999 := by
    by_contra hlt
    have hmono : daysBeforeYear 10000 ≤ daysBeforeYear year := daysBeforeYear_mono (by omega)
    have hmax : daysBeforeYear 10000 = maxOrdinal := rfl
    omega
  obtain ⟨d, hd, hordinal⟩ := ordinal_of_dayOfYear hk ⟨hfirst, hlast⟩
  refine ⟨d, ?_, by omega⟩
  unfold ofOrdinal?
  rw [if_pos h, heq]
  exact hd

/-- **The day of an ordinal** is the day that has it. -/
theorem ofOrdinal?_eq_some {n : Int} {d : Date} : ofOrdinal? n = some d ↔ (d.ordinal : Int) = n := by
  constructor
  · intro h
    have hrange : 1 ≤ n ∧ n ≤ maxOrdinal := by
      by_contra hnot
      unfold ofOrdinal? at h
      rw [if_neg hnot] at h
      cases h
    obtain ⟨d', hd', hordinal⟩ := exists_ordinal hrange
    rw [h] at hd'
    cases hd'
    exact hordinal
  · intro h
    have hmem := d.ordinal_mem
    obtain ⟨d', hd', hordinal⟩ := exists_ordinal (n := n) (by omega)
    have hsame : d' = d := ordinal_injective (by omega)
    rw [hd', hsame]

/-- What is out of range has no day. -/
theorem ofOrdinal?_eq_none {n : Int} : ofOrdinal? n = none ↔ n < 1 ∨ maxOrdinal < n := by
  constructor
  · intro h
    by_contra hrange
    obtain ⟨d, hd, -⟩ := exists_ordinal (n := n) (by omega)
    rw [h] at hd
    cases hd
  · intro h
    exact if_neg (by omega)

/-- Which numbers have a day. -/
theorem ofOrdinal?_isSome {n : Int} : (ofOrdinal? n).isSome = true ↔ 1 ≤ n ∧ n ≤ maxOrdinal := by
  have hnone := @ofOrdinal?_eq_none n
  rw [← Option.ne_none_iff_isSome, ne_eq, hnone]
  omega

/-- The day that is some days later, or earlier. -/
theorem addDays_eq_some {d d' : Date} {days : Int} : d.addDays days = some d' ↔ (d'.ordinal : Int) = d.ordinal + days :=
  ofOrdinal?_eq_some

end Date

end Calendar
