import FactoryAgent.Windows.TimeExpressions

/-!
# The days that a phrase names

What a phrase of the vocabulary names on a calendar that has no ends: so many days from a day on, or so many months
from a month on. The resolution gives the first of those days and the day after the last where both are on the
calendar, and raises a `ValueError` or an `OverflowError` where one is not (`resolveBounds_of_span`). A phrase that
names no days is refused as it should be (`resolveBounds_of_none`).
-/

namespace Windows

open Calendar LocalTime

/-! ## Months -/

/-- The month of a day, counted from the first month of the year 0. -/
def monthIndex (d : Date) : Int :=
  12 * d.year + d.month - 1

/-- The first day of a month, if the month is on the calendar. -/
def firstOf? (index : Int) : Option Date :=
  Date.of? (index / 12).toNat (index % 12 + 1).toNat 1

/-- The first day of a month is a day 1 of that month. -/
theorem firstOf?_eq_some {index : Int} {d : Date} : firstOf? index = some d ↔ monthIndex d = index ∧ d.day = 1 := by
  have hvalid := d.valid
  unfold firstOf? monthIndex
  rw [Date.of?_eq_some]
  omega

/-- The first day of the month of a day. -/
theorem firstOf?_monthIndex {d : Date} (h : d.day = 1) : firstOf? (monthIndex d) = some d :=
  firstOf?_eq_some.mpr ⟨rfl, h⟩

/-- Every month has a first day. -/
theorem one_le_daysInMonth (year : Nat) {month : Nat} (h : 1 ≤ month ∧ month ≤ 12) : 1 ≤ IsoDate.daysInMonth year month := by
  have hlength : month - 1 < (IsoDate.monthLengths year).length := by
    show month - 1 < 12
    omega
  have hall : ∀ days ∈ IsoDate.monthLengths year, 28 ≤ days := by
    intro days hdays
    simp only [IsoDate.monthLengths, List.mem_cons, List.not_mem_nil, or_false] at hdays
    cases hleap : IsoDate.isLeap year <;> simp only [hleap, Bool.false_eq_true, if_true, if_false] at hdays <;> omega
  unfold IsoDate.daysInMonth
  rw [List.getD_eq_getElem?_getD, List.getElem?_eq_getElem hlength, Option.getD_some]
  exact Nat.le_trans (by decide) (hall _ (List.getElem_mem hlength))

/-- **The months of the calendar** are those of the years from 1 to 9999. -/
theorem firstOf?_isSome {index : Int} : (firstOf? index).isSome = true ↔ 12 ≤ index ∧ index < 120000 := by
  constructor
  · intro h
    obtain ⟨d, hd⟩ := Option.isSome_iff_exists.mp h
    have hvalid := d.valid
    have hindex := (firstOf?_eq_some.mp hd).1
    unfold monthIndex at hindex
    omega
  · intro h
    have hmonth : 1 ≤ (index % 12 + 1).toNat ∧ (index % 12 + 1).toNat ≤ 12 := by omega
    have hday := one_le_daysInMonth (index / 12).toNat hmonth
    unfold firstOf? Date.of?
    rw [dif_pos ⟨by omega, hmonth, Nat.le_refl 1, hday⟩]
    rfl

/-- A month that is not on the calendar. -/
theorem firstOf?_eq_none {index : Int} : firstOf? index = none ↔ index < 12 ∨ 120000 ≤ index := by
  rw [← Option.not_isSome_iff_eq_none, firstOf?_isSome]
  omega

/-- The first day of a month, or the `ValueError` of a month that is not on the calendar. -/
def monthOr (index : Int) : Except TimeError Date :=
  (firstOf? index).elim (.error .value) .ok

/-- `replace(day=1)` -/
theorem replaced_first {year month : Nat} (h : 1 ≤ month ∧ month ≤ 12) :
    replaced year month 1 = monthOr (12 * year + month - 1) := by
  unfold replaced monthOr firstOf?
  rw [show ((12 * year + month - 1 : Int) / 12).toNat = year by omega,
    show ((12 * year + month - 1 : Int) % 12 + 1).toNat = month by omega]

/-- **The month after** that of a first day. -/
theorem addMonth_first {d : Date} (h : d.day = 1) : addMonth d = monthOr (monthIndex d + 1) := by
  have hvalid := d.valid
  unfold addMonth monthIndex
  rw [h]
  split
  · next hlast =>
    rw [replaced_first (by omega), hlast]
    congr 1
    omega
  · next hlast =>
    rw [replaced_first (by omega)]
    congr 1
    omega

/-- **The month before** that of a first day. -/
theorem subtractMonth_first {d : Date} (h : d.day = 1) : subtractMonth d = monthOr (monthIndex d - 1) := by
  have hvalid := d.valid
  unfold subtractMonth monthIndex
  rw [h]
  split
  · next hfirst =>
    rw [replaced_first (by omega), hfirst]
    congr 1
    omega
  · next hfirst =>
    rw [replaced_first (by omega)]
    congr 1
    omega

/-- The month of the quarter of a month that begins it. -/
theorem quarterStart_eq (today : Date) : quarterStart today = monthOr (monthIndex today - monthIndex today % 3) := by
  have hvalid := today.valid
  unfold quarterStart monthIndex
  rw [replaced_first (by omega)]
  congr 1
  omega

/-! ## Spans -/

/-- **What a phrase names**: so many days from an ordinal on, or so many months from a month on. -/
inductive Span where
  | days (first : Int) (count : Nat)
  | months (first : Int) (count : Nat)
  deriving DecidableEq, Repr

/-- Whether the days, and the day after the last, are on the calendar. -/
def Span.OnCalendar : Span → Prop
  | .days first count => 1 ≤ first ∧ first + count ≤ maxOrdinal
  | .months first count => 12 ≤ first ∧ first + count < 120000

instance (span : Span) : Decidable span.OnCalendar :=
  match span with
  | .days .. => inferInstanceAs (Decidable (_ ∧ _))
  | .months .. => inferInstanceAs (Decidable (_ ∧ _))

/-- Two days, if both are there. -/
def both (start? stop? : Option Date) : Option (Date × Date) :=
  start?.bind fun start => stop?.map fun stop => (start, stop)

/-- Two days are there when both are. -/
theorem both_isSome {start? stop? : Option Date} :
    (both start? stop?).isSome = true ↔ start?.isSome = true ∧ stop?.isSome = true := by
  cases start? <;> cases stop? <;> simp [both]

/-- The first day and the day after the last, as far as they are on the calendar. -/
def Span.bounds? : Span → Option (Date × Date)
  | .days first count => both (Date.ofOrdinal? first) (Date.ofOrdinal? (first + count))
  | .months first count => both (firstOf? first) (firstOf? (first + count))

/-- The month that a phrase `N月` means: the one of this year, or of the year before where it is still to come. -/
def bareMonthSpan? (month : Nat) (today : Date) : Option Span :=
  if 1 ≤ month ∧ month ≤ 12 then
    if month ≤ today.month then some (.months (12 * today.year + month - 1) 1)
    else some (.months (12 * (today.year - 1) + month - 1) 1)
  else none

/-- The days that a named phrase names. -/
def Named.span (today : Date) : Named → Span
  | .today => .days today.ordinal 1
  | .yesterday => .days (today.ordinal - 1) 1
  | .dayBefore => .days (today.ordinal - 2) 1
  | .week => .days (today.ordinal - today.weekday) 7
  | .lastWeek => .days (today.ordinal - today.weekday - 7) 7
  | .month => .months (monthIndex today) 1
  | .lastMonth => .months (monthIndex today - 1) 1
  | .quarter => .months (monthIndex today - monthIndex today % 3) 3
  | .lastQuarter => .months (monthIndex today - monthIndex today % 3 - 3) 3
  | .year => .months (monthIndex today - monthIndex today % 12) 12
  | .lastYear => .months (monthIndex today - monthIndex today % 12 - 12) 12

/-- The days that a phrase of one of the patterns names. -/
def patternSpan? (phrase : String) (today : Date) : Option Span :=
  if let some days := recentDays? phrase.toList then
    if 1 ≤ days then some (.days (today.ordinal + 1 - days) days) else none
  else if let some (year, month, day) := isoDay? phrase.toList then
    (Date.of? year month day).map fun day => .days day.ordinal 1
  else if let some (year, month) := (isoMonth? phrase.toList).or (cnMonth? phrase.toList) then
    (Date.of? year month 1).map fun start => .months (monthIndex start) 1
  else if let some month := bareMonth? phrase.toList then bareMonthSpan? month today
  else if let some text := cnBareMonth? phrase.toList then
    (cnMonthNumbers.lookup text).bind fun month => bareMonthSpan? month today
  else none

/-- **The days that a phrase names**; `none` for a phrase that names no days. -/
def span? (phrase : String) (today : Date) : Option Span :=
  ((named? phrase).map (Named.span today)).or (patternSpan? phrase today)

/-- **The days are on the calendar** where both their ends are. -/
theorem Span.bounds?_isSome {span : Span} : span.bounds?.isSome = true ↔ span.OnCalendar := by
  cases span with
  | days first count =>
    simp only [bounds?, OnCalendar, both_isSome, Date.ofOrdinal?_isSome]
    omega
  | months first count =>
    simp only [bounds?, OnCalendar, both_isSome, firstOf?_isSome]
    omega

/-! ## The resolution -/

/-- What the resolution may raise that it is not documented to. -/
def TimeError.Undeclared : TimeError → Prop
  | .expression _ => False
  | _ => True

instance (error : TimeError) : Decidable error.Undeclared :=
  match error with
  | .expression _ => isFalse id
  | .value | .overflow | .range _ => isTrue trivial

/-- **An outcome that gives the bounds of a span**, or fails where they are not on the calendar. -/
def Yields (outcome : Except TimeError (Option (Date × Date))) (bounds? : Option (Date × Date)) : Prop :=
  match bounds? with
  | some bounds => outcome = .ok (some bounds)
  | none => ∃ error, outcome = .error error ∧ error.Undeclared

/-- A date that is there, or an error. -/
def orRaise (error : TimeError) (d : Option Date) : Except TimeError Date :=
  d.elim (.error error) .ok

/-- Both ends, the first day before the other. -/
theorem yields_start_stop {d e : TimeError} (hd : d.Undeclared) (he : e.Undeclared) (start? stop? : Option Date) :
    Yields (orRaise d start? >>= fun start => orRaise e stop? >>= fun stop => pure (some (start, stop)))
      (both start? stop?) := by
  cases start? with
  | none => exact ⟨d, rfl, hd⟩
  | some start =>
    cases stop? with
    | none => exact ⟨e, rfl, he⟩
    | some stop => rfl

/-- Both ends, the first day after the other. -/
theorem yields_stop_start {d e : TimeError} (hd : d.Undeclared) (he : e.Undeclared) (start? stop? : Option Date) :
    Yields (orRaise e stop? >>= fun stop => orRaise d start? >>= fun start => pure (some (start, stop)))
      (both start? stop?) := by
  cases stop? with
  | none => cases start? <;> exact ⟨e, rfl, he⟩
  | some stop =>
    cases start? with
    | none => exact ⟨d, rfl, hd⟩
    | some start => rfl

/-- The month after a month from the year 1 on. -/
theorem monthOr_addMonth {index : Int} (h : 12 ≤ index) : (monthOr index >>= addMonth) = monthOr (index + 1) := by
  unfold monthOr
  cases hfirst : firstOf? index with
  | none =>
    rw [firstOf?_eq_none.mpr (by have := firstOf?_eq_none.mp hfirst; omega)]
    rfl
  | some d =>
    obtain ⟨rfl, hday⟩ := firstOf?_eq_some.mp hfirst
    exact addMonth_first hday

/-- The month before a month up to the year 9999. -/
theorem monthOr_subtractMonth {index : Int} (h : index < 120000) :
    (monthOr index >>= subtractMonth) = monthOr (index - 1) := by
  unfold monthOr
  cases hfirst : firstOf? index with
  | none =>
    rw [firstOf?_eq_none.mpr (by have := firstOf?_eq_none.mp hfirst; omega)]
    rfl
  | some d =>
    obtain ⟨rfl, hday⟩ := firstOf?_eq_some.mp hfirst
    exact subtractMonth_first hday

/-- The third month after that of a first day. -/
theorem addMonth_thrice {d : Date} (h : d.day = 1) :
    (addMonth d >>= addMonth >>= addMonth) = monthOr (monthIndex d + 3) := by
  have hvalid := d.valid
  have hindex : 12 ≤ monthIndex d := by
    unfold monthIndex
    omega
  rw [addMonth_first h, monthOr_addMonth (by omega), monthOr_addMonth (by omega)]
  congr 1
  omega

/-- The third month before that of a first day. -/
theorem subtractMonth_thrice {d : Date} (h : d.day = 1) :
    (subtractMonth d >>= subtractMonth >>= subtractMonth) = monthOr (monthIndex d - 3) := by
  have hvalid := d.valid
  have hindex : monthIndex d < 120000 := by
    unfold monthIndex
    omega
  rw [subtractMonth_first h, monthOr_subtractMonth (by omega), monthOr_subtractMonth (by omega)]
  congr 1
  omega

/-- The first month of the year of a day. -/
theorem replaced_january (today : Date) :
    replaced today.year 1 1 = monthOr (monthIndex today - monthIndex today % 12) := by
  have hvalid := today.valid
  rw [replaced_first (by decide)]
  congr 1
  unfold monthIndex
  omega

/-- The bounds where the first day is known. -/
theorem yields_from {start : Date} {e : TimeError} (he : e.Undeclared) {start? stop? : Option Date}
    (h : start? = some start) :
    Yields (orRaise e stop? >>= fun stop => pure (some (start, stop))) (both start? stop?) := by
  subst h
  exact yields_start_stop he he (some start) stop?

/-- The bounds where the day after the last is known. -/
theorem yields_until {stop : Date} {e : TimeError} (he : e.Undeclared) {start? stop? : Option Date}
    (h : stop? = some stop) :
    Yields (orRaise e start? >>= fun start => pure (some (start, stop))) (both start? stop?) := by
  subst h
  exact yields_stop_start he he start? (some stop)

/-- A day is the day of its ordinal. -/
theorem ofOrdinal?_ordinal (d : Date) : Date.ofOrdinal? d.ordinal = some d :=
  Date.ofOrdinal?_eq_some.mpr rfl

/-- The Monday of the week of a day is on the calendar, which begins with a Monday. -/
theorem exists_monday (today : Date) : ∃ monday, Date.ofOrdinal? (today.ordinal - today.weekday) = some monday
    ∧ plusDays today (-today.weekday) = .ok monday := by
  have hmem := today.ordinal_mem
  have hrange : 1 ≤ (today.ordinal - today.weekday : Int) ∧ (today.ordinal - today.weekday : Int) ≤ maxOrdinal := by
    unfold Date.weekday
    omega
  obtain ⟨monday, hmonday, -⟩ := Date.exists_ordinal hrange
  refine ⟨monday, hmonday, ?_⟩
  unfold plusDays Date.addDays
  rw [← Int.sub_eq_add_neg, hmonday]
  rfl

/-- The first day of a month of the year of a day is on the calendar. -/
theorem exists_first (today : Date) (index : Int) (hlow : 12 * today.year ≤ index) (hhigh : index < 12 * today.year + 12) :
    ∃ d, firstOf? index = some d ∧ monthOr index = .ok d ∧ monthIndex d = index ∧ d.day = 1 ∧ d.year = today.year := by
  have hvalid := today.valid
  obtain ⟨d, hd⟩ := Option.isSome_iff_exists.mp (firstOf?_isSome.mpr (show 12 ≤ index ∧ index < 120000 by omega))
  obtain ⟨hindex, hday⟩ := firstOf?_eq_some.mp hd
  have hdvalid := d.valid
  refine ⟨d, hd, ?_, hindex, hday, ?_⟩
  · unfold monthOr
    rw [hd]
    rfl
  · unfold monthIndex at hindex
    omega

/-- **A named phrase** is resolved to the days that it names. -/
theorem resolveNamed_of_span (today : Date) {phrase : String} {named : Named} (h : named? phrase = some named) :
    Yields (resolveNamed phrase today) (named.span today).bounds? := by
  have hvalid := today.valid
  have htoday := ofOrdinal?_ordinal today
  obtain ⟨monday, hmonday, hmondayOk⟩ := exists_monday today
  have hmonth : 12 * today.year ≤ monthIndex today ∧ monthIndex today < 12 * today.year + 12 := by
    unfold monthIndex
    omega
  unfold resolveNamed
  rw [h]
  cases named with
  | today => exact yields_from (e := .overflow) trivial htoday
  | yesterday =>
    show Yields _ (both _ (Date.ofOrdinal? (today.ordinal - 1 + 1)))
    rw [Int.sub_add_cancel]
    exact yields_until (e := .overflow) trivial htoday
  | dayBefore =>
    show Yields _ (both _ (Date.ofOrdinal? (today.ordinal - 2 + 1)))
    rw [show (today.ordinal - 2 + 1 : Int) = today.ordinal + -1 by omega]
    exact yields_start_stop (d := .overflow) (e := .overflow) trivial trivial _ _
  | week =>
    show Yields (plusDays today (-today.weekday) >>= _) (both _ (Date.ofOrdinal? (today.ordinal - today.weekday + 7)))
    rw [hmondayOk, ← Date.ofOrdinal?_eq_some.mp hmonday]
    exact yields_from (e := .overflow) trivial (ofOrdinal?_ordinal monday)
  | lastWeek =>
    show Yields (plusDays today (-today.weekday) >>= _)
      (both (Date.ofOrdinal? (today.ordinal - today.weekday - 7)) (Date.ofOrdinal? (today.ordinal - today.weekday - 7 + 7)))
    rw [hmondayOk, Int.sub_add_cancel, ← Date.ofOrdinal?_eq_some.mp hmonday]
    exact yields_until (e := .overflow) trivial (ofOrdinal?_ordinal monday)
  | month =>
    obtain ⟨first, hfirst, hok, hindex, hday, -⟩ := exists_first today (monthIndex today) hmonth.1 hmonth.2
    show Yields (replaced today.year today.month 1 >>= _) (both _ (firstOf? (monthIndex today + 1)))
    rw [replaced_first today.valid.2.1]
    show Yields (monthOr (monthIndex today) >>= _) _
    rw [hok]
    show Yields (addMonth first >>= _) _
    rw [addMonth_first hday, hindex]
    exact yields_from (e := .value) trivial hfirst
  | lastMonth =>
    obtain ⟨first, hfirst, hok, hindex, hday, -⟩ := exists_first today (monthIndex today) hmonth.1 hmonth.2
    show Yields (replaced today.year today.month 1 >>= _) (both _ (firstOf? (monthIndex today - 1 + 1)))
    rw [replaced_first today.valid.2.1]
    show Yields (monthOr (monthIndex today) >>= _) _
    rw [hok, Int.sub_add_cancel]
    show Yields (subtractMonth first >>= _) _
    rw [subtractMonth_first hday, hindex]
    exact yields_until (e := .value) trivial hfirst
  | quarter =>
    obtain ⟨first, hfirst, hok, hindex, hday, -⟩ := exists_first today
      (monthIndex today - monthIndex today % 3) (by omega) (by omega)
    show Yields (quarterStart today >>= _) (both _ (firstOf? (monthIndex today - monthIndex today % 3 + 3)))
    rw [quarterStart_eq, hok]
    show Yields (addMonth first >>= fun second => addMonth second >>= fun third => addMonth third >>= _) _
    rw [← bind_assoc, ← bind_assoc, addMonth_thrice hday, hindex]
    exact yields_from (e := .value) trivial hfirst
  | lastQuarter =>
    obtain ⟨first, hfirst, hok, hindex, hday, -⟩ := exists_first today
      (monthIndex today - monthIndex today % 3) (by omega) (by omega)
    show Yields (quarterStart today >>= _)
      (both (firstOf? (monthIndex today - monthIndex today % 3 - 3)) (firstOf? (monthIndex today - monthIndex today % 3 - 3 + 3)))
    rw [quarterStart_eq, hok, Int.sub_add_cancel]
    show Yields (subtractMonth first >>= fun last => subtractMonth last >>= fun middle => subtractMonth middle >>= _) _
    rw [← bind_assoc, ← bind_assoc, subtractMonth_thrice hday, hindex]
    exact yields_until (e := .value) trivial hfirst
  | year =>
    obtain ⟨first, hfirst, hok, hindex, hday, hyear⟩ := exists_first today
      (monthIndex today - monthIndex today % 12) (by omega) (by omega)
    show Yields (replaced today.year 1 1 >>= _) (both _ (firstOf? (monthIndex today - monthIndex today % 12 + 12)))
    rw [replaced_january today, hok]
    show Yields (replaced (first.year + 1) first.month first.day >>= _) _
    rw [hday, replaced_first first.valid.2.1,
      show (12 * (first.year + 1 : Nat) + first.month - 1 : Int) = monthIndex first + 12 by unfold monthIndex; omega, hindex]
    exact yields_from (e := .value) trivial hfirst
  | lastYear =>
    obtain ⟨first, hfirst, hok, hindex, hday, hyear⟩ := exists_first today
      (monthIndex today - monthIndex today % 12) (by omega) (by omega)
    show Yields (replaced today.year 1 1 >>= _)
      (both (firstOf? (monthIndex today - monthIndex today % 12 - 12)) (firstOf? (monthIndex today - monthIndex today % 12 - 12 + 12)))
    rw [replaced_january today, hok, Int.sub_add_cancel]
    show Yields (replaced (first.year - 1) first.month first.day >>= _) _
    rw [hday, replaced_first first.valid.2.1,
      show (12 * (first.year - 1 : Nat) + first.month - 1 : Int) = monthIndex first - 12 by
        have := first.valid.1.1
        unfold monthIndex
        omega, hindex]
    exact yields_until (e := .value) trivial hfirst

/-- A month is still to come this year if it is a later one. -/
theorem ordinal_lt_first {today first : Date} (hyear : first.year = today.year) (hday : first.day = 1) :
    today.ordinal < first.ordinal ↔ today.month < first.month := by
  constructor
  · intro h
    by_contra hle
    rcases Nat.lt_or_eq_of_le (Nat.le_of_not_lt hle) with hlt | heq
    · have hearlier := Date.ordinal_lt_of_month_lt hyear hlt
      omega
    · have hvalid := today.valid.2.2.1
      unfold Date.ordinal at h
      rw [hyear, heq, hday] at h
      omega
  · exact Date.ordinal_lt_of_month_lt hyear.symm

/-- **The month `N月`** is resolved to the month that it means. -/
theorem bareMonthBounds_of_span {month : Nat} {today : Date} {span : Span} (h : bareMonthSpan? month today = some span) :
    Yields (some <$> bareMonthBounds month today) span.bounds? := by
  have hvalid := today.valid
  unfold bareMonthSpan? at h
  split at h
  · next hmonth =>
    obtain ⟨first, hfirst, hok, hindex, hday, hyear⟩ := exists_first today
      (12 * today.year + month - 1) (by omega) (by omega)
    have hfirstMonth : first.month = month := by
      unfold monthIndex at hindex
      omega
    have hlater : today.ordinal < first.ordinal ↔ today.month < month := by
      rw [ordinal_lt_first hyear hday, hfirstMonth]
    unfold bareMonthBounds
    rw [if_neg (not_not_intro hmonth), replaced_first hmonth, hok]
    show Yields (some <$> (if today.ordinal < first.ordinal then
        replaced (today.year - 1) month 1 >>= fun start => addMonth start >>= fun stop => pure (start, stop)
      else pure first >>= fun start => addMonth start >>= fun stop => pure (start, stop))) _
    split at h
    · next hpast =>
      cases h
      rw [if_neg (by omega)]
      show Yields (some <$> (addMonth first >>= _)) (both _ (firstOf? (12 * today.year + month - 1 + 1)))
      rw [addMonth_first hday, hindex, map_bind]
      exact yields_from (e := .value) trivial hfirst
    · next hcoming =>
      cases h
      rw [if_pos (by omega), replaced_first hmonth,
        show (12 * (today.year - 1 : Nat) + month - 1 : Int) = 12 * (today.year - 1) + month - 1 by omega]
      show Yields _ (both _ (firstOf? (12 * (today.year - 1) + month - 1 + 1)))
      cases hbefore : firstOf? (12 * (today.year - 1) + month - 1) with
      | none =>
        unfold monthOr
        rw [hbefore]
        exact ⟨.value, rfl, trivial⟩
      | some before =>
        obtain ⟨hbeforeIndex, hbeforeDay⟩ := firstOf?_eq_some.mp hbefore
        unfold monthOr
        rw [hbefore]
        show Yields (some <$> (addMonth before >>= _)) _
        rw [addMonth_first hbeforeDay, hbeforeIndex, map_bind]
        exact yields_from (e := .value) trivial rfl
  · cases h

/-- **A phrase of a pattern** is resolved to the days that it names. -/
theorem resolvePattern_of_span (today : Date) {phrase : String} {span : Span} (h : patternSpan? phrase today = some span) :
    Yields (resolvePattern phrase today) span.bounds? := by
  unfold patternSpan? at h
  unfold resolvePattern
  cases hrecent : recentDays? phrase.toList with
  | some days =>
    rw [hrecent] at h
    dsimp only at h ⊢
    split at h
    · next hpos =>
      cases h
      rw [if_neg (by omega)]
      show Yields _ (both _ (Date.ofOrdinal? (today.ordinal + 1 - days + days)))
      rw [Int.sub_add_cancel]
      show Yields (orRaise .overflow (Date.ofOrdinal? (today.ordinal + 1)) >>= _) _
      cases htomorrow : Date.ofOrdinal? (today.ordinal + 1) with
      | none => cases Date.ofOrdinal? (today.ordinal + 1 - days) <;> exact ⟨.overflow, rfl, trivial⟩
      | some tomorrow =>
        rw [← Date.ofOrdinal?_eq_some.mp htomorrow]
        exact yields_until (e := .overflow) trivial rfl
    · cases h
  | none =>
    rw [hrecent] at h
    dsimp only at h ⊢
    cases hday : isoDay? phrase.toList with
    | some fields =>
      obtain ⟨year, month, day⟩ := fields
      rw [hday] at h
      dsimp only at h ⊢
      obtain ⟨d, hd, rfl⟩ := Option.map_eq_some_iff.mp h
      unfold safeDate
      rw [hd]
      exact yields_from (e := .overflow) trivial (ofOrdinal?_ordinal d)
    | none =>
      rw [hday] at h
      dsimp only at h ⊢
      cases hmonth : (isoMonth? phrase.toList).or (cnMonth? phrase.toList) with
      | some fields =>
        obtain ⟨year, month⟩ := fields
        rw [hmonth] at h
        dsimp only at h ⊢
        obtain ⟨first, hfirst, rfl⟩ := Option.map_eq_some_iff.mp h
        have hone : first.day = 1 := (Date.of?_eq_some.mp hfirst).2.2
        unfold safeDate
        rw [hfirst]
        show Yields (addMonth first >>= _) (both _ (firstOf? (monthIndex first + 1)))
        rw [addMonth_first hone]
        exact yields_from (e := .value) trivial (firstOf?_monthIndex hone)
      | none =>
        rw [hmonth] at h
        dsimp only at h ⊢
        cases hbare : bareMonth? phrase.toList with
        | some month =>
          rw [hbare] at h
          exact bareMonthBounds_of_span h
        | none =>
          rw [hbare] at h
          dsimp only at h ⊢
          cases htext : cnBareMonth? phrase.toList with
          | some text =>
            rw [htext] at h
            dsimp only at h ⊢
            obtain ⟨month, hlookup, hspan⟩ := Option.bind_eq_some_iff.mp h
            rw [hlookup]
            exact bareMonthBounds_of_span hspan
          | none =>
            rw [htext] at h
            cases h

/-- **A phrase with days** is resolved to them where they are on the calendar, and fails undeclared elsewhere. -/
theorem resolveBounds_of_span {phrase : String} {today : Date} {span : Span} (h : span? phrase today = some span) :
    (∀ bounds, span.bounds? = some bounds → resolveBounds phrase today = .ok bounds)
      ∧ (span.bounds? = none → ∃ error, resolveBounds phrase today = .error error ∧ error.Undeclared) := by
  unfold span? at h
  unfold resolveBounds
  cases hnamed : named? phrase with
  | some named =>
    rw [hnamed] at h
    cases h
    have hyields := resolveNamed_of_span today hnamed
    unfold Yields at hyields
    constructor
    · intro bounds hbounds
      rw [hbounds] at hyields
      rw [hyields]
      rfl
    · intro hnone
      rw [hnone] at hyields
      obtain ⟨error, heq, hundeclared⟩ := hyields
      rw [heq]
      exact ⟨error, rfl, hundeclared⟩
  | none =>
    rw [hnamed] at h
    have hyields := resolvePattern_of_span today h
    have hnone : resolveNamed phrase today = .ok none := by
      unfold resolveNamed
      rw [hnamed]
      rfl
    unfold Yields at hyields
    rw [hnone]
    constructor
    · intro bounds hbounds
      rw [hbounds] at hyields
      show (resolvePattern phrase today >>= _) = _
      rw [hyields]
      rfl
    · intro hnone
      rw [hnone] at hyields
      obtain ⟨error, heq, hundeclared⟩ := hyields
      refine ⟨error, ?_, hundeclared⟩
      show (resolvePattern phrase today >>= _) = _
      rw [heq]
      rfl

/-- A month `N月` that is no month is refused. -/
theorem bareMonthBounds_of_none {month : Nat} {today : Date} (h : bareMonthSpan? month today = none) :
    bareMonthBounds month today = .error (.expression "time expression is not a valid month") := by
  unfold bareMonthSpan? at h
  split at h
  · split at h <;> cases h
  · next hmonth =>
    unfold bareMonthBounds
    rw [if_pos hmonth]
    rfl

/-- A phrase of a pattern that names no days is refused, and another phrase has no bounds. -/
theorem resolvePattern_of_none {phrase : String} {today : Date} (h : patternSpan? phrase today = none) :
    resolvePattern phrase today = .ok none ∨ ∃ message, resolvePattern phrase today = .error (.expression message) := by
  unfold patternSpan? at h
  unfold resolvePattern
  cases hrecent : recentDays? phrase.toList with
  | some days =>
    rw [hrecent] at h
    dsimp only at h ⊢
    split at h
    · cases h
    · rw [if_pos (by omega)]
      exact .inr ⟨_, rfl⟩
  | none =>
    rw [hrecent] at h
    dsimp only at h ⊢
    cases hday : isoDay? phrase.toList with
    | some fields =>
      obtain ⟨year, month, day⟩ := fields
      rw [hday] at h
      dsimp only at h ⊢
      unfold safeDate
      rw [Option.map_eq_none_iff.mp h]
      exact .inr ⟨_, rfl⟩
    | none =>
      rw [hday] at h
      dsimp only at h ⊢
      cases hmonth : (isoMonth? phrase.toList).or (cnMonth? phrase.toList) with
      | some fields =>
        obtain ⟨year, month⟩ := fields
        rw [hmonth] at h
        dsimp only at h ⊢
        unfold safeDate
        rw [Option.map_eq_none_iff.mp h]
        exact .inr ⟨_, rfl⟩
      | none =>
        rw [hmonth] at h
        dsimp only at h ⊢
        cases hbare : bareMonth? phrase.toList with
        | some month =>
          rw [hbare] at h
          dsimp only
          rw [bareMonthBounds_of_none h]
          exact .inr ⟨_, rfl⟩
        | none =>
          rw [hbare] at h
          dsimp only at h ⊢
          cases htext : cnBareMonth? phrase.toList with
          | some text =>
            rw [htext] at h
            dsimp only at h ⊢
            cases hlookup : cnMonthNumbers.lookup text with
            | none => exact .inr ⟨_, rfl⟩
            | some month =>
              rw [hlookup] at h
              dsimp only
              rw [bareMonthBounds_of_none h]
              exact .inr ⟨_, rfl⟩
          | none => exact .inl rfl

/-- **A phrase without days is refused**, as documented. -/
theorem resolveBounds_of_none {phrase : String} {today : Date} (h : span? phrase today = none) :
    ∃ message, resolveBounds phrase today = .error (.expression message) := by
  obtain ⟨hnamed, hpattern⟩ := Option.or_eq_none_iff.mp h
  have hnone : resolveNamed phrase today = .ok none := by
    unfold resolveNamed
    rw [Option.map_eq_none_iff.mp hnamed]
    rfl
  unfold resolveBounds
  rw [hnone]
  show ∃ message, (resolvePattern phrase today >>= _) = _
  rcases resolvePattern_of_none hpattern with heq | ⟨message, heq⟩
  · rw [heq]
    exact ⟨_, rfl⟩
  · rw [heq]
    exact ⟨message, rfl⟩

end Windows
