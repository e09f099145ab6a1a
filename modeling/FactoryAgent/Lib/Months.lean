import FactoryAgent.Lib.Calendar

/-!
# Months

The months of a calendar without an end, counted from the first month of the year 0: the ordinals of their first days
grow (`firstOrdinal_lt_iff`), at least 28 days apart, and a day is in the month between whose ordinals its own is
(`monthOf_eq_iff`).
-/

namespace Calendar

open IsoDate (daysInMonth daysBeforeYear monthLengths isLeap)

/-- The ordinal of the first day of a month. -/
def firstOrdinal (index : Nat) : Nat :=
  daysBeforeYear (index / 12) + daysBeforeMonth (index / 12) (index % 12 + 1) + 1

/-- The month of a day. -/
def monthOf (d : Date) : Nat :=
  12 * d.year + (d.month - 1)

/-- The year and the month of a day in its month. -/
theorem monthOf_parts (d : Date) : monthOf d / 12 = d.year ∧ monthOf d % 12 + 1 = d.month := by
  have hvalid := d.valid
  unfold monthOf
  omega

/-- The months of the calendar begin with the year 1. -/
theorem twelve_le_monthOf (d : Date) : 12 ≤ monthOf d := by
  have hvalid := d.valid
  unfold monthOf
  omega

/-- A month has at least 28 days. -/
theorem le_daysInMonth (year : Nat) {month : Nat} (hfirst : 1 ≤ month) (hlast : month ≤ 12) :
    28 ≤ daysInMonth year month := by
  have hlength : month - 1 < (monthLengths year).length := by
    show month - 1 < 12
    omega
  have hall : ∀ days ∈ monthLengths year, 28 ≤ days := by
    intro days hdays
    simp only [monthLengths, List.mem_cons, List.not_mem_nil, or_false] at hdays
    cases hleap : isLeap year <;> simp only [hleap, Bool.false_eq_true, if_true, if_false] at hdays <;> omega
  unfold daysInMonth
  rw [List.getD_eq_getElem?_getD, List.getElem?_eq_getElem hlength, Option.getD_some]
  exact hall _ (List.getElem_mem hlength)

/-- **After the days of a month comes the next one.** -/
theorem firstOrdinal_succ {index : Nat} (h : 12 ≤ index) :
    firstOrdinal (index + 1) = firstOrdinal index + daysInMonth (index / 12) (index % 12 + 1) := by
  have hmonth : index % 12 + 1 ≤ 12 := Nat.mod_lt _ (by decide)
  have hsucc := daysBeforeMonth_succ (index / 12) (Nat.le_add_left 1 (index % 12)) hmonth
  unfold firstOrdinal
  rcases Nat.lt_or_ge (index % 12) 11 with hwithin | hlast
  · rw [show (index + 1) / 12 = index / 12 by omega, show (index + 1) % 12 + 1 = index % 12 + 1 + 1 by omega, hsucc]
    omega
  · -- the year is over
    have hyear := daysBeforeYear_succ (show 1 ≤ index / 12 by omega)
    have hsum : daysBeforeMonth (index / 12) 13 = 365 + (if isLeap (index / 12) then 1 else 0) :=
      sum_monthLengths (index / 12)
    have heleven : index % 12 = 11 := by omega
    rw [heleven] at hsucc ⊢
    simp only [Nat.reduceAdd] at hsucc ⊢
    rw [show (index + 1) / 12 = index / 12 + 1 by omega, show (index + 1) % 12 + 1 = 1 by omega, hyear]
    have hbefore : daysBeforeMonth (index / 12 + 1) 1 = 0 := rfl
    omega

/-- **The first days of months are at least 28 days apart.** -/
theorem firstOrdinal_add_le {a b : Nat} (ha : 12 ≤ a) (h : a < b) : firstOrdinal a + 28 ≤ firstOrdinal b := by
  induction h with
  | refl =>
    rw [firstOrdinal_succ ha]
    exact Nat.add_le_add_left (le_daysInMonth _ (Nat.le_add_left 1 _) (Nat.mod_lt _ (by decide))) _
  | @step b hb ih =>
    rw [firstOrdinal_succ (Nat.le_trans ha (Nat.le_of_lt hb))]
    exact Nat.le_trans ih (Nat.le_add_right _ _)

/-- The first days of months are in the order of the months. -/
theorem firstOrdinal_lt_iff {a b : Nat} (ha : 12 ≤ a) (hb : 12 ≤ b) : firstOrdinal a < firstOrdinal b ↔ a < b := by
  constructor
  · intro h
    rcases Nat.lt_trichotomy a b with hlt | rfl | hgt
    · exact hlt
    · exact absurd h (Nat.lt_irrefl _)
    · have hle := firstOrdinal_add_le hb hgt
      omega
  · intro h
    have hle := firstOrdinal_add_le ha h
    omega

/-- The first day of a month has the ordinal of the month. -/
theorem ordinal_first {d : Date} (h : d.day = 1) : d.ordinal = firstOrdinal (monthOf d) := by
  unfold Date.ordinal firstOrdinal
  rw [(monthOf_parts d).1, (monthOf_parts d).2, h]

/-- A day is in its month. -/
theorem ordinal_mem_month (d : Date) :
    firstOrdinal (monthOf d) ≤ d.ordinal ∧ d.ordinal < firstOrdinal (monthOf d + 1) := by
  have hday := d.valid.2.2
  rw [firstOrdinal_succ (twelve_le_monthOf d), (monthOf_parts d).1, (monthOf_parts d).2]
  unfold firstOrdinal Date.ordinal
  rw [(monthOf_parts d).1, (monthOf_parts d).2]
  omega

/-- **The month of a day** is that between whose ordinals its own is. -/
theorem monthOf_eq_iff {d : Date} {index : Nat} (h : 12 ≤ index) :
    monthOf d = index ↔ firstOrdinal index ≤ d.ordinal ∧ d.ordinal < firstOrdinal (index + 1) := by
  constructor
  · rintro rfl
    exact ordinal_mem_month d
  · rintro ⟨hfirst, hlast⟩
    have hmem := ordinal_mem_month d
    have hle : index < monthOf d + 1 :=
      (firstOrdinal_lt_iff h (Nat.le_succ_of_le (twelve_le_monthOf d))).mp (Nat.lt_of_le_of_lt hfirst hmem.2)
    have hge : monthOf d < index + 1 :=
      (firstOrdinal_lt_iff (twelve_le_monthOf d) (Nat.le_succ_of_le h)).mp (Nat.lt_of_le_of_lt hmem.1 hlast)
    omega

end Calendar
