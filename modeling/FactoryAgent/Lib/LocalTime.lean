import FactoryAgent.Lib.Calendar

/-!
# Local time

Clocks and instants, in microseconds since the beginning of 1970, and the zones that lead from one to the other. A
zone has an offset from UTC at every instant, and reads a clock with one of the offsets around it. A clock that the
zone skips is read with the offset from before the skip, so what comes back from UTC is later than what went in, by
what was skipped (`Zone.toLocal_toInstant`).
-/

namespace LocalTime

open Calendar

/-! ## Clocks -/

/-- The microseconds of a day. -/
def dayLength : Int := 86400000000

/-- **The day of a clock**; `none` is out of the range of `datetime`. -/
def dayOf? (wall : Int) : Option Date :=
  Date.ofOrdinal? (wall / dayLength + 719163)

/-- `datetime.combine(day, time.min)` -/
def midnight (d : Date) : Int :=
  ((d.ordinal : Int) - 719163) * dayLength

/-- The day of a clock begins at or before it, and ends after it. -/
theorem dayOf?_eq_some {wall : Int} {d : Date} :
    dayOf? wall = some d ↔ midnight d ≤ wall ∧ wall < midnight d + dayLength := by
  unfold dayOf? midnight dayLength
  rw [Date.ofOrdinal?_eq_some]
  omega

/-- Midnight belongs to the day that it begins. -/
theorem dayOf?_midnight (d : Date) : dayOf? (midnight d) = some d :=
  dayOf?_eq_some.mpr ⟨Int.le_refl _, Int.lt_add_of_pos_right _ (by decide)⟩

/-- **An instant in the range of `datetime`**. -/
structure Utc where
  micros : Int
  inRange : (dayOf? micros).isSome = true
  deriving DecidableEq, Repr

/-- The instant of so many microseconds; `none` is a raised `OverflowError`. -/
def Utc.of? (micros : Int) : Option Utc :=
  if h : (dayOf? micros).isSome = true then some ⟨micros, h⟩ else none

/-- The instant of so many microseconds has so many. -/
theorem Utc.of?_eq_some {micros : Int} {utc : Utc} : Utc.of? micros = some utc ↔ utc.micros = micros := by
  unfold Utc.of?
  constructor
  · intro h
    split at h
    · cases h
      rfl
    · cases h
  · rintro rfl
    exact dif_pos utc.inRange

/-! ## Zones -/

/-- **A time zone**: its offset from UTC at an instant, and the offset that it reads a clock with. A clock that comes
twice is read as the first, and a clock that is skipped with the offset from before the skip, which is the smaller. -/
structure Zone where
  offsetAt : Int → Int
  wallOffset : Int → Int
  wallOffset_le : ∀ wall, wallOffset wall ≤ offsetAt (wall - wallOffset wall)

namespace Zone

variable (zone : Zone)

/-- The clock of the zone at an instant. -/
def toLocal (instant : Int) : Int :=
  instant + zone.offsetAt instant

/-- The instant of a clock of the zone. -/
def toInstant (wall : Int) : Int :=
  wall - zone.wallOffset wall

/-- What the zone has skipped where a clock is read; nothing where the clock is one that it shows. -/
def skipped (wall : Int) : Int :=
  zone.offsetAt (zone.toInstant wall) - zone.wallOffset wall

/-- Zones skip ahead. -/
theorem skipped_nonneg (wall : Int) : 0 ≤ zone.skipped wall :=
  Int.sub_nonneg.mpr (zone.wallOffset_le wall)

/-- **What comes back of a clock** is that clock and what is skipped there. -/
theorem toLocal_toInstant (wall : Int) : zone.toLocal (zone.toInstant wall) = wall + zone.skipped wall := by
  unfold toLocal skipped toInstant
  omega

/-- A zone with one offset. -/
def fixed (offset : Int) : Zone where
  offsetAt _ := offset
  wallOffset _ := offset
  wallOffset_le _ := Int.le_refl _

/-- **A zone that changes its offset once**, at an instant. -/
def changing (instant before later : Int) : Zone where
  offsetAt utc := if utc < instant then before else later
  wallOffset wall := if wall < instant + max before later then before else later
  wallOffset_le wall := by
    split
    · split <;> omega
    · split <;> omega

end Zone

end LocalTime
