import FactoryAgent.Lib.Text

/-!
# ISO calendar dates

Calendar dates as the texts `YYYY-MM-DD` that they are written as, their ordinals, and the ISO 8601
instants whose calendar day is wanted: `datetime.fromisoformat(text).date().isoformat()`.
-/

namespace IsoDate

/-! ## The calendar -/

/-- Whether a year is a leap year. -/
def isLeap (year : Nat) : Bool :=
  year % 4 = 0 && (year % 100 ≠ 0 || year % 400 = 0)

/-- The days of the months of a year. -/
def monthLengths (year : Nat) : List Nat :=
  [31, if isLeap year then 29 else 28, 31, 30, 31, 30, 31, 31, 30, 31, 30, 31]

/-- The days of one month. -/
def daysInMonth (year month : Nat) : Nat :=
  (monthLengths year).getD (month - 1) 0

/-- The days before a year. -/
def daysBeforeYear (year : Nat) : Nat :=
  (year - 1) * 365 + (year - 1) / 4 - (year - 1) / 100 + (year - 1) / 400

/-- The month and the day of a day of a year, counted from zero. -/
def monthAndDay (month dayOfYear : Nat) : List Nat → Nat × Nat
  | [] => (month, dayOfYear + 1)
  | days :: months =>
    if dayOfYear < days then (month, dayOfYear + 1)
    else monthAndDay (month + 1) (dayOfYear - days) months

/-- `date.fromordinal`: the year, the month and the day of an ordinal. -/
def ofOrdinal (ordinal : Nat) : Nat × Nat × Nat :=
  let days := ordinal - 1
  let cycles := days / 146097
  let centuries := days % 146097 / 36524
  let quads := days % 146097 % 36524 / 1461
  let years := days % 146097 % 36524 % 1461 / 365
  let year := cycles * 400 + centuries * 100 + quads * 4 + years + 1
  if years = 4 || centuries = 4 then (year - 1, 12, 31)
  else (year, monthAndDay 1 (days % 146097 % 36524 % 1461 % 365) (monthLengths year))

/-! ## Reading digits -/

/-- The value of a list of ASCII digits. -/
def digits? (cs : List Char) : Option Nat :=
  if cs ≠ [] && cs.all Char.isDigit then
    some (cs.foldl (fun n c => 10 * n + (c.toNat - 48)) 0)
  else none

/-- A number with leading zeros, up to a width. -/
def padded (width n : Nat) : List Char :=
  List.replicate (width - (Nat.repr n).toList.length) '0' ++ (Nat.repr n).toList

/-- `date.isoformat`. -/
def isoformat (date : Nat × Nat × Nat) : String :=
  String.ofList (padded 4 date.1 ++ '-' :: padded 2 date.2.1 ++ '-' :: padded 2 date.2.2)

/-- **A calendar date**: a text that `date.fromisoformat` reads and `date.isoformat` writes back. -/
def isIsoDate (text : String) : Bool :=
  match text.toList with
  | [y₁, y₂, y₃, y₄, '-', m₁, m₂, '-', d₁, d₂] =>
    match digits? [y₁, y₂, y₃, y₄], digits? [m₁, m₂], digits? [d₁, d₂] with
    | some year, some month, some day =>
      decide (1 ≤ year ∧ 1 ≤ month ∧ month ≤ 12 ∧ 1 ≤ day ∧ day ≤ daysInMonth year month)
    | _, _, _ => false
  | _ => false

/-- A calendar date is ten characters long. -/
theorem length_of_isIsoDate {text : String} (h : isIsoDate text = true) :
    text.toList.length = 10 := by
  unfold isIsoDate at h
  split at h
  · next heq => simp [heq]
  · simp at h

/-- A calendar date is not empty. -/
theorem ne_empty_of_isIsoDate {text : String} (h : isIsoDate text = true) : text ≠ "" := by
  rintro rfl
  exact absurd (length_of_isIsoDate h) (by decide)

/-- The calendar date of a week date `YYYY-Www-D`. -/
def ofWeek (year week day : Nat) : Option String :=
  let newYear := daysBeforeYear year + 1
  let weekday := (newYear + 6) % 7
  let monday := if weekday ≤ 3 then newYear - weekday else newYear + 7 - weekday
  let long := weekday = 3 || (weekday = 2 && isLeap year)
  if 1 ≤ year && 1 ≤ week && (week ≤ 52 || (week = 53 && long)) && 1 ≤ day && day ≤ 7 then
    some (isoformat (ofOrdinal (monday + (week - 1) * 7 + (day - 1))))
  else none

/-! ## Instants -/

/-- One two-digit field of a time, below its bound. -/
def field? (bound : Nat) : List Char → Option (Nat × List Char)
  | c₁ :: c₂ :: rest =>
    ((digits? [c₁, c₂]).filter (fun n => decide (n < bound))).map (fun n => (n, rest))
  | _ => none

/-- Whether these characters are the rest of a time after its seconds: nothing, or a fraction. -/
def isFraction : List Char → Bool
  | [] => true
  | c :: cs => (c = '.' || c = ',') && (digits? cs).isSome

/-- Whether these characters are the rest of a time after its hours, each field after the
separator. -/
def isRestOfTime (separator : List Char) (cs : List Char) : Bool :=
  cs = [] || (separator.isPrefixOf cs &&
    match field? 60 (cs.drop separator.length) with
    | some (_, rest) => rest = [] || (separator.isPrefixOf rest &&
        match field? 60 (rest.drop separator.length) with
        | some (_, rest) => isFraction rest
        | none => false)
    | none => false)

/-- Whether these characters are a time of the day, in the extended or in the basic format. -/
def isTime (cs : List Char) : Bool :=
  match field? 24 cs with
  | some (_, rest) => isRestOfTime [':'] rest || isRestOfTime [] rest
  | none => false

/-- Whether these characters are an offset from UTC. -/
def isOffset : List Char → Bool
  | [] => true
  | 'Z' :: cs => cs = []
  | '+' :: cs => isTime cs
  | '-' :: cs => isTime cs
  | _ => false

/-- Whether a character begins an offset. -/
def beginsOffset (c : Char) : Bool :=
  c = '+' || c = '-' || c = 'Z'

/-- Whether these characters are a time with or without an offset. -/
def isTimeWithOffset (cs : List Char) : Bool :=
  isTime (cs.takeWhile (fun c => !beginsOffset c)) && isOffset (cs.dropWhile (fun c => !beginsOffset c))

/-- The calendar day of a date in ten characters, a calendar date or a week date. -/
def day? (text : String) : Option String :=
  if isIsoDate text then some text
  else match text.toList with
    | [y₁, y₂, y₃, y₄, '-', 'W', w₁, w₂, '-', d] =>
      match digits? [y₁, y₂, y₃, y₄], digits? [w₁, w₂], digits? [d] with
      | some year, some week, some day => (ofWeek year week day).filter isIsoDate
      | _, _, _ => none
    | _ => none

/-- **The calendar day of an instant**: `datetime.fromisoformat(text).date().isoformat()` of a text
whose date has ten characters. -/
def dayOfInstant? (text : String) : Option String :=
  if isTimeWithOffset (text.toList.drop 11) then day? (Text.prefixOf 10 text) else none

/-- The day of an instant is a calendar date. -/
theorem isIsoDate_of_dayOfInstant? {text day : String} (h : dayOfInstant? text = some day) :
    isIsoDate day = true := by
  unfold dayOfInstant? day? at h
  split at h
  · split at h
    · next hdate => exact Option.some.inj h ▸ hdate
    · split at h
      · split at h
        · exact (Option.filter_eq_some_iff.mp h).2
        · simp at h
      · simp at h
  · simp at h

example : dayOfInstant? "2026-09-15T08:30:00+08:00" = some "2026-09-15" := by decide
example : dayOfInstant? "2024-W01-1T12" = some "2024-01-01" := by decide
example : isIsoDate "2023-02-29" = false := by decide

end IsoDate
