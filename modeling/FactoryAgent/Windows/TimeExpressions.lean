import FactoryAgent.Lib.LocalTime

/-!
# Time expressions

`application/time_expressions.py`: the phrases of the reviewed vocabulary and the half-open range of instants that
each stands for. A phrase is stripped; then it is one of the named phrases or it has one of five patterns, each with
its own date arithmetic. Dates that a phrase spells out are checked, dates that are computed are not: `date.replace`
raises a `ValueError` out of the years from 1 to 9999, adding days an `OverflowError`, and so does the conversion to
UTC.
-/

namespace Windows

open Calendar LocalTime

/-- **What the resolution raises.** Only the first is `TimeExpressionError`. -/
inductive TimeError where
  | expression (message : String)
  | value
  | overflow
  | range (message : String)
  deriving DecidableEq, Repr

/-- **`TimeRange`** -/
structure TimeRange where
  start : Utc
  stop : Utc
  ordered : start.micros < stop.micros
  deriving DecidableEq, Repr

/-- `TimeRange.__post_init__` -/
def TimeRange.of (start stop : Utc) : Except TimeError TimeRange :=
  if h : start.micros < stop.micros then .ok ⟨start, stop, h⟩
  else .error (.range "time range start must be before end")

/-! ## Date arithmetic -/

/-- `date.replace`, which checks the fields that it puts together. -/
def replaced (year month day : Nat) : Except TimeError Date :=
  (Date.of? year month day).elim (.error .value) .ok

/-- `date + timedelta(days=…)` -/
def plusDays (d : Date) (days : Int) : Except TimeError Date :=
  (d.addDays days).elim (.error .overflow) .ok

/-- `_safe_date` -/
def safeDate (year month day : Nat) : Except TimeError Date :=
  (Date.of? year month day).elim (.error (.expression "time expression is not a valid calendar date")) .ok

/-- `_quarter_start` -/
def quarterStart (value : Date) : Except TimeError Date :=
  replaced value.year ((value.month - 1) / 3 * 3 + 1) 1

/-- `_add_month` -/
def addMonth (value : Date) : Except TimeError Date :=
  if value.month = 12 then replaced (value.year + 1) 1 value.day else replaced value.year (value.month + 1) value.day

/-- `_subtract_month` -/
def subtractMonth (value : Date) : Except TimeError Date :=
  if value.month = 1 then replaced (value.year - 1) 12 value.day else replaced value.year (value.month - 1) value.day

/-! ## The named phrases -/

/-- The named phrases. -/
inductive Named where
  | today
  | yesterday
  | dayBefore
  | week
  | lastWeek
  | month
  | lastMonth
  | quarter
  | lastQuarter
  | year
  | lastYear
  deriving DecidableEq, Repr

/-- The tests of a named phrase, in their order. -/
def named? (phrase : String) : Option Named :=
  if phrase ∈ ["今天", "今日"] then some .today
  else if phrase ∈ ["昨天", "昨日"] then some .yesterday
  else if phrase = "前天" then some .dayBefore
  else if phrase ∈ ["本周", "这周", "这个星期"] then some .week
  else if phrase ∈ ["上周", "上个星期"] then some .lastWeek
  else if phrase ∈ ["本月", "这个月", "当月"] then some .month
  else if phrase ∈ ["上月", "上个月"] then some .lastMonth
  else if phrase ∈ ["本季度", "这个季度"] then some .quarter
  else if phrase ∈ ["上季度", "上个季度"] then some .lastQuarter
  else if phrase ∈ ["今年", "本年"] then some .year
  else if phrase = "去年" then some .lastYear
  else none

/-- **`_resolve_named`** -/
def resolveNamed (phrase : String) (today : Date) : Except TimeError (Option (Date × Date)) :=
  match named? phrase with
  | none => return none
  | some .today => return some (today, ← plusDays today 1)
  | some .yesterday => return some (← plusDays today (-1), today)
  | some .dayBefore => return some (← plusDays today (-2), ← plusDays today (-1))
  | some .week => do
    let start ← plusDays today (-today.weekday)
    return some (start, ← plusDays start 7)
  | some .lastWeek => do
    let thisWeek ← plusDays today (-today.weekday)
    return some (← plusDays thisWeek (-7), thisWeek)
  | some .month => do
    let start ← replaced today.year today.month 1
    return some (start, ← addMonth start)
  | some .lastMonth => do
    let thisMonth ← replaced today.year today.month 1
    return some (← subtractMonth thisMonth, thisMonth)
  | some .quarter => do
    let start ← quarterStart today
    return some (start, ← addMonth (← addMonth (← addMonth start)))
  | some .lastQuarter => do
    let thisQuarter ← quarterStart today
    return some (← subtractMonth (← subtractMonth (← subtractMonth thisQuarter)), thisQuarter)
  | some .year => do
    let start ← replaced today.year 1 1
    return some (start, ← replaced (start.year + 1) start.month start.day)
  | some .lastYear => do
    let thisYear ← replaced today.year 1 1
    return some (← replaced (thisYear.year - 1) thisYear.month thisYear.day, thisYear)

/-! ## The patterns -/

/-- `\d{low,high}` before something that is no digit: the number and what follows it. -/
def digits? (low high : Nat) (cs : List Char) : Option (Nat × List Char) :=
  let run := cs.takeWhile fun c => (Text.digitValue? c).isSome
  if low ≤ run.length ∧ run.length ≤ high then
    some (run.foldl (fun n c => 10 * n + (Text.digitValue? c).getD 0) 0, cs.drop run.length)
  else none

/-- `\s*` -/
def blanks (cs : List Char) : List Char :=
  cs.dropWhile Text.isSpace

/-- One character, and what follows it. -/
def char? (c : Char) (cs : List Char) : Option (List Char) :=
  if cs.head? = some c then some cs.tail else none

/-- `月(?:份)?$`, after blanks. -/
def isMonthEnd (cs : List Char) : Bool :=
  blanks cs = ['月'] || blanks cs = ['月', '份']

/-- `_RECENT_DAYS` -/
def recentDays? (cs : List Char) : Option Nat := do
  let rest ← match cs with
    | '近' :: rest => some rest
    | '最' :: '近' :: rest => some rest
    | '过' :: '去' :: rest => some rest
    | _ => none
  let (days, rest) ← digits? 1 3 (blanks rest)
  if blanks rest = ['天'] then some days else none

/-- `_ISO_DAY` -/
def isoDay? (cs : List Char) : Option (Nat × Nat × Nat) := do
  let (year, rest) ← digits? 4 4 cs
  let (month, rest) ← digits? 2 2 (← char? '-' rest)
  let (day, rest) ← digits? 2 2 (← char? '-' rest)
  if rest = [] then some (year, month, day) else none

/-- `_ISO_MONTH` -/
def isoMonth? (cs : List Char) : Option (Nat × Nat) := do
  let (year, rest) ← digits? 4 4 cs
  let (month, rest) ← digits? 2 2 (← char? '-' rest)
  if rest = [] then some (year, month) else none

/-- `_CN_MONTH` -/
def cnMonth? (cs : List Char) : Option (Nat × Nat) := do
  let (year, rest) ← digits? 4 4 cs
  let (month, rest) ← digits? 1 2 (blanks (← char? '年' (blanks rest)))
  if blanks rest = ['月'] then some (year, month) else none

/-- `_BARE_MONTH` -/
def bareMonth? (cs : List Char) : Option Nat := do
  let (month, rest) ← digits? 1 2 cs
  if isMonthEnd rest then some month else none

/-- `_CN_BARE_MONTH` -/
def cnBareMonth? (cs : List Char) : Option String :=
  let run := cs.takeWhile fun c => c ∈ "一二三四五六七八九十".toList
  if 1 ≤ run.length ∧ run.length ≤ 3 ∧ isMonthEnd (cs.drop run.length) then some (String.ofList run) else none

/-- `_CN_MONTH_NUMBERS` -/
def cnMonthNumbers : List (String × Nat) :=
  [("一", 1), ("二", 2), ("三", 3), ("四", 4), ("五", 5), ("六", 6), ("七", 7), ("八", 8), ("九", 9), ("十", 10),
    ("十一", 11), ("十二", 12)]

/-- **`_bare_month_bounds`**: the month of this year, or of the year before where it is still to come. -/
def bareMonthBounds (month : Nat) (today : Date) : Except TimeError (Date × Date) := do
  if ¬(1 ≤ month ∧ month ≤ 12) then
    throw (.expression "time expression is not a valid month")
  let thisYear ← replaced today.year month 1
  let start ← if today.ordinal < thisYear.ordinal then replaced (today.year - 1) month 1 else pure thisYear
  return (start, ← addMonth start)

/-- **`_resolve_pattern`**, of a phrase without blanks around it. -/
def resolvePattern (phrase : String) (today : Date) : Except TimeError (Option (Date × Date)) :=
  if let some days := recentDays? phrase.toList then do
    if days < 1 then
      throw (.expression "relative day count must be positive")
    let stop ← plusDays today 1
    return some (← plusDays stop (-days), stop)
  else if let some (year, month, day) := isoDay? phrase.toList then do
    let day ← safeDate year month day
    return some (day, ← plusDays day 1)
  else if let some (year, month) := (isoMonth? phrase.toList).or (cnMonth? phrase.toList) then do
    let start ← safeDate year month 1
    return some (start, ← addMonth start)
  else if let some month := bareMonth? phrase.toList then
    some <$> bareMonthBounds month today
  else if let some text := cnBareMonth? phrase.toList then
    match cnMonthNumbers.lookup text with
    | none => throw (.expression "time expression is not a valid month")
    | some month => some <$> bareMonthBounds month today
  else return none

/-! ## The range -/

/-- `_to_utc` -/
def toUtc (zone : Zone) (day : Date) : Except TimeError Utc :=
  (Utc.of? (zone.toInstant (midnight day))).elim (.error .overflow) .ok

/-- `now.astimezone(zone).date()` -/
def localDate (zone : Zone) (now : Utc) : Except TimeError Date :=
  (dayOf? (zone.toLocal now.micros)).elim (.error .overflow) .ok

/-- The first day of a phrase and the day after its last. -/
def resolveBounds (phrase : String) (today : Date) : Except TimeError (Date × Date) := do
  match ← resolveNamed phrase today with
  | some bounds => return bounds
  | none =>
    match ← resolvePattern phrase today with
    | some bounds => return bounds
    | none => throw (.expression "time expression is not in the reviewed vocabulary")

/-- **`resolve_time_expression`** -/
def resolveTimeExpression (expression : String) (now : Utc) (zone : Zone) : Except TimeError TimeRange := do
  let phrase := Text.strip expression
  if phrase = "" then
    throw (.expression "time expression is empty")
  let today ← localDate zone now
  let (startDay, endDay) ← resolveBounds phrase today
  TimeRange.of (← toUtc zone startDay) (← toUtc zone endDay)

end Windows
