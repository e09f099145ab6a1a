import FactoryAgent.Card.Cells
import FactoryAgent.Lib.IsoDate
import FactoryAgent.Lib.StableSort
import Std.Data.ExtTreeMap.Lemmas

/-!
# Charts

The chart of a card, `build_chart_payload` of `ports/card.py`: a point for each day, or for each week where there
are more days than a chart has room for. A day is its ordinal, a week the ordinal of its Monday. A value is a text
from the start, also while a week is summed up: what is no number then stays where it comes first, and is passed
over where it comes later.
-/

namespace Card

/-- `MAX_CHART_DAY_POINTS` -/
def maxChartDayPoints : Nat := 62

/-! ## Days -/

/-- The field `%m` of `strptime`. -/
def monthField? : List Char → Option Nat
  | ['1', c] => if '0' ≤ c ∧ c ≤ '2' then some (10 + (c.toNat - 48)) else none
  | ['0', c] => if '1' ≤ c ∧ c ≤ '9' then some (c.toNat - 48) else none
  | [c] => if '1' ≤ c ∧ c ≤ '9' then some (c.toNat - 48) else none
  | _ => none

/-- The field `%d` of `strptime`. -/
def dayField? : List Char → Option Nat
  | ['3', c] => if '0' ≤ c ∧ c ≤ '1' then some (30 + (c.toNat - 48)) else none
  | ['1', c] => (Text.digitValue? c).map (10 + ·)
  | ['2', c] => (Text.digitValue? c).map (20 + ·)
  | ['0', c] => if '1' ≤ c ∧ c ≤ '9' then some (c.toNat - 48) else none
  | [' ', c] => if '1' ≤ c ∧ c ≤ '9' then some (c.toNat - 48) else none
  | [c] => if '1' ≤ c ∧ c ≤ '9' then some (c.toNat - 48) else none
  | _ => none

/-- The ordinal of a calendar date, if there is such a date. -/
def ordinal? (year month day : Nat) : Option Nat :=
  if 1 ≤ year ∧ day ≤ IsoDate.daysInMonth year month then
    some (IsoDate.daysBeforeYear year + ((IsoDate.monthLengths year).take (month - 1)).sum + day)
  else none

/-- **`datetime.strptime(text, "%Y-%m-%d").date()`**, or with another separator. -/
def strptimeDate (separator : Char) : List Char → Option Nat
  | y₁ :: y₂ :: y₃ :: y₄ :: c :: rest =>
    if c ≠ separator then none
    else do
      let digits ← [y₁, y₂, y₃, y₄].mapM Text.digitValue?
      let month ← monthField? (rest.takeWhile (· ≠ separator))
      let day ← match rest.dropWhile (· ≠ separator) with
        | _ :: cs => dayField? cs
        | [] => none
      ordinal? (digits.foldl (fun n digit => 10 * n + digit) 0) month day
  | _ => none

/-- **`_parse_label_date`**. A date is taken as it is there, and that is what its text is read as. -/
def parseLabelDate (label : CardValue) : Option Nat :=
  let text := Text.stripped label.str.toList
  (strptimeDate '-' text).or (strptimeDate '/' text)

/-- **`_week_start`** -/
def weekStart (day : Nat) : Nat :=
  day - (day + 6) % 7

/-- `day.strftime("%m-%d")` -/
def dayLabel (day : Nat) : String :=
  let (_, month, dayOfMonth) := IsoDate.ofOrdinal day
  String.ofList (IsoDate.padded 2 month ++ '-' :: IsoDate.padded 2 dayOfMonth)

/-! ## Values -/

/-- **`_numeric_text`** -/
def numericText : CardValue → String
  | .decimal negative coefficient exponent => (decimalStr (.finite negative coefficient exponent) none).getD ""
  | value => ((Decimal.parse value.str).bind fun number => decimalStr number none).getD value.str

/-- **`_add_decimal_text`** -/
def addDecimalText (current : Option String) (addition : String) : String :=
  match current with
  | none => addition
  | some current =>
    ((Decimal.parse current).bind fun a => (Decimal.parse addition).bind fun b =>
      (DecimalContext.python.add a b).bind fun sum => decimalStr sum none).getD current

/-! ## The chart -/

/-- **`CardChart`** -/
structure CardChart where
  type : String
  unit : String
  granularity : String
  points : List (String × String)
  deriving DecidableEq, Repr

/-- The points with a day. -/
def parsedPoints (labels values : List CardValue) : List (Nat × String) :=
  (labels.zip values).filterMap fun point => (parseLabelDate point.1).map fun day => (day, numericText point.2)

/-- The points by day, those of a day in their order. -/
def sortedPoints (labels values : List CardValue) : List (Nat × String) :=
  StableSort.sorted (·.1) (parsedPoints labels values)

/-- **The buckets of the weeks.** -/
def weekBuckets (points : List (Nat × String)) : Std.ExtTreeMap Nat String :=
  points.foldl (fun buckets point =>
    buckets.insert (weekStart point.1) (addDecimalText buckets[weekStart point.1]? point.2)) ∅

/-- **`build_chart_payload`.** -/
def buildChartPayload (chartType unit : String) (labels values : List CardValue) : CardChart :=
  let parsed := sortedPoints labels values
  if maxChartDayPoints < parsed.length then
    ⟨chartType, unit, "week", (weekBuckets parsed).toList.map fun (day, value) => (dayLabel day, value)⟩
  else ⟨chartType, unit, "day", parsed.map fun (day, value) => (dayLabel day, value)⟩

end Card
