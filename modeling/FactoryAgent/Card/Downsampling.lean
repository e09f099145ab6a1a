import FactoryAgent.Card.WeekTexts
import FactoryAgent.Lib.Grouping

/-!
# Down-sampling a chart

What the weeks of a long chart say of its days. Where all that decides about a week is the same, and nothing does
where the week has a number (`Decided`), the buckets are the sums of the numbers, as far as these have few enough
digits, and do not depend on the order of the points (`conserves_of_decided`). Otherwise a number is lost, or the
order matters (`decided_of_conserves`): a value that is no number on the first day of a week can take the place of
the sum, and an infinity or a NaN does so on any day.
-/

namespace Card

/-- The points of a series that have a day. -/
def chartPoints (series : List (CardValue × CardValue)) : List (Nat × CardValue) :=
  series.filterMap fun point => (parseLabelDate point.1).map fun day => (day, point.2)

/-- **The buckets of the points**, summed up by day. -/
def pointBuckets (points : List (Nat × CardValue)) : Std.ExtTreeMap Nat String :=
  weekBuckets (StableSort.sorted (·.1) (points.map fun point => (point.1, numericText point.2)))

/-- **The points of a week** by day. -/
def weekPoints (points : List (Nat × CardValue)) (week : Nat) : List (Nat × CardValue) :=
  (StableSort.sorted (·.1) points).filter fun point => weekStart point.1 = week

/-- The number that a text shows. -/
def numberOf (text : String) : Option ℚ :=
  (Decimal.parse text).bind fun d => if d.isFinite then some d.value else none

/-- The week of a point of a series. -/
def weekOf (point : CardValue × CardValue) : Option Nat :=
  (parseLabelDate point.1).map weekStart

/-- **Reordering the points of a week**: those of the other weeks stay in their order. -/
def ReordersWeek (week : Nat) (series series' : List (CardValue × CardValue)) : Prop :=
  series'.Perm series
    ∧ series'.filter (fun point => weekOf point ≠ some week) = series.filter fun point => weekOf point ≠ some week

/-- **The total of a series is conserved**: a week with a number has one bucket, which shows the sum of its numbers;
the buckets add up to the numbers; and reordering the points of a week does not change a bucket. -/
structure ConservesTotal (series : List (CardValue × CardValue)) : Prop where
  weekly : ∀ week, (∃ point ∈ chartPoints series, weekStart point.1 = week ∧ rank point.2 = 1) →
    ∃ text, (pointBuckets (chartPoints series)).toList.filter (fun bucket => bucket.1 = week) = [(week, text)]
      ∧ numberOf text = some (((chartPoints series).filter fun point => weekStart point.1 = week).map
        fun point => number point.2).sum
  total : ((pointBuckets (chartPoints series)).toList.map fun bucket => (numberOf bucket.2).getD 0).sum
    = ((chartPoints series).map fun point => number point.2).sum
  reorder : ∀ week series', ReordersWeek week series series' →
    pointBuckets (chartPoints series') = pointBuckets (chartPoints series)

/-! ## What decides about a week -/

section

variable (points : List (Nat × CardValue)) (week : Nat)

/-- A point of the first day of a week. -/
def FirstDay (point : Nat × CardValue) : Prop :=
  weekStart point.1 = week ∧ ∀ other ∈ points, weekStart other.1 = week → point.1 ≤ other.1

/-- Whether the first day of a week has a value that is no number. -/
def OpensOpaque : Prop :=
  ∃ point ∈ points, FirstDay points week point ∧ rank point.2 = 0

/-- An infinity or a NaN that has the highest rank in its week, and none of this rank is on an earlier day. -/
def Foremost (point : Nat × CardValue) : Prop :=
  weekStart point.1 = week ∧ 2 ≤ rank point.2 ∧ ∀ other ∈ points, weekStart other.1 = week →
    rank other.2 ≤ rank point.2 ∧ (rank other.2 = rank point.2 → point.1 ≤ other.1)

/-- **A point that decides about its week**, where it comes first: one of the first day, if some value there is no
number, and a foremost infinity or NaN otherwise. -/
def Decides (point : Nat × CardValue) : Prop :=
  OpensOpaque points week ∧ FirstDay points week point ∨ ¬OpensOpaque points week ∧ Foremost points week point

end

/-- **Whether all weeks are decided**: what decides about a week is the same text, and nothing does where the week
has a finite number. -/
structure Decided (points : List (Nat × CardValue)) : Prop where
  same : ∀ week, ∀ point ∈ points, ∀ other ∈ points, Decides points week point → Decides points week other →
    numericText point.2 = numericText other.2
  numbers : ∀ week, ∀ point ∈ points, weekStart point.1 = week → rank point.2 = 1 →
    ∀ other ∈ points, ¬Decides points week other

/-- **Whether the numbers of each week fit**, in every order of the points, with all that they add up to on the
way. -/
def ExactSums (points : List (Nat × CardValue)) : Prop :=
  ∀ points', points'.Perm points → ∀ week, RunningSumsFit ((weekPoints points' week).map (·.2))

variable {points points' : List (Nat × CardValue)} {week : Nat}

/-- What decides does not depend on the order of the points. -/
theorem opensOpaque_of_perm (h : points'.Perm points) : OpensOpaque points' week ↔ OpensOpaque points week := by
  simp only [OpensOpaque, FirstDay, h.mem_iff]

/-! ## Buckets -/

/-- **A bucket is the text of the values of its week.** -/
theorem getElem?_weekBuckets (texts : List (Nat × String)) (week : Nat) :
    (weekBuckets texts)[week]?
      = (texts.filter fun point => weekStart point.1 = week).foldl
        (fun current point => some (addDecimalText current point.2)) none := by
  have hfold : ∀ buckets : Std.ExtTreeMap Nat String, (texts.foldl (fun buckets point =>
      buckets.insert (weekStart point.1) (addDecimalText buckets[weekStart point.1]? point.2)) buckets)[week]?
      = (texts.filter fun point => weekStart point.1 = week).foldl
        (fun current point => some (addDecimalText current point.2)) buckets[week]? := by
    induction texts with
    | nil => exact fun _ => rfl
    | cons point texts ih =>
      intro buckets
      rw [List.foldl_cons, ih, Std.ExtTreeMap.getElem?_insert]
      by_cases hweek : weekStart point.1 = week
      · rw [if_pos (by simpa using hweek), List.filter_cons_of_pos (by simpa using hweek), List.foldl_cons, hweek]
      · rw [if_neg (by simpa using hweek), List.filter_cons_of_neg (by simpa using hweek)]
  exact hfold ∅

/-- The bucket of a week. -/
theorem getElem?_pointBuckets (points : List (Nat × CardValue)) (week : Nat) :
    (pointBuckets points)[week]? = weekText ((weekPoints points week).map (·.2)) := by
  rw [pointBuckets, StableSort.sorted_map, getElem?_weekBuckets, List.filter_map, List.foldl_map, weekText,
    List.foldl_map]
  rfl

/-- **The chart of a long series has its buckets.** -/
theorem buildChartPayload_eq (chartType unit : String) {labels values : List CardValue}
    (h : maxChartDayPoints < (chartPoints (labels.zip values)).length) :
    buildChartPayload chartType unit labels values
      = ⟨chartType, unit, "week",
        (pointBuckets (chartPoints (labels.zip values))).toList.map fun (day, value) => (dayLabel day, value)⟩ := by
  have hparsed : parsedPoints labels values
      = (chartPoints (labels.zip values)).map fun point => (point.1, numericText point.2) := by
    rw [parsedPoints, chartPoints, List.map_filterMap]
    refine List.filterMap_congr fun point _ => ?_
    cases parseLabelDate point.1 with
    | none => rfl
    | some day => rfl
  have hlong : maxChartDayPoints < (sortedPoints labels values).length := by
    rw [sortedPoints, (StableSort.sorted_perm _ _).length_eq, hparsed, List.length_map]
    exact h
  rw [buildChartPayload]
  simp only [hlong, if_true]
  rw [sortedPoints, hparsed]
  rfl

/-! ## The points of a week -/

/-- The points of a week are those of its days. -/
theorem weekPoints_perm (points : List (Nat × CardValue)) (week : Nat) :
    (weekPoints points week).Perm (points.filter fun point => weekStart point.1 = week) :=
  (StableSort.sorted_perm (fun point : Nat × CardValue => point.1) points).filter _

/-- Whether a point is one of a week. -/
theorem mem_weekPoints {point : Nat × CardValue} :
    point ∈ weekPoints points week ↔ point ∈ points ∧ weekStart point.1 = week := by
  rw [(weekPoints_perm points week).mem_iff, List.mem_filter, decide_eq_true_eq]

/-- The points of a week are in the order of their days. -/
theorem pairwise_weekPoints (points : List (Nat × CardValue)) (week : Nat) :
    (weekPoints points week).Pairwise fun a b => a.1 ≤ b.1 :=
  (StableSort.pairwise_sorted (·.1) points).filter _

/-- **The first point of a series comes first in its week**, of those that something holds of, where none of them is
on an earlier day. -/
theorem head?_filter_weekPoints {point : Nat × CardValue} {rest : List (Nat × CardValue)}
    {p : Nat × CardValue → Bool} (hweek : weekStart point.1 = week) (hp : p point = true)
    (h : ∀ other ∈ rest, weekStart other.1 = week → p other = true → point.1 ≤ other.1) :
    ((weekPoints (point :: rest) week).filter p).head? = some point := by
  rw [weekPoints, List.filter_filter]
  refine StableSort.head?_filter_sorted (fun point : Nat × CardValue => point.1)
    (p := fun other => p other && decide (weekStart other.1 = week)) (by rw [hp, decide_eq_true hweek]; rfl)
    fun other hother hboth => ?_
  rw [Bool.and_eq_true, decide_eq_true_eq] at hboth
  exact h other hother hboth.2 hboth.1

/-- The first point of a week is one of its first day. -/
theorem firstDay_of_weekPoints {first : Nat × CardValue} {rest : List (Nat × CardValue)}
    (h : weekPoints points week = first :: rest) : first ∈ points ∧ FirstDay points week first := by
  have hmem : first ∈ weekPoints points week := h ▸ List.mem_cons_self
  rw [mem_weekPoints] at hmem
  refine ⟨hmem.1, hmem.2, fun other hother hweek => ?_⟩
  have hin : other ∈ first :: rest := h ▸ mem_weekPoints.mpr ⟨hother, hweek⟩
  have hpairwise := pairwise_weekPoints points week
  rw [h] at hpairwise
  rcases List.mem_cons.mp hin with rfl | hin
  · exact Nat.le_refl _
  · exact (List.pairwise_cons.mp hpairwise).1 other hin

/-- A point of the first day comes first where it comes first in the series. -/
theorem weekPoints_of_firstDay {point : Nat × CardValue} {rest : List (Nat × CardValue)}
    (h : FirstDay (point :: rest) week point) :
    ∃ behind, weekPoints (point :: rest) week = point :: behind := by
  have hhead := head?_filter_weekPoints (p := fun _ => true) h.1 rfl
    fun other hother hweek _ => h.2 other (List.mem_cons_of_mem _ hother) hweek
  rw [List.filter_true] at hhead
  exact List.head?_eq_some_iff.mp hhead

end Card
