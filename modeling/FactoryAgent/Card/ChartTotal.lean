import FactoryAgent.Card.Downsampling

/-!
# The total of a chart

A long chart conserves the total of its series where all weeks are decided, and their numbers fit. That the weeks
are decided is also necessary: a value that decides can be put first in its week, where its text is the bucket.
-/

namespace Card

open Decimal

variable {points points' : List (Nat × CardValue)} {week : Nat}

/-! ## The bucket of a week -/

/-- A text that shows a number shows that number. -/
theorem numberOf_fixedText {shown : Decimal} (h : shown.isFinite = true) :
    numberOf shown.fixedText = some shown.value := by
  obtain ⟨d, hparse, hfinite, hvalue, -⟩ := parse_fixedText h
  rw [numberOf, hparse, Option.bind_some, if_pos hfinite, hvalue]

/-- A text that no sum can be made of shows no number. -/
theorem numberOf_of_isOpaque {text : String} (h : IsOpaque text) : numberOf text = none := by
  rcases h with hparse | ⟨negative, payload, hparse⟩
  · rw [numberOf, hparse]
    rfl
  · rw [numberOf, hparse]
    rfl

/-- The text of an infinity or a NaN shows no number. -/
theorem numberOf_of_special {value : CardValue} (h : 2 ≤ rank value) : numberOf (numericText value) = none := by
  obtain ⟨d, -, -, hfinite, -, htext⟩ := numericText_of_special h
  rw [numberOf, htext, parse_toText, Option.bind_some, hfinite]
  rfl

/-- A text that shows a number is none that no sum can be made of. -/
theorem not_isOpaque_of_showsNumber {text : String} (h : ShowsNumber text) : ¬IsOpaque text := by
  obtain ⟨shown, hfinite, rfl⟩ := h
  intro hopaque
  have hnone := numberOf_of_isOpaque hopaque
  rw [numberOf_fixedText hfinite] at hnone
  cases hnone

/-- **The bucket of a week whose first point is no number** is the text of that point. -/
theorem bucket_of_unreadable {first : Nat × CardValue} {rest : List (Nat × CardValue)}
    (h : weekPoints points week = first :: rest) (hrank : rank first.2 = 0) :
    (pointBuckets points)[week]? = some (numericText first.2) := by
  rw [getElem?_pointBuckets, h, List.map_cons, weekText_of_opaque hrank]

/-- The bucket of a week whose first point is a number is one, or an infinity or a NaN. -/
theorem bucket_of_number {first : Nat × CardValue} {rest : List (Nat × CardValue)}
    (h : weekPoints points week = first :: rest) (hrank : 1 ≤ rank first.2) :
    ∃ text, (pointBuckets points)[week]? = some text ∧ ¬IsOpaque text := by
  obtain ⟨text, htext, top, -, hpos, -, hnumber, hspecial⟩ := weekText_outcome hrank (rest.map (·.2))
  refine ⟨text, by rw [getElem?_pointBuckets, h, List.map_cons, htext], ?_⟩
  rcases Nat.eq_or_lt_of_le hpos with hone | hhigh
  · exact not_isOpaque_of_showsNumber (hnumber hone.symm)
  · rw [(hspecial hhigh).1]
    exact not_isOpaque_numericText hpos

/-- The first point of a week that does not open with a value that is no number is a number. -/
theorem rank_pos_of_not_opensOpaque {first : Nat × CardValue} {rest : List (Nat × CardValue)}
    (h : weekPoints points week = first :: rest) (hopens : ¬OpensOpaque points week) : 1 ≤ rank first.2 := by
  obtain ⟨hmem, hfirst⟩ := firstDay_of_weekPoints h
  exact Nat.one_le_iff_ne_zero.mpr fun hzero => hopens ⟨first, hmem, hfirst, hzero⟩

/-- **The bucket of a week with an infinity or a NaN** is the text of a foremost one, where the week does not open
with a value that is no number. -/
theorem bucket_of_special {point : Nat × CardValue} (hmem : point ∈ points) (hweek : weekStart point.1 = week)
    (hspecial : 2 ≤ rank point.2) (hopens : ¬OpensOpaque points week) :
    ∃ top ∈ points, Foremost points week top ∧ (pointBuckets points)[week]? = some (numericText top.2)
      ∧ ((weekPoints points week).filter fun other => rank other.2 = rank top.2).head? = some top := by
  have hin : point ∈ weekPoints points week := mem_weekPoints.mpr ⟨hmem, hweek⟩
  cases hpoints : weekPoints points week with
  | nil => exact absurd (hpoints ▸ hin) List.not_mem_nil
  | cons first rest =>
    have hrank := rank_pos_of_not_opensOpaque hpoints hopens
    obtain ⟨text, htext, top, -, -, hmax, -, htop⟩ := weekText_outcome hrank (rest.map (·.2))
    rw [← List.map_cons (f := fun point : Nat × CardValue => point.2), ← hpoints] at hmax htop htext
    have hhigh : 2 ≤ rank top := hspecial.trans (hmax _ (List.mem_map_of_mem hin))
    obtain ⟨rfl, hhead⟩ := htop hhigh
    rw [List.filter_map, List.head?_map, Option.map_eq_some_iff] at hhead
    obtain ⟨e, hfirst, rfl⟩ := hhead
    have hfilter := List.mem_of_head? hfirst
    rw [List.mem_filter, mem_weekPoints] at hfilter
    refine ⟨e, hfilter.1.1, ⟨hfilter.1.2, hhigh, fun other hother hweek => ?_⟩, ?_, ?_⟩
    · have hotherIn : other ∈ weekPoints points week := mem_weekPoints.mpr ⟨hother, hweek⟩
      refine ⟨hmax _ (List.mem_map_of_mem hotherIn), fun hsame => ?_⟩
      -- It is the first one of its rank, and the points of the week are in the order of their days.
      have hpairwise := (pairwise_weekPoints points week).filter fun other => decide (rank other.2 = rank e.2)
      have hotherFilter : other ∈ (weekPoints points week).filter fun other => decide (rank other.2 = rank e.2) :=
        List.mem_filter.mpr ⟨hotherIn, by simpa using hsame⟩
      obtain ⟨behind, hbehind⟩ := List.head?_eq_some_iff.mp hfirst
      have hbehind' : (weekPoints points week).filter (fun other => decide (rank other.2 = rank e.2)) = e :: behind :=
        hbehind
      rw [hbehind'] at hpairwise hotherFilter
      rcases List.mem_cons.mp hotherFilter with rfl | hrest
      · exact Nat.le_refl _
      · exact (List.pairwise_cons.mp hpairwise).1 other hrest
    · rw [getElem?_pointBuckets, htext]
    · rw [← hpoints]
      exact hfirst

/-! ## What decides comes first -/

/-- A point that decides, and comes first, is the bucket where it is no number. -/
theorem bucket_of_firstDay {point : Nat × CardValue} {rest : List (Nat × CardValue)}
    (hfirst : FirstDay (point :: rest) week point) (hrank : rank point.2 = 0) :
    (pointBuckets (point :: rest))[week]? = some (numericText point.2) := by
  obtain ⟨behind, hbehind⟩ := weekPoints_of_firstDay hfirst
  exact bucket_of_unreadable hbehind hrank

/-- **A foremost infinity or NaN that comes first is the bucket.** -/
theorem bucket_of_foremost {point : Nat × CardValue} {rest : List (Nat × CardValue)}
    (hopens : ¬OpensOpaque (point :: rest) week) (h : Foremost (point :: rest) week point) :
    (pointBuckets (point :: rest))[week]? = some (numericText point.2) := by
  obtain ⟨top, htop, hforemost, hbucket, hhead⟩ := bucket_of_special List.mem_cons_self h.1 h.2.1 hopens
  have hrank : rank point.2 = rank top.2 :=
    Nat.le_antisymm (hforemost.2.2 point List.mem_cons_self h.1).1 (h.2.2 top htop hforemost.1).1
  have hfirst : ((weekPoints (point :: rest) week).filter fun other => rank other.2 = rank top.2).head? = some point :=
    head?_filter_weekPoints h.1 (by simpa using hrank) fun other hother hweek hsame =>
      (h.2.2 other (List.mem_cons_of_mem _ hother) hweek).2 ((of_decide_eq_true hsame).trans hrank.symm)
  rw [hhead] at hfirst
  rw [hbucket, Option.some.inj hfirst]

/-- Which points are on the first day of a week does not depend on the order. -/
theorem firstDay_of_perm (h : points'.Perm points) (point : Nat × CardValue) :
    FirstDay points' week point ↔ FirstDay points week point := by
  simp only [FirstDay, h.mem_iff]

/-- Which points are foremost does not depend on the order. -/
theorem foremost_of_perm (h : points'.Perm points) (point : Nat × CardValue) :
    Foremost points' week point ↔ Foremost points week point := by
  simp only [Foremost, h.mem_iff]

/-! ## Where the total is conserved -/

section

variable {series : List (CardValue × CardValue)}

/-- **Any point of a week can be put first.** -/
theorem exists_first {point : Nat × CardValue} (h : point ∈ chartPoints series) :
    ∃ series' rest, ReordersWeek (weekStart point.1) series series' ∧ chartPoints series' = point :: rest
      ∧ (point :: rest).Perm (chartPoints series) := by
  rw [chartPoints, List.mem_filterMap] at h
  obtain ⟨labelled, hmem, hpoint⟩ := h
  obtain ⟨before, behind, rfl⟩ := List.append_of_mem hmem
  have hweek : weekOf labelled = some (weekStart point.1) := by
    rw [Option.map_eq_some_iff] at hpoint
    obtain ⟨day, hday, rfl⟩ := hpoint
    rw [weekOf, hday]
    rfl
  have hfirst : chartPoints (labelled :: (before ++ behind)) = point :: chartPoints (before ++ behind) := by
    rw [chartPoints, List.filterMap_cons, hpoint]
    rfl
  have hperm : (labelled :: (before ++ behind)).Perm (before ++ labelled :: behind) := List.perm_middle.symm
  refine ⟨labelled :: (before ++ behind), chartPoints (before ++ behind), ⟨hperm, ?_⟩, hfirst, ?_⟩
  · rw [List.filter_cons_of_neg (by simp [hweek]), List.filter_append, List.filter_append,
      List.filter_cons_of_neg (by simp [hweek])]
  · rw [← hfirst]
    exact hperm.filterMap _

/-- **Which of the points of a week comes first does not matter** where the total is conserved. -/
theorem ConservesTotal.bucket_first (h : ConservesTotal series) {point : Nat × CardValue}
    (hmem : point ∈ chartPoints series) :
    ∃ rest, (point :: rest).Perm (chartPoints series)
      ∧ pointBuckets (point :: rest) = pointBuckets (chartPoints series) := by
  obtain ⟨series', rest, hreorder, hfirst, hperm⟩ := exists_first hmem
  exact ⟨rest, hperm, by rw [← hfirst]; exact h.reorder _ _ hreorder⟩

/-- **The text of a point that decides is the bucket** where the total is conserved. -/
theorem ConservesTotal.bucket_of_decides (h : ConservesTotal series) {point : Nat × CardValue}
    (hmem : point ∈ chartPoints series) (hdecides : Decides (chartPoints series) week point) :
    (pointBuckets (chartPoints series))[week]? = some (numericText point.2) ∧ rank point.2 ≠ 1 := by
  obtain ⟨rest, hperm, hbuckets⟩ := h.bucket_first hmem
  rcases hdecides with ⟨⟨o, ho, hoFirst, hoRank⟩, hfirst⟩ | ⟨hopens, hforemost⟩
  · -- A value that is no number makes the bucket one, so the other values of the first day are none either.
    obtain ⟨restO, hpermO, hbucketsO⟩ := h.bucket_first ho
    have hopaque := bucket_of_firstDay ((firstDay_of_perm hpermO o).mpr hoFirst) hoRank
    have hrank : rank point.2 = 0 := by
      by_contra hne
      obtain ⟨behind, hbehind⟩ := weekPoints_of_firstDay ((firstDay_of_perm hperm point).mpr hfirst)
      obtain ⟨text, htext, hnot⟩ := bucket_of_number hbehind (Nat.one_le_iff_ne_zero.mpr hne)
      rw [hbuckets, ← hbucketsO, hopaque] at htext
      exact hnot (Option.some.inj htext ▸ isOpaque_numericText hoRank)
    rw [← hbuckets, hrank]
    exact ⟨bucket_of_firstDay ((firstDay_of_perm hperm point).mpr hfirst) hrank, Nat.zero_ne_one⟩
  · rw [← hbuckets]
    have htwo := hforemost.2.1
    exact ⟨bucket_of_foremost (fun hin => hopens ((opensOpaque_of_perm hperm).mp hin))
      ((foremost_of_perm hperm point).mpr hforemost), by omega⟩

/-- The text of a value that is no finite number shows none. -/
theorem numberOf_of_rank_ne {value : CardValue} (h : rank value ≠ 1) : numberOf (numericText value) = none := by
  rcases Nat.eq_zero_or_pos (rank value) with hzero | hpos
  · exact numberOf_of_isOpaque (isOpaque_numericText hzero)
  · exact numberOf_of_special (by omega)

/-- **All weeks are decided** where the total is conserved. -/
theorem decided_of_conserves (h : ConservesTotal series) : Decided (chartPoints series) where
  same week point hpoint other hother hdecides hdecides' := by
    have htext := (h.bucket_of_decides hpoint hdecides).1
    rw [(h.bucket_of_decides hother hdecides').1] at htext
    exact (Option.some.inj htext).symm
  numbers week point hpoint hweek hone other hother hdecides := by
    obtain ⟨text, hbuckets, hnumber⟩ := h.weekly week ⟨point, hpoint, hweek, hone⟩
    obtain ⟨hbucket, hrank⟩ := h.bucket_of_decides hother hdecides
    have hmem : (week, text) ∈ (pointBuckets (chartPoints series)).toList :=
      List.mem_of_mem_filter (hbuckets ▸ List.mem_singleton_self _)
    rw [Std.ExtTreeMap.mem_toList_iff_getElem?_eq_some, hbucket, Option.some.injEq] at hmem
    rw [← hmem, numberOf_of_rank_ne hrank] at hnumber
    cases hnumber

end

/-! ## Where the weeks are decided -/

/-- Whether the weeks are decided does not depend on the order. -/
theorem decides_of_perm (h : points'.Perm points) (point : Nat × CardValue) :
    Decides points' week point ↔ Decides points week point := by
  rw [Decides, Decides, opensOpaque_of_perm h, firstDay_of_perm h, foremost_of_perm h]

/-- The values of a week, in any order. -/
theorem weekValues_perm (points : List (Nat × CardValue)) (week : Nat) :
    ((weekPoints points week).map (·.2)).Perm
      ((points.filter fun point => weekStart point.1 = week).map (·.2)) :=
  (weekPoints_perm points week).map _

/-- **The bucket of a decided week**: what decides about it, or the sum of its numbers. -/
inductive Outcome (points : List (Nat × CardValue)) (week : Nat) : Prop where
  | absent (hnone : ∀ point ∈ points, weekStart point.1 ≠ week) (hbucket : (pointBuckets points)[week]? = none)
  | decided (point : Nat × CardValue) (hmem : point ∈ points) (hdecides : Decides points week point)
    (hbucket : (pointBuckets points)[week]? = some (numericText point.2)) (hrank : rank point.2 ≠ 1)
  | summed (hundecided : ∀ point ∈ points, ¬Decides points week point) (shown : Decimal)
    (hbucket : (pointBuckets points)[week]? = some shown.fixedText) (hfinite : shown.isFinite = true)
    (htrimmed : shown.IsTrimmed)
    (hvalue : shown.value = (((weekPoints points week).map (·.2)).map number).sum)
    (hnegative : shown.negative = sumNegative ((weekPoints points week).map (·.2)))

/-- **Every bucket is one of these** where the weeks are decided and the numbers fit. -/
theorem outcome_of_decided (hdecided : Decided points) (hfit : RunningSumsFit ((weekPoints points week).map (·.2))) :
    Outcome points week := by
  cases hpoints : weekPoints points week with
  | nil =>
    refine .absent (fun point hpoint hweek => ?_) (by rw [getElem?_pointBuckets, hpoints]; rfl)
    have hin : point ∈ weekPoints points week := mem_weekPoints.mpr ⟨hpoint, hweek⟩
    exact absurd (hpoints ▸ hin) List.not_mem_nil
  | cons first rest =>
    obtain ⟨hmem, hfirst⟩ := firstDay_of_weekPoints hpoints
    by_cases hopens : OpensOpaque points week
    · obtain ⟨o, ho, hoFirst, hoRank⟩ := hopens
      have hdecides : Decides points week first := .inl ⟨⟨o, ho, hoFirst, hoRank⟩, hfirst⟩
      have htext := hdecided.same week first hmem o ho hdecides (.inl ⟨⟨o, ho, hoFirst, hoRank⟩, hoFirst⟩)
      have hrank : rank first.2 = 0 := by
        by_contra hne
        exact not_isOpaque_numericText (Nat.one_le_iff_ne_zero.mpr hne) (htext ▸ isOpaque_numericText hoRank)
      exact .decided first hmem hdecides (bucket_of_unreadable hpoints hrank) (by omega)
    · by_cases hspecial : ∃ point ∈ points, weekStart point.1 = week ∧ 2 ≤ rank point.2
      · obtain ⟨point, hpoint, hweek, hrank⟩ := hspecial
        obtain ⟨top, htop, hforemost, hbucket, -⟩ := bucket_of_special hpoint hweek hrank hopens
        have htwo := hforemost.2.1
        exact .decided top htop (.inr ⟨hopens, hforemost⟩) hbucket (by omega)
      · have hlow : ∀ point ∈ weekPoints points week, rank point.2 ≤ 1 := fun point hpoint => by
          rw [mem_weekPoints] at hpoint
          exact Nat.le_of_not_lt fun hhigh => hspecial ⟨point, hpoint.1, hpoint.2, hhigh⟩
        have hone : rank first.2 = 1 := Nat.le_antisymm (hlow first (hpoints ▸ List.mem_cons_self))
          (rank_pos_of_not_opensOpaque hpoints hopens)
        rw [hpoints, List.map_cons] at hfit
        obtain ⟨shown, htext, hfinite, htrimmed, hvalue, hnegative⟩ := weekText_exact hone
          (fun value hvalue => by
            obtain ⟨point, hpoint, rfl⟩ := List.mem_map.mp hvalue
            exact hlow point (hpoints ▸ List.mem_cons_of_mem _ hpoint)) hfit
        refine .summed (fun point hpoint hdecides => ?_) shown
          (by rw [getElem?_pointBuckets, hpoints, List.map_cons, htext]) hfinite htrimmed
          (by rw [hpoints]; exact hvalue) (by rw [hpoints]; exact hnegative)
        rcases hdecides with ⟨hin, -⟩ | ⟨-, hforemost⟩
        · exact hopens hin
        · exact hspecial ⟨point, hpoint, hforemost.1, hforemost.2.1⟩

/-- The sign of a sum does not depend on the order. -/
theorem sumNegative_perm {values values' : List CardValue} (h : values'.Perm values) :
    sumNegative values' = sumNegative values := by
  rw [sumNegative, sumNegative, (h.map number).sum_eq, h.all_eq]

/-- The points of a week are the same in any order of all points. -/
theorem weekPoints_of_perm (h : points'.Perm points) (week : Nat) :
    (weekPoints points' week).Perm (weekPoints points week) :=
  (weekPoints_perm points' week).trans ((h.filter _).trans (weekPoints_perm points week).symm)

/-- Decided weeks are so in any order. -/
theorem Decided.of_perm (h : Decided points) (hperm : points'.Perm points) : Decided points' where
  same week point hpoint other hother hdecides hdecides' :=
    h.same week point (hperm.mem_iff.mp hpoint) other (hperm.mem_iff.mp hother) ((decides_of_perm hperm _).mp hdecides)
      ((decides_of_perm hperm _).mp hdecides')
  numbers week point hpoint hweek hone other hother hdecides :=
    h.numbers week point (hperm.mem_iff.mp hpoint) hweek hone other (hperm.mem_iff.mp hother)
      ((decides_of_perm hperm _).mp hdecides)

/-- **The buckets do not depend on the order of the points** where the weeks are decided and the numbers fit. -/
theorem pointBuckets_of_perm (hdecided : Decided points) (hfit : ExactSums points) (hperm : points'.Perm points) :
    pointBuckets points' = pointBuckets points := by
  refine Std.ExtTreeMap.ext_getElem? fun week => ?_
  have houtcome := outcome_of_decided hdecided (hfit points (List.Perm.refl _) week)
  have houtcome' := outcome_of_decided (hdecided.of_perm hperm) (hfit points' hperm week)
  cases houtcome with
  | absent hnone hbucket =>
    have hnil : weekPoints points' week = [] := List.eq_nil_iff_forall_not_mem.mpr fun point hpoint =>
      hnone point (hperm.mem_iff.mp (mem_weekPoints.mp hpoint).1) (mem_weekPoints.mp hpoint).2
    rw [hbucket, getElem?_pointBuckets, hnil]
    rfl
  | decided point hmem hdecides hbucket hrank =>
    cases houtcome' with
    | absent hnone _ =>
      have hweek : weekStart point.1 = week := by
        rcases hdecides with ⟨-, hfirst⟩ | ⟨-, hforemost⟩
        · exact hfirst.1
        · exact hforemost.1
      exact absurd hweek (hnone point (hperm.mem_iff.mpr hmem))
    | decided point' hmem' hdecides' hbucket' _ =>
      rw [hbucket, hbucket', hdecided.same week point hmem point' (hperm.mem_iff.mp hmem') hdecides
        ((decides_of_perm hperm _).mp hdecides')]
    | summed hundecided _ _ _ _ _ _ =>
      exact absurd ((decides_of_perm hperm _).mpr hdecides) (hundecided point (hperm.mem_iff.mpr hmem))
  | summed hundecided shown hbucket hfinite htrimmed hvalue hnegative =>
    cases houtcome' with
    | absent hnone hbucket' =>
      have hnil : weekPoints points week = [] := List.eq_nil_iff_forall_not_mem.mpr fun point hpoint =>
        hnone point (hperm.mem_iff.mpr (mem_weekPoints.mp hpoint).1) (mem_weekPoints.mp hpoint).2
      rw [getElem?_pointBuckets, hnil] at hbucket
      cases hbucket
    | decided point' hmem' hdecides' _ _ =>
      exact absurd ((decides_of_perm hperm _).mp hdecides') (hundecided point' (hperm.mem_iff.mp hmem'))
    | summed _ shown' hbucket' hfinite' htrimmed' hvalue' hnegative' =>
      have hvalues := (weekPoints_of_perm hperm week).map (·.2)
      rw [hbucket, hbucket', eq_of_value_eq hfinite' hfinite htrimmed' htrimmed
        (by rw [hvalue, hvalue', (hvalues.map number).sum_eq])
        (by rw [hnegative, hnegative', sumNegative_perm hvalues])]

/-- What is no finite number counts as nothing. -/
theorem number_of_rank_ne {value : CardValue} (h : rank value ≠ 1) : number value = 0 := by
  rw [rank] at h
  rw [number]
  cases hread : readNumber value with
  | none => rfl
  | some d => cases d with
    | finite _ _ _ => rw [hread] at h; exact absurd rfl h
    | infinity _ => rfl
    | nan _ _ _ => rfl

/-- The sum of the numbers of a week. -/
def weekSum (points : List (Nat × CardValue)) (week : Nat) : ℚ :=
  ((points.filter fun point => weekStart point.1 = week).map fun point => number point.2).sum

/-- It is that of the points of the week. -/
theorem sum_weekPoints (points : List (Nat × CardValue)) (week : Nat) :
    (((weekPoints points week).map (·.2)).map number).sum = weekSum points week := by
  rw [((weekValues_perm points week).map number).sum_eq, List.map_map]
  rfl

/-- **A bucket shows the sum of the numbers of its week**, and no number where the week has none. -/
theorem numberOf_bucket (hdecided : Decided points) (hfit : ExactSums points) {text : String}
    (h : (pointBuckets points)[week]? = some text) : (numberOf text).getD 0 = weekSum points week := by
  have houtcome := outcome_of_decided hdecided (hfit points (List.Perm.refl _) week)
  cases houtcome with
  | absent _ hbucket =>
    rw [hbucket] at h
    cases h
  | decided point hmem hdecides hbucket hrank =>
    rw [hbucket, Option.some.injEq] at h
    rw [← h, numberOf_of_rank_ne hrank, Option.getD_none, weekSum, List.sum_eq_zero]
    intro x hx
    obtain ⟨other, hother, rfl⟩ := List.mem_map.mp hx
    rw [List.mem_filter, decide_eq_true_eq] at hother
    exact number_of_rank_ne fun hone => hdecided.numbers week other hother.1 hother.2 hone point hmem hdecides
  | summed _ shown hbucket hfinite _ hvalue _ =>
    rw [hbucket, Option.some.injEq] at h
    rw [← h, numberOf_fixedText hfinite, Option.getD_some, hvalue, sum_weekPoints]

/-- **The total is conserved** where the weeks are decided and the numbers fit. -/
theorem conserves_of_decided {series : List (CardValue × CardValue)} (hdecided : Decided (chartPoints series))
    (hfit : ExactSums (chartPoints series)) : ConservesTotal series where
  weekly := by
    rintro week ⟨point, hpoint, hweek, hone⟩
    have houtcome := outcome_of_decided hdecided (hfit _ (List.Perm.refl _) week)
    cases houtcome with
    | absent hnone _ => exact absurd hweek (hnone point hpoint)
    | decided other hother hdecides _ _ =>
      exact absurd hdecides (hdecided.numbers week point hpoint hweek hone other hother)
    | summed _ shown hbucket hfinite _ hvalue _ =>
      refine ⟨shown.fixedText, Grouping.filter_toList_of_getElem? hbucket, ?_⟩
      rw [numberOf_fixedText hfinite, hvalue, sum_weekPoints]
      rfl
  total := by
    have hbuckets : (pointBuckets (chartPoints series)).toList.map (fun bucket => (numberOf bucket.2).getD 0)
        = (pointBuckets (chartPoints series)).keys.map (weekSum (chartPoints series)) := by
      rw [← Std.ExtTreeMap.map_fst_toList_eq_keys, List.map_map]
      exact List.map_congr_left fun bucket hbucket =>
        numberOf_bucket hdecided hfit (Std.ExtTreeMap.mem_toList_iff_getElem?_eq_some.mp hbucket)
    rw [hbuckets]
    refine Grouping.sum_map_groups (fun point : Nat × CardValue => weekStart point.1) (fun point => number point.2)
      Std.ExtTreeMap.nodup_keys fun point hpoint => ?_
    -- A week with a point has a bucket.
    have hin : point ∈ weekPoints (chartPoints series) (weekStart point.1) := mem_weekPoints.mpr ⟨hpoint, rfl⟩
    rw [Std.ExtTreeMap.mem_keys, Std.ExtTreeMap.mem_iff_isSome_getElem?]
    have houtcome := outcome_of_decided hdecided (hfit _ (List.Perm.refl _) (weekStart point.1))
    cases houtcome with
    | absent hnone _ => exact absurd rfl (hnone point hpoint)
    | decided _ _ _ hbucket _ => rw [hbucket]; rfl
    | summed _ _ hbucket _ _ _ _ => rw [hbucket]; rfl
  reorder week series' hreorder :=
    pointBuckets_of_perm hdecided hfit (hreorder.1.filterMap _)

/-- **A long chart is made of its weekly buckets**; where it conserves the total, all weeks are decided, and where
they are, it does so as far as the numbers fit. -/
theorem chart_total (chartType unit : String) {labels values : List CardValue}
    (h : maxChartDayPoints < (chartPoints (labels.zip values)).length) :
    buildChartPayload chartType unit labels values
        = ⟨chartType, unit, "week",
          (pointBuckets (chartPoints (labels.zip values))).toList.map fun (day, value) => (dayLabel day, value)⟩
      ∧ (ConservesTotal (labels.zip values) → Decided (chartPoints (labels.zip values)))
      ∧ (ExactSums (chartPoints (labels.zip values)) →
        (ConservesTotal (labels.zip values) ↔ Decided (chartPoints (labels.zip values)))) :=
  ⟨buildChartPayload_eq chartType unit h, decided_of_conserves,
    fun hfit => ⟨decided_of_conserves, fun hdecided => conserves_of_decided hdecided hfit⟩⟩

/-- The days of nine weeks, from a Monday on. -/
def nineWeeks : List CardValue :=
  (List.range 63).map fun n => .text (IsoDate.isoformat (IsoDate.ofOrdinal (739859 + n)))

/-- The total of nine weeks of the same number. -/
theorem chart_total_nine_weeks :
    let series := nineWeeks.zip (List.replicate 63 (.text "1"))
    buildChartPayload "line" "yuan" nineWeeks (List.replicate 63 (.text "1"))
        = ⟨"line", "yuan", "week",
          (pointBuckets (chartPoints series)).toList.map fun (day, value) => (dayLabel day, value)⟩
      ∧ (ConservesTotal series → Decided (chartPoints series))
      ∧ (ExactSums (chartPoints series) → (ConservesTotal series ↔ Decided (chartPoints series))) :=
  chart_total "line" "yuan" (by decide +kernel)

/-- **A total that is lost**: nine weeks, the first day of which has no value. -/
theorem chart_total_lost :
    let series := nineWeeks.zip (.null :: List.replicate 62 (.text "1"))
    maxChartDayPoints < (chartPoints series).length ∧ ¬ConservesTotal series := by
  intro series
  have hpoints : chartPoints series = (739859, .null) :: (List.range 62).map fun n => (739860 + n, .text "1") := by
    decide +kernel
  refine ⟨by rw [hpoints]; decide +kernel, fun h => ?_⟩
  have hdecided := decided_of_conserves h
  rw [hpoints] at hdecided
  have hfirst : FirstDay ((739859, .null) :: (List.range 62).map fun n => (739860 + n, .text "1")) 739859
      (739859, .null) := ⟨by decide +kernel, by decide +kernel⟩
  exact hdecided.numbers 739859 (739860, .text "1") (by decide +kernel) (by decide +kernel) (by decide +kernel) _
    List.mem_cons_self (.inl ⟨⟨_, List.mem_cons_self, hfirst, by decide +kernel⟩, hfirst⟩)

end Card
