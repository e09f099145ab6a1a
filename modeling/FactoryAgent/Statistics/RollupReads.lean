import FactoryAgent.Statistics.Facts
import Mathlib.Data.List.Perm.Basic

/-!
# Reading the roll-up

`list_rollup_rows` of the two stores of `statistics/store.py`. The store in memory compares the start of a bucket with
the bounds. The store in the database does so for hours; a day is kept as a date, which is compared with the dates of
the bounds. For hours, and for bounds that are the midnights of days, both find the same rows
(`list_rollup_rows_perm`). The database returns them in an order of its own.
-/

namespace Statistics

/-- **`RollupRow`** of the statistics surface. -/
structure StoredRow where
  row : RollupRow
  granularity : Granularity
  deriving DecidableEq, Repr

/-- A row of `tenant_usage_daily`. The date is counted in days. -/
structure DailyRow where
  tenantId : String
  bucketDate : Int
  metric : String
  value : Int
  rollupVersion : String
  rolledUpAt : Instant
  deriving DecidableEq, Repr

/-- `bucket_date::timestamp AT TIME ZONE 'UTC'` -/
def DailyRow.row (daily : DailyRow) : RollupRow :=
  ⟨daily.tenantId, daily.bucketDate * 86400000000, daily.metric, daily.value, daily.rollupVersion, daily.rolledUpAt⟩

/-- **The two roll-up tables.** -/
structure RollupTables where
  hourly : List RollupRow
  daily : List DailyRow
  deriving DecidableEq, Repr

/-- What the tables hold, as the store in memory would keep it. -/
def RollupTables.stored (tables : RollupTables) : List StoredRow :=
  tables.hourly.map (⟨·, .hour⟩) ++ tables.daily.map (⟨·.row, .day⟩)

/-- The instant of a bound. -/
def AwareDatetime.instant (bound : AwareDatetime) : Int :=
  bound.wall - bound.offset

/-- `datetime.date()`: the date on the clock. -/
def AwareDatetime.date (bound : AwareDatetime) : Int :=
  bound.wall / 86400000000

/-- **`InMemoryUsageStore.list_rollup_rows`** -/
def listInMemory (rows : List StoredRow) (tenantIds : List String) (start stop : AwareDatetime)
    (granularity : Granularity) : List StoredRow :=
  rows.filter fun stored => decide (stored.row.tenantId ∈ tenantIds)
    && decide (start.instant ≤ stored.row.bucketStart ∧ stored.row.bucketStart < stop.instant)
    && decide (stored.granularity = granularity)

/-- The rows that the statement of `PostgresUsageStore.list_rollup_rows` selects. -/
def selectRows (tables : RollupTables) (tenantIds : List String) (start stop : AwareDatetime)
    (granularity : Granularity) : List StoredRow :=
  if tenantIds = [] then []
  else match granularity with
    | .hour => (tables.hourly.filter fun row => decide (row.tenantId ∈ tenantIds)
        && decide (start.instant ≤ row.bucketStart ∧ row.bucketStart < stop.instant)).map (⟨·, .hour⟩)
    | .day => (tables.daily.filter fun row => decide (row.tenantId ∈ tenantIds)
        && decide (start.date ≤ row.bucketDate ∧ row.bucketDate < stop.date)).map (⟨·.row, .day⟩)

/-- **`PostgresUsageStore.list_rollup_rows`**: the selected rows, in any order. -/
def ListsPostgres (tables : RollupTables) (tenantIds : List String) (start stop : AwareDatetime)
    (granularity : Granularity) (result : List StoredRow) : Prop :=
  result.Perm (selectRows tables tenantIds start stop granularity)

instance (tables : RollupTables) (tenantIds : List String) (start stop : AwareDatetime) (granularity : Granularity)
    (result : List StoredRow) : Decidable (ListsPostgres tables tenantIds start stop granularity result) :=
  inferInstanceAs (Decidable (List.Perm _ _))

/-- A bound that is the midnight of a day, on a clock that is not behind UTC. -/
def AwareDatetime.IsMidnight (bound : AwareDatetime) : Prop :=
  bound.instant % 86400000000 = 0 ∧ 0 ≤ bound.offset ∧ bound.offset < 86400000000

instance (bound : AwareDatetime) : Decidable bound.IsMidnight :=
  inferInstanceAs (Decidable (_ ∧ _ ∧ _))

/-- The midnight of a day is compared as its date. -/
theorem AwareDatetime.IsMidnight.instant_eq {bound : AwareDatetime} (h : bound.IsMidnight) :
    bound.instant = bound.date * 86400000000 := by
  obtain ⟨hmidnight, hge, hlt⟩ := h
  rw [AwareDatetime.instant] at hmidnight ⊢
  rw [AwareDatetime.date]
  omega

/-- **Both stores find the same rows**, of hours, and of days between midnights. -/
theorem list_rollup_rows_perm (tables : RollupTables) {rows result : List StoredRow} (tenantIds : List String)
    (start stop : AwareDatetime) (granularity : Granularity) (hrows : rows.Perm tables.stored)
    (hbounds : granularity = .hour ∨ start.IsMidnight ∧ stop.IsMidnight)
    (hresult : ListsPostgres tables tenantIds start stop granularity result) :
    result.Perm (listInMemory rows tenantIds start stop granularity) := by
  refine hresult.trans (List.Perm.trans (List.Perm.of_eq ?_) (hrows.filter _).symm)
  unfold selectRows
  rw [RollupTables.stored, List.filter_append, List.filter_map, List.filter_map]
  split
  · next hnone =>
    subst hnone
    simp
  · cases granularity with
    | hour =>
      have hdaily : tables.daily.filter ((fun stored : StoredRow => decide (stored.row.tenantId ∈ tenantIds)
          && decide (start.instant ≤ stored.row.bucketStart ∧ stored.row.bucketStart < stop.instant)
          && decide (stored.granularity = .hour)) ∘ fun row => ⟨row.row, .day⟩) = [] :=
        List.filter_eq_nil_iff.mpr fun row _ => by simp
      rw [hdaily, List.map_nil, List.append_nil]
      exact congrArg _ (List.filter_congr fun row _ => by simp)
    | day =>
      have hhourly : tables.hourly.filter ((fun stored : StoredRow => decide (stored.row.tenantId ∈ tenantIds)
          && decide (start.instant ≤ stored.row.bucketStart ∧ stored.row.bucketStart < stop.instant)
          && decide (stored.granularity = .day)) ∘ fun row => ⟨row, .hour⟩) = [] :=
        List.filter_eq_nil_iff.mpr fun row _ => by simp
      rw [hhourly, List.map_nil, List.nil_append]
      refine congrArg _ (List.filter_congr fun row _ => ?_)
      obtain ⟨hstart, hstop⟩ := hbounds.resolve_left (by decide)
      -- The date of a bucket is compared with the dates of the bounds as its midnight is with theirs.
      have hsame : (start.date ≤ row.bucketDate ∧ row.bucketDate < stop.date)
          ↔ start.instant ≤ row.row.bucketStart ∧ row.row.bucketStart < stop.instant := by
        rw [hstart.instant_eq, hstop.instant_eq]
        show _ ↔ _ ≤ row.bucketDate * 86400000000 ∧ row.bucketDate * 86400000000 < _
        omega
      show _ = (decide (row.tenantId ∈ tenantIds) && decide (start.instant ≤ row.row.bucketStart
        ∧ row.row.bucketStart < stop.instant) && decide (Granularity.day = .day))
      rw [decide_eq_decide.mpr hsame, decide_eq_true (show Granularity.day = .day from rfl), Bool.and_true]

/-- The rows of one day between its midnights. -/
theorem list_rollup_rows_perm_day :
    ([⟨(⟨"a", 20, "users", 1, "v", 0⟩ : DailyRow).row, .day⟩] : List StoredRow).Perm
      (listInMemory (⟨[], [⟨"a", 20, "users", 1, "v", 0⟩]⟩ : RollupTables).stored ["a"] ⟨20 * 86400000000, 0⟩
        ⟨21 * 86400000000, 0⟩ .day) :=
  list_rollup_rows_perm ⟨[], [⟨"a", 20, "users", 1, "v", 0⟩]⟩ ["a"] ⟨20 * 86400000000, 0⟩ ⟨21 * 86400000000, 0⟩ .day
    (List.Perm.refl _) (.inr ⟨by decide, by decide⟩) (by decide)

/-- **Rows that the stores return differently**: two rows of hours that the database returns in the other order, and a
row of a day whose range ends at noon, which the database leaves out. -/
theorem list_rollup_rows_differ :
    (∃ (tables : RollupTables) (result : List StoredRow), ListsPostgres tables ["a"] ⟨0, 0⟩ ⟨7200000000, 0⟩ .hour result
      ∧ result ≠ listInMemory tables.stored ["a"] ⟨0, 0⟩ ⟨7200000000, 0⟩ .hour)
      ∧ ∃ tables : RollupTables, ∀ result, ListsPostgres tables ["a"] ⟨0, 0⟩ ⟨43200000000, 0⟩ .day result →
        result ≠ listInMemory tables.stored ["a"] ⟨0, 0⟩ ⟨43200000000, 0⟩ .day := by
  refine ⟨⟨⟨[⟨"a", 0, "users", 1, "v", 0⟩, ⟨"a", 3600000000, "users", 2, "v", 0⟩], []⟩,
    [⟨⟨"a", 3600000000, "users", 2, "v", 0⟩, .hour⟩, ⟨⟨"a", 0, "users", 1, "v", 0⟩, .hour⟩], by decide, by decide⟩,
    ⟨[], [⟨"a", 0, "users", 1, "v", 0⟩]⟩, fun result hresult => ?_⟩
  have hnone : selectRows ⟨[], [⟨"a", 0, "users", 1, "v", 0⟩]⟩ ["a"] ⟨0, 0⟩ ⟨43200000000, 0⟩ .day = [] := by decide
  rw [ListsPostgres, hnone, List.perm_nil] at hresult
  subst hresult
  decide

end Statistics
