import FactoryAgent.Lib.StableSort
import FactoryAgent.Lib.Sweep
import Mathlib.Algebra.BigOperators.Ring.Finset
import Mathlib.Data.Prod.Lex
import Mathlib.Data.String.Basic

/-!
# The occupancy of the trace axis

`application/trace.py`: how much of the axis of a trace is covered by its leaf spans. One sweep over the starts and ends
of the clipped spans counts the time in which any kind is active, in which more than one is, and in which one kind is
alone; beside it, the intervals of each kind are merged. Both measure unions of intervals on the axis (`occupancy_eq`,
`unionMs_eq`), whatever the order of the spans (`occupancy_sweep`).
-/

namespace Occupancy

open Finset

/-- `_TIMED_KINDS` -/
inductive Kind
  | mes
  | llm
  | cache
  | duckdb
deriving DecidableEq

/-- The text of a kind. -/
def Kind.value : Kind → String
  | mes => "mes"
  | llm => "llm"
  | cache => "cache"
  | duckdb => "duckdb"

/-- The kinds in the order of `_TIMED_KINDS`. -/
def timedKinds : List Kind :=
  [.mes, .llm, .cache, .duckdb]

/-- **A timed span of a trace**: what its summary reads of it. -/
structure Span where
  kind : Kind
  offsetMs : Int
  durationMs : Nat
  timingRole : Option String
deriving DecidableEq

/-- The axis from its start to `total_ms`, in milliseconds. -/
noncomputable def axis (totalMs : Nat) : Finset Int :=
  Ico 0 totalMs

/-- **The part of the axis that spans cover.** -/
noncomputable def covered (spans : List Span) (totalMs : Nat) : Finset Int :=
  (spans.toFinset.biUnion fun span => Ico span.offsetMs (span.offsetMs + span.durationMs)) ∩ axis totalMs

/-- The spans of a kind. -/
def ofKind (kind : Kind) (spans : List Span) : List Span :=
  spans.filter (·.kind = kind)

/-- The interval of a span on the axis. -/
def clip (totalMs : Nat) (span : Span) : Int × Int :=
  let start := min (totalMs : Int) (max 0 span.offsetMs)
  (start, min (totalMs : Int) (max start (span.offsetMs + span.durationMs)))

/-- **`_span_intervals`** -/
def spanIntervals (spans : List Span) (totalMs : Nat) : List (Int × Int) :=
  (spans.map (clip totalMs)).filter fun interval => interval.1 < interval.2

/-- One interval of `_union_ms`: the total so far, and how far the intervals before reach. -/
def extend (state : Int × Int) (interval : Int × Int) : Int × Int :=
  (state.1 + max 0 (interval.2 - max interval.1 state.2), max state.2 interval.2)

/-- **`_union_ms`** -/
def unionMs (intervals : List (Int × Int)) : Int :=
  ((StableSort.sorted (toLex : Int × Int → Int ×ₗ Int) intervals).foldl extend (0, 0)).1

/-- The events of `_interval_occupancy`, kind after kind. -/
def events (spans : List Span) (totalMs : Nat) : List (Sweep.Event Kind) :=
  timedKinds.flatMap fun kind => (spanIntervals (ofKind kind spans) totalMs).flatMap (Sweep.interval kind)

/-- What an event is sorted by: its moment, the text of its kind, and its change. -/
def sortKey (event : Sweep.Event Kind) : Int ×ₗ String ×ₗ Int :=
  toLex (event.moment, toLex (event.kind.value, event.change))

/-- The kinds that are active. -/
def present (active : Kind → Int) : List Kind :=
  timedKinds.filter fun kind => 0 < active kind

/-- The counters of a sweep. -/
structure State where
  active : Kind → Int
  previous : Int
  occupancy : Int
  overlap : Int
  exclusive : Kind → Int

/-- The counters before the first event. -/
def State.initial : State :=
  ⟨fun _ => 0, 0, 0, 0, fun _ => 0⟩

/-- The time since the event before, for the kinds present in it. -/
def State.elapse (state : State) (elapsed : Int) : State :=
  match present state.active with
  | [] => state
  | [kind] =>
    { state with
      occupancy := state.occupancy + elapsed
      exclusive := Function.update state.exclusive kind (state.exclusive kind + elapsed) }
  | _ :: _ :: _ => { state with occupancy := state.occupancy + elapsed, overlap := state.overlap + elapsed }

/-- One event of the sweep. -/
def State.advance (state : State) (event : Sweep.Event Kind) : State :=
  { state.elapse (event.moment - state.previous) with
    active := Sweep.bump state.active event
    previous := event.moment }

/-- **`_interval_occupancy`** -/
def intervalOccupancy (spans : List Span) (totalMs : Nat) : Int × Int × (Kind → Int) :=
  let state := (StableSort.sorted sortKey (events spans totalMs)).foldl State.advance .initial
  (state.occupancy, state.overlap, state.exclusive)

/-! ## Clipped spans -/

theorem Kind.value_injective : Function.Injective Kind.value := by
  intro kind other h
  cases kind <;> cases other <;> first | rfl | exact absurd h (by decide)

theorem mem_timedKinds (kind : Kind) : kind ∈ timedKinds := by
  cases kind <;> decide

theorem mem_covered {spans : List Span} {totalMs : Nat} {t : Int} :
    t ∈ covered spans totalMs
      ↔ (∃ span ∈ spans, span.offsetMs ≤ t ∧ t < span.offsetMs + span.durationMs) ∧ 0 ≤ t ∧ t < totalMs := by
  simp [covered, axis]

theorem clip_fst_nonneg (totalMs : Nat) (span : Span) : 0 ≤ (clip totalMs span).1 := by
  simp only [clip]
  omega

theorem clip_snd_le (totalMs : Nat) (span : Span) : (clip totalMs span).2 ≤ totalMs := by
  simp only [clip]
  omega

/-- A moment is in the interval of a span when it is in the span and on the axis. -/
theorem clip_around (totalMs : Nat) (span : Span) (t : Int) :
    (clip totalMs span).1 ≤ t ∧ t < (clip totalMs span).2
      ↔ (span.offsetMs ≤ t ∧ t < span.offsetMs + span.durationMs) ∧ 0 ≤ t ∧ t < totalMs := by
  simp only [clip]
  omega

theorem mem_spanIntervals {spans : List Span} {totalMs : Nat} {interval : Int × Int} :
    interval ∈ spanIntervals spans totalMs
      ↔ (∃ span ∈ spans, clip totalMs span = interval) ∧ interval.1 < interval.2 := by
  simp [spanIntervals]

theorem le_of_mem_spanIntervals {spans : List Span} {totalMs : Nat} {interval : Int × Int}
    (h : interval ∈ spanIntervals spans totalMs) : interval.1 ≤ interval.2 :=
  (mem_spanIntervals.mp h).2.le

theorem nonneg_of_mem_spanIntervals {spans : List Span} {totalMs : Nat} {interval : Int × Int}
    (h : interval ∈ spanIntervals spans totalMs) : 0 ≤ interval.1 := by
  obtain ⟨⟨span, -, rfl⟩, -⟩ := mem_spanIntervals.mp h
  exact clip_fst_nonneg totalMs span

theorem snd_le_of_mem_spanIntervals {spans : List Span} {totalMs : Nat} {interval : Int × Int}
    (h : interval ∈ spanIntervals spans totalMs) : interval.2 ≤ totalMs := by
  obtain ⟨⟨span, -, rfl⟩, -⟩ := mem_spanIntervals.mp h
  exact clip_snd_le totalMs span

/-- **The clipped intervals cover what the spans cover on the axis.** -/
theorem union_spanIntervals (spans : List Span) (totalMs : Nat) :
    Sweep.union (spanIntervals spans totalMs) = covered spans totalMs := by
  ext t
  rw [Sweep.mem_union, mem_covered]
  constructor
  · rintro ⟨interval, hmem, haround⟩
    obtain ⟨⟨span, hspan, rfl⟩, -⟩ := mem_spanIntervals.mp hmem
    obtain ⟨hin, haxis⟩ := (clip_around totalMs span t).mp haround
    exact ⟨⟨span, hspan, hin⟩, haxis⟩
  · rintro ⟨⟨span, hspan, hin⟩, haxis⟩
    have haround := (clip_around totalMs span t).mpr ⟨hin, haxis⟩
    exact ⟨clip totalMs span, mem_spanIntervals.mpr ⟨⟨span, hspan, rfl⟩, by omega⟩, haround⟩

/-- What spans cover is what the spans of some kind cover. -/
theorem mem_covered_iff_kind {spans : List Span} {totalMs : Nat} {t : Int} :
    t ∈ covered spans totalMs ↔ ∃ kind, t ∈ covered (ofKind kind spans) totalMs := by
  simp only [mem_covered, ofKind, List.mem_filter, decide_eq_true_eq]
  constructor
  · rintro ⟨⟨span, hspan, hin⟩, haxis⟩
    exact ⟨span.kind, ⟨span, ⟨hspan, rfl⟩, hin⟩, haxis⟩
  · rintro ⟨kind, ⟨span, ⟨hspan, -⟩, hin⟩, haxis⟩
    exact ⟨⟨span, hspan, hin⟩, haxis⟩

theorem covered_ofKind_subset (kind : Kind) (spans : List Span) (totalMs : Nat) :
    covered (ofKind kind spans) totalMs ⊆ covered spans totalMs := fun _ h =>
  mem_covered_iff_kind.mpr ⟨kind, h⟩

theorem covered_subset_axis (spans : List Span) (totalMs : Nat) : covered spans totalMs ⊆ axis totalMs :=
  inter_subset_right

theorem card_axis (totalMs : Nat) : (axis totalMs).card = totalMs := by
  simp [axis]

/-! ## The merged intervals -/

/-- **Merging adds what lies after the reach of the intervals before**, for intervals in the order of their starts. -/
theorem foldl_extend {intervals : List (Int × Int)} :
    ∀ {total reach : Int}, intervals.Pairwise (fun first second => first.1 ≤ second.1) →
      (intervals.foldl extend (total, reach)).1
        = total + ((Sweep.union intervals).filter fun t => reach ≤ t).card := by
  induction intervals with
  | nil => exact fun _ => by simp [Sweep.union]
  | cons interval intervals ih =>
    intro total reach hsorted
    obtain ⟨hhead, htail⟩ := List.pairwise_cons.mp hsorted
    have hsplit : (Sweep.union (interval :: intervals)).filter (fun t => reach ≤ t)
        = Ico (max interval.1 reach) interval.2
          ∪ (Sweep.union intervals).filter fun t => max reach interval.2 ≤ t := by
      ext t
      have hstart : t ∈ Sweep.union intervals → interval.1 ≤ t := fun h => by
        obtain ⟨other, hother, hle, -⟩ := Sweep.mem_union.mp h
        exact (hhead other hother).trans hle
      simp only [mem_filter, mem_union, Sweep.union, List.toFinset_cons, biUnion_insert, mem_Ico] at hstart ⊢
      by_cases hrest : t ∈ intervals.toFinset.biUnion fun bounds => Ico bounds.1 bounds.2
      · have := hstart hrest
        simp only [hrest, or_true, true_and]
        omega
      · simp only [hrest, or_false, false_and]
        omega
    have hdisjoint : Disjoint (Ico (max interval.1 reach) interval.2)
        ((Sweep.union intervals).filter fun t => max reach interval.2 ≤ t) :=
      disjoint_left.mpr fun t hin hlater => by
        have := (mem_filter.mp hlater).2
        have := (mem_Ico.mp hin).2
        omega
    rw [List.foldl_cons, extend, ih htail, hsplit, card_union_of_disjoint hdisjoint, Int.card_Ico]
    push_cast
    rw [Int.toNat_eq_max, max_comm]
    ring

/-- **`_union_ms` is the length of the union**, for intervals from 0 on. -/
theorem unionMs_eq {intervals : List (Int × Int)} (h : ∀ interval ∈ intervals, 0 ≤ interval.1) :
    unionMs intervals = (Sweep.union intervals).card := by
  have hperm := StableSort.sorted_perm (toLex : Int × Int → Int ×ₗ Int) intervals
  have hsorted : (StableSort.sorted (toLex : Int × Int → Int ×ₗ Int) intervals).Pairwise
      fun first second => first.1 ≤ second.1 :=
    (StableSort.pairwise_sorted _ intervals).imp fun hle => (Prod.Lex.toLex_le_toLex'.mp hle).1
  rw [unionMs, foldl_extend hsorted, zero_add]
  congr 2
  ext t
  simp only [mem_filter, Sweep.mem_union, hperm.mem_iff]
  exact ⟨fun hin => hin.1, fun hin => ⟨hin, by
    obtain ⟨interval, hinterval, hle, -⟩ := hin
    exact (h interval hinterval).trans hle⟩⟩

/-- The merged intervals of spans measure what the spans cover. -/
theorem unionMs_spanIntervals (spans : List Span) (totalMs : Nat) :
    unionMs (spanIntervals spans totalMs) = (covered spans totalMs).card := by
  rw [unionMs_eq fun _ h => nonneg_of_mem_spanIntervals h, union_spanIntervals]

/-! ## The sweep -/

theorem sortKey_injective : Function.Injective sortKey := by
  intro event other h
  obtain ⟨moment, kind, change⟩ := event
  obtain ⟨moment', kind', change'⟩ := other
  obtain ⟨rfl, hrest⟩ := Prod.mk.inj (toLex_inj.mp h)
  obtain ⟨hkind, rfl⟩ := Prod.mk.inj (toLex_inj.mp hrest)
  cases Kind.value_injective hkind
  rfl

/-- The events in the order of the sweep. -/
def sortedEvents (spans : List Span) (totalMs : Nat) : List (Sweep.Event Kind) :=
  StableSort.sorted sortKey (events spans totalMs)

theorem sortedEvents_perm (spans : List Span) (totalMs : Nat) :
    (sortedEvents spans totalMs).Perm (events spans totalMs) :=
  StableSort.sorted_perm sortKey _

theorem pairwise_sortedEvents (spans : List Span) (totalMs : Nat) :
    (sortedEvents spans totalMs).Pairwise fun first second => first.moment ≤ second.moment :=
  (StableSort.pairwise_sorted sortKey _).imp fun hle => (Prod.Lex.toLex_le_toLex'.mp hle).1

/-- The moments of the events are on the axis. -/
theorem moment_of_mem_events {spans : List Span} {totalMs : Nat} {event : Sweep.Event Kind}
    (h : event ∈ events spans totalMs) : 0 ≤ event.moment ∧ event.moment ≤ totalMs := by
  simp only [events, List.mem_flatMap] at h
  obtain ⟨kind, -, interval, hinterval, hevent⟩ := h
  have hle := le_of_mem_spanIntervals hinterval
  have hnonneg := nonneg_of_mem_spanIntervals hinterval
  have htotal := snd_le_of_mem_spanIntervals hinterval
  simp only [Sweep.interval, List.mem_cons, List.not_mem_nil, or_false] at hevent
  rcases hevent with rfl | rfl <;> constructor <;> dsimp only <;> omega

/-- Only the events of a kind change its counter. -/
theorem level_flatMap_ofKind (spans : List Span) (totalMs : Nat) (t : Int) (kind : Kind) {kinds : List Kind}
    (hnodup : kinds.Nodup) :
    Sweep.level (kinds.flatMap fun other => (spanIntervals (ofKind other spans) totalMs).flatMap (Sweep.interval other))
        t kind
      = if kind ∈ kinds then
          Sweep.level ((spanIntervals (ofKind kind spans) totalMs).flatMap (Sweep.interval kind)) t kind
        else 0 := by
  induction kinds with
  | nil => rfl
  | cons other kinds ih =>
    obtain ⟨hnotin, hrest⟩ := List.nodup_cons.mp hnodup
    rw [List.flatMap_cons, Sweep.level_append, ih hrest]
    by_cases hkind : kind = other
    · subst hkind
      rw [if_neg hnotin, add_zero, if_pos List.mem_cons_self]
    · have hzero : Sweep.level
          ((spanIntervals (ofKind other spans) totalMs).flatMap (Sweep.interval other)) t kind = 0 := by
        refine Sweep.level_of_ne (fun event hevent => ?_) t
        obtain ⟨interval, -, hevent⟩ := List.mem_flatMap.mp hevent
        simp only [Sweep.interval, List.mem_cons, List.not_mem_nil, or_false] at hevent
        rcases hevent with rfl | rfl <;> exact Ne.symm hkind
      simp only [hzero, zero_add, List.mem_cons, hkind, false_or]

/-- **A kind is active where its spans cover the axis.** -/
theorem level_events_pos (spans : List Span) (totalMs : Nat) (t : Int) (kind : Kind) :
    0 < Sweep.level (events spans totalMs) t kind ↔ t ∈ covered (ofKind kind spans) totalMs := by
  rw [events, level_flatMap_ofKind spans totalMs t kind (by decide), if_pos (mem_timedKinds kind),
    Sweep.level_intervals_pos kind (fun _ h => le_of_mem_spanIntervals h), union_spanIntervals]

/-- The kinds present at a moment. -/
def presentAt (spans : List Span) (totalMs : Nat) (t : Int) : List Kind :=
  present (Sweep.level (events spans totalMs) t)

theorem mem_presentAt {spans : List Span} {totalMs : Nat} {t : Int} {kind : Kind} :
    kind ∈ presentAt spans totalMs t ↔ t ∈ covered (ofKind kind spans) totalMs := by
  simp [presentAt, present, mem_timedKinds, level_events_pos]

theorem presentAt_ne_nil {spans : List Span} {totalMs : Nat} {t : Int} :
    presentAt spans totalMs t ≠ [] ↔ t ∈ covered spans totalMs := by
  rw [mem_covered_iff_kind]
  constructor
  · intro h
    obtain ⟨kind, hkind⟩ := List.exists_mem_of_ne_nil _ h
    exact ⟨kind, mem_presentAt.mp hkind⟩
  · rintro ⟨kind, hkind⟩
    exact List.ne_nil_of_mem (mem_presentAt.mpr hkind)

/-- At the end of the axis no kind is present. -/
theorem presentAt_end (spans : List Span) (totalMs : Nat) : presentAt spans totalMs totalMs = [] := by
  by_contra h
  exact absurd (mem_covered.mp (presentAt_ne_nil.mp h)).2.2 (lt_irrefl _)

/-- **What a sweep measures**: a quantity of the state that each event raises by the time since the event before, where
the kinds present have a property. -/
def Measures (quantity : State → Int) (p : List Kind → Bool) : Prop :=
  ∀ state event, quantity (state.advance event)
    = quantity state + (event.moment - state.previous) * if p (present state.active) then 1 else 0

/-- A sweep adds the weighed time to what it measures. -/
theorem Measures.foldl {quantity : State → Int} {p : List Kind → Bool} (h : Measures quantity p)
    {events : List (Sweep.Event Kind)} : ∀ {state : State}, quantity (events.foldl State.advance state)
      = quantity state
        + Sweep.swept (fun active => if p (present active) then 1 else 0) state.active state.previous events := by
  induction events with
  | nil => exact fun {state} => (add_zero _).symm
  | cons event events ih =>
    intro state
    rw [List.foldl_cons, ih, h, Sweep.swept, add_assoc]
    rfl

/-- **What the sweep measures is the number of the moments at which the property holds.** -/
theorem Measures.eq_card {quantity : State → Int} {p : List Kind → Bool} (h : Measures quantity p)
    (hinitial : quantity .initial = 0) (hnone : p [] = false) (spans : List Span) (totalMs : Nat) :
    quantity ((sortedEvents spans totalMs).foldl State.advance .initial)
      = ((axis totalMs).filter fun t => p (presentAt spans totalMs t)).card := by
  have hmoments : ∀ event ∈ sortedEvents spans totalMs, 0 ≤ event.moment ∧ event.moment ≤ totalMs := fun event hevent =>
    moment_of_mem_events ((sortedEvents_perm spans totalMs).mem_iff.mp hevent)
  have hlevel : ∀ t, (fun kind => (0 : Int) + Sweep.level (sortedEvents spans totalMs) t kind)
      = Sweep.level (events spans totalMs) t := fun t => by
    funext kind
    rw [zero_add, Sweep.level_perm (sortedEvents_perm spans totalMs)]
  rw [h.foldl, hinitial, zero_add, State.initial, Sweep.swept_eq_sum _
    (pairwise_sortedEvents spans totalMs) (fun event hevent => (hmoments event hevent).1)
    (fun event hevent => (hmoments event hevent).2)]
  · rw [← sum_boole]
    exact sum_congr rfl fun t _ => by rw [hlevel]; rfl
  · rw [hlevel]
    exact if_neg (by rw [← presentAt, presentAt_end, hnone]; decide)

/-- The occupancy measures the time with any kind present. -/
theorem measures_occupancy : Measures State.occupancy fun kinds => !kinds.isEmpty := by
  intro state event
  rcases hpresent : present state.active with _ | ⟨kind, _ | ⟨other, kinds⟩⟩ <;>
    simp [State.advance, State.elapse, hpresent]

/-- The overlap measures the time with more than one kind present. -/
theorem measures_overlap : Measures State.overlap fun kinds => 1 < kinds.length := by
  intro state event
  rcases hpresent : present state.active with _ | ⟨kind, _ | ⟨other, kinds⟩⟩ <;>
    simp [State.advance, State.elapse, hpresent]

/-- The exclusive time of a kind measures the time with that kind alone. -/
theorem measures_exclusive (kind : Kind) :
    Measures (fun state => state.exclusive kind) fun kinds => kinds = [kind] := by
  intro state event
  rcases hpresent : present state.active with _ | ⟨first, _ | ⟨other, kinds⟩⟩
  · simp [State.advance, State.elapse, hpresent]
  · by_cases hkind : first = kind
    · subst hkind
      simp [State.advance, State.elapse, hpresent]
    · simp [State.advance, State.elapse, hpresent, hkind, Function.update_of_ne (Ne.symm hkind)]
  · simp [State.advance, State.elapse, hpresent]

/-- **The occupancy is the length of what the spans cover.** -/
theorem occupancy_eq (spans : List Span) (totalMs : Nat) :
    (intervalOccupancy spans totalMs).1 = (covered spans totalMs).card := by
  have hcells : ((axis totalMs).filter fun t => !(presentAt spans totalMs t).isEmpty) = covered spans totalMs := by
    ext t
    simp only [mem_filter, Bool.not_eq_true', List.isEmpty_eq_false_iff, presentAt_ne_nil]
    exact ⟨fun h => h.2, fun h => ⟨covered_subset_axis spans totalMs h, h⟩⟩
  rw [← hcells]
  exact measures_occupancy.eq_card rfl rfl spans totalMs

/-- The overlap is the number of the moments with more than one kind. -/
theorem overlap_eq (spans : List Span) (totalMs : Nat) :
    (intervalOccupancy spans totalMs).2.1
      = ((axis totalMs).filter fun t => 1 < (presentAt spans totalMs t).length).card := by
  refine (measures_overlap.eq_card rfl rfl spans totalMs).trans ?_
  simp only [decide_eq_true_eq]

/-- The exclusive time of a kind is the number of the moments with that kind alone. -/
theorem exclusive_eq (spans : List Span) (totalMs : Nat) (kind : Kind) :
    (intervalOccupancy spans totalMs).2.2 kind
      = ((axis totalMs).filter fun t => presentAt spans totalMs t = [kind]).card := by
  refine ((measures_exclusive kind).eq_card rfl rfl spans totalMs).trans ?_
  simp only [decide_eq_true_eq]

/-- **A moment with a kind present is one with more than one, or with one alone.** -/
theorem present_split (kinds : List Kind) : (if !kinds.isEmpty then 1 else 0 : Int)
    = (if 1 < kinds.length then 1 else 0)
      + (timedKinds.map fun kind => if kinds = [kind] then (1 : Int) else 0).sum := by
  rcases kinds with _ | ⟨kind, _ | ⟨other, kinds⟩⟩
  · simp [timedKinds]
  · cases kind <;> simp [timedKinds]
  · simp [timedKinds]

/-- **The occupancy is the overlap and the exclusive times.** -/
theorem occupancy_eq_add (spans : List Span) (totalMs : Nat) :
    (intervalOccupancy spans totalMs).1
      = (intervalOccupancy spans totalMs).2.1 + (timedKinds.map (intervalOccupancy spans totalMs).2.2).sum := by
  have hoccupancy : (intervalOccupancy spans totalMs).1
      = ∑ t ∈ axis totalMs, if !(presentAt spans totalMs t).isEmpty then (1 : Int) else 0 := by
    rw [sum_boole]
    exact measures_occupancy.eq_card rfl rfl spans totalMs
  have hexclusive : (timedKinds.map (intervalOccupancy spans totalMs).2.2).sum
      = ∑ t ∈ axis totalMs,
        (timedKinds.map fun kind => if presentAt spans totalMs t = [kind] then (1 : Int) else 0).sum := by
    simp only [timedKinds, List.map_cons, List.map_nil, List.sum_cons, List.sum_nil, add_zero, exclusive_eq,
      sum_add_distrib, sum_boole]
  rw [hoccupancy, hexclusive, overlap_eq, ← sum_boole, ← sum_add_distrib]
  exact sum_congr rfl fun t _ => present_split _

/-- The exclusive time of a kind is at most the length of what its spans cover. -/
theorem exclusive_le (spans : List Span) (totalMs : Nat) (kind : Kind) :
    (intervalOccupancy spans totalMs).2.2 kind ≤ (covered (ofKind kind spans) totalMs).card := by
  rw [exclusive_eq]
  refine Int.ofNat_le.mpr (card_le_card fun t ht => ?_)
  exact mem_presentAt.mp ((mem_filter.mp ht).2 ▸ List.mem_singleton_self kind)

/-- **The order of the spans does not matter** to their intervals. -/
theorem spanIntervals_perm {spans others : List Span} (h : spans.Perm others) (totalMs : Nat) :
    (spanIntervals spans totalMs).Perm (spanIntervals others totalMs) :=
  (h.map _).filter _

theorem ofKind_perm {spans others : List Span} (h : spans.Perm others) (kind : Kind) :
    (ofKind kind spans).Perm (ofKind kind others) :=
  h.filter _

/-- The events of the same spans are the same. -/
theorem events_perm {spans others : List Span} (h : spans.Perm others) (totalMs : Nat) :
    (events spans totalMs).Perm (events others totalMs) :=
  List.Perm.flatMap_left _ fun kind _ => (spanIntervals_perm (ofKind_perm h kind) totalMs).flatMap_right _

theorem intervalOccupancy_perm {spans others : List Span} (h : spans.Perm others) (totalMs : Nat) :
    intervalOccupancy others totalMs = intervalOccupancy spans totalMs := by
  rw [intervalOccupancy, intervalOccupancy,
    StableSort.sorted_eq_of_perm sortKey sortKey_injective (events_perm h totalMs)]

theorem unionMs_perm {intervals others : List (Int × Int)} (h : intervals.Perm others) :
    unionMs others = unionMs intervals := by
  rw [unionMs, unionMs, StableSort.sorted_eq_of_perm _ toLex.injective h]

/-- **The sweep measures the axis**: the occupancy is the length of what the leaf spans cover of the axis, it is the
overlap and the exclusive times together and at most the axis; the exclusive time of a kind is at most the merged length
of its spans, which is the length of what they cover and at most the occupancy; and another order of the spans gives the
same. -/
theorem occupancy_sweep {spans others : List Span} (h : spans.Perm others) (totalMs : Nat) :
    (intervalOccupancy spans totalMs).1 = (covered spans totalMs).card
      ∧ (intervalOccupancy spans totalMs).1
        = (intervalOccupancy spans totalMs).2.1 + (timedKinds.map (intervalOccupancy spans totalMs).2.2).sum
      ∧ (intervalOccupancy spans totalMs).1 ≤ totalMs
      ∧ (∀ kind,
        (intervalOccupancy spans totalMs).2.2 kind ≤ unionMs (spanIntervals (ofKind kind spans) totalMs)
          ∧ unionMs (spanIntervals (ofKind kind spans) totalMs) = (covered (ofKind kind spans) totalMs).card
          ∧ unionMs (spanIntervals (ofKind kind spans) totalMs) ≤ (intervalOccupancy spans totalMs).1)
      ∧ intervalOccupancy others totalMs = intervalOccupancy spans totalMs
      ∧ ∀ kind, unionMs (spanIntervals (ofKind kind others) totalMs)
        = unionMs (spanIntervals (ofKind kind spans) totalMs) := by
  refine ⟨occupancy_eq spans totalMs, occupancy_eq_add spans totalMs, ?_, fun kind => ⟨?_, ?_, ?_⟩,
    intervalOccupancy_perm h totalMs, fun kind => unionMs_perm (spanIntervals_perm (ofKind_perm h kind) totalMs)⟩
  · rw [occupancy_eq]
    have := card_le_card (covered_subset_axis spans totalMs)
    rw [card_axis] at this
    exact Int.ofNat_le.mpr this
  · rw [unionMs_spanIntervals]
    exact exclusive_le spans totalMs kind
  · exact unionMs_spanIntervals _ totalMs
  · rw [unionMs_spanIntervals, occupancy_eq]
    exact Int.ofNat_le.mpr (card_le_card (covered_ofKind_subset kind spans totalMs))

/-- Two spans in either order. -/
theorem occupancy_sweep_two :
    intervalOccupancy [⟨.llm, 2, 5, none⟩, ⟨.mes, -1, 4, none⟩] 6
      = intervalOccupancy [⟨.mes, -1, 4, none⟩, ⟨.llm, 2, 5, none⟩] 6 :=
  (occupancy_sweep (.swap _ _ []) 6).2.2.2.2.1

end Occupancy
