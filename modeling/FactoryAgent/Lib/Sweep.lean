import Mathlib.Algebra.Order.BigOperators.Group.Finset
import Mathlib.Algebra.BigOperators.Intervals
import Mathlib.Order.Interval.Finset.Basic
import Mathlib.Data.Int.ConditionallyCompleteOrder
import Mathlib.Data.Int.Interval
import Mathlib.Tactic.Ring

/-!
# Sweeping over events

Counters, one for each kind, are changed by events at moments, and nothing changes between two of them. So a sweep that
goes over the events in their order, and adds the time since the event before with a weight that the counters give, adds
up the weights of all moments (`swept_eq_sum`). Moments are whole numbers; the moment `t` stands for the time from `t`
to `t + 1`.
-/

namespace Sweep

open Finset

variable {κ : Type} [DecidableEq κ]

/-- **A change of the counter of a kind at a moment.** -/
structure Event (κ : Type) where
  moment : Int
  kind : κ
  change : Int
deriving DecidableEq

/-- The counters after an event. -/
def bump (active : κ → Int) (event : Event κ) : κ → Int :=
  Function.update active event.kind (active event.kind + event.change)

/-- What the events up to a moment change in the counter of a kind. -/
def level (events : List (Event κ)) (t : Int) (kind : κ) : Int :=
  (events.map fun event => if event.kind = kind ∧ event.moment ≤ t then event.change else 0).sum

/-- **The weighed time of a sweep**, from the moment of the event before on. -/
def swept (weight : (κ → Int) → Int) : (κ → Int) → Int → List (Event κ) → Int
  | _, _, [] => 0
  | active, previous, event :: events =>
    (event.moment - previous) * weight active + swept weight (bump active event) event.moment events

@[simp] theorem level_nil (t : Int) (kind : κ) : level [] t kind = 0 :=
  rfl

@[simp] theorem level_cons (event : Event κ) (events : List (Event κ)) (t : Int) (kind : κ) :
    level (event :: events) t kind
      = (if event.kind = kind ∧ event.moment ≤ t then event.change else 0) + level events t kind :=
  List.sum_cons

@[simp] theorem level_append (events others : List (Event κ)) (t : Int) (kind : κ) :
    level (events ++ others) t kind = level events t kind + level others t kind := by
  simp [level]

/-- The order of the events does not matter to what they change. -/
theorem level_perm {events others : List (Event κ)} (h : events.Perm others) (t : Int) (kind : κ) :
    level events t kind = level others t kind :=
  (h.map _).sum_eq

/-- **Events of other kinds change nothing.** -/
theorem level_of_ne {events : List (Event κ)} {kind : κ} (h : ∀ event ∈ events, event.kind ≠ kind) (t : Int) :
    level events t kind = 0 := by
  refine List.sum_eq_zero fun change hchange => ?_
  obtain ⟨event, hevent, rfl⟩ := List.mem_map.mp hchange
  exact if_neg fun hkind => h event hevent hkind.1

/-- **Before the first event nothing is changed.** -/
theorem level_of_lt {events : List (Event κ)} {t : Int} (h : ∀ event ∈ events, t < event.moment) (kind : κ) :
    level events t kind = 0 := by
  refine List.sum_eq_zero fun change hchange => ?_
  obtain ⟨event, hevent, rfl⟩ := List.mem_map.mp hchange
  exact if_neg fun hmoment => absurd hmoment.2 (not_le.mpr (h event hevent))

/-- The counters after an event at or before a moment, and the changes of the events after it, are the counters before
it and the changes of all. -/
theorem bump_level {active : κ → Int} {event : Event κ} {t : Int} (h : event.moment ≤ t) (events : List (Event κ)) :
    (fun kind => bump active event kind + level events t kind)
      = fun kind => active kind + level (event :: events) t kind := by
  funext kind
  by_cases hkind : event.kind = kind
  · subst hkind
    simp only [bump, Function.update_self, level_cons, h, and_self, if_true]
    ring
  · simp only [bump, Function.update_of_ne (Ne.symm hkind), level_cons, hkind, false_and, if_false, zero_add]

/-- **A sweep adds up the weights of all moments**, where the events are in their order and the counters weigh nothing
after the last one. -/
theorem swept_eq_sum (weight : (κ → Int) → Int) {last : Int} {events : List (Event κ)} :
    ∀ {active : κ → Int} {previous : Int}, events.Pairwise (fun first second => first.moment ≤ second.moment) →
      (∀ event ∈ events, previous ≤ event.moment) → (∀ event ∈ events, event.moment ≤ last) →
      weight (fun kind => active kind + level events last kind) = 0 →
      swept weight active previous events
        = ∑ t ∈ Ico previous last, weight fun kind => active kind + level events t kind := by
  induction events with
  | nil =>
    intro active previous _ _ _ hend
    simp only [level_nil, add_zero] at hend
    simp [swept, hend]
  | cons event events ih =>
    intro active previous hsorted hfirst hlast hend
    obtain ⟨hhead, htail⟩ := List.pairwise_cons.mp hsorted
    have hprevious : previous ≤ event.moment := hfirst event List.mem_cons_self
    have hmoment : event.moment ≤ last := hlast event List.mem_cons_self
    -- Up to the event the counters are as they were.
    have hbefore : ∑ t ∈ Ico previous event.moment, weight (fun kind => active kind + level (event :: events) t kind)
        = (event.moment - previous) * weight active := by
      have hsame : ∀ t ∈ Ico previous event.moment,
          weight (fun kind => active kind + level (event :: events) t kind) = weight active := by
        intro t ht
        have hlater : ∀ other ∈ event :: events, t < other.moment := by
          intro other hother
          rcases List.mem_cons.mp hother with rfl | hother
          · exact (mem_Ico.mp ht).2
          · exact lt_of_lt_of_le (mem_Ico.mp ht).2 (hhead other hother)
        simp only [level_of_lt hlater, add_zero]
      rw [sum_congr rfl hsame, sum_const, Int.card_Ico, nsmul_eq_mul, Int.toNat_of_nonneg (sub_nonneg.mpr hprevious)]
    -- From it on they are the ones after it.
    have hafter : ∑ t ∈ Ico event.moment last, weight (fun kind => active kind + level (event :: events) t kind)
        = swept weight (bump active event) event.moment events := by
      rw [ih htail hhead (fun other hother => hlast other (List.mem_cons_of_mem _ hother))
        (by rw [bump_level hmoment]; exact hend)]
      exact sum_congr rfl fun t ht => by rw [bump_level (mem_Ico.mp ht).1]
    rw [swept, ← hbefore, ← hafter, ← sum_union (Ico_disjoint_Ico_consecutive previous event.moment last),
      Ico_union_Ico_eq_Ico hprevious hmoment]

/-! ## Intervals -/

/-- **The two events of an interval**: its kind is active from its start to its end. -/
def interval (kind : κ) (bounds : Int × Int) : List (Event κ) :=
  [⟨bounds.1, kind, 1⟩, ⟨bounds.2, kind, -1⟩]

/-- The union of intervals. -/
noncomputable def union (intervals : List (Int × Int)) : Finset Int :=
  intervals.toFinset.biUnion fun bounds => Ico bounds.1 bounds.2

theorem mem_union {intervals : List (Int × Int)} {t : Int} :
    t ∈ union intervals ↔ ∃ bounds ∈ intervals, bounds.1 ≤ t ∧ t < bounds.2 := by
  simp [union]

/-- **The counter of a kind is the number of its intervals around a moment.** -/
theorem level_intervals (kind : κ) {intervals : List (Int × Int)} (h : ∀ bounds ∈ intervals, bounds.1 ≤ bounds.2)
    (t : Int) : level (intervals.flatMap (interval kind)) t kind
      = (intervals.countP fun bounds => bounds.1 ≤ t ∧ t < bounds.2 : Nat) := by
  induction intervals with
  | nil => rfl
  | cons bounds intervals ih =>
    have hbounds : bounds.1 ≤ bounds.2 := h bounds List.mem_cons_self
    rw [List.flatMap_cons, level_append, ih fun other hother => h other (List.mem_cons_of_mem _ hother),
      List.countP_cons]
    simp only [interval, level_cons, level_nil, true_and, decide_eq_true_eq]
    split_ifs <;> push_cast <;> omega

/-- A kind is active at the moments of the union of its intervals. -/
theorem level_intervals_pos (kind : κ) {intervals : List (Int × Int)} (h : ∀ bounds ∈ intervals, bounds.1 ≤ bounds.2)
    (t : Int) : 0 < level (intervals.flatMap (interval kind)) t kind ↔ t ∈ union intervals := by
  rw [level_intervals kind h, Int.natCast_pos, List.countP_pos_iff, mem_union]
  simp

end Sweep
