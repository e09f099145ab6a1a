import FactoryAgent.Cache.Rows
import FactoryAgent.Lib.IsoDate

/-!
# Windows

The windows of dates that snapshots are stored under. A question is looked up in the window that was
prefetched today, in the one that was prefetched yesterday, and in its own; each of them is a candidate
only where it covers the question. A window that reaches today is not settled, and its snapshot is kept
for a short time only.
-/

/-- **How long snapshots are kept, and how far back they reach.** -/
structure ResultCachePolicy where
  backtrackDays : Nat
  unsettledTtlSeconds : Nat
  settledTtlSeconds : Nat

/-- **The calendar day of a clock**, as its ordinal: one of the days of `date`, with the windows before it
among them as well. -/
structure Today (policy : ResultCachePolicy) where
  ordinal : Nat
  late : policy.backtrackDays + 2 ≤ ordinal
  dated : ordinal ≤ 3652059

/-- A day as the text it is written as. -/
def dayText (ordinal : Nat) : String :=
  IsoDate.isoformat (IsoDate.ofOrdinal ordinal)

/-- The window that is prefetched on a day, `prefetch_window`: it ends on the day before. -/
def prefetchWindow (policy : ResultCachePolicy) (ordinal : Nat) : String × String :=
  (dayText (ordinal - policy.backtrackDays), dayText (ordinal - 1))

/-- **A window covers another one.** -/
def Covers (window question : String × String) : Prop :=
  window.1 ≤ question.1 ∧ question.2 ≤ window.2

instance (window question : String × String) : Decidable (Covers window question) :=
  inferInstanceAs (Decidable (_ ∧ _))

/-- **The candidates of a question**, in the order in which `V2ResultCache.read` probes them. -/
def candidateWindows (policy : ResultCachePolicy) (today : Today policy)
    (question : String × String) : List (String × String) :=
  let prefetched := prefetchWindow policy today.ordinal
  let previous := prefetchWindow policy (today.ordinal - 1)
  let windows :=
    if Covers prefetched question then
      -- The window of yesterday is probed only for a question that today's would settle.
      prefetched :: if Covers previous question then [previous] else []
    else []
  if question ∈ windows then windows else windows ++ [question]

/-- A question is a candidate of itself. -/
theorem mem_candidateWindows_self (policy : ResultCachePolicy) (today : Today policy)
    (question : String × String) : question ∈ candidateWindows policy today question := by
  have hwindows : ∀ windows : List (String × String),
      question ∈ if question ∈ windows then windows else windows ++ [question] := by
    intro windows
    split
    · assumption
    · exact List.mem_append_right _ (List.mem_singleton.mpr rfl)
  exact hwindows _

/-- **Each candidate covers the question.** -/
theorem covers_of_mem_candidateWindows {policy : ResultCachePolicy} {today : Today policy}
    {question window : String × String} (h : window ∈ candidateWindows policy today question) :
    Covers window question := by
  have hwindows : ∀ windows : List (String × String), (∀ w ∈ windows, Covers w question) →
      window ∈ (if question ∈ windows then windows else windows ++ [question]) →
      Covers window question := by
    intro windows hcovers hmem
    split at hmem
    · exact hcovers window hmem
    · rcases List.mem_append.mp hmem with hmem | hmem
      · exact hcovers window hmem
      · rw [List.mem_singleton.mp hmem]
        exact ⟨String.le_refl _, String.le_refl _⟩
  refine hwindows _ (fun w hw => ?_) h
  split at hw
  · next hprefetched =>
    rcases List.mem_cons.mp hw with rfl | hw
    · exact hprefetched
    · split at hw
      · next hprevious => exact List.mem_singleton.mp hw ▸ hprevious
      · cases hw
  · cases hw

/-- **The three kinds of windows**, `window_category`. -/
inductive WindowCategory where
  | unsettled
  | outOfRange
  | settled
  deriving DecidableEq, Repr

/-- `window_category`. -/
def windowCategory (policy : ResultCachePolicy) (today : Today policy) (window : String × String) :
    WindowCategory :=
  if dayText today.ordinal ≤ window.2 then .unsettled
  else if window.1 < dayText (today.ordinal - policy.backtrackDays) then .outOfRange
  else .settled

/-- How long a snapshot is kept, by its window. -/
def ResultCachePolicy.ttlSeconds (policy : ResultCachePolicy) (today : Today policy)
    (window : String × String) : Nat :=
  if windowCategory policy today window = .unsettled then policy.unsettledTtlSeconds
  else policy.settledTtlSeconds

example : candidateWindows ⟨365, 90, 86400⟩ ⟨739510, by decide, by decide⟩ ("2025-09-01", "2025-09-01")
    = [("2024-09-16", "2025-09-15"), ("2024-09-15", "2025-09-14"), ("2025-09-01", "2025-09-01")] := by
  decide +kernel
