import Mathlib.Logic.Function.Basic

/-!
# A table of locks

Parties that each hold at most one lock of a table. The table *agrees* with what they hold where every lock that is held
is locked, and by one party alone. A party may keep what it holds, take a lock that is free while it holds none, or let
go of its own; each of these moves keeps the agreement (`Agrees.move`), so that no two parties ever hold one lock.
-/

namespace Exclusion

variable {ι Lock : Type}

/-- **A table agrees with what is held.** -/
structure Agrees (locked : Lock → Bool) (held : ι → Option Lock) : Prop where
  locked : ∀ party lock, held party = some lock → locked lock = true
  apart : ∀ party other lock, held party = some lock → held other = some lock → party = other

/-- Where nobody holds anything, a table agrees. -/
theorem Agrees.free (locked : Lock → Bool) {held : ι → Option Lock} (h : ∀ party, held party = none) :
    Agrees locked held where
  locked party lock hheld := by
    rw [h party] at hheld
    cases hheld
  apart party other lock hheld := by
    rw [h party] at hheld
    cases hheld

variable [DecidableEq Lock]

/-- **What a party may do**: keep what it holds, take a lock that is free, or let go of its lock. -/
inductive Move (locked locked' : Lock → Bool) (before after : Option Lock) : Prop
  | kept (locked_eq : locked' = locked) (after_eq : after = before)
  | taken (lock : Lock) (none : before = none) (free : locked lock = false)
      (locked_eq : locked' = Function.update locked lock true) (after_eq : after = some lock)
  | freed (lock : Lock) (own : before = some lock) (locked_eq : locked' = Function.update locked lock false)
      (after_eq : after = none)

/-- **A move keeps the agreement.** -/
theorem Agrees.move {locked locked' : Lock → Bool} {held held' : ι → Option Lock} (h : Agrees locked held)
    (party : ι) (hmove : Move locked locked' (held party) (held' party))
    (hother : ∀ other, other ≠ party → held' other = held other) : Agrees locked' held' := by
  cases hmove with
  | kept hlocked hafter =>
    have hsame : held' = held := funext fun other => by
      by_cases hparty : other = party
      · rw [hparty, hafter]
      · exact hother other hparty
    rw [hsame, hlocked]
    exact h
  | taken lock hnone hfree hlocked hafter =>
    have hnobody (other : ι) : held other ≠ some lock := fun hheld => by
      have htrue := h.locked other lock hheld
      rw [hfree] at htrue
      cases htrue
    refine ⟨fun other found hheld => ?_, fun first second found hfirst hsecond => ?_⟩
    · rw [hlocked]
      by_cases hfound : found = lock
      · rw [hfound, Function.update_self]
      · rw [Function.update_of_ne hfound]
        by_cases hparty : other = party
        · rw [hparty, hafter] at hheld
          exact absurd (Option.some.inj hheld).symm hfound
        · exact h.locked other found (hother other hparty ▸ hheld)
    · by_cases hone : first = party <;> by_cases htwo : second = party
      · rw [hone, htwo]
      · rw [hone, hafter] at hfirst
        rw [hother second htwo, ← hfirst] at hsecond
        exact absurd hsecond (hnobody second)
      · rw [htwo, hafter] at hsecond
        rw [hother first hone, ← hsecond] at hfirst
        exact absurd hfirst (hnobody first)
      · rw [hother first hone] at hfirst
        rw [hother second htwo] at hsecond
        exact h.apart first second found hfirst hsecond
  | freed lock hown hlocked hafter =>
    have hkept {other : ι} {found : Lock} (hheld : held' other = some found) :
        other ≠ party ∧ held other = some found := by
      by_cases hparty : other = party
      · rw [hparty, hafter] at hheld
        cases hheld
      · exact ⟨hparty, hother other hparty ▸ hheld⟩
    refine ⟨fun other found hheld => ?_, fun first second found hfirst hsecond => ?_⟩
    · obtain ⟨hparty, hbefore⟩ := hkept hheld
      have hfound : found ≠ lock := by
        rintro rfl
        exact hparty (h.apart other party found hbefore hown)
      rw [hlocked, Function.update_of_ne hfound]
      exact h.locked other found hbefore
    · exact h.apart first second found (hkept hfirst).2 (hkept hsecond).2

end Exclusion
