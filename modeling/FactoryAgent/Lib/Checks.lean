import FactoryAgent.Lib.Except

/-!
# Checks in a row

Validation code is a row of checks, each of which refuses with a message. A check is an `Except String Unit`; a
row of them passes where each passes, and the message is that of the first one that does not.
-/

namespace Checks

variable {α : Type}

/-- **A check** of a condition, with its message. -/
def require (condition : Prop) [Decidable condition] (message : String) : Except String Unit :=
  if condition then .ok () else .error message

/-- **A check of every item.** -/
def each (items : List α) (check : α → Except String Unit) : Except String Unit :=
  items.foldlM (fun _ => check) ()

/-- A check passes where its condition holds. -/
@[simp]
theorem require_eq_ok {condition : Prop} [Decidable condition] {message : String} :
    require condition message = .ok () ↔ condition := by
  unfold require
  split
  · rename_i h
    exact ⟨fun _ => h, fun _ => rfl⟩
  · rename_i h
    exact ⟨fun herror => (by cases herror), fun hc => absurd hc h⟩

/-- Two checks pass where both do. -/
@[simp]
theorem then_eq_ok {first second : Except String Unit} :
    (first >>= fun _ => second) = .ok () ↔ first = .ok () ∧ second = .ok () := by
  cases first with
  | error message => exact ⟨fun h => (by cases h), fun h => h.1⟩
  | ok _ => exact ⟨fun h => ⟨rfl, h⟩, fun h => h.2⟩

/-- **A check of every item passes where each passes.** -/
@[simp]
theorem each_eq_ok {items : List α} {check : α → Except String Unit} :
    each items check = .ok () ↔ ∀ item ∈ items, check item = .ok () := by
  induction items with
  | nil => exact ⟨fun _ _ hmem => absurd hmem List.not_mem_nil, fun _ => rfl⟩
  | cons item items ih =>
    rw [List.forall_mem_cons, ← ih]
    show (check item >>= fun _ => each items check) = _ ↔ _
    exact then_eq_ok

end Checks
