import FactoryAgent.Lib.Dict

/-!
# Groups in the order in which they came

A dictionary that collects elements by their keys: each is added to the group of its key, which is put behind the
others where the key is new. The group of a key depends on the elements with that key only.
-/

namespace Tally

variable {α β κ : Type} [DecidableEq κ] (key : α → κ) (add : β → α → β) (empty : β)

/-- **Collect elements into groups**, as `dict.setdefault` does. -/
def tally (groups : Dict κ β) (elements : List α) : Dict κ β :=
  elements.foldl (fun groups element =>
    groups.set (key element) (add ((groups.get? (key element)).getD empty) element)) groups

/-- **The group of a key** is the fold of the elements with that key, where there is one. -/
theorem get?_tally (groups : Dict κ β) (elements : List α) (k : κ) :
    (tally key add empty groups elements).get? k
      = (elements.filter fun element => key element = k).foldl
          (fun group element => some (add (group.getD empty) element)) (groups.get? k) := by
  induction elements generalizing groups with
  | nil => rfl
  | cons element elements ih =>
    rw [tally, List.foldl_cons, ← tally, ih, Dict.get?_set]
    by_cases hkey : key element = k
    · rw [if_pos hkey.symm, List.filter_cons_of_pos (by simpa using hkey), List.foldl_cons, hkey]
    · rw [if_neg (Ne.symm hkey), List.filter_cons_of_neg (by simpa using hkey)]

/-- A fold into a group that is there is a fold of the group. -/
theorem foldl_some (elements : List α) (group : β) :
    elements.foldl (fun group element => some (add (group.getD empty) element)) (some group)
      = some (elements.foldl add group) := by
  induction elements generalizing group with
  | nil => rfl
  | cons element elements ih => rw [List.foldl_cons, List.foldl_cons, Option.getD_some, ih]

/-- **The groups of a tally**: one for each key that comes, the fold of its elements. -/
theorem mem_items_tally {elements : List α} {k : κ} {group : β} :
    (k, group) ∈ (tally key add empty Dict.empty elements).items
      ↔ (elements.filter fun element => key element = k) ≠ []
        ∧ group = (elements.filter fun element => key element = k).foldl add empty := by
  rw [← Dict.get?_eq_some, get?_tally, Dict.get?_empty]
  cases elements.filter fun element => key element = k with
  | nil => exact ⟨fun h => absurd h (Option.some_ne_none _).symm, fun h => absurd rfl h.1⟩
  | cons element rest =>
    rw [List.foldl_cons, Option.getD_none, foldl_some, Option.some.injEq]
    exact ⟨fun h => ⟨List.cons_ne_nil _ _, h.symm⟩, fun h => h.2.symm⟩

end Tally
