import Mathlib.Data.List.Basic

/-!
# Gathering a batch of calls

Several calls are started together and awaited together: each has a slot for its outcome, the outcomes arrive
in any order, and the batch is read once every slot is filled. What is read is in the order of the calls, so
the order of arrival is not seen (`Agrees.results`). As long as the batch cannot be read, some call is still
waited for (`exists_waiting`), and each arrival leaves one fewer (`waiting_land`).
-/

/-- **A batch of calls**: the outcome of each, where it has arrived. -/
abbrev Gather (α : Type) := List (Option α)

namespace Gather

variable {α : Type} {slots slots' : Gather α} {outcomes : List α} {i : Nat} {outcome : α}

/-- The batch when its calls are started. -/
def start (count : Nat) : Gather α := List.replicate count none

/-- **An outcome arrives** for a call that is waited for. -/
def land (slots : Gather α) (i : Nat) (outcome : α) : Option (Gather α) :=
  match slots[i]? with
  | some none => some (slots.set i (some outcome))
  | _ => none

/-- **The outcomes in the order of the calls**, once they are all there. -/
def results (slots : Gather α) : Option (List α) :=
  if slots.all Option.isSome then some (slots.filterMap id) else none

/-- How many calls are waited for. -/
def waiting (slots : Gather α) : Nat := slots.countP Option.isNone

/-- **What has arrived is what the calls come to.** -/
structure Agrees (slots : Gather α) (outcomes : List α) : Prop where
  length : slots.length = outcomes.length
  arrived : ∀ (i : Nat) (outcome : α), slots[i]? = some (some outcome) → outcomes[i]? = some outcome

/-- An arrival fills the slot of its call. -/
theorem land_eq_some :
    slots.land i outcome = some slots' ↔ slots[i]? = some none ∧ slots' = slots.set i (some outcome) := by
  unfold land
  cases hslot : slots[i]? with
  | none => simp
  | some slot =>
    cases slot with
    | none => simp [eq_comm]
    | some earlier => simp

/-- What has arrived after one more arrival. -/
theorem mem_land {other : α} (h : slots.land i outcome = some slots') :
    some other ∈ slots' ↔ some other ∈ slots ∨ other = outcome := by
  obtain ⟨hslot, rfl⟩ := land_eq_some.mp h
  clear h
  induction slots generalizing i with
  | nil => cases hslot
  | cons slot slots ih =>
    cases i with
    | zero =>
      cases hslot
      rw [List.set_cons_zero, List.mem_cons, List.mem_cons]
      simp [or_comm]
    | succ i =>
      rw [List.set_cons_succ, List.mem_cons, List.mem_cons, ih (show slots[i]? = some none from hslot),
        or_assoc]

/-- An arrival leaves the number of calls. -/
theorem length_land (h : slots.land i outcome = some slots') : slots'.length = slots.length := by
  obtain ⟨-, rfl⟩ := land_eq_some.mp h
  exact List.length_set

/-- Nothing has arrived at the start. -/
theorem agrees_start {count : Nat} (h : count = outcomes.length) : Agrees (start count) outcomes where
  length := List.length_replicate.trans h
  arrived i outcome h := by
    rw [start, List.getElem?_replicate] at h
    split at h <;> cases h

/-- One more arrival. -/
theorem Agrees.land (h : slots.Agrees outcomes) (houtcome : outcomes[i]? = some outcome)
    (hland : slots.land i outcome = some slots') : slots'.Agrees outcomes := by
  obtain ⟨-, rfl⟩ := land_eq_some.mp hland
  refine ⟨by rw [List.length_set, h.length], fun j other hother => ?_⟩
  rw [List.getElem?_set] at hother
  split at hother
  · rename_i hij
    split at hother
    · cases hother
      exact hij ▸ houtcome
    · cases hother
  · exact h.arrived j other hother

/-- What can be read is in every slot. -/
theorem eq_map_of_results (h : slots.results = some outcomes) : slots = outcomes.map some := by
  unfold results at h
  split at h
  · rename_i hall
    cases h
    induction slots with
    | nil => rfl
    | cons slot slots ih =>
      rw [List.all_cons, Bool.and_eq_true] at hall
      obtain ⟨outcome, rfl⟩ := Option.isSome_iff_exists.mp hall.1
      exact congrArg (some outcome :: ·) (ih hall.2)
  · cases h

/-- **A batch is read in the order of its calls**, whatever the order of the arrivals was. -/
theorem Agrees.results {read : List α} (h : slots.Agrees outcomes) (hread : slots.results = some read) :
    read = outcomes := by
  have hslots := eq_map_of_results hread
  have hlength : read.length = outcomes.length := by
    rw [← h.length, hslots, List.length_map]
  refine List.ext_getElem? fun i => ?_
  by_cases hi : i < read.length
  · have hslot : slots[i]? = some (some read[i]) := by
      rw [hslots, List.getElem?_map, List.getElem?_eq_getElem hi]
      rfl
    rw [h.arrived i _ hslot, List.getElem?_eq_getElem hi]
  · rw [List.getElem?_eq_none (Nat.le_of_not_lt hi),
      List.getElem?_eq_none (hlength ▸ Nat.le_of_not_lt hi)]

/-- As long as a batch cannot be read, a call is waited for. -/
theorem exists_waiting (h : slots.results = none) : ∃ i : Nat, slots[i]? = some none := by
  unfold Gather.results at h
  split at h
  · cases h
  · rename_i hall
    rw [List.all_eq_true] at hall
    obtain ⟨slot, hmem, hslot⟩ : ∃ slot ∈ slots, slot.isSome ≠ true := by
      by_contra hnone
      exact hall fun slot hmem => by_contra fun hslot => hnone ⟨slot, hmem, hslot⟩
    obtain ⟨i, hi⟩ := List.mem_iff_getElem?.mp hmem
    refine ⟨i, ?_⟩
    rw [hi, Option.not_isSome_iff_eq_none.mp hslot]

/-- A batch with calls cannot be read at the start. -/
theorem results_start {count : Nat} (h : 0 < count) : (@start α count).results = none := by
  unfold Gather.results start
  rw [List.all_replicate, if_neg (Nat.ne_of_gt h)]
  rfl

/-- All calls are waited for at the start. -/
theorem waiting_start (count : Nat) : waiting (@start α count) = count := by
  rw [waiting, start, List.countP_replicate]
  rfl

/-- An arrival leaves one call fewer. -/
theorem waiting_land (h : slots.land i outcome = some slots') : slots'.waiting + 1 = slots.waiting := by
  obtain ⟨hslot, rfl⟩ := land_eq_some.mp h
  clear h
  induction slots generalizing i with
  | nil => cases hslot
  | cons slot slots ih =>
    cases i with
    | zero =>
      cases hslot
      rw [List.set_cons_zero, waiting, waiting, List.countP_cons, List.countP_cons]
      rfl
    | succ i =>
      have hrest := ih (show slots[i]? = some none from hslot)
      unfold waiting at hrest ⊢
      rw [List.set_cons_succ, List.countP_cons, List.countP_cons, ← hrest]
      omega

/-- What is collected from a list, when one of its slots is filled anew. -/
theorem filterMap_set_perm {β : Type} [DecidableEq β] (f : α → Option β) {l : List α} {index : Nat} {a : α}
    (h : l[index]? = some a) (b : α) :
    ((l.set index b).filterMap f ++ (f a).toList).Perm (l.filterMap f ++ (f b).toList) := by
  obtain ⟨hlt, hget⟩ := List.getElem?_eq_some_iff.mp h
  have hsplit : l = l.take index ++ a :: l.drop (index + 1) := by
    rw [← hget, List.getElem_cons_drop, List.take_append_drop]
  have hone : ∀ c, (l.take index ++ c :: l.drop (index + 1)).filterMap f
      = (l.take index).filterMap f ++ ((f c).toList ++ (l.drop (index + 1)).filterMap f) := by
    intro c
    rw [List.filterMap_append, List.filterMap_cons]
    cases f c <;> rfl
  rw [List.set_eq_take_append_cons_drop, if_pos hlt]
  conv_rhs => rw [hsplit]
  rw [hone, hone]
  refine List.perm_iff_count.mpr fun c => ?_
  simp only [List.count_append]
  omega

end Gather
