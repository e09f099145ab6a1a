import Mathlib.Algebra.Order.Group.Nat
import Mathlib.Data.List.Basic

/-!
# Pages of a list

Paging by offset: a list is shown in pages of one size, numbered from one, and each page says whether there is
more. Whoever follows the pages from the first one, as long as there is more, has the list
(`follow_eq`).
-/

namespace OffsetPages

variable {α : Type}

/-- **A page of a list**, by its number. -/
def page (size number : Nat) (items : List α) : List α :=
  (items.drop ((number - 1) * size)).take size

/-- **Whether there is more** behind a page, by the items up to it. -/
def hasMore (size number : Nat) (items : List α) : Bool :=
  (number - 1) * size + (page size number items).length < items.length

/-- **Following the pages** of a reader from a number on, as long as there is more. `none` is a page that the
reader refuses, or more pages than the given number. -/
def follow (read : Nat → Option (List α × Bool)) : Nat → Nat → Option (List α)
  | 0, _ => none
  | pages + 1, number =>
    (read number).bind fun found =>
      if found.2 then (follow read pages (number + 1)).map (found.1 ++ ·) else some found.1

/-- There is more exactly where items are left behind the page. -/
theorem hasMore_iff {size number : Nat} (hnumber : 1 ≤ number) (items : List α) :
    hasMore size number items = true ↔ number * size < items.length := by
  obtain ⟨before, rfl⟩ := Nat.exists_eq_add_of_le' hnumber
  rw [hasMore, decide_eq_true_eq, page, List.length_take, List.length_drop, Nat.add_sub_cancel, Nat.add_mul,
    Nat.one_mul]
  omega

/-- **There is more exactly where the next page is not empty.** -/
theorem hasMore_iff_page {size number : Nat} (hsize : 0 < size) (hnumber : 1 ≤ number) (items : List α) :
    hasMore size number items = true ↔ page size (number + 1) items ≠ [] := by
  rw [hasMore_iff hnumber, page, Nat.add_sub_cancel, Ne, List.take_eq_nil_iff, List.drop_eq_nil_iff]
  omega

/-- A page and what is behind it is what was left before it. -/
theorem page_append_drop (size : Nat) {number : Nat} (hnumber : 1 ≤ number) (items : List α) :
    page size number items ++ items.drop (number * size) = items.drop ((number - 1) * size) := by
  obtain ⟨before, rfl⟩ := Nat.exists_eq_add_of_le' hnumber
  rw [page, Nat.add_sub_cancel, Nat.add_mul, Nat.one_mul, ← List.drop_drop, List.take_append_drop]

/-- Following the pages from a number on gives what is left there. -/
theorem follow_eq_drop {read : Nat → Option (List α × Bool)} {size : Nat} {items : List α} {last : Nat}
    (hread : ∀ number, 1 ≤ number → number ≤ last →
      read number = some (page size number items, hasMore size number items)) :
    ∀ (pages number : Nat), 1 ≤ number → number + pages = last + 1 → items.length ≤ last * size → 0 < pages →
      follow read pages number = some (items.drop ((number - 1) * size)) := by
  intro pages
  induction pages with
  | zero => exact fun _ _ _ _ hpages => absurd hpages (Nat.lt_irrefl 0)
  | succ pages ih =>
    intro number hnumber hlast hlength _
    have hsplit := page_append_drop size hnumber items
    rw [follow, hread number hnumber (by omega), Option.bind_some]
    cases hmore : hasMore size number items with
    | false =>
      rw [← Bool.not_eq_true, hasMore_iff hnumber, Nat.not_lt] at hmore
      rw [List.drop_eq_nil_of_le hmore, List.append_nil] at hsplit
      exact congrArg some hsplit
    | true =>
      have hlt := (hasMore_iff hnumber items).mp hmore
      have hmorePages : 0 < pages := by
        rcases Nat.eq_zero_or_pos pages with rfl | hpos
        · have heq : number = last := by omega
          rw [heq] at hlt
          omega
        · exact hpos
      show (follow read pages (number + 1)).map (page size number items ++ ·) = _
      rw [ih (number + 1) (by omega) (by omega) hlength hmorePages, Nat.add_sub_cancel, Option.map_some, hsplit]

/-- **Following the pages from the first one gives the list**, where the reader has enough of them. -/
theorem follow_eq {read : Nat → Option (List α × Bool)} {size : Nat} {items : List α} {last : Nat}
    (hlast : 0 < last) (hlength : items.length ≤ last * size)
    (hread : ∀ number, 1 ≤ number → number ≤ last →
      read number = some (page size number items, hasMore size number items)) :
    follow read last 1 = some items := by
  rw [follow_eq_drop hread last 1 (Nat.le_refl 1) (Nat.add_comm 1 last) hlength hlast]
  simp

/-! ## Cursors -/

/-- **Following the cursors** of a reader from an offset on: each page names the offset of the next one, and the last
one does not. `none` is a page that the reader refuses, or more pages than the given number. -/
def followCursors (read : Nat → Option (List α × Option Nat)) : Nat → Nat → Option (List α)
  | 0, _ => none
  | pages + 1, offset =>
    (read offset).bind fun found =>
      match found.2 with
      | none => some found.1
      | some cursor => (followCursors read pages cursor).map (found.1 ++ ·)

/-- **Following the cursors from an offset on gives what is left there.** -/
theorem followCursors_eq_drop {read : Nat → Option (List α × Option Nat)} {size : Nat} {items : List α}
    (hsize : 0 < size) (hread : ∀ offset, offset ≤ items.length → read offset = some ((items.drop offset).take size,
      if offset + ((items.drop offset).take size).length < items.length
        then some (offset + ((items.drop offset).take size).length) else none)) :
    ∀ pages offset : Nat, offset ≤ items.length → items.length < offset + pages →
      followCursors read pages offset = some (items.drop offset) := by
  intro pages
  induction pages with
  | zero => exact fun offset hoffset hpages => absurd hpages (by omega)
  | succ pages ih =>
    intro offset hoffset hpages
    have hlength : ((items.drop offset).take size).length = min size (items.length - offset) := by
      rw [List.length_take, List.length_drop]
    rw [followCursors, hread offset hoffset, Option.bind_some, hlength]
    by_cases hmore : offset + min size (items.length - offset) < items.length
    · rw [if_pos hmore]
      show (followCursors read pages _).map _ = _
      rw [ih _ hmore.le (by omega), Option.map_some, Nat.min_eq_left (by omega), ← List.drop_drop,
        List.take_append_drop]
    · rw [if_neg hmore]
      show some ((items.drop offset).take size) = _
      rw [List.take_of_length_le (by rw [List.length_drop]; omega)]

/-- **Following the cursors from the first offset gives the list.** -/
theorem followCursors_eq {read : Nat → Option (List α × Option Nat)} {size : Nat} {items : List α}
    (hsize : 0 < size) (hread : ∀ offset, offset ≤ items.length → read offset = some ((items.drop offset).take size,
      if offset + ((items.drop offset).take size).length < items.length
        then some (offset + ((items.drop offset).take size).length) else none)) :
    followCursors read (items.length + 1) 0 = some items :=
  followCursors_eq_drop hsize hread (items.length + 1) 0 (Nat.zero_le _) (by omega)

/-- What the cursors lead to does not depend on how many pages there may be. -/
theorem followCursors_unique {read : Nat → Option (List α × Option Nat)} :
    ∀ {pages pages' offset : Nat} {items items' : List α}, followCursors read pages offset = some items →
      followCursors read pages' offset = some items' → items = items' := by
  intro pages
  induction pages with
  | zero => exact fun h _ => absurd h (by rw [followCursors]; exact fun heq => by cases heq)
  | succ pages ih =>
    intro pages' offset items items' h h'
    cases pages' with
    | zero => cases h'
    | succ pages' =>
      rw [followCursors, Option.bind_eq_some_iff] at h h'
      obtain ⟨found, hread, h⟩ := h
      obtain ⟨found', hread', h'⟩ := h'
      rw [hread, Option.some.injEq] at hread'
      subst hread'
      split at h
      · next hlast =>
        rw [hlast] at h'
        exact (Option.some.inj h).symm.trans (Option.some.inj h')
      · next cursor hnext =>
        rw [hnext] at h'
        obtain ⟨rest, hrest, rfl⟩ := Option.map_eq_some_iff.mp h
        obtain ⟨rest', hrest', rfl⟩ := Option.map_eq_some_iff.mp h'
        rw [ih hrest hrest']

end OffsetPages
