import FactoryAgent.Lib.StableSort

/-!
# Paging through ties

Paging by offset through rows that are ordered by a key. Rows with one key are tied, and each page may be cut from
another order of them. A row takes one of the places of its tie (`getElem?_bounds`), and any of them in some order
(`exists_first`, `exists_last`). So a row is on one page, whatever the orders are, exactly where its tie does not reach
over the end of a page (`pages_perm_iff`).
-/

namespace TiedPages

variable {α κ : Type} [LinearOrder κ] (key : α → κ)

/-- **An order that rows may be returned in.** -/
def Ordering (rows order : List α) : Prop :=
  order.Perm rows ∧ order.Pairwise fun a b => key a ≤ key b

/-- The page at an offset. -/
def page (limit offset : Nat) (order : List α) : List α :=
  (order.drop offset).take limit

/-- How many rows are before all rows with a key. -/
def before (rows : List α) (k : κ) : Nat :=
  (rows.filter fun row => key row < k).length

/-- How many rows are not behind all rows with a key. -/
def upto (rows : List α) (k : κ) : Nat :=
  (rows.filter fun row => key row ≤ k).length

variable {key} {rows order : List α} {limit : Nat}

/-! ## The places of a tie -/

/-- **The rows before a key come first.** -/
theorem split_at_key {l : List α} (h : l.Pairwise fun a b => key a ≤ key b) (k : κ) :
    l = l.filter (fun row => key row < k) ++ l.filter fun row => k ≤ key row := by
  induction l with
  | nil => rfl
  | cons a l ih =>
    rw [List.pairwise_cons] at h
    by_cases hlt : key a < k
    · rw [List.filter_cons_of_pos (by simpa using hlt), List.filter_cons_of_neg (by simpa using hlt), List.cons_append,
        ← ih h.2]
    · have hle : ∀ b ∈ a :: l, k ≤ key b := fun b hb => (not_lt.mp hlt).trans <| by
        rcases List.mem_cons.mp hb with rfl | hb
        · exact le_refl _
        · exact h.1 b hb
      have hnone : (a :: l).filter (fun row => key row < k) = [] := List.filter_eq_nil_iff.mpr fun b hb => by
        simpa using hle b hb
      rw [hnone, List.nil_append, List.filter_eq_self.mpr fun b hb => decide_eq_true (hle b hb)]

/-- The rows before, at and behind a key. -/
theorem split_tie (h : Ordering key rows order) (k : κ) :
    ∃ front tie back, order = front ++ tie ++ back ∧ front.length = before key rows k
      ∧ front.length + tie.length = upto key rows k ∧ tie = order.filter (fun row => key row = k)
      ∧ (∀ row ∈ front, key row ≠ k) ∧ ∀ row ∈ back, key row ≠ k := by
  refine ⟨order.filter (fun row => key row < k), order.filter (fun row => key row = k),
    order.filter (fun row => k < key row), ?_, (h.1.filter _).length_eq, ?_, rfl, ?_, ?_⟩
  · conv_lhs => rw [split_at_key h.2 k]
    rw [List.append_assoc]
    congr 1
    -- Among the rows that are not before the key, those behind it come last.
    have hall : ∀ l : List α, (l.Pairwise fun a b => key a ≤ key b) → (l.filter fun row => k ≤ key row)
        = (l.filter fun row => key row = k) ++ l.filter fun row => k < key row := by
      intro l hl
      induction l with
      | nil => rfl
      | cons a l ih =>
        rw [List.pairwise_cons] at hl
        rcases lt_trichotomy (key a) k with hlt | heq | hgt
        · rw [List.filter_cons_of_neg (by simpa using hlt), List.filter_cons_of_neg (by simpa using hlt.ne),
            List.filter_cons_of_neg (by simpa using hlt.le), ih hl.2]
        · rw [List.filter_cons_of_pos (by simp [heq]), List.filter_cons_of_pos (by simp [heq]),
            List.filter_cons_of_neg (by simp [heq]), ih hl.2, List.cons_append]
        · have hnone : (a :: l).filter (fun row => key row = k) = [] := List.filter_eq_nil_iff.mpr fun b hb => by
            rcases List.mem_cons.mp hb with rfl | hb
            · simpa using hgt.ne'
            · simpa using (hgt.trans_le (hl.1 b hb)).ne'
          have hbehind : ∀ b ∈ a :: l, k < key b := fun b hb => by
            rcases List.mem_cons.mp hb with rfl | hb
            · exact hgt
            · exact hgt.trans_le (hl.1 b hb)
          rw [hnone, List.nil_append, List.filter_eq_self.mpr fun b hb => decide_eq_true (hbehind b hb).le,
            List.filter_eq_self.mpr fun b hb => decide_eq_true (hbehind b hb)]
    exact hall order h.2
  · rw [upto, ← (h.1.filter _).length_eq, ← List.length_append]
    refine (List.Perm.length_eq ?_)
    have hparts := List.filter_append_perm (fun row => decide (key row < k)) (order.filter fun row => key row ≤ k)
    rw [List.filter_filter, List.filter_filter] at hparts
    refine (List.Perm.append ?_ ?_).trans hparts
    · refine List.Perm.of_eq (List.filter_congr fun row _ => ?_)
      by_cases hlt : key row < k
      · simp [hlt, hlt.le]
      · simp [hlt]
    · refine List.Perm.of_eq (List.filter_congr fun row _ => ?_)
      rcases lt_trichotomy (key row) k with hlt | heq | hgt
      · simp [hlt, hlt.ne]
      · simp [heq]
      · simp [hgt.ne', hgt.not_ge]
  · intro row hrow
    exact (of_decide_eq_true (List.mem_filter.mp hrow).2).ne
  · intro row hrow
    exact (of_decide_eq_true (List.mem_filter.mp hrow).2).ne'

/-- **A row takes one of the places of its tie.** -/
theorem getElem?_bounds (h : Ordering key rows order) {i : Nat} {x : α} (hx : order[i]? = some x) :
    before key rows (key x) ≤ i ∧ i < upto key rows (key x) := by
  obtain ⟨front, tie, back, hsplit, hfront, htie, -, hnot, hback⟩ := split_tie h (key x)
  rw [hsplit] at hx
  constructor
  · by_contra hlt
    rw [List.append_assoc, List.getElem?_append_left (by omega)] at hx
    exact hnot x (List.mem_of_getElem? hx) rfl
  · by_contra hge
    rw [List.getElem?_append_right (by rw [List.length_append]; omega)] at hx
    exact hback x (List.mem_of_getElem? hx) rfl

/-- **Some order has a row first in its tie.** -/
theorem exists_first {x : α} (hx : x ∈ rows) :
    ∃ order, Ordering key rows order ∧ order[before key rows (key x)]? = some x := by
  obtain ⟨l, r, rfl⟩ := List.append_of_mem hx
  have horder : Ordering key (l ++ x :: r) (StableSort.sorted key (x :: (l ++ r))) :=
    ⟨(StableSort.sorted_perm key _).trans List.perm_middle.symm, StableSort.pairwise_sorted key _⟩
  refine ⟨_, horder, ?_⟩
  obtain ⟨front, tie, back, hsplit, hfront, -, htie, -⟩ := split_tie horder (key x)
  rw [StableSort.filter_sorted_key, List.filter_cons_of_pos (by simp)] at htie
  rw [hsplit, htie, ← hfront, List.append_assoc, List.getElem?_append_right (Nat.le_refl _), Nat.sub_self]
  rfl

/-- **Some order has a row last in its tie.** -/
theorem exists_last {x : α} (hx : x ∈ rows) :
    ∃ order, Ordering key rows order ∧ order[upto key rows (key x) - 1]? = some x := by
  obtain ⟨l, r, rfl⟩ := List.append_of_mem hx
  have hperm : (l ++ r ++ [x]).Perm (l ++ x :: r) := by
    rw [List.append_assoc]
    exact (List.Perm.refl l).append (List.perm_append_singleton x r)
  have horder : Ordering key (l ++ x :: r) (StableSort.sorted key (l ++ r ++ [x])) :=
    ⟨(StableSort.sorted_perm key _).trans hperm, StableSort.pairwise_sorted key _⟩
  refine ⟨_, horder, ?_⟩
  obtain ⟨front, tie, back, hsplit, -, hlast, htie, -⟩ := split_tie horder (key x)
  rw [StableSort.filter_sorted_key, List.filter_append, List.filter_cons_of_pos (by simp), List.filter_nil] at htie
  generalize (l ++ r).filter (fun row => decide (key row = key x)) = others at htie
  subst htie
  rw [← hlast, hsplit, List.length_append, List.length_singleton, List.append_assoc,
    List.getElem?_append_right (by omega), List.append_assoc, List.getElem?_append_right (by omega),
    show front.length + (others.length + 1) - 1 - front.length - others.length = 0 by omega]
  rfl

/-! ## Pages -/

/-- **A row is on the page that its place is on.** -/
theorem mem_page_iff (hlimit : 1 ≤ limit) {n : Nat} {x : α} :
    x ∈ page limit (n * limit) order ↔ ∃ i, order[i]? = some x ∧ i / limit = n := by
  rw [page, List.mem_iff_getElem?]
  constructor
  · rintro ⟨i, hi⟩
    rw [List.getElem?_take, List.getElem?_drop] at hi
    split at hi
    · next hlt => exact ⟨n * limit + i, hi, by
        rw [Nat.mul_comm, Nat.mul_add_div hlimit, Nat.div_eq_of_lt hlt, Nat.add_zero]⟩
    · cases hi
  · rintro ⟨i, hi, rfl⟩
    refine ⟨i % limit, ?_⟩
    rw [List.getElem?_take, if_pos (Nat.mod_lt i hlimit), List.getElem?_drop, Nat.mul_comm, Nat.div_add_mod]
    exact hi

/-- **The pages show each of some rows once, whatever the orders are, exactly where no tie of such a row reaches over
the end of a page.** -/
theorem pages_perm_iff (hrows : rows.Nodup) (hlimit : 1 ≤ limit) (shown : α → Bool) :
    (∀ orders : Nat → List α, (∀ offset, Ordering key rows (orders offset)) →
      (((List.range (rows.length + 1)).flatMap fun n => page limit (n * limit) (orders (n * limit))).filter shown).Perm
        (rows.filter shown))
      ↔ ∀ x ∈ rows, shown x = true → before key rows (key x) / limit = (upto key rows (key x) - 1) / limit := by
  constructor
  · intro h x hx hshown
    obtain ⟨first, hfirst, hfirstAt⟩ : ∃ order, Ordering key rows order ∧ order[before key rows (key x)]? = some x :=
      exists_first hx
    obtain ⟨last, hlast, hlastAt⟩ : ∃ order, Ordering key rows order ∧ order[upto key rows (key x) - 1]? = some x :=
      exists_last hx
    have hbounds := getElem?_bounds hfirst hfirstAt
    have hlength : upto key rows (key x) ≤ rows.length := List.length_filter_le _ _
    by_contra hne
    -- The page of the first place is cut from one order, all others from the other one.
    have hperm := h (fun offset => if offset = before key rows (key x) / limit * limit then first else last)
      fun offset => by
        show Ordering key rows (if _ then _ else _)
        split
        · exact hfirst
        · exact hlast
    have hnodup := hperm.nodup_iff.mpr (hrows.filter _)
    rw [List.filter_flatMap, List.nodup_flatMap, List.pairwise_iff_getElem] at hnodup
    have hfirstPage : before key rows (key x) / limit < rows.length + 1 :=
      Nat.lt_of_le_of_lt (Nat.div_le_self _ _) (by omega)
    have hlastPage : (upto key rows (key x) - 1) / limit < rows.length + 1 :=
      Nat.lt_of_le_of_lt (Nat.div_le_self _ _) (by omega)
    have hlt : before key rows (key x) / limit < (upto key rows (key x) - 1) / limit :=
      lt_of_le_of_ne (Nat.div_le_div_right (by omega)) hne
    have hdisjoint := hnodup.2 _ _ (by simpa using hfirstPage) (by simpa using hlastPage) hlt
    rw [List.getElem_range, List.getElem_range] at hdisjoint
    refine hdisjoint (a := x) ?_ ?_
    · rw [List.mem_filter, if_pos rfl, mem_page_iff hlimit]
      exact ⟨⟨_, hfirstAt, rfl⟩, hshown⟩
    · rw [List.mem_filter, if_neg (fun heq => hne (Nat.eq_of_mul_eq_mul_right hlimit heq).symm), mem_page_iff hlimit]
      exact ⟨⟨_, hlastAt, rfl⟩, hshown⟩
  · intro h orders horders
    have hplace : ∀ n x, x ∈ (page limit (n * limit) (orders (n * limit))).filter shown →
        x ∈ rows ∧ shown x = true ∧ n = before key rows (key x) / limit := by
      intro n x hx
      rw [List.mem_filter, mem_page_iff hlimit] at hx
      obtain ⟨⟨i, hi, rfl⟩, hshown⟩ := hx
      have hbounds := getElem?_bounds (horders _) hi
      have hmem : x ∈ rows := (horders _).1.mem_iff.mp (List.mem_of_getElem? hi)
      have hle := Nat.div_le_div_right (c := limit) hbounds.1
      have hge : i / limit ≤ (upto key rows (key x) - 1) / limit := Nat.div_le_div_right (by omega)
      exact ⟨hmem, hshown, by have := h x hmem hshown; omega⟩
    rw [List.filter_flatMap]
    refine (List.perm_ext_iff_of_nodup (List.nodup_flatMap.mpr ⟨fun n _ => ?_, ?_⟩) (hrows.filter _)).mpr fun x => ?_
    · exact (((horders _).1.nodup_iff.mpr hrows).sublist ((List.take_sublist _ _).trans (List.drop_sublist _ _))).filter _
    · refine List.nodup_range.imp fun {m n} hne x hm hn => hne ?_
      rw [(hplace m x hm).2.2, (hplace n x hn).2.2]
    · rw [List.mem_flatMap, List.mem_filter]
      constructor
      · rintro ⟨n, -, hx⟩
        exact ⟨(hplace n x hx).1, (hplace n x hx).2.1⟩
      · rintro ⟨hx, hshown⟩
        obtain ⟨i, hi⟩ := List.mem_iff_getElem?.mp
          ((horders (before key rows (key x) / limit * limit)).1.mem_iff.mpr hx)
        have hbounds := getElem?_bounds (horders _) hi
        have hlength : upto key rows (key x) ≤ rows.length := List.length_filter_le _ _
        have hle := Nat.div_le_div_right (c := limit) hbounds.1
        have hge : i / limit ≤ (upto key rows (key x) - 1) / limit := Nat.div_le_div_right (by omega)
        refine ⟨before key rows (key x) / limit, List.mem_range.mpr ?_, ?_⟩
        · exact Nat.lt_of_le_of_lt (Nat.div_le_self _ _) (by omega)
        · rw [List.mem_filter, mem_page_iff hlimit]
          exact ⟨⟨i, hi, by have := h x hx hshown; omega⟩, hshown⟩

end TiedPages
