import Mathlib.Data.List.Sort

/-!
# Keyset pagination

Rows read page by page in the order of a key. A page is the first rows after the key of a cursor; one row
more than the page holds is selected, and its presence is what tells that there is a next page. The cursor of
that page is the text of the key of the last row shown.

Where the keys of the rows are distinct and a cursor is read back as the key it was written for, following the
cursors from the first page ends and the pages together are the rows in the order of their keys, each once
(`Keyset.follow_list`). Neither a tie in a part of the key nor a selection of the rows before the page is cut
plays a role: the key as a whole decides, before and after the cut.
-/

namespace Keyset

/-- **One page of rows**, and the cursor of the next one. -/
structure Page (α : Type) where
  items : List α
  nextCursor : Option String
  deriving Repr, DecidableEq

/-- **Following the cursors** from one page on until there is none, in so many steps; `none` where these do
not suffice. -/
def follow {α ε : Type} (page : Option String → Except ε (Page α)) :
    ℕ → Option String → Option (Except ε (List (Page α)))
  | 0, _ => none
  | steps + 1, cursor =>
    match page cursor with
    | .error e => some (.error e)
    | .ok first =>
      match first.nextCursor with
      | none => some (.ok [first])
      | some next => (follow page steps (some next)).map fun rest => rest.map fun pages => first :: pages

variable {α κ δ ε : Type} [LinearOrder κ] (key : α → κ)

/-- The rows in the order of their keys. -/
def ordered (rows : List α) : List α :=
  rows.insertionSort fun a b => key a ≤ key b

/-- **The selected rows**: those after a key, in the order of their keys, one more than a page holds. -/
def select (limit : ℕ) (after : Option κ) (rows : List α) : List α :=
  (ordered key (rows.filter fun row => after.all fun k => decide (k < key row))).take (limit + 1)

/-- **The page of the selected rows.** -/
def page (limit : ℕ) (encode : α → String) (selected : List α) : Page α :=
  let items := selected.take limit
  ⟨items, if limit < selected.length then items.getLast?.map encode else none⟩

/-- The decoded cursor, where there is one. An empty text is none. -/
def decoded (decode : String → Except ε δ) : Option String → Except ε (Option δ)
  | none => .ok none
  | some text => if text = "" then .ok none else (decode text).map some

/-- **Reading a page**: the cursor is decoded and the rows after its key are cut. -/
def list (decode : String → Except ε δ) (keyOf : δ → κ) (encode : α → String) (limit : ℕ)
    (cursor : Option String) (rows : List α) : Except ε (Page α) :=
  (decoded decode cursor).map fun after => page limit encode (select key limit (after.map keyOf) rows)

/-! ## The order of the rows -/

/-- Ordering neither adds nor drops a row. -/
theorem ordered_perm (rows : List α) : (ordered key rows).Perm rows :=
  List.perm_insertionSort _ rows

variable {key}

/-- **Rows with distinct keys are ordered strictly.** -/
theorem pairwise_ordered {rows : List α} (h : (rows.map key).Nodup) :
    (ordered key rows).Pairwise fun a b => key a < key b := by
  have : Std.Total fun a b => key a ≤ key b := ⟨fun a b => le_total (key a) (key b)⟩
  have : IsTrans α fun a b => key a ≤ key b := ⟨fun _ _ _ => le_trans⟩
  have hle : (ordered key rows).Pairwise fun a b => key a ≤ key b := List.pairwise_insertionSort _ rows
  have hne : (ordered key rows).Pairwise fun a b => key a ≠ key b :=
    List.pairwise_map.mp (((ordered_perm key rows).map key).nodup_iff.mpr h)
  exact (hle.and hne).imp fun h => lt_of_le_of_ne h.1 h.2

/-- There is one strict order. -/
theorem eq_of_perm {rows rows' : List α} (h : rows.Pairwise fun a b => key a < key b)
    (h' : rows'.Pairwise fun a b => key a < key b) (hperm : rows.Perm rows') : rows = rows' :=
  hperm.eq_of_pairwise (fun _ _ _ _ hab hba => absurd hab (lt_asymm hba)) h h'

/-- **Selecting rows and ordering them commute.** -/
theorem ordered_filter {rows : List α} (h : (rows.map key).Nodup) (p : α → Bool) :
    ordered key (rows.filter p) = (ordered key rows).filter p := by
  have hsub : ((rows.filter p).map key).Nodup := h.sublist (List.filter_sublist.map key)
  exact eq_of_perm (pairwise_ordered hsub) ((pairwise_ordered h).filter p)
    ((ordered_perm key _).trans ((ordered_perm key rows).filter p).symm)

/-- **The rows after the key of a row** are those that follow it. -/
theorem filter_after {front back : List α} {row : α}
    (h : (front ++ row :: back).Pairwise fun a b => key a < key b) :
    (front ++ row :: back).filter (fun r => decide (key row < key r)) = back := by
  obtain ⟨-, hback, hfront⟩ := List.pairwise_append.mp h
  obtain ⟨hrow, -⟩ := List.pairwise_cons.mp hback
  have hnone : front.filter (fun r => decide (key row < key r)) = [] :=
    List.filter_eq_nil_iff.mpr fun r hr => by
      rw [decide_eq_true_iff]
      exact lt_asymm (hfront r hr row List.mem_cons_self)
  have hself : decide (key row < key row) = false := decide_eq_false (lt_irrefl _)
  rw [List.filter_append, hnone, List.nil_append, List.filter_cons, hself, if_neg Bool.false_ne_true,
    List.filter_eq_self]
  exact fun r hr => decide_eq_true (hrow r hr)

/-! ## The cursors -/

/-- **Where a cursor stands**: what it leaves of the rows in their order. No cursor leaves all of them, and
the cursor of a row leaves what follows the row. -/
inductive Stands (encode : α → String) (rows : List α) : Option String → List α → Prop
  | start : Stands encode rows none rows
  | after (front : List α) (row : α) (back : List α) (h : rows = front ++ row :: back) :
      Stands encode rows (some (encode row)) back

/-- **A page is cut from what its cursor leaves.** -/
theorem list_of_stands {decode : String → Except ε δ} {keyOf : δ → κ} {encode : α → String} {limit : ℕ}
    {rows rest : List α} {cursor : Option String} (hkeys : (rows.map key).Nodup)
    (hdecode : ∀ row ∈ rows, encode row ≠ "" ∧ (decode (encode row)).map keyOf = .ok (key row))
    (hstands : Stands encode (ordered key rows) cursor rest) :
    list key decode keyOf encode limit cursor rows
      = .ok (page limit encode (rest.take (limit + 1))) := by
  cases hstands with
  | start =>
    have hall : rows.filter (fun _ => true) = rows := List.filter_eq_self.mpr fun _ _ => rfl
    show Except.ok (page limit encode ((ordered key (rows.filter fun _ => true)).take _)) = _
    rw [hall]
  | after front row _ hrows =>
    have hmem : row ∈ rows := (ordered_perm key rows).mem_iff.mp (hrows ▸ by simp)
    obtain ⟨hne, hread⟩ := hdecode row hmem
    obtain ⟨last, hok, hkey⟩ : ∃ last, decode (encode row) = .ok last ∧ keyOf last = key row := by
      cases hcase : decode (encode row) with
      | error e =>
        rw [hcase] at hread
        cases hread
      | ok last =>
        rw [hcase] at hread
        exact ⟨last, rfl, Except.ok.inj hread⟩
    have hselect : select key limit (some (key row)) rows = rest.take (limit + 1) := by
      show ((ordered key (rows.filter fun r => decide (key row < key r))).take _) = _
      rw [ordered_filter hkeys, hrows, filter_after (hrows ▸ pairwise_ordered hkeys)]
    rw [list, decoded, if_neg hne, hok]
    show Except.ok (page limit encode (select key limit (some (keyOf last)) rows)) = _
    rw [hkey, hselect]

/-- The cursor of a full page stands after the page. -/
theorem Stands.next {encode : α → String} {rows rest : List α} {cursor : Option String} {limit : ℕ}
    (hstands : Stands encode rows cursor rest) {row : α} (hlast : (rest.take limit).getLast? = some row) :
    Stands encode rows (some (encode row)) (rest.drop limit) := by
  obtain ⟨front, hfront⟩ := List.getLast?_eq_some_iff.mp hlast
  have hrest : rest = front ++ row :: rest.drop limit := by
    have hsplit := List.take_append_drop limit rest
    rw [hfront] at hsplit
    rw [List.append_cons]
    exact hsplit.symm
  cases hstands with
  | start => exact .after front row _ hrest
  | after before first back hrows =>
    refine .after (before ++ first :: front) row _ ?_
    rw [hrows, List.append_assoc, List.cons_append, ← hrest]

/-- **Following the cursors ends and shows every row once**, in order. The induction is on the rows that the
cursor leaves: a page takes one of them at least. -/
theorem follow_of_stands {read : Option String → Except ε (Page α)} {encode : α → String} {rows : List α}
    {limit : ℕ} (hlimit : 1 ≤ limit)
    (hread : ∀ cursor rest, Stands encode rows cursor rest →
      read cursor = .ok (page limit encode (rest.take (limit + 1))))
    {cursor : Option String} {rest : List α} (hstands : Stands encode rows cursor rest) :
    ∃ pages, (∀ steps, rest.length < steps → follow read steps cursor = some (.ok pages))
      ∧ pages.flatMap Page.items = rest := by
  induction hlength : rest.length using Nat.strongRecOn generalizing cursor rest with
  | ind length ih =>
    have hitems : (rest.take (limit + 1)).take limit = rest.take limit := by
      rw [List.take_take, Nat.min_eq_left (Nat.le_succ limit)]
    by_cases hmore : limit < rest.length
    · -- the page is full, and the row beyond it is there
      have hlooked : limit < (rest.take (limit + 1)).length := by
        rw [List.length_take]
        omega
      have hne : rest.take limit ≠ [] := by
        intro hnil
        have hzero := congrArg List.length hnil
        rw [List.length_take, List.length_nil] at hzero
        omega
      obtain ⟨row, hrow⟩ : ∃ row, (rest.take limit).getLast? = some row :=
        ⟨_, List.getLast?_eq_some_getLast hne⟩
      have hpage : read cursor = .ok ⟨rest.take limit, some (encode row)⟩ := by
        rw [hread cursor rest hstands, page, hitems, if_pos hlooked, hrow]
        rfl
      obtain ⟨pages, hfollow, hflat⟩ := ih (rest.drop limit).length
        (by rw [List.length_drop]; omega) (hstands.next hrow) rfl
      refine ⟨⟨rest.take limit, some (encode row)⟩ :: pages, fun steps hsteps => ?_, ?_⟩
      · cases steps with
        | zero => exact absurd hsteps (Nat.not_lt_zero _)
        | succ steps =>
          rw [follow, hpage]
          dsimp only
          rw [hfollow steps (by rw [List.length_drop]; omega)]
          rfl
      · rw [List.flatMap_cons, hflat]
        exact List.take_append_drop limit rest
    · have hlooked : ¬limit < (rest.take (limit + 1)).length := by
        rw [List.length_take]
        omega
      have hpage : read cursor = .ok ⟨rest, none⟩ := by
        rw [hread cursor rest hstands, page, hitems, if_neg hlooked,
          List.take_of_length_le (Nat.le_of_not_lt hmore)]
      refine ⟨[⟨rest, none⟩], fun steps hsteps => ?_, by rw [List.flatMap_cons]; exact List.append_nil rest⟩
      cases steps with
      | zero => exact absurd hsteps (Nat.not_lt_zero _)
      | succ steps => rw [follow, hpage]

/-- **Pages cover everything once**: following the cursors from the first page ends, and the pages together
are the rows in the order of their keys. -/
theorem follow_list {decode : String → Except ε δ} {keyOf : δ → κ} {encode : α → String} {limit : ℕ}
    {rows : List α} (hlimit : 1 ≤ limit) (hkeys : (rows.map key).Nodup)
    (hdecode : ∀ row ∈ rows, encode row ≠ "" ∧ (decode (encode row)).map keyOf = .ok (key row)) :
    ∃ pages, (∀ steps, rows.length < steps →
        follow (list key decode keyOf encode limit · rows) steps none = some (.ok pages))
      ∧ (pages.flatMap Page.items).Perm rows
      ∧ (pages.flatMap Page.items).Pairwise fun a b => key a < key b := by
  obtain ⟨pages, hfollow, hflat⟩ := follow_of_stands hlimit
    (fun cursor rest hstands => list_of_stands hkeys hdecode hstands) Stands.start
  rw [(ordered_perm key rows).length_eq] at hfollow
  exact ⟨pages, hfollow, hflat ▸ ordered_perm key rows, hflat ▸ pairwise_ordered hkeys⟩

end Keyset
