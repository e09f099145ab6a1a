import Mathlib.Data.List.Basic
import Mathlib.Data.List.Induction
import Mathlib.Data.List.Nodup

/-!
# Inner joins

The relation that a chain of SQL inner joins builds, over rows of any type. A joined row has one row of each table
joined so far, under the alias of the table. A join is **functional** where its condition picks at most one row
of its table for each row so far; then the joined relation has at most one row per row of the first table
(`joined_eq_filterMap`), and what is computed over it from the first table alone is computed over the rows of
that table that are matched (`map_row_filter`).
-/

namespace InnerJoin

variable {κ ρ : Type}

/-- **One more table**, under its alias, and the condition that a row of it is joined on. -/
structure Joining (κ ρ : Type) where
  /-- The alias of the table. -/
  tableAlias : κ
  /-- The rows of the table. -/
  table : List ρ
  /-- Whether a row of the table belongs to a joined row. -/
  on : List (κ × ρ) → ρ → Bool

/-- The relation with one more table joined to it. -/
def join (relation : List (List (κ × ρ))) (joining : Joining κ ρ) : List (List (κ × ρ)) :=
  relation.flatMap fun row =>
    (joining.table.filter (joining.on row)).map fun right => row ++ [(joining.tableAlias, right)]

/-- **The relation of a chain of joins**, from the first table under its alias. -/
def joined (first : κ) (table : List ρ) (joinings : List (Joining κ ρ)) : List (List (κ × ρ)) :=
  joinings.foldl join (table.map fun row => [(first, row)])

/-- **A functional join**: at most one row of its table for each row so far. -/
def Joining.Functional (joining : Joining κ ρ) : Prop :=
  ∀ row, (joining.table.filter (joining.on row)).length ≤ 1

/-- A list of at most one element is that of an option. -/
theorem eq_toList_head? {α : Type} {l : List α} (h : l.length ≤ 1) : l = l.head?.toList := by
  match l, h with
  | [], _ => rfl
  | [a], _ => rfl

/-- A functional join of a relation that comes row by row from a table comes row by row from it, too. -/
theorem join_filterMap {joining : Joining κ ρ} (hfunctional : joining.Functional) (table : List ρ)
    (f : ρ → Option (List (κ × ρ))) :
    join (table.filterMap f) joining = table.filterMap (fun first => (f first).bind fun row =>
      (joining.table.filter (joining.on row)).head?.map fun right => row ++ [(joining.tableAlias, right)]) := by
  induction table with
  | nil => rfl
  | cons first table ih =>
    cases hf : f first with
    | none =>
      rw [List.filterMap_cons_none hf, ih, List.filterMap_cons_none (by rw [hf]; rfl)]
    | some row =>
      rw [List.filterMap_cons_some hf, join, List.flatMap_cons]
      change _ ++ join _ joining = _
      rw [ih, eq_toList_head? (hfunctional row)]
      cases hhead : (joining.table.filter (joining.on row)).head? with
      | none =>
        rw [List.filterMap_cons_none (by rw [hf, Option.bind_some, hhead]; rfl)]
        rfl
      | some right =>
        rw [List.filterMap_cons_some (by rw [hf, Option.bind_some, hhead]; rfl)]
        rfl

/-- **A chain of functional joins has at most one row per row of the first table**, which begins with it. -/
theorem joined_eq_filterMap (first : κ) (table : List ρ) {joinings : List (Joining κ ρ)}
    (h : ∀ joining ∈ joinings, joining.Functional) :
    ∃ f : ρ → Option (List (κ × ρ)), joined first table joinings = table.filterMap f
      ∧ ∀ left row, f left = some row → row.head? = some (first, left) := by
  have haux : ∀ (relation : List (List (κ × ρ))) (f : ρ → Option (List (κ × ρ))), relation = table.filterMap f →
      (∀ left row, f left = some row → row.head? = some (first, left)) →
      ∃ g : ρ → Option (List (κ × ρ)), joinings.foldl join relation = table.filterMap g
        ∧ ∀ left row, g left = some row → row.head? = some (first, left) := by
    induction joinings with
    | nil => exact fun relation f hrelation hf => ⟨f, hrelation, hf⟩
    | cons joining joinings ih =>
      rw [List.forall_mem_cons] at h
      rintro relation f rfl hf
      refine ih h.2 _ _ (join_filterMap h.1 table f) fun left row hrow => ?_
      obtain ⟨before, hbefore, hafter⟩ := Option.bind_eq_some_iff.mp hrow
      obtain ⟨right, -, rfl⟩ := Option.map_eq_some_iff.mp hafter
      rw [List.head?_append, hf left before hbefore]
      rfl
  exact haux _ (fun row => some [(first, row)]) (List.filterMap_eq_map' ▸ rfl) (fun left row hrow => by
    cases hrow
    rfl)

/-- The rows of a joined relation are those of the relation, each with a row of the table that was joined. -/
theorem mem_join {relation : List (List (κ × ρ))} {joining : Joining κ ρ} {row : List (κ × ρ)}
    (h : row ∈ join relation joining) :
    ∃ before ∈ relation, ∃ right ∈ joining.table, row = before ++ [(joining.tableAlias, right)] := by
  obtain ⟨before, hbefore, hrow⟩ := List.mem_flatMap.mp h
  obtain ⟨right, hright, rfl⟩ := List.mem_map.mp hrow
  exact ⟨before, hbefore, right, List.mem_of_mem_filter hright, rfl⟩

/-- **A joined row has a row of every table**, and nothing else. -/
theorem mem_joined {first : κ} {table : List ρ} {joinings : List (Joining κ ρ)} {row : List (κ × ρ)}
    (h : row ∈ joined first table joinings) :
    (∀ entry ∈ row, entry.1 = first ∧ entry.2 ∈ table
        ∨ ∃ joining ∈ joinings, entry.1 = joining.tableAlias ∧ entry.2 ∈ joining.table)
      ∧ first ∈ row.map Prod.fst ∧ ∀ joining ∈ joinings, joining.tableAlias ∈ row.map Prod.fst := by
  induction joinings using List.reverseRecOn generalizing row with
  | nil =>
    obtain ⟨left, hleft, rfl⟩ := List.mem_map.mp h
    refine ⟨fun entry hentry => .inl ?_, List.mem_singleton_self _, fun _ hmem => absurd hmem List.not_mem_nil⟩
    rw [List.mem_singleton.mp hentry]
    exact ⟨rfl, hleft⟩
  | append_singleton joinings joining ih =>
    rw [joined, List.foldl_append] at h
    obtain ⟨before, hbefore, right, hright, rfl⟩ := mem_join h
    obtain ⟨hentries, hfirst, haliases⟩ := ih hbefore
    simp only [List.mem_append, List.mem_singleton, List.map_append, List.map_cons, List.map_nil]
    refine ⟨?_, .inl hfirst, ?_⟩
    · rintro entry (hentry | rfl)
      · rcases hentries entry hentry with hentry | ⟨other, hother, hentry⟩
        · exact .inl hentry
        · exact .inr ⟨other, .inl hother, hentry⟩
      · exact .inr ⟨joining, .inr rfl, rfl, hright⟩
    · rintro other (hother | rfl)
      · exact .inl (haliases other hother)
      · exact .inr rfl

variable [DecidableEq κ] [DecidableEq ρ]

/-- **The rows of a table that are matched** by some of the joined rows. -/
def matched (tableAlias : κ) (table : List ρ) (relation : List (List (κ × ρ))) : List ρ :=
  table.filter fun row => relation.any fun joinedRow => joinedRow.lookup tableAlias == some row

/-- A matched row is one of the table that some joined row has under the alias. -/
theorem mem_matched {tableAlias : κ} {table : List ρ} {relation : List (List (κ × ρ))} {row : ρ} :
    row ∈ matched tableAlias table relation
      ↔ row ∈ table ∧ ∃ joinedRow ∈ relation, joinedRow.lookup tableAlias = some row := by
  rw [matched, List.mem_filter, List.any_eq_true]
  simp only [beq_iff_eq]

omit [DecidableEq ρ] in
/-- What a joined row begins with is found under its alias. -/
theorem lookup_of_head? {first : κ} {left : ρ} {row : List (κ × ρ)} (h : row.head? = some (first, left)) :
    row.lookup first = some left := by
  obtain ⟨rest, rfl⟩ := List.head?_eq_some_iff.mp h
  exact List.lookup_cons_self

/-- **The first rows of the joined rows are the rows of the first table that are matched**, whatever joined rows
are kept, where the joins are functional. -/
theorem filterMap_lookup_filter (first : κ) (table : List ρ) {joinings : List (Joining κ ρ)}
    (h : ∀ joining ∈ joinings, joining.Functional) (keep : List (κ × ρ) → Bool) :
    ((joined first table joinings).filter keep).filterMap (fun row => row.lookup first)
      = matched first table ((joined first table joinings).filter keep) := by
  obtain ⟨f, hjoined, hhead⟩ := joined_eq_filterMap first table h
  have hlookup : ∀ left row, (f left).filter keep = some row → row.lookup first = some left :=
    fun left row hrow => lookup_of_head? (hhead left row (Option.filter_eq_some_iff.mp hrow).1)
  rw [hjoined, List.filter_filterMap, matched, List.filterMap_filterMap, ← List.filterMap_eq_filter]
  refine List.filterMap_congr fun left hmem => ?_
  rw [Option.guard]
  cases hrow : (f left).filter keep with
  | none =>
    rw [if_neg]
    · rfl
    · rw [List.any_eq_true]
      rintro ⟨row, hrowmem, hfound⟩
      obtain ⟨left', -, hleft'⟩ := List.mem_filterMap.mp hrowmem
      rw [hlookup left' row hleft', beq_iff_eq, Option.some.injEq] at hfound
      rw [← hfound, hleft'] at hrow
      cases hrow
  | some row =>
    rw [if_pos]
    · exact hlookup left row hrow
    · rw [List.any_eq_true]
      exact ⟨row, List.mem_filterMap.mpr ⟨left, hmem, hrow⟩, beq_iff_eq.mpr (hlookup left row hrow)⟩

omit [DecidableEq ρ] in
/-- **At most one joined row for each row of the first table**, where the joins are functional. -/
theorem filterMap_lookup_sublist (first : κ) (table : List ρ) {joinings : List (Joining κ ρ)}
    (h : ∀ joining ∈ joinings, joining.Functional) :
    ((joined first table joinings).filterMap fun row => row.lookup first).Sublist table
      ∧ ((joined first table joinings).filterMap fun row => row.lookup first).length
        = (joined first table joinings).length := by
  obtain ⟨f, hjoined, hhead⟩ := joined_eq_filterMap first table h
  have hlookup : ∀ left row, f left = some row → row.lookup first = some left :=
    fun left row hrow => lookup_of_head? (hhead left row hrow)
  constructor
  · rw [hjoined, List.filterMap_filterMap]
    have hsome : (fun left => (f left).bind fun row => row.lookup first)
        = Option.guard fun left => (f left).isSome := by
      funext left
      cases hf : f left with
      | none => simp [Option.guard, hf]
      | some row => simp [Option.guard, hf, hlookup left row hf]
    rw [hsome, List.filterMap_eq_filter]
    exact List.filter_sublist
  · refine List.filterMap_length_eq_length.mpr fun row hmem => ?_
    obtain ⟨left, -, hrow⟩ := List.mem_filterMap.mp (hjoined ▸ hmem)
    rw [hlookup left row hrow]
    rfl

end InnerJoin
