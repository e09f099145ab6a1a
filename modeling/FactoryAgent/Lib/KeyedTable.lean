import Mathlib.Data.List.Nodup

/-!
# Tables with a primary key

A table of a database with a primary key, and `INSERT ... ON CONFLICT DO NOTHING`: a row whose key is taken is
not inserted. Where the key of a row determines the row, what a list of such inserts leaves depends only on
which rows are in the list, neither on their order nor on how often they are inserted
(`KeyedTable.insertAll_same`). A table is a set of rows: the order of the list that holds them plays no role
(`KeyedTable.Same`).
-/

/-- **A table**: rows with distinct keys. -/
structure KeyedTable {κ ρ : Type} (key : ρ → κ) where
  rows : List ρ
  distinct : (rows.map key).Nodup

namespace KeyedTable

variable {κ ρ : Type} [DecidableEq κ] {key : ρ → κ}

/-- The table without rows. -/
def empty : KeyedTable key := ⟨[], List.nodup_nil⟩

/-- **`INSERT ... ON CONFLICT DO NOTHING`** -/
def insertIgnore (table : KeyedTable key) (row : ρ) : KeyedTable key :=
  if h : key row ∈ table.rows.map key then table
  else
    { rows := table.rows ++ [row]
      distinct := by
        rw [List.map_append, List.nodup_append']
        refine ⟨table.distinct, List.nodup_singleton _, fun k hk hrow => h ?_⟩
        rwa [List.mem_singleton.mp hrow] at hk }

/-- Insert rows one after the other. -/
def insertAll (table : KeyedTable key) (rows : List ρ) : KeyedTable key :=
  rows.foldl insertIgnore table

/-- **Two tables hold the same rows.** -/
def Same (table table' : KeyedTable key) : Prop :=
  table.rows.Perm table'.rows

/-- The rows of a key determine one another. -/
def Consistent (key : ρ → κ) (rows : List ρ) : Prop :=
  ∀ row ∈ rows, ∀ other ∈ rows, key row = key other → row = other

/-- Inserting two lists is inserting one after the other. -/
theorem insertAll_append (table : KeyedTable key) (rows rows' : List ρ) :
    table.insertAll (rows ++ rows') = (table.insertAll rows).insertAll rows' :=
  List.foldl_append

/-- What an insert leaves. -/
theorem mem_insertIgnore {table : KeyedTable key} {row r : ρ} :
    r ∈ (table.insertIgnore row).rows
      ↔ r ∈ table.rows ∨ r = row ∧ key row ∉ table.rows.map key := by
  unfold insertIgnore
  by_cases h : key row ∈ table.rows.map key
  · rw [dif_pos h]
    exact ⟨.inl, fun hr => hr.elim id fun hnew => absurd h hnew.2⟩
  · rw [dif_neg h, List.mem_append, List.mem_singleton]
    exact or_congr_right ⟨fun hr => ⟨hr, h⟩, And.left⟩

/-- **What inserts leave**: the rows that were there, and those whose key was not. -/
theorem mem_insertAll {table : KeyedTable key} {rows : List ρ} (h : Consistent key rows) {r : ρ} :
    r ∈ (table.insertAll rows).rows
      ↔ r ∈ table.rows ∨ r ∈ rows ∧ key r ∉ table.rows.map key := by
  induction rows generalizing table with
  | nil => exact ⟨.inl, fun hr => hr.elim id fun hnil => absurd hnil.1 List.not_mem_nil⟩
  | cons row rows ih =>
    have hrest : Consistent key rows := fun a ha b hb =>
      h a (List.mem_cons_of_mem row ha) b (List.mem_cons_of_mem row hb)
    rw [insertAll, List.foldl_cons, ← insertAll, ih hrest, mem_insertIgnore]
    constructor
    · rintro ((hr | ⟨rfl, hnew⟩) | ⟨hr, hnew⟩)
      · exact .inl hr
      · exact .inr ⟨List.mem_cons_self, hnew⟩
      · refine .inr ⟨List.mem_cons_of_mem row hr, fun htaken => hnew ?_⟩
        obtain ⟨other, hother, hkey⟩ := List.mem_map.mp htaken
        exact List.mem_map.mpr ⟨other, mem_insertIgnore.mpr (.inl hother), hkey⟩
    · rintro (hr | ⟨hr, hnew⟩)
      · exact .inl (.inl hr)
      · rcases List.mem_cons.mp hr with rfl | htail
        · exact .inl (.inr ⟨rfl, hnew⟩)
        · by_cases hkey : key r = key row
          · -- the row is the one that was inserted first
            have heq : r = row := h r hr row List.mem_cons_self hkey
            exact .inl (.inr ⟨heq, heq ▸ hnew⟩)
          · refine .inr ⟨htail, fun htaken => ?_⟩
            obtain ⟨other, hother, hsame⟩ := List.mem_map.mp htaken
            rcases mem_insertIgnore.mp hother with hold | ⟨rfl, -⟩
            · exact hnew (List.mem_map.mpr ⟨other, hold, hsame⟩)
            · exact hkey hsame.symm

/-- **Neither order nor repetition counts**: inserts of the same rows leave the same table. -/
theorem insertAll_same {rows rows' : List ρ} (h : Consistent key rows) (hmem : ∀ r, r ∈ rows ↔ r ∈ rows')
    (table : KeyedTable key) : Same (table.insertAll rows) (table.insertAll rows') := by
  have h' : Consistent key rows' := fun a ha b hb => h a ((hmem a).mpr ha) b ((hmem b).mpr hb)
  refine (List.perm_ext_iff_of_nodup (List.Nodup.of_map key (insertAll table rows).distinct)
    (List.Nodup.of_map key (insertAll table rows').distinct)).mpr fun r => ?_
  rw [mem_insertAll h, mem_insertAll h', hmem r]

omit [DecidableEq κ] in
/-- **Rows that are drawn from sources** are consistent where the key of a row tells its source. -/
theorem consistent_flatMap {σ ι : Type} {sources : List σ} {rowOf : σ → Option ρ} {source : σ → ι}
    (origin : κ → ι) (hkey : ∀ s row, rowOf s = some row → origin (key row) = source s)
    (hsource : ∀ s ∈ sources, ∀ s' ∈ sources, source s = source s' → s = s') :
    Consistent key (sources.flatMap fun s => (rowOf s).toList) := by
  intro row hrow other hother hsame
  obtain ⟨s, hs, hrow⟩ := List.mem_flatMap.mp hrow
  obtain ⟨s', hs', hother⟩ := List.mem_flatMap.mp hother
  have hrow : rowOf s = some row := Option.mem_toList.mp hrow
  have hother : rowOf s' = some other := Option.mem_toList.mp hother
  have heq : s = s' := hsource s hs s' hs' (by rw [← hkey s row hrow, ← hkey s' other hother, hsame])
  rw [heq, hother] at hrow
  exact (Option.some.inj hrow).symm

end KeyedTable
