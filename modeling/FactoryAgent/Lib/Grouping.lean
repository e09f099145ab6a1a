import Mathlib.Algebra.BigOperators.Group.List.Basic
import Mathlib.Data.List.Nodup
import Std.Data.DTreeMap.Internal.Lemmas
import Std.Data.ExtTreeMap.Lemmas

/-!
# Grouping by a key

Elements are collected into groups by their key, each group being the fold of its elements. The group
of a key depends on the elements with that key only, and on their order among themselves. What is summed
up by groups is summed up as a whole.
-/

namespace Grouping

variable {α β κ : Type} [Ord κ] [Std.TransOrd κ] [Std.LawfulEqOrd κ] [DecidableEq κ]

/-- **Collect elements into groups**: each is added to the group of its key, which is empty where it is
new. -/
def collect (key : α → κ) (add : β → α → β) (empty : β) (groups : Std.ExtTreeMap κ β)
    (elements : List α) : Std.ExtTreeMap κ β :=
  elements.foldl (fun groups element =>
    groups.alter (key element) (fun group => some (add (group.getD empty) element))) groups

/-- **The group of a key** is the fold of the elements with that key. -/
theorem getD_getElem?_collect (key : α → κ) (add : β → α → β) (empty : β)
    (groups : Std.ExtTreeMap κ β) (elements : List α) (k : κ) :
    ((collect key add empty groups elements)[k]?).getD empty
      = (elements.filter (fun element => key element = k)).foldl add (groups[k]?.getD empty) := by
  induction elements generalizing groups with
  | nil => rfl
  | cons element elements ih =>
    rw [collect, List.foldl_cons, ← collect, ih, Std.ExtTreeMap.getElem?_alter]
    simp only [Std.LawfulEqCmp.compare_eq_iff_eq]
    by_cases hkey : key element = k
    · rw [if_pos hkey, List.filter_cons_of_pos (by simpa using hkey), List.foldl_cons, hkey]
      rfl
    · rw [if_neg hkey, List.filter_cons_of_neg (by simpa using hkey)]

omit [Std.LawfulEqOrd κ] [DecidableEq κ] in
/-- The values of a map, in the order of their keys. -/
theorem values_eq_map_snd_toList (groups : Std.ExtTreeMap κ β) :
    groups.values = groups.toList.map Prod.snd := by
  rcases groups with ⟨⟨inner⟩⟩
  induction inner using Quotient.ind with
  | _ inner =>
    show inner.inner.values = (Std.DTreeMap.Internal.Impl.Const.toList inner.inner).map Prod.snd
    rw [Std.DTreeMap.Internal.Impl.values_eq_map_snd,
      Std.DTreeMap.Internal.Impl.Const.toList_eq_toListModel_map, List.map_map]
    rfl

/-- **A key has one entry in a map**, with its value. -/
theorem filter_toList_of_getElem? {groups : Std.ExtTreeMap κ β} {k : κ} {value : β} (h : groups[k]? = some value) :
    groups.toList.filter (fun entry => entry.1 = k) = [(k, value)] := by
  have hmem : (k, value) ∈ groups.toList := Std.ExtTreeMap.mem_toList_iff_getElem?_eq_some.mpr h
  have hnodup : groups.toList.Pairwise fun a b => a.1 ≠ b.1 :=
    Std.ExtTreeMap.distinct_keys_toList.imp fun hne heq => hne (Std.LawfulEqCmp.compare_eq_iff_eq.mpr heq)
  obtain ⟨before, behind, hsplit⟩ := List.append_of_mem hmem
  rw [hsplit, List.pairwise_append, List.pairwise_cons] at hnodup
  obtain ⟨-, ⟨hbehind, -⟩, hbefore⟩ := hnodup
  rw [hsplit, List.filter_append, List.filter_cons_of_pos (by simp),
    List.filter_eq_nil_iff.mpr fun a ha => by simpa using hbefore a ha _ List.mem_cons_self,
    List.filter_eq_nil_iff.mpr fun b hb => by simpa using fun heq => hbehind b hb heq.symm]
  rfl

omit [Ord κ] [Std.TransOrd κ] [Std.LawfulEqOrd κ] in
/-- **The sums of the groups add up to the sum**, where every element has one of the keys. -/
theorem sum_map_groups {M : Type} [AddCommMonoid M] (key : α → κ) (value : α → M) {keys : List κ}
    (hnodup : keys.Nodup) {elements : List α} (h : ∀ element ∈ elements, key element ∈ keys) :
    (keys.map (fun k => ((elements.filter (fun element => key element = k)).map value).sum)).sum
      = (elements.map value).sum := by
  induction elements with
  | nil => simp
  | cons element elements ih =>
    obtain ⟨hmem, h⟩ := List.forall_mem_cons.mp h
    have hsplit : ∀ k, (((element :: elements).filter (fun element => key element = k)).map value).sum
        = (if k = key element then value element else 0)
          + ((elements.filter (fun element => key element = k)).map value).sum := by
      intro k
      by_cases hkey : key element = k
      · rw [List.filter_cons_of_pos (by simpa using hkey), if_pos hkey.symm, List.map_cons, List.sum_cons]
      · rw [List.filter_cons_of_neg (by simpa using hkey), if_neg (fun h => hkey h.symm), zero_add]
    simp only [hsplit]
    rw [List.sum_map_add, ih h, List.map_cons, List.sum_cons]
    congr 1
    rw [List.sum_map_eq_nsmul_single (key element) _ (fun k hne _ => if_neg hne),
      List.count_eq_one_of_mem hnodup hmem, one_nsmul, if_pos rfl]

/-- Sums over two lists may be taken in either order. -/
theorem sum_map_comm {α β M : Type} [AddCommMonoid M] (rows : List α) (columns : List β) (value : α → β → M) :
    (rows.map fun row => (columns.map fun column => value row column).sum).sum
      = (columns.map fun column => (rows.map fun row => value row column).sum).sum := by
  induction rows with
  | nil => simp
  | cons row rows ih => simp only [List.map_cons, List.sum_cons, ih, List.sum_map_add]

/-! ## Elements that may be refused -/

/-- **Collect elements into groups**, where the key of an element may be missing, and its addition may fail. -/
def collect? (key : α → Option κ) (add : β → α → Option β) (empty : β) (groups : Std.ExtTreeMap κ β)
    (elements : List α) : Option (Std.ExtTreeMap κ β) :=
  elements.foldlM (fun groups element => do
    let k ← key element
    let group ← add (groups[k]?.getD empty) element
    pure (groups.insert k group)) groups

omit [DecidableEq κ] in
/-- Adding an element to its group is inserting the group with it. -/
theorem alter_eq_insert (groups : Std.ExtTreeMap κ β) (k : κ) (value : Option β → β) :
    groups.alter k (fun group => some (value group)) = groups.insert k (value groups[k]?) := by
  refine Std.ExtTreeMap.ext_getElem? fun other => ?_
  rw [Std.ExtTreeMap.getElem?_alter, Std.ExtTreeMap.getElem?_insert]

omit [DecidableEq κ] in
/-- **Groups of elements that may be refused** are those of a collection that refuses none, where each element is
accepted; `Inv` is what the groups keep on the way. -/
theorem collect?_eq {key : α → Option κ} {key' : α → κ} {add : β → α → Option β} {add' : β → α → β}
    {good : α → Bool} {Inv : β → Prop} {empty : β}
    (hstep : ∀ group element, Inv group →
      ((key element).bind fun k => (add group element).map fun group => (k, group))
        = if good element then some (key' element, add' group element) else none)
    (hkeeps : ∀ group element, Inv group → Inv (add' group element)) (hempty : Inv empty)
    {groups : Std.ExtTreeMap κ β} (hgroups : ∀ k : κ, Inv (groups[k]?.getD empty)) (elements : List α) :
    collect? key add empty groups elements
        = (if elements.all good then some (collect key' add' empty groups elements) else none)
      ∧ ∀ k : κ, Inv ((collect key' add' empty groups elements)[k]?.getD empty) := by
  induction elements generalizing groups with
  | nil => exact ⟨rfl, hgroups⟩
  | cons element elements ih =>
    have hnext : ∀ k : κ, Inv ((groups.alter (key' element)
        fun group => some (add' (group.getD empty) element))[k]?.getD empty) := by
      intro k
      rw [Std.ExtTreeMap.getElem?_alter]
      split
      · exact hkeeps _ element (hgroups _)
      · exact hgroups k
    obtain ⟨hrest, hkept⟩ := ih hnext
    refine ⟨?_, hkept⟩
    rw [collect?, List.foldlM_cons, List.all_cons]
    cases hkey : key element with
    | none =>
      have hbad := hstep empty element hempty
      rw [hkey] at hbad
      cases hgood : good element with
      | true => rw [hgood] at hbad; cases hbad
      | false => rfl
    | some k =>
      have hadd := hstep (groups[k]?.getD empty) element (hgroups k)
      rw [hkey, Option.bind_some] at hadd
      cases hgood : good element with
      | false =>
        rw [hgood, if_neg Bool.false_ne_true, Option.map_eq_none_iff] at hadd
        simp [hadd]
      | true =>
        rw [hgood, if_pos rfl, Option.map_eq_some_iff] at hadd
        obtain ⟨group, hgroup, hpair⟩ := hadd
        obtain ⟨rfl, rfl⟩ := Prod.mk.inj hpair
        rw [Bool.true_and, collect, List.foldl_cons, ← collect, ← hrest, alter_eq_insert, collect?]
        simp [hgroup]

/-! ## Keys in order -/

section Ordered

omit [DecidableEq κ]

omit [Std.TransOrd κ] in
/-- Keys in strict order are distinct. -/
theorem nodup_of_ordered {keys : List κ} (h : keys.Pairwise fun k other => compare k other = .lt) : keys.Nodup := by
  refine h.imp fun {k other} hlt heq => ?_
  have hself : compare other other = .eq := Std.LawfulEqCmp.compare_eq_iff_eq.mpr rfl
  rw [heq, hself] at hlt
  cases hlt

/-- **Keys in strict order are decided by which they are.** -/
theorem eq_of_ordered {keys keys' : List κ} (h : keys.Pairwise fun k other => compare k other = .lt)
    (h' : keys'.Pairwise fun k other => compare k other = .lt) (hsame : ∀ k, k ∈ keys ↔ k ∈ keys') : keys = keys' := by
  refine ((List.perm_ext_iff_of_nodup (nodup_of_ordered h) (nodup_of_ordered h')).mpr hsame).eq_of_pairwise ?_ h h'
  intro k other _ _ hlt hgt
  rw [Std.OrientedOrd.eq_swap, hlt] at hgt
  cases hgt

end Ordered

end Grouping
