import Mathlib.Data.List.Sort

/-!
# Sorting by a key

Sorting by a key is stable: elements with one key keep their order (`filter_sorted_key`). So of the elements that
something holds of, the first one with the least key comes first (`head?_filter_sorted`).
-/

namespace StableSort

variable {α κ : Type} [LinearOrder κ] (key : α → κ)

/-- **The elements by their keys**, those with one key in their order. -/
def sorted (l : List α) : List α :=
  l.insertionSort fun a b => key a ≤ key b

/-- Sorting neither adds nor drops an element. -/
theorem sorted_perm (l : List α) : (sorted key l).Perm l :=
  List.perm_insertionSort _ l

/-- The keys are in order. -/
theorem pairwise_sorted (l : List α) : (sorted key l).Pairwise fun a b => key a ≤ key b := by
  have : Std.Total fun a b => key a ≤ key b := ⟨fun a b => le_total (key a) (key b)⟩
  have : IsTrans α fun a b => key a ≤ key b := ⟨fun _ _ _ => le_trans⟩
  exact List.pairwise_insertionSort _ l

/-- **Where no two elements have one key, the order before does not matter.** -/
theorem sorted_eq_of_perm (hkey : Function.Injective key) {l l' : List α} (h : l.Perm l') :
    sorted key l = sorted key l' :=
  (((sorted_perm key l).trans h).trans (sorted_perm key l').symm).eq_of_pairwise
    (fun _ _ _ _ hle hge => hkey (le_antisymm hle hge)) (pairwise_sorted key l) (pairwise_sorted key l')

/-- Sorting the images is sorting the elements. -/
theorem sorted_map {β : Type} (f : β → α) (l : List β) : sorted key (l.map f) = (sorted (fun b => key (f b)) l).map f :=
  (List.map_insertionSort (fun a b => key (f a) ≤ key (f b)) (fun a b => key a ≤ key b) f l
    fun _ _ _ _ => Iff.rfl).symm

/-- **Elements with one key keep their order.** -/
theorem filter_sorted_key (k : κ) (l : List α) :
    (sorted key l).filter (fun a => key a = k) = l.filter fun a => key a = k := by
  have : Std.Total fun a b => key a ≤ key b := ⟨fun a b => le_total (key a) (key b)⟩
  have : IsTrans α fun a b => key a ≤ key b := ⟨fun _ _ _ => le_trans⟩
  have hkey : ∀ a ∈ l.filter fun a => key a = k, key a = k := fun a ha => of_decide_eq_true (List.mem_filter.mp ha).2
  have hsame : (l.filter fun a => key a = k).Pairwise fun a b => key a ≤ key b :=
    List.pairwise_of_forall_mem_list fun a ha b hb => ((hkey a ha).trans (hkey b hb).symm).le
  have hsublist : (l.filter fun a => key a = k).Sublist (sorted key l) :=
    List.sublist_insertionSort hsame List.filter_sublist
  have hfiltered := hsublist.filter fun a => decide (key a = k)
  rw [List.filter_filter] at hfiltered
  simp only [Bool.and_self] at hfiltered
  exact (hfiltered.eq_of_length (((sorted_perm key l).filter _).length_eq.symm)).symm

/-- **The first element with the least key comes first**, of those that something holds of. -/
theorem head?_filter_sorted {p : α → Bool} {a : α} {l : List α} (ha : p a = true)
    (h : ∀ b ∈ l, p b = true → key a ≤ key b) : ((sorted key (a :: l)).filter p).head? = some a := by
  have hmem : a ∈ (sorted key (a :: l)).filter p :=
    List.mem_filter.mpr ⟨(sorted_perm key _).mem_iff.mpr List.mem_cons_self, ha⟩
  have hpairwise := (pairwise_sorted key (a :: l)).filter p
  have hstable := congrArg (List.filter p) (filter_sorted_key key (key a) (a :: l))
  rw [List.filter_cons_of_pos (by simp), List.filter_cons_of_pos ha, List.filter_filter] at hstable
  cases hfirst : (sorted key (a :: l)).filter p with
  | nil => exact absurd (hfirst ▸ hmem) List.not_mem_nil
  | cons b rest =>
    have hb : b ∈ (sorted key (a :: l)).filter p := hfirst ▸ List.mem_cons_self
    rw [List.mem_filter, (sorted_perm key _).mem_iff] at hb
    -- The first one has the least key, so it is the first of those with that key.
    have hle : key b ≤ key a := by
      rw [hfirst] at hmem hpairwise
      rcases List.mem_cons.mp hmem with rfl | hrest
      · exact le_refl _
      · exact (List.pairwise_cons.mp hpairwise).1 a hrest
    have hge : key a ≤ key b := by
      rcases List.mem_cons.mp hb.1 with rfl | hin
      · exact le_refl _
      · exact h b hin hb.2
    have hkey : key b = key a := le_antisymm hle hge
    have hfilter : ((sorted key (a :: l)).filter p).filter (fun c => key c = key a)
        = b :: rest.filter fun c => key c = key a := by
      rw [hfirst, List.filter_cons_of_pos (by simpa using hkey)]
    rw [List.filter_filter] at hfilter
    have hcomm : (sorted key (a :: l)).filter (fun c => p c && decide (key c = key a))
        = (sorted key (a :: l)).filter fun c => decide (key c = key a) && p c :=
      List.filter_congr fun c _ => Bool.and_comm _ _
    rw [← hcomm, hstable] at hfilter
    exact congrArg some (List.cons.inj hfilter).1.symm

end StableSort
