import Mathlib.Data.List.Dedup
import Mathlib.Data.List.SplitBy
import Mathlib.Data.List.TakeWhile
import Mathlib.Data.List.Perm.Subperm

/-!
# Runs

A list cut into its runs, the longest stretches of elements with one key (`List.splitBy`). Where elements with one
key are apart, a key has more than one run, so there are at least as many runs as keys (`length_dedup_le`). A
preview keeps some of the runs, and some elements of each of them (`cut`).
-/

namespace Runs

variable {α κ : Type} [DecidableEq κ]

/-- **The runs of a list**, by the keys of its elements. -/
def runs (key : α → κ) (l : List α) : List (List α) :=
  l.splitBy fun a b => key a = key b

/-- The runs of a list are the list. -/
theorem flatten_runs (key : α → κ) (l : List α) : (runs key l).flatten = l :=
  List.flatten_splitBy _ l

/-- **The first run goes as far as the key does.** -/
theorem runs_cons (key : α → κ) (a : α) (l : List α) :
    runs key (a :: l)
      = (a :: l.takeWhile fun b => key b = key a) :: runs key (l.dropWhile fun b => key b = key a) := by
  have hkey : ∀ b ∈ a :: l.takeWhile (fun b => key b = key a), key b = key a := by
    intro b hb
    rcases List.mem_cons.mp hb with rfl | hb
    · rfl
    · have hhead := List.mem_takeWhile_imp hb
      exact of_decide_eq_true hhead
  have hchain : (a :: l.takeWhile fun b => key b = key a).IsChain fun x y => decide (key x = key y) = true :=
    List.Pairwise.isChain (List.pairwise_of_forall_mem_list fun x hx y hy =>
      decide_eq_true ((hkey x hx).trans (hkey y hy).symm))
  have hsplit : a :: l = (a :: l.takeWhile fun b => key b = key a) ++ l.dropWhile fun b => key b = key a := by
    rw [List.cons_append, List.takeWhile_append_dropWhile]
  have hapart : ∀ x ∈ (a :: l.takeWhile fun b => key b = key a).getLast?,
      ∀ y ∈ (l.dropWhile fun b => key b = key a).head?, decide (key x = key y) = false := by
    intro x hx y hy
    have hxkey := hkey x (List.mem_of_getLast? hx)
    have hykey := List.head?_dropWhile_not (fun b => decide (key b = key a)) l
    rw [hy] at hykey
    rw [decide_eq_false_iff_not, hxkey]
    exact fun heq => of_decide_eq_false hykey heq.symm
  rw [runs, hsplit, List.splitBy_append hapart, List.splitBy_of_isChain (List.cons_ne_nil _ _) hchain]
  rfl

/-- The elements of a run have one key. -/
theorem key_eq_of_mem (key : α → κ) {l : List α} {run : List α} (h : run ∈ runs key l) {a b : α} (ha : a ∈ run)
    (hb : b ∈ run) : key a = key b := by
  have hchain : run.IsChain fun x y => key x = key y :=
    (List.isChain_of_mem_splitBy h).imp fun _ _ hkey => of_decide_eq_true hkey
  have hkeys : (run.map key).Pairwise Eq := List.isChain_iff_pairwise.mp ((List.isChain_map key).mpr hchain)
  exact hkeys.forall_of_forall (fun _ _ => rfl) (List.mem_map_of_mem ha) (List.mem_map_of_mem hb)

/-- **There are as many runs as keys, or more.** -/
theorem length_dedup_le (key : α → κ) (l : List α) : (l.map key).dedup.length ≤ (runs key l).length := by
  have hheads : (l.map key).dedup ⊆ (runs key l).filterMap fun run => run.head?.map key := by
    intro k hk
    obtain ⟨a, ha, rfl⟩ := List.mem_map.mp (List.mem_dedup.mp hk)
    rw [← flatten_runs key l] at ha
    obtain ⟨run, hrun, harun⟩ := List.mem_flatten.mp ha
    rw [List.mem_filterMap]
    cases run with
    | nil => exact absurd harun List.not_mem_nil
    | cons b run => exact ⟨_, hrun, congrArg some (key_eq_of_mem key hrun List.mem_cons_self harun)⟩
  calc (l.map key).dedup.length
      ≤ ((runs key l).filterMap fun run => run.head?.map key).length :=
        (List.subperm_of_subset (List.nodup_dedup _) hheads).length_le
    _ ≤ (runs key l).length := List.length_filterMap_le _ _

/-! ## Previews -/

/-- **The first pieces, and the first elements of each.** -/
def cut (pieces limit : Nat) (all : List (List α)) : List (List α) :=
  (all.take pieces).map (·.take limit)

/-- What is kept is some of the elements, in order. -/
theorem flatten_cut_sublist (pieces limit : Nat) (all : List (List α)) :
    (cut pieces limit all).flatten.Sublist all.flatten := by
  have hcut : ∀ kept : List (List α), (kept.map (·.take limit)).flatten.Sublist kept.flatten := by
    intro kept
    induction kept with
    | nil => exact List.Sublist.refl _
    | cons piece kept ih => exact (List.take_sublist _ piece).append ih
  exact (hcut _).trans (List.take_sublist _ _).flatten

/-- **Nothing is left out exactly where there are few enough pieces, and none is too long.** -/
theorem length_flatten_cut_eq_iff (limit : Nat) {all : List (List α)} (hnil : [] ∉ all) (pieces : Nat) :
    (cut pieces limit all).flatten.length = all.flatten.length
      ↔ all.length ≤ pieces ∧ ∀ piece ∈ all, piece.length ≤ limit := by
  induction all generalizing pieces with
  | nil => simp [cut]
  | cons piece all ih =>
    rw [List.mem_cons, not_or] at hnil
    have hpos : 0 < piece.length := List.length_pos_iff.mpr (Ne.symm hnil.1)
    cases pieces with
    | zero =>
      show (0 = (piece ++ all.flatten).length) ↔ _
      rw [List.length_append, List.length_cons]
      omega
    | succ pieces =>
      have hle := (flatten_cut_sublist pieces limit all).length_le
      have htake : (cut (pieces + 1) limit (piece :: all)).flatten = piece.take limit ++ (cut pieces limit all).flatten :=
        rfl
      rw [htake, List.length_append, List.length_take, List.flatten_cons, List.length_append, List.forall_mem_cons,
        List.length_cons, Nat.add_le_add_iff_right, and_left_comm, ← ih hnil.2 pieces]
      omega

end Runs
