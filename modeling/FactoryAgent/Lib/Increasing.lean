/-!
# Lists in the order of a key

A log read by key: the entries of a list carry a strictly increasing number, a reader keeps the number
of the last entry it read, and it reads on *past* that number. What it has read is the list *up to*
its number. The two parts make up the list, and the first one does not change when entries with
greater numbers are added at the end.
-/

namespace Increasing

variable {α : Type} {key : α → Nat} {l more seen rest : List α} {n m : Nat} {a : α}

/-- The numbers increase along the list. -/
def Sorted (key : α → Nat) (l : List α) : Prop := l.Pairwise (fun a b => key a < key b)

/-- The entries up to a number. -/
def upTo (key : α → Nat) (n : Nat) (l : List α) : List α := l.filter (fun a => decide (key a ≤ n))

/-- The entries past a number. -/
def past (key : α → Nat) (n : Nat) (l : List α) : List α := l.filter (fun a => decide (n < key a))

theorem upTo_eq_self (h : ∀ a ∈ l, key a ≤ n) : upTo key n l = l :=
  List.filter_eq_self.mpr (fun a ha => by simpa using h a ha)

theorem upTo_eq_nil (h : ∀ a ∈ l, n < key a) : upTo key n l = [] :=
  List.filter_eq_nil_iff.mpr (fun a ha => by simpa using h a ha)

theorem past_eq_self (h : ∀ a ∈ l, n < key a) : past key n l = l :=
  List.filter_eq_self.mpr (fun a ha => by simpa using h a ha)

/-- **Up to a number and past it is all.** -/
theorem upTo_append_past (h : Sorted key l) (n : Nat) : upTo key n l ++ past key n l = l := by
  induction l with
  | nil => rfl
  | cons a l ih =>
    obtain ⟨ha, hl⟩ := List.pairwise_cons.mp h
    unfold upTo past
    by_cases hle : key a ≤ n
    · rw [List.filter_cons_of_pos (by simpa using hle), List.filter_cons_of_neg (by simp; omega)]
      exact congrArg (a :: ·) (ih hl)
    · -- past the first entry that is past the number, all are
      have hpast : ∀ b ∈ a :: l, n < key b := by
        intro b hb
        rcases List.mem_cons.mp hb with rfl | hb
        · omega
        · have := ha b hb
          omega
      show Increasing.upTo key n (a :: l) ++ past key n (a :: l) = a :: l
      rw [upTo_eq_nil hpast, past_eq_self hpast, List.nil_append]

/-- What was read is a beginning of the list. -/
theorem upTo_prefix (h : Sorted key l) (n : Nat) : upTo key n l <+: l :=
  ⟨past key n l, upTo_append_past h n⟩

/-- Nothing is past a number that is up to all. -/
theorem past_eq_nil (h : Sorted key l) (hall : upTo key n l = l) : past key n l = [] := by
  have happend := upTo_append_past h n
  rw [hall] at happend
  exact List.append_right_eq_self.mp happend

/-- Entries past the number, added at the end, do not count. -/
theorem upTo_append (h : ∀ a ∈ more, n < key a) : upTo key n (l ++ more) = upTo key n l := by
  unfold upTo
  rw [List.filter_append]
  exact (congrArg _ (upTo_eq_nil h)).trans (List.append_nil _)

/-- Reading up to a smaller number. -/
theorem upTo_upTo (h : m ≤ n) : upTo key m (upTo key n l) = upTo key m l := by
  unfold upTo
  rw [List.filter_filter]
  refine List.filter_congr (fun a _ => ?_)
  by_cases ha : key a ≤ m
  · simp [ha, Nat.le_trans ha h]
  · simp [ha]

theorem Sorted.upTo (h : Sorted key l) (n : Nat) : Sorted key (upTo key n l) := List.Pairwise.filter _ h

/-- **Reading one entry**: where the entries up to a number are read in order, what is read with each
entry are the entries up to that entry's number. -/
theorem upTo_key_of_split (h : Sorted key l) (hsplit : seen ++ a :: rest = upTo key n l) :
    seen ++ [a] = upTo key (key a) l := by
  have hsorted : Sorted key (seen ++ a :: rest) := hsplit ▸ h.upTo n
  obtain ⟨-, hright, hcross⟩ := List.pairwise_append.mp hsorted
  have hle : key a ≤ n := by
    have hmem : a ∈ upTo key n l := hsplit ▸ List.mem_append_right _ List.mem_cons_self
    simpa using (List.mem_filter.mp hmem).2
  have hrest : ∀ b ∈ rest, key a < key b := (List.pairwise_cons.mp hright).1
  calc seen ++ [a] = upTo key (key a) (seen ++ [a]) := by
        refine (upTo_eq_self (fun b hb => ?_)).symm
        rcases List.mem_append.mp hb with hb | hb
        · exact Nat.le_of_lt (hcross b hb a List.mem_cons_self)
        · exact Nat.le_of_eq (congrArg key (List.mem_singleton.mp hb))
    _ = upTo key (key a) (seen ++ [a] ++ rest) := (upTo_append hrest).symm
    _ = upTo key (key a) (upTo key n l) := by rw [← hsplit, List.append_assoc]; rfl
    _ = upTo key (key a) l := upTo_upTo hle

/-- An entry that is read next is not past the number. -/
theorem key_le_of_split (hsplit : seen ++ a :: rest = upTo key n l) : key a ≤ n := by
  have hmem : a ∈ upTo key n l := hsplit ▸ List.mem_append_right _ List.mem_cons_self
  simpa using (List.mem_filter.mp hmem).2

/-- No entry is past the last one. -/
theorem le_getLast (h : Sorted key l) (ha : a ∈ l) (d : Nat) :
    key a ≤ (l.getLast?.map key).getD d := by
  induction l generalizing a with
  | nil => cases ha
  | cons b l ih =>
    obtain ⟨hb, hl⟩ := List.pairwise_cons.mp h
    cases l with
    | nil =>
      rw [List.mem_singleton.mp ha]
      exact Nat.le_refl _
    | cons c l =>
      rw [List.getLast?_cons_cons]
      rcases List.mem_cons.mp ha with rfl | ha
      · exact Nat.le_trans (Nat.le_of_lt (hb c List.mem_cons_self)) (ih hl List.mem_cons_self)
      · exact ih hl ha

/-- **Reading on to the end**: the number of the last entry past `n`, or `n` where there is none, is
past nothing. -/
theorem upTo_getLast_past (h : Sorted key l) (n : Nat) :
    upTo key (((past key n l).getLast?.map key).getD n) l = l := by
  refine upTo_eq_self (fun a ha => ?_)
  by_cases hle : key a ≤ n
  · cases hlast : (past key n l).getLast? with
    | none => exact hle
    | some b =>
      have hb := List.mem_of_getLast? hlast
      have hlt : n < key b := by simpa using (List.mem_filter.mp hb).2
      exact Nat.le_trans hle (Nat.le_of_lt hlt)
  · have hmem : a ∈ past key n l := List.mem_filter.mpr ⟨ha, by simp; omega⟩
    exact le_getLast (List.Pairwise.filter _ h) hmem n

end Increasing
