import FactoryAgent.Lib.Machine

/-!
# Machines that come to one result

A machine whose actions are the moves of a scheduler may be run in many orders. It *settles* when the order
does not matter in the end: no run goes on for ever, no run is stuck before its end, and all runs end with the
same result (`Settles`). An invariant and a measure that every step decreases show it
(`settles_of_measure`), and a machine that settles has a run to its end (`Settles.exists_run`).
-/

namespace Machine

variable {σ α ρ : Type} {m : Machine σ α} {ended? : σ → Option ρ} {result : ρ}

/-- **All runs of a machine end, and with the same result.** `ended?` is the result of a state in which a run
has ended. -/
structure Settles (m : Machine σ α) (ended? : σ → Option ρ) (result : ρ) : Prop where
  same : ∀ {s : σ} {other : ρ}, Reach m free s → ended? s = some other → other = result
  onward : ∀ {s : σ}, Reach m free s → ended? s = none → ∃ a, (m.step s a).isSome = true
  bounded : ∃ bound, ∀ (as : List α) (s : σ), m.run free m.init as = some s → as.length ≤ bound

/-- A run is as long as the measure allows. -/
theorem length_le_of_run {I : σ → Prop} {left : σ → Nat}
    (hstep : ∀ {s t : σ} {a : α}, I s → m.step s a = some t → I t ∧ left t < left s) {s t : σ} {as : List α}
    (hs : I s) (h : m.run free s as = some t) : as.length + left t ≤ left s := by
  induction as generalizing s with
  | nil =>
    cases h
    exact Nat.le_of_eq (Nat.zero_add _)
  | cons a as ih =>
    rw [run, if_pos (show free s a from trivial)] at h
    obtain ⟨u, hu, hrest⟩ := Option.bind_eq_some_iff.mp h
    obtain ⟨hI, hlt⟩ := hstep hs hu
    have hle := ih hI hrest
    rw [List.length_cons]
    omega

/-- **The rule for settling**: an invariant that decides the result, under which a run is not stuck before its
end, and a measure that each step decreases. -/
theorem settles_of_measure {I : σ → Prop} (left : σ → Nat) (h0 : I m.init)
    (hstep : ∀ {s t : σ} {a : α}, I s → m.step s a = some t → I t ∧ left t < left s)
    (hended : ∀ {s : σ} {other : ρ}, I s → ended? s = some other → other = result)
    (honward : ∀ {s : σ}, I s → ended? s = none → ∃ a, (m.step s a).isSome = true) :
    m.Settles ended? result where
  same hreach := hended (hreach.invariant h0 fun hI _ hs => (hstep hI hs).1)
  onward hreach := honward (hreach.invariant h0 fun hI _ hs => (hstep hI hs).1)
  bounded := ⟨left m.init, fun _ _ hrun => Nat.le_of_add_right_le (length_le_of_run hstep h0 hrun)⟩

/-- One action more. -/
theorem run_concat {s t u : σ} {as : List α} {a : α} (h : m.run free s as = some t)
    (ha : m.step t a = some u) : m.run free s (as ++ [a]) = some u := by
  induction as generalizing s with
  | nil =>
    cases h
    rw [List.nil_append, run, if_pos (show free _ a from trivial), ha]
    rfl
  | cons b as ih =>
    rw [run, if_pos (show free s b from trivial)] at h
    obtain ⟨v, hv, hrest⟩ := Option.bind_eq_some_iff.mp h
    rw [List.cons_append, run, if_pos (show free s b from trivial), hv]
    exact ih hrest

/-- **A machine that settles has a run to its end.** A run that has not ended can be made longer, and there is
a bound on how long it gets. -/
theorem Settles.exists_run (h : m.Settles ended? result) :
    ∃ as s, m.run free m.init as = some s ∧ ended? s = some result := by
  obtain ⟨bound, hbound⟩ := h.bounded
  have hlonger : ∀ length, ∃ as s, m.run free m.init as = some s
      ∧ (ended? s = some result ∨ as.length = length) := by
    intro length
    induction length with
    | zero => exact ⟨[], m.init, rfl, Or.inr rfl⟩
    | succ length ih =>
      obtain ⟨as, s, hrun, hended | hlength⟩ := ih
      · exact ⟨as, s, hrun, Or.inl hended⟩
      have hreach := reach_of_run hrun
      cases hended : ended? s with
      | some other => exact ⟨as, s, hrun, Or.inl (h.same hreach hended ▸ hended)⟩
      | none =>
        obtain ⟨a, ha⟩ := h.onward hreach hended
        obtain ⟨t, ht⟩ := Option.isSome_iff_exists.mp ha
        exact ⟨as ++ [a], t, run_concat hrun ht, Or.inr (by rw [List.length_append, hlength]; rfl)⟩
  obtain ⟨as, s, hrun, hended | hlength⟩ := hlonger (bound + 1)
  · exact ⟨as, s, hrun, hended⟩
  · have hle := hbound as s hrun
    omega

end Machine
