import Mathlib.Control.Monad.Basic
import Mathlib.Data.List.Forall2

/-!
# Computations that may fail

The rules for reading a result off a sequence of steps of which each may fail, and for a
transformation of a list that may fail on an element.
-/

namespace Except

variable {ε α β : Type}

/-- **A sequence of two steps succeeds** where both do. -/
theorem bind_eq_ok {x : Except ε α} {f : α → Except ε β} {b : β} :
    x >>= f = .ok b ↔ ∃ a, x = .ok a ∧ f a = .ok b := by
  cases x with
  | error refusal =>
    constructor
    · intro h
      cases h
    · rintro ⟨_, h, _⟩
      cases h
  | ok a =>
    constructor
    · exact fun h => ⟨a, rfl, h⟩
    · rintro ⟨_, h, hf⟩
      cases h
      exact hf

/-- The result of a step that does nothing. -/
theorem pure_eq_ok {a b : α} : (pure a : Except ε α) = .ok b ↔ a = b :=
  ⟨Except.ok.inj, congrArg _⟩

/-- Renaming the failures of a step leaves its results alone. -/
theorem mapError_eq_ok {ε' : Type} {x : Except ε α} {f : ε → ε'} {a : α} :
    x.mapError f = .ok a ↔ x = .ok a := by
  cases x with
  | error refusal => constructor <;> intro h <;> cases h
  | ok b => exact ⟨fun h => congrArg _ (Except.ok.inj h), fun h => congrArg _ (Except.ok.inj h)⟩

/-- What succeeds has a result. -/
theorem exists_eq_ok_of_isOk {x : Except ε α} (h : x.isOk = true) : ∃ a, x = .ok a := by
  cases x with
  | error refusal => cases h
  | ok a => exact ⟨a, rfl⟩

/-- **A list is transformed** where its head and its tail are. -/
theorem mapM_cons_eq_ok {f : α → Except ε β} {a : α} {as : List α} {bs : List β} :
    (a :: as).mapM f = .ok bs ↔ ∃ b rest, f a = .ok b ∧ as.mapM f = .ok rest ∧ b :: rest = bs := by
  simp only [List.mapM_cons, bind_eq_ok, pure_eq_ok]
  constructor
  · rintro ⟨b, hb, rest, hrest, rfl⟩
    exact ⟨b, rest, hb, hrest, rfl⟩
  · rintro ⟨b, rest, hb, hrest, rfl⟩
    exact ⟨b, hb, rest, hrest, rfl⟩

/-- Every transformed element comes from one of the list. -/
theorem exists_of_mem_mapM {f : α → Except ε β} {as : List α} {bs : List β}
    (h : as.mapM f = .ok bs) {b : β} (hb : b ∈ bs) : ∃ a ∈ as, f a = .ok b := by
  induction as generalizing bs with
  | nil => cases h; cases hb
  | cons a as ih =>
    obtain ⟨b', rest, hb', hrest, rfl⟩ := mapM_cons_eq_ok.mp h
    rcases List.mem_cons.mp hb with rfl | hmem
    · exact ⟨a, List.mem_cons_self, hb'⟩
    · obtain ⟨a', ha', hfa'⟩ := ih hrest hmem
      exact ⟨a', List.mem_cons_of_mem a ha', hfa'⟩

/-- Every element of the list is transformed. -/
theorem exists_mem_of_mapM {f : α → Except ε β} {as : List α} {bs : List β}
    (h : as.mapM f = .ok bs) {a : α} (ha : a ∈ as) : ∃ b ∈ bs, f a = .ok b := by
  induction as generalizing bs with
  | nil => cases ha
  | cons a' as ih =>
    obtain ⟨b', rest, hb', hrest, rfl⟩ := mapM_cons_eq_ok.mp h
    rcases List.mem_cons.mp ha with rfl | hmem
    · exact ⟨b', List.mem_cons_self, hb'⟩
    · obtain ⟨b, hb, hfb⟩ := ih hrest hmem
      exact ⟨b, List.mem_cons_of_mem b' hb, hfb⟩

/-- A list is its own transformation where every element is. -/
theorem mapM_eq_self {f : α → Except ε α} {as : List α} (h : ∀ a ∈ as, f a = .ok a) :
    as.mapM f = .ok as := by
  induction as with
  | nil => rfl
  | cons a as ih =>
    exact mapM_cons_eq_ok.mpr ⟨a, as, h a List.mem_cons_self,
      ih (fun a' ha' => h a' (List.mem_cons_of_mem a ha')), rfl⟩

/-- **A transformation that keeps a predicate commutes with filtering by it.** -/
theorem mapM_filter_of_keeps {f : α → Except ε β} {p : α → Bool} {q : β → Bool} {as : List α}
    {bs : List β} (hkeeps : ∀ a ∈ as, ∀ b, f a = .ok b → q b = p a) (h : as.mapM f = .ok bs) :
    (as.filter p).mapM f = .ok (bs.filter q) := by
  induction as generalizing bs with
  | nil => cases h; rfl
  | cons a as ih =>
    obtain ⟨b, rest, hb, hrest, rfl⟩ := mapM_cons_eq_ok.mp h
    have hq : q b = p a := hkeeps a List.mem_cons_self b hb
    have ih := ih (fun a' ha' => hkeeps a' (List.mem_cons_of_mem a ha')) hrest
    cases hp : p a with
    | true =>
      rw [List.filter_cons_of_pos hp, List.filter_cons_of_pos (hq.trans hp)]
      exact mapM_cons_eq_ok.mpr ⟨b, _, hb, ih, rfl⟩
    | false =>
      rw [List.filter_cons_of_neg (by simp [hp]), List.filter_cons_of_neg (by simp [hq, hp]), ih]

/-- **A transformation of a permuted list** is the permuted transformation. -/
theorem mapM_perm {f : α → Except ε β} {as as' : List α} {bs : List β} (hperm : as.Perm as')
    (h : as.mapM f = .ok bs) : ∃ bs', as'.mapM f = .ok bs' ∧ bs.Perm bs' := by
  induction hperm generalizing bs with
  | nil => exact ⟨bs, h, List.Perm.refl _⟩
  | cons a _ ih =>
    obtain ⟨b, rest, hb, hrest, rfl⟩ := mapM_cons_eq_ok.mp h
    obtain ⟨rest', hrest', hperm'⟩ := ih hrest
    exact ⟨b :: rest', mapM_cons_eq_ok.mpr ⟨b, rest', hb, hrest', rfl⟩, hperm'.cons b⟩
  | swap a a' as =>
    obtain ⟨b', rest', hb', hrest', rfl⟩ := mapM_cons_eq_ok.mp h
    obtain ⟨b, rest, hb, hrest, rfl⟩ := mapM_cons_eq_ok.mp hrest'
    exact ⟨b :: b' :: rest, mapM_cons_eq_ok.mpr ⟨b, _, hb,
      mapM_cons_eq_ok.mpr ⟨b', rest, hb', hrest, rfl⟩, rfl⟩, List.Perm.swap b b' rest⟩
  | trans _ _ ih ih' =>
    obtain ⟨bs', hbs', hperm⟩ := ih h
    obtain ⟨bs'', hbs'', hperm'⟩ := ih' hbs'
    exact ⟨bs'', hbs'', hperm.trans hperm'⟩

/-- A list whose elements can be transformed can be. -/
theorem exists_mapM_eq_ok {f : α → Except ε β} {as : List α} (h : ∀ a ∈ as, ∃ b, f a = .ok b) :
    ∃ bs, as.mapM f = .ok bs := by
  induction as with
  | nil => exact ⟨[], rfl⟩
  | cons a as ih =>
    obtain ⟨⟨b, hb⟩, h⟩ := List.forall_mem_cons.mp h
    obtain ⟨bs, hbs⟩ := ih h
    exact ⟨b :: bs, mapM_cons_eq_ok.mpr ⟨b, bs, hb, hbs, rfl⟩⟩

/-- **A transformation that never fails** is a map. -/
theorem mapM_eq_map {f : α → Except ε β} {g : α → β} {as : List α} (h : ∀ a ∈ as, f a = .ok (g a)) :
    as.mapM f = .ok (as.map g) := by
  induction as with
  | nil => rfl
  | cons a as ih =>
    rw [List.forall_mem_cons] at h
    exact mapM_cons_eq_ok.mpr ⟨g a, as.map g, h.1, ih h.2, rfl⟩

/-- **What a transformation keeps**, element by element, it keeps of the list. -/
theorem map_of_mapM {γ : Type} {f : α → Except ε β} {g : β → γ} {h : α → γ} {as : List α}
    {bs : List β} (hkeeps : ∀ a ∈ as, ∀ b, f a = .ok b → g b = h a) (hmap : as.mapM f = .ok bs) :
    bs.map g = as.map h := by
  induction as generalizing bs with
  | nil =>
    cases hmap
    rfl
  | cons a as ih =>
    obtain ⟨b, rest, hb, hrest, rfl⟩ := mapM_cons_eq_ok.mp hmap
    rw [List.map_cons, List.map_cons, hkeeps a List.mem_cons_self b hb,
      ih (fun a' ha' => hkeeps a' (List.mem_cons_of_mem a ha')) hrest]

/-- **A fold over one more element succeeds** where the fold and the last step do. -/
theorem foldlM_concat_eq_ok {f : β → α → Except ε β} {as : List α} {a : α} {start final : β} :
    (as ++ [a]).foldlM f start = .ok final ↔
      ∃ before, as.foldlM f start = .ok before ∧ f before a = .ok final := by
  rw [List.foldlM_append, bind_eq_ok]
  refine exists_congr (fun before => and_congr_right (fun _ => ?_))
  rw [List.foldlM_cons, bind_eq_ok]
  constructor
  · rintro ⟨_, hstep, hnil⟩
    cases hnil
    exact hstep
  · exact fun hstep => ⟨final, hstep, rfl⟩

/-- **What holds at the start of a fold and is kept by its steps** holds at its end. -/
theorem foldlM_induction {f : β → α → Except ε β} {I : β → Prop} {as : List α} {start final : β}
    (hstep : ∀ state a next, a ∈ as → I state → f state a = .ok next → I next) (hstart : I start)
    (h : as.foldlM f start = .ok final) : I final := by
  induction as generalizing start with
  | nil =>
    cases h
    exact hstart
  | cons a as ih =>
    rw [List.foldlM_cons, bind_eq_ok] at h
    obtain ⟨next, hnext, hrest⟩ := h
    exact ih (fun state a' next ha' => hstep state a' next (List.mem_cons_of_mem a ha'))
      (hstep start a next List.mem_cons_self hstart hnext) hrest

end Except

namespace Option

/-- **A list is transformed** element by element. -/
theorem mapM_eq_some_iff {α β : Type} {f : α → Option β} {rows : List α} {items : List β} :
    rows.mapM f = some items ↔ List.Forall₂ (fun row item => f row = some item) rows items := by
  induction rows generalizing items with
  | nil =>
    rw [List.mapM_nil, List.forall₂_nil_left_iff]
    exact ⟨fun h => by cases h; rfl, fun h => by rw [h]; rfl⟩
  | cons row rows ih =>
    rw [List.mapM_cons, List.forall₂_cons_left_iff]
    constructor
    · intro h
      obtain ⟨item, hitem, h⟩ := Option.bind_eq_some_iff.mp h
      obtain ⟨rest, hrest, h⟩ := Option.bind_eq_some_iff.mp h
      cases h
      exact ⟨item, rest, hitem, ih.mp hrest, rfl⟩
    · rintro ⟨item, rest, hitem, hrest, rfl⟩
      rw [hitem, ih.mpr hrest]
      rfl

end Option
