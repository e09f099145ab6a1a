/-!
# Replacing in texts

`str.replace` of a needle that is not empty: its occurrences from the left, which do not overlap, and never what was
put in their place. A text with one occurrence is the text around it with the replacement in between
(`Replace.replace_of_unique`).
-/

namespace Replace

/-- The rest of a text with its occurrences replaced, after the characters of an occurrence that are still to be
dropped. -/
def replaceFrom (old new : List Char) : Nat → List Char → List Char
  | _, [] => []
  | skip + 1, _ :: cs => replaceFrom old new skip cs
  | 0, c :: cs =>
    if old.isPrefixOf (c :: cs) then new ++ replaceFrom old new (old.length - 1) cs
    else c :: replaceFrom old new 0 cs

/-- **`text.replace(old, new)`** -/
def replace (old new cs : List Char) : List Char :=
  replaceFrom old new 0 cs

variable {old new : List Char}

/-- Characters are dropped one by one. -/
theorem replaceFrom_eq (skip : Nat) (cs : List Char) : replaceFrom old new skip cs = replace old new (cs.drop skip) := by
  induction skip generalizing cs with
  | zero => rfl
  | succ skip ih =>
    cases cs with
    | nil => rfl
    | cons c cs => exact ih cs

/-- **An occurrence is replaced.** -/
theorem replace_append (h : old ≠ []) (cs : List Char) : replace old new (old ++ cs) = new ++ replace old new cs := by
  obtain ⟨c, rest, rfl⟩ := List.exists_cons_of_ne_nil h
  have hprefix : (c :: rest).isPrefixOf (c :: (rest ++ cs)) = true := List.isPrefixOf_iff_prefix.mpr ⟨cs, rfl⟩
  show (if (c :: rest).isPrefixOf (c :: (rest ++ cs)) then new ++ replaceFrom _ new ((c :: rest).length - 1) (rest ++ cs)
    else _) = _
  rw [if_pos hprefix, replaceFrom_eq, List.length_cons, Nat.add_sub_cancel,
    List.drop_left]

/-- **What begins no occurrence stays.** -/
theorem replace_cons {c : Char} {cs : List Char} (h : ¬old <+: c :: cs) :
    replace old new (c :: cs) = c :: replace old new cs :=
  if_neg fun hprefix => h (List.isPrefixOf_iff_prefix.mp hprefix)

/-- A text without an occurrence stays. -/
theorem replace_of_not_infix {cs : List Char} (h : ¬old <:+: cs) : replace old new cs = cs := by
  induction cs with
  | nil => rfl
  | cons c cs ih =>
    rw [List.infix_cons_iff, not_or] at h
    rw [replace_cons h.1, ih h.2]

/-- **The only occurrence is replaced**, and nothing in the replacement. -/
theorem replace_of_unique (hne : old ≠ []) {before after : List Char}
    (h : ∀ front back, before ++ old ++ after = front ++ old ++ back → front = before) :
    replace old new (before ++ old ++ after) = before ++ new ++ after := by
  induction before with
  | nil =>
    have hafter : ¬old <:+: after := by
      rintro ⟨front, back, rfl⟩
      have hempty := h (old ++ front) back (by simp only [List.nil_append, List.append_assoc])
      exact hne (List.append_eq_nil_iff.mp hempty).1
    rw [List.nil_append, List.nil_append, replace_append hne, replace_of_not_infix hafter]
  | cons c before ih =>
    have hfirst : ¬old <+: c :: (before ++ old ++ after) := by
      rintro ⟨back, hback⟩
      have hempty := h [] back hback.symm
      cases hempty
    rw [List.cons_append, List.cons_append, replace_cons hfirst, ih fun front back heq => ?_]
    · rfl
    · have hlonger := h (c :: front) back (congrArg (c :: ·) heq)
      exact (List.cons.inj hlonger).2

end Replace
