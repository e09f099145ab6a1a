/-!
# Payloads

The values that are logged and captured: texts, numbers, mappings, lists, tuples, and other objects that are shown by
their text. The key of a mapping stands for its text, `str(key)`, and no two keys of a mapping have one text.
-/

/-- **A value of a payload.** A mapping is a `dict` or another one; another object is shown as `str(value)`. -/
inductive Value
  | null
  | bool (value : Bool)
  | int (value : Int)
  | float (literal : String)
  | text (value : String)
  | object (shown : String)
  | mapping (isDict : Bool) (entries : List (String × Value))
  | list (items : List Value)
  | tuple (items : List Value)

namespace Value

/-- A value with nothing in it: a number, a text, or another object. -/
def IsLeaf : Value → Prop
  | .mapping _ _ | .list _ | .tuple _ => False
  | _ => True

/-- **Induction over values**, through the entries of mappings and the items of sequences. -/
@[induction_eliminator]
theorem induct {motive : Value → Prop} (leaf : ∀ value, IsLeaf value → motive value)
    (mapping : ∀ isDict entries, (∀ entry ∈ entries, motive entry.2) → motive (.mapping isDict entries))
    (list : ∀ items, (∀ item ∈ items, motive item) → motive (.list items))
    (tuple : ∀ items, (∀ item ∈ items, motive item) → motive (.tuple items)) (value : Value) : motive value :=
  @Value.rec motive (fun entries => ∀ entry ∈ entries, motive entry.2) (fun items => ∀ item ∈ items, motive item)
    (fun entry => motive entry.2) (leaf _ trivial) (fun _ => leaf _ trivial) (fun _ => leaf _ trivial)
    (fun _ => leaf _ trivial) (fun _ => leaf _ trivial) (fun _ => leaf _ trivial) mapping list tuple
    (fun _ h => absurd h List.not_mem_nil)
    (fun _ _ hhead htail => List.forall_mem_cons.mpr ⟨hhead, htail⟩)
    (fun _ h => absurd h List.not_mem_nil)
    (fun _ _ hhead htail => List.forall_mem_cons.mpr ⟨hhead, htail⟩)
    (fun _ _ h => h) value

/-! ## What keys hide -/

variable (hidden : String → Bool)

mutual

/-- **A value without what its hidden keys hold**: two values differ under hidden keys only, at any depth, when this is
the same of both. -/
def erase : Value → Value
  | .mapping isDict entries => .mapping isDict (eraseEntries entries)
  | .list items => .list (eraseItems items)
  | .tuple items => .tuple (eraseItems items)
  | value => value
termination_by structural value => value

/-- Entries without what the hidden keys hold. -/
def eraseEntries : List (String × Value) → List (String × Value)
  | [] => []
  | (key, value) :: entries => (key, if hidden key then .null else erase value) :: eraseEntries entries
termination_by structural entries => entries

/-- Items without what their hidden keys hold. -/
def eraseItems : List Value → List Value
  | [] => []
  | item :: items => erase item :: eraseItems items
termination_by structural items => items

end

theorem eraseEntries_eq (entries : List (String × Value)) : eraseEntries hidden entries
    = entries.map fun entry => (entry.1, if hidden entry.1 then .null else erase hidden entry.2) := by
  induction entries with
  | nil => rfl
  | cons entry entries ih => rw [eraseEntries, ih, List.map_cons]

theorem eraseItems_eq (items : List Value) : eraseItems hidden items = items.map (erase hidden) := by
  induction items with
  | nil => rfl
  | cons item items ih => rw [eraseItems, ih, List.map_cons]

end Value
