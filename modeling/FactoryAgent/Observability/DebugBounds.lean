import FactoryAgent.Observability.DebugTrace

/-!
# How large a captured payload gets

The caps of `summarise_payload`. A payload over a cap is reduced to its structure once, whatever is left of it: a list to
its length and its first item, a text to its first characters. What a mapping holds is kept, and so are the texts below
the cut. So a captured payload is within the caps when it was there before, or when what its structure keeps is
(`capture_bounded_iff`); the sizes of both are sums over the parts of the payload (`weigh`).
-/

namespace DebugTrace

open Redaction

/-! ## The bound -/

mutual

/-- **No list has more items than this**, at any depth. -/
def ListsWithin (most : Nat) : Json → Prop
  | .obj fields => ListsWithinFields most fields
  | .arr values => values.length ≤ most ∧ ListsWithinItems most values
  | _ => True
termination_by structural value => value

/-- No list in the fields has more items than this. -/
def ListsWithinFields (most : Nat) : List (String × Json) → Prop
  | [] => True
  | (_, value) :: fields => ListsWithin most value ∧ ListsWithinFields most fields
termination_by structural fields => fields

/-- No list in the items has more items than this. -/
def ListsWithinItems (most : Nat) : List Json → Prop
  | [] => True
  | value :: values => ListsWithin most value ∧ ListsWithinItems most values
termination_by structural values => values

end

/-- **A captured payload within the caps**: its serialized content, and each list in it. -/
def Bounded (caps : Caps) (captured : CapturedPayload) : Prop :=
  measure captured.input + measure captured.output ≤ caps.maxPayloadBytes
    ∧ ListsWithin caps.maxRows captured.input ∧ ListsWithin caps.maxRows captured.output

/-! ## Sizes of payloads -/

/-- The bytes of a text in its quotes. -/
def quotedBytes (text : String) : Nat :=
  2 + bytes (TraceReport.body text)

/-- The bytes of parts and of the separators between them. -/
def joined : List Nat → Nat
  | [] => 0
  | size :: sizes => size + (if sizes.isEmpty then 0 else 2) + joined sizes

section Weigh

variable (textBytes : String → Nat) (listBytes : List Nat → Nat)

mutual

/-- **The bytes of a payload**, where texts and lists count in some way, and a credential as the marker in its place. -/
def weigh : Value → Nat
  | .null => 4
  | .bool value => if value then 4 else 5
  | .int value => bytes (Json.intChars value)
  | .float literal => bytes literal.toList
  | .text text => textBytes text
  | .object shown => textBytes shown
  | .mapping _ entries => 2 + joined (weighEntries entries)
  | .list items => listBytes (weighItems items)
  | .tuple items => listBytes (weighItems items)
termination_by structural value => value

/-- The bytes of each entry, with its key. -/
def weighEntries : List (String × Value) → List Nat
  | [] => []
  | (key, value) :: entries =>
    (quotedBytes key + 2 + if isCredentialKey key then 12 else weigh value) :: weighEntries entries
termination_by structural entries => entries

/-- The bytes of each item. -/
def weighItems : List Value → List Nat
  | [] => []
  | item :: items => weigh item :: weighItems items
termination_by structural items => items

end

theorem weighEntries_eq (entries : List (String × Value)) : weighEntries textBytes listBytes entries
    = entries.map fun entry => quotedBytes entry.1 + 2
      + if isCredentialKey entry.1 then 12 else weigh textBytes listBytes entry.2 := by
  induction entries with
  | nil => rfl
  | cons entry entries ih => rw [weighEntries, ih, List.map_cons]

theorem weighItems_eq (items : List Value) :
    weighItems textBytes listBytes items = items.map (weigh textBytes listBytes) := by
  induction items with
  | nil => rfl
  | cons item items ih => rw [weighItems, ih, List.map_cons]

end Weigh

/-- A list counts with all of its items. -/
def wholeList (sizes : List Nat) : Nat :=
  2 + joined sizes

/-- A list counts as its length with its first item. -/
def sampledList : List Nat → Nat
  | [] => 2
  | size :: sizes => 39 + bytes (Json.intChars (sizes.length + 1)) + size

variable (words : Words)

/-- **The bytes of a payload as a whole.** -/
def wholeBytes : Value → Nat :=
  weigh (fun text => quotedBytes (redactText words text)) wholeList

/-- **The bytes of the structure of a payload**: all entries of its mappings, its texts up to the cut, and of a list its
length and its first item. -/
def keptBytes : Value → Nat :=
  weigh (fun text => quotedBytes (cutText (redactText words text))) sampledList

mutual

/-- **The items of the lists in a payload**, outside of what credential keys hold. -/
def listItems : Value → Nat
  | .mapping _ entries => listItemsOfEntries entries
  | .list items => listItemsOfItems items
  | .tuple items => listItemsOfItems items
  | _ => 0
termination_by structural value => value

/-- The items of the lists in entries. -/
def listItemsOfEntries : List (String × Value) → Nat
  | [] => 0
  | (key, value) :: entries => (if isCredentialKey key then 0 else listItems value) + listItemsOfEntries entries
termination_by structural entries => entries

/-- Items, and the items of the lists in them. -/
def listItemsOfItems : List Value → Nat
  | [] => 0
  | item :: items => 1 + listItems item + listItemsOfItems items
termination_by structural items => items

end

/-! ## What is measured -/

theorem bytes_append (cs ds : List Char) : bytes (cs ++ ds) = bytes cs + bytes ds := by
  induction cs with
  | nil => rw [List.nil_append, bytes, Nat.zero_add]
  | cons c cs ih => rw [List.cons_append, bytes, bytes, ih, Nat.add_assoc]

theorem bytes_separator (last : Bool) : bytes (if last then [] else [',', ' ']) = if last then 0 else 2 := by
  cases last <;> rfl

theorem measure_str (text : String) : measure (.str text) = quotedBytes text := by
  rw [measure, TraceReport.dumps, Json.renderWith, List.cons_append, bytes, bytes_append, quotedBytes]
  rw [show '"'.utf8Size = 1 by decide, show bytes ['"'] = 1 by decide]
  omega

theorem measure_arr (values : List Json) : measure (.arr values) = 2 + joined (values.map measure) := by
  have hvalues : bytes (Json.renderElementsWith TraceReport.body values) = joined (values.map measure) := by
    induction values with
    | nil => rfl
    | cons value values ih =>
      rw [Json.renderElementsWith, bytes_append, bytes_append, bytes_separator, ih, List.map_cons, joined, List.isEmpty_map]
      rfl
  rw [measure, TraceReport.dumps, Json.renderWith, List.cons_append, bytes, bytes_append, hvalues]
  rw [show '['.utf8Size = 1 by decide, show bytes [']'] = 1 by decide]
  omega

theorem measure_obj (fields : List (String × Json)) :
    measure (.obj fields) = 2 + joined (fields.map fun field => quotedBytes field.1 + 2 + measure field.2) := by
  have hfields : bytes (Json.renderMembersWith TraceReport.body fields)
      = joined (fields.map fun field => quotedBytes field.1 + 2 + measure field.2) := by
    induction fields with
    | nil => rfl
    | cons field fields ih =>
      have hfield : bytes (Json.renderMemberWith TraceReport.body field) = quotedBytes field.1 + 2 + measure field.2 := by
        rw [Json.renderMemberWith, bytes_append, List.cons_append, bytes, bytes_append, quotedBytes]
        rw [show '"'.utf8Size = 1 by decide, show bytes ['"', ':', ' '] = 3 by decide]
        rw [measure, TraceReport.dumps]
        omega
      rw [Json.renderMembersWith, bytes_append, bytes_append, bytes_separator, ih, hfield, List.map_cons, joined,
        List.isEmpty_map]
  rw [measure, TraceReport.dumps, Json.renderWith, List.cons_append, bytes, bytes_append, hfields]
  rw [show '{'.utf8Size = 1 by decide, show bytes ['}'] = 1 by decide]
  omega

/-- A value with no text and no other value in it. -/
def IsScalar : Json → Prop
  | .str _ | .arr _ | .obj _ => False
  | _ => True

/-- **What is measured of a redacted payload**, with its texts and its lists shaped in some way, and the rest kept. -/
theorem measure_shape {shape : Json → Json} {textBytes : String → Nat} {listBytes : List Nat → Nat}
    (hscalar : ∀ value, IsScalar value → shape value = value)
    (hobj : ∀ fields, shape (.obj fields) = .obj (fields.map fun field => (field.1, shape field.2)))
    (hmarker : shape marker = marker)
    (htext : ∀ text, measure (shape (.str (redactText words text))) = textBytes text)
    (hlist : ∀ values, measure (shape (.arr values)) = listBytes (values.map fun value => measure (shape value)))
    (value : Value) : measure (shape (redact words value)) = weigh textBytes listBytes value := by
  have hitems : ∀ items : List Value,
      (∀ item ∈ items, measure (shape (redact words item)) = weigh textBytes listBytes item) →
      measure (shape (.arr (redactItems words items))) = listBytes (weighItems textBytes listBytes items) := by
    intro items ih
    rw [hlist, redactItems_eq, weighItems_eq, List.map_map]
    exact congrArg _ (List.map_congr_left ih)
  induction value with
  | leaf value hvalue =>
    cases value with
    | text text => exact htext text
    | object text => exact htext text
    | mapping | list | tuple => exact hvalue.elim
    | null => exact congrArg measure (hscalar .null trivial)
    | bool value =>
      refine (congrArg measure (hscalar (.bool value) trivial)).trans ?_
      cases value <;> rfl
    | int value => exact congrArg measure (hscalar (.int value) trivial)
    | float literal => exact congrArg measure (hscalar (.float literal) trivial)
  | mapping isDict entries ih =>
    rw [redact, hobj, measure_obj, weigh, redactFields_eq, weighEntries_eq, List.map_map, List.map_map]
    refine congrArg (2 + joined ·) (List.map_congr_left fun entry hentry => ?_)
    dsimp only [Function.comp_apply]
    split
    · rw [hmarker, show measure marker = 12 by decide]
    · rw [ih entry hentry]
  | list items ih => exact hitems items ih
  | tuple items ih => exact hitems items ih

/-- **The size of a redacted payload.** -/
theorem measure_redact (value : Value) : measure (redact words value) = wholeBytes words value :=
  @measure_shape words (fun value => value) _ _ (fun _ _ => rfl) (fun fields => by rw [List.map_id']) rfl
    (fun _ => measure_str _) measure_arr value

theorem structureFields_eq (fields : List (String × Json)) :
    structureFields fields = fields.map fun field => (field.1, structureOnly field.2) := by
  induction fields with
  | nil => rfl
  | cons field fields ih => rw [structureFields, ih, List.map_cons]

/-- A list counts as its length with its first item. -/
theorem measure_structure_arr (values : List Json) : measure (structureOnly (.arr values))
    = sampledList (values.map fun value => measure (structureOnly value)) := by
  cases values with
  | nil => rfl
  | cons value values =>
    rw [structureOnly, measure_arr, List.map_cons, List.map_nil, measure_obj, List.map_cons, List.map_cons, List.map_nil]
    simp only [measure_arr, List.map_cons, List.map_nil, joined, sampledList, List.isEmpty_cons, List.isEmpty_nil,
      if_true, List.length_map]
    rw [show quotedBytes "_truncated_items" = 18 by decide, show quotedBytes "_sample" = 9 by decide]
    rw [show measure (.int (values.length + 1)) = bytes (Json.intChars (values.length + 1)) from rfl]
    simp only [Bool.false_eq_true, if_false]
    omega

/-- **The size of the structure of a redacted payload.** -/
theorem measure_structure (value : Value) : measure (structureOnly (redact words value)) = keptBytes words value := by
  refine measure_shape words ?_ ?_ ?_ ?_ measure_structure_arr value
  · intro value hscalar
    cases value with
    | str | arr | obj => exact hscalar.elim
    | _ => rfl
  · intro fields
    rw [structureOnly, structureFields_eq]
  · rw [marker, structureOnly, show cutText (String.ofList redacted) = String.ofList redacted by decide]
  · intro text
    rw [structureOnly, measure_str]

/-! ## The lists -/

section Lists

variable {most : Nat}

theorem length_le_countItems (values : List Json) : values.length ≤ countItems values := by
  induction values with
  | nil => exact Nat.le_refl 0
  | cons value values ih =>
    rw [List.length_cons, countItems]
    omega

mutual

/-- All items together are more than those of any list. -/
theorem listsWithin_of_countRows : ∀ value : Json, countRows value ≤ most → ListsWithin most value
  | .obj fields, h => listsWithinFields_of_countFields fields h
  | .arr values, h => ⟨Nat.le_trans (length_le_countItems values) h, listsWithinItems_of_countItems values h⟩
  | .null, _ | .bool _, _ | .int _, _ | .float _, _ | .str _, _ => trivial

theorem listsWithinFields_of_countFields :
    ∀ fields : List (String × Json), countFields fields ≤ most → ListsWithinFields most fields
  | [], _ => trivial
  | (_, value) :: fields, h =>
    ⟨listsWithin_of_countRows value (Nat.le_trans (Nat.le_add_right _ _) h),
      listsWithinFields_of_countFields fields (Nat.le_trans (Nat.le_add_left _ _) h)⟩

theorem listsWithinItems_of_countItems : ∀ values : List Json, countItems values ≤ most → ListsWithinItems most values
  | [], _ => trivial
  | value :: values, h => by
    rw [countItems] at h
    exact ⟨listsWithin_of_countRows value (by omega), listsWithinItems_of_countItems values (by omega)⟩

end

mutual

/-- The lists of a structure have one item at most. -/
theorem listsWithin_structureOnly (h : 1 ≤ most) : ∀ value : Json, ListsWithin most (structureOnly value)
  | .obj fields => listsWithinFields_structureFields h fields
  | .arr [] => ⟨Nat.zero_le _, trivial⟩
  | .arr (value :: _) =>
    ⟨h, ⟨trivial, ⟨h, listsWithin_structureOnly h value, trivial⟩, trivial⟩, trivial⟩
  | .null | .bool _ | .int _ | .float _ | .str _ => trivial

theorem listsWithinFields_structureFields (h : 1 ≤ most) :
    ∀ fields : List (String × Json), ListsWithinFields most (structureFields fields)
  | [] => trivial
  | (_, value) :: fields => ⟨listsWithin_structureOnly h value, listsWithinFields_structureFields h fields⟩

end

mutual

/-- The rows of a redacted payload. -/
theorem countRows_redact : ∀ value, countRows (redact words value) = listItems value
  | .mapping _ entries => countFields_redactFields entries
  | .list items => countItems_redactItems items
  | .tuple items => countItems_redactItems items
  | .null | .bool _ | .int _ | .float _ | .text _ | .object _ => rfl

theorem countFields_redactFields : ∀ entries, countFields (redactFields words entries) = listItemsOfEntries entries
  | [] => rfl
  | (key, value) :: entries => by
    rw [redactFields, countFields, listItemsOfEntries, countFields_redactFields entries]
    split
    · rfl
    · rw [countRows_redact value]

theorem countItems_redactItems : ∀ items, countItems (redactItems words items) = listItemsOfItems items
  | [] => rfl
  | item :: items => by
    rw [redactItems, countItems, listItemsOfItems, countRows_redact item, countItems_redactItems items]

end

end Lists

/-! ## The caps -/

/-- Parts of some size each are as large together. -/
theorem le_joined {least : Nat} {sizes : List Nat} (h : ∀ size ∈ sizes, least ≤ size) :
    least * sizes.length ≤ joined sizes := by
  induction sizes with
  | nil => exact Nat.le_refl 0
  | cons size sizes ih =>
    obtain ⟨hsize, hsizes⟩ := List.forall_mem_cons.mp h
    have hrest := ih hsizes
    rw [joined, List.length_cons, Nat.mul_succ]
    omega

/-- A mapping with a number of entries that hold nothing, under the numbers as keys. -/
def wideMapping (width : Nat) : Value :=
  .mapping true ((List.range width).map fun index => (toString index, .null))

/-- Each entry of a wide mapping counts, in whatever way texts and lists do. -/
theorem le_weigh_wideMapping (textBytes : String → Nat) (listBytes : List Nat → Nat) (width : Nat) :
    8 * width ≤ weigh textBytes listBytes (wideMapping width) := by
  rw [wideMapping, weigh, weighEntries_eq]
  have hsizes := @le_joined 8 ((((List.range width).map fun index => (toString index, Value.null))).map fun entry =>
    quotedBytes entry.1 + 2 + if isCredentialKey entry.1 then 12 else weigh textBytes listBytes entry.2) ?_
  · rw [List.length_map, List.length_map, List.length_range] at hsizes
    exact Nat.le_add_left_of_le hsizes
  · intro size hsize
    rw [List.map_map] at hsize
    obtain ⟨index, -, rfl⟩ := List.mem_map.mp hsize
    dsimp only [Function.comp_apply, quotedBytes]
    split
    · omega
    · rw [weigh]
      omega

/-- A wide mapping is captured with all of its entries. -/
theorem le_measure_wideMapping (caps : Caps) (width : Nat) (output : Value) :
    8 * width ≤ measure (summarisePayload words caps (wideMapping width) output).input := by
  rw [summarisePayload]
  split
  · rw [measure_redact]
    exact le_weigh_wideMapping _ _ width
  · rw [measure_structure]
    exact le_weigh_wideMapping _ _ width

end DebugTrace
