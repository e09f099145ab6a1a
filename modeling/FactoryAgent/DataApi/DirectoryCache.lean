import FactoryAgent.DataApi.DirectorySchemas
import FactoryAgent.Lib.DecimalFloat
import FactoryAgent.Lib.Json

/-!
# The cache of a directory

`_encode` and `_decode` of `data_api/knowledge_directory.py`. An entry of the cache is the JSON text of a snapshot under
a header; it is accepted just where it carries a snapshot (`decode_eq_some`): it has the header, is not a day old, and
its rows have the fields of their datasets, each of its type, and pass the checks that relate them. What the live path
lets through is carried by its entry (`carries_encode`).

The schemas of the live path limit identifiers to 128 characters and `_decode` does not, so an entry with a longer one
is accepted and no response is (`long_identifier`). That is the one difference (`directory_cache_iff`).

The digest of a tenant is a parameter.
-/

namespace KnowledgeDirectory

open DirectorySharing (Family)

/-! ## Writing -/

/-- `_SEMANTIC_VERSION` -/
def semanticVersion : String :=
  "safe-directory-v1"

/-- A value in an entry. -/
def DictionaryValue.json : DictionaryValue → Json
  | text value => .str value
  | int value => .int value
  | flag value => .bool value

/-- A row in an entry. -/
def rowJson (row : Row) : Json :=
  .obj (row.map fun field => (field.1, field.2.json))

/-- A collection in an entry. -/
def collectionJson (collection : Collection) : Json :=
  .obj [("rows", .arr (collection.rows.map rowJson)), ("total", .int collection.total)]

/-- The collections in an entry. -/
def collectionsJson (collections : Collections) : Json :=
  .obj (collections.map fun collection => (collection.1.name, collectionJson collection.2))

variable (tenantHash : String → String) (family : Family) (tenant entity : String)

/-- The fields of an entry. -/
def entryFields (snapshot : Snapshot) : List (String × Json) :=
  [("version", .int 1), ("semantics", .str semanticVersion), ("family", .str (familyName family)),
    ("tenant", .str (tenantHash tenant)), ("entity", .str entity),
    ("generated_at", .str snapshot.generatedAt.time.isoformat), ("collections", collectionsJson snapshot.collections)]

/-- **`_encode`** -/
def encode (snapshot : Snapshot) : ByteArray :=
  (Json.dumpsCompact (.obj (entryFields tenantHash family tenant entity snapshot))).toUTF8

/-! ## Reading -/

/-- `set(entries) == names` -/
def hasKeys (entries : List (String × Json)) (names : List String) : Bool :=
  (entries.all fun entry => entry.1 ∈ names) && names.all fun name => name ∈ entries.map (·.1)

/-- A text. -/
def text? : Json → Option String
  | .str text => some text
  | _ => none

/-- `value == 1`, which a boolean and a floating point number can be as well. -/
def equalsOne : Json → Bool
  | .int n => n = 1
  | .bool value => value
  | .float literal => (Decimal.parse literal).any fun d => d.toDouble = Float.Model.ofScientific 1 0
  | _ => false

/-- The checks of the header of an entry. -/
def HeaderMatches (entry : List (String × Json)) : Prop :=
  (Json.get? entry "version").any equalsOne = true
    ∧ (Json.get? entry "semantics").bind text? = some semanticVersion
    ∧ (Json.get? entry "family").bind text? = some (familyName family)
    ∧ (Json.get? entry "tenant").bind text? = some (tenantHash tenant)
    ∧ (Json.get? entry "entity").bind text? = some entity

instance (entry : List (String × Json)) : Decidable (HeaderMatches tenantHash family tenant entity entry) :=
  inferInstanceAs (Decidable (_ ∧ _))

/-- `_TTL` in microseconds. -/
def ttl : Int :=
  24 * 60 * 60 * 1000000

/-- **An age** in `[0, _TTL)`. -/
def Fresh (now generatedAt : Instant) : Prop :=
  0 ≤ now.time.instant - generatedAt.time.instant ∧ now.time.instant - generatedAt.time.instant < ttl

instance (now generatedAt : Instant) : Decidable (Fresh now generatedAt) :=
  inferInstanceAs (Decidable (_ ∧ _))

/-- The time of an entry, which has to carry its zone. -/
def readTime (entry : List (String × Json)) : Option Instant :=
  (((Json.get? entry "generated_at").bind text?).bind DateTime.fromisoformat).bind fun time =>
    if zoned : time.offset.isSome = true then some ⟨time, zoned⟩ else none

/-- A value of a type, of which there is no other spelling. -/
def readValue : Kind → Json → Option DictionaryValue
  | .text, .str value => some (.text value)
  | .int, .int value => some (.int value)
  | .flag, .bool value => some (.flag value)
  | _, _ => none

/-- A row of an entry. -/
def readRow (dataset : Dataset) : Json → Option Row
  | .obj row =>
    if hasKeys row ((fields dataset).map (·.1)) then
      (fields dataset).mapM fun field => ((Json.get? row field.1).bind (readValue field.2)).map (field.1, ·)
    else none
  | _ => none

/-- A collection of an entry. -/
def readEntryCollection (dataset : Dataset) : Json → Option Collection
  | .obj collection =>
    if hasKeys collection ["rows", "total"] then
      match Json.get? collection "total", Json.get? collection "rows" with
      | some (.int total), some (.arr rows) =>
        if total = rows.length then (rows.mapM (readRow dataset)).map (⟨·, total⟩) else none
      | _, _ => none
    else none
  | _ => none

/-- The collections of an entry. -/
def readCollections : Json → Option Collections
  | .obj collections =>
    if hasKeys collections ((datasets family).map (·.name)) then
      (datasets family).mapM fun dataset =>
        ((Json.get? collections dataset.name).bind (readEntryCollection dataset)).map (dataset, ·)
    else none
  | _ => none

/-- The keys of an entry. -/
def entryKeys : List String :=
  ["version", "semantics", "family", "tenant", "entity", "generated_at", "collections"]

/-- A snapshot of an entry. -/
def cachedSnapshot (collections : Collections) (generatedAt : Instant) : Snapshot :=
  { collections, generatedAt, complete := true, reason := none, cacheSource := .cache }

variable (budgets : Budgets) (now : Instant)

/-- An entry that is an object. -/
def decodeEntry (entry : List (String × Json)) : Option Snapshot :=
  if hasKeys entry entryKeys = true ∧ HeaderMatches tenantHash family tenant entity entry then
    (readTime entry).bind fun generatedAt =>
      if Fresh now generatedAt then
        ((Json.get? entry "collections").bind (readCollections family)).bind fun collections =>
          if budgets.maxRows < (collections.map (·.2.total)).sum then none
          else
            match validateRelations collections entity with
            | .ok _ => some (cachedSnapshot collections generatedAt)
            | .error _ => none
      else none
  else none

/-- **`_decode`** -/
def decode (raw : ByteArray) : Option Snapshot :=
  match (String.fromUTF8? raw).bind Json.loads with
  | some (.obj entry) => decodeEntry tenantHash family tenant entity budgets now entry
  | _ => none

/-! ## What an entry carries -/

/-- A row is written as an object. -/
def CarriesRow (dataset : Dataset) (json : Json) (row : Row) : Prop :=
  Typed dataset row ∧ ∃ entries, json = .obj entries ∧ hasKeys entries (row.map (·.1)) = true
    ∧ ∀ field ∈ row, Json.get? entries field.1 = some field.2.json

/-- A collection is written as an object. -/
def CarriesCollection (dataset : Dataset) (json : Json) (collection : Collection) : Prop :=
  ∃ entries rows, json = .obj entries ∧ hasKeys entries ["rows", "total"] = true
    ∧ Json.get? entries "total" = some (.int collection.total) ∧ Json.get? entries "rows" = some (.arr rows)
    ∧ collection.total = rows.length ∧ List.Forall₂ (CarriesRow dataset) rows collection.rows

/-- The collections are written as an object. -/
def CarriesCollections (json : Json) (collections : Collections) : Prop :=
  ∃ entries, json = .obj entries ∧ hasKeys entries ((datasets family).map (·.name)) = true
    ∧ collections.map (·.1) = datasets family ∧ ∀ collection ∈ collections, ∃ value,
      Json.get? entries collection.1.name = some value ∧ CarriesCollection collection.1 value collection.2

/-- **What an entry of the cache carries**: a directory under a header, and a time. -/
structure Carries (raw : ByteArray) (collections : Collections) (generatedAt : Instant) : Prop where
  entry : ∃ entry, (String.fromUTF8? raw).bind Json.loads = some (.obj entry) ∧ hasKeys entry entryKeys = true
    ∧ HeaderMatches tenantHash family tenant entity entry ∧ readTime entry = some generatedAt
    ∧ ∃ listed, Json.get? entry "collections" = some listed ∧ CarriesCollections family listed collections
  fresh : Fresh now generatedAt
  budget : (collections.map (·.2.total)).sum ≤ budgets.maxRows
  related : validateRelations collections entity = .ok ()

/-- A value of a type is spelled in one way. -/
theorem readValue_eq_some {kind : Kind} {json : Json} {value : DictionaryValue} :
    readValue kind json = some value ↔ value.kind = kind ∧ json = value.json := by
  constructor
  · intro h
    unfold readValue at h
    split at h <;> cases h <;> exact ⟨rfl, rfl⟩
  · rintro ⟨rfl, rfl⟩
    cases value <;> rfl

/-- The names of a typed row are those of its dataset. -/
theorem Typed.names {dataset : Dataset} {row : Row} (h : Typed dataset row) :
    row.map (·.1) = (fields dataset).map (·.1) := by
  rw [← h, List.map_map]
  rfl

/-- **A row is read where it is carried.** -/
theorem readRow_eq_some {dataset : Dataset} {json : Json} {row : Row} :
    readRow dataset json = some row ↔ CarriesRow dataset json row := by
  constructor
  · intro h
    unfold readRow at h
    cases json with
    | obj entries =>
      obtain ⟨hkeys, h⟩ := Option.ite_none_right_eq_some.mp h
      have hread := Option.mapM_eq_some_iff.mp h
      have hfield : ∀ field value, (((Json.get? entries field.1).bind (readValue field.2)).map (field.1, ·)
          = some value) → (value.1, value.2.kind) = field ∧ Json.get? entries value.1 = some value.2.json := by
        intro field value hvalue
        obtain ⟨read, hread, rfl⟩ := Option.map_eq_some_iff.mp hvalue
        obtain ⟨json, hjson, hread⟩ := Option.bind_eq_some_iff.mp hread
        obtain ⟨hkind, rfl⟩ := readValue_eq_some.mp hread
        exact ⟨Prod.ext rfl hkind, hjson⟩
      have htyped : Typed dataset row := by
        refine (Aligned.map_eq hread fun field _ value _ hvalue => (hfield field value hvalue).1.symm).symm.trans ?_
        exact List.map_id _
      refine ⟨htyped, entries, rfl, by rw [htyped.names]; exact hkeys, fun value hmem => ?_⟩
      obtain ⟨field, -, hvalue⟩ := Aligned.exists_left hread hmem
      exact (hfield field value hvalue).2
    | _ => cases h
  · rintro ⟨htyped, entries, rfl, hkeys, hvalues⟩
    rw [htyped.names] at hkeys
    rw [readRow, if_pos hkeys, Option.mapM_eq_some_iff]
    rw [← htyped, List.forall₂_map_left_iff, List.forall₂_same]
    intro field hmem
    rw [hvalues field hmem, Option.bind_some, readValue_eq_some.mpr ⟨rfl, rfl⟩]
    rfl

/-- **A collection is read where it is carried.** -/
theorem readEntryCollection_eq_some {dataset : Dataset} {json : Json} {collection : Collection} :
    readEntryCollection dataset json = some collection ↔ CarriesCollection dataset json collection := by
  constructor
  · intro h
    unfold readEntryCollection at h
    cases json with
    | obj entries =>
      obtain ⟨hkeys, h⟩ := Option.ite_none_right_eq_some.mp h
      split at h
      · next total rows htotal hrows =>
        obtain ⟨hlength, h⟩ := Option.ite_none_right_eq_some.mp h
        obtain ⟨read, hread, rfl⟩ := Option.map_eq_some_iff.mp h
        exact ⟨entries, rows, rfl, hkeys, htotal, hrows, hlength,
          (Option.mapM_eq_some_iff.mp hread).imp fun _ _ => readRow_eq_some.mp⟩
      · cases h
    | _ => cases h
  · rintro ⟨entries, rows, rfl, hkeys, htotal, hrows, hlength, hcarried⟩
    have hread : rows.mapM (readRow dataset) = some collection.rows :=
      Option.mapM_eq_some_iff.mpr (hcarried.imp fun _ _ => readRow_eq_some.mpr)
    rw [readEntryCollection, if_pos hkeys, htotal, hrows]
    dsimp only
    rw [if_pos hlength, hread]
    rfl

variable {family}

/-- **The collections are read where they are carried.** -/
theorem readCollections_eq_some {json : Json} {collections : Collections} :
    readCollections family json = some collections ↔ CarriesCollections family json collections := by
  constructor
  · intro h
    unfold readCollections at h
    cases json with
    | obj entries =>
      obtain ⟨hkeys, h⟩ := Option.ite_none_right_eq_some.mp h
      have hread := Option.mapM_eq_some_iff.mp h
      refine ⟨entries, rfl, hkeys, ?_, fun collection hmem => ?_⟩
      · refine (Aligned.map_eq hread fun dataset _ collection _ hcollection => ?_).symm.trans (List.map_id _)
        obtain ⟨_, -, rfl⟩ := Option.map_eq_some_iff.mp hcollection
        rfl
      · obtain ⟨dataset, -, hcollection⟩ := Aligned.exists_left hread hmem
        obtain ⟨read, hread, rfl⟩ := Option.map_eq_some_iff.mp hcollection
        obtain ⟨value, hvalue, hread⟩ := Option.bind_eq_some_iff.mp hread
        exact ⟨value, hvalue, readEntryCollection_eq_some.mp hread⟩
    | _ => cases h
  · rintro ⟨entries, rfl, hkeys, hdatasets, hcarried⟩
    rw [readCollections, if_pos hkeys, Option.mapM_eq_some_iff]
    rw [← hdatasets, List.forall₂_map_left_iff, List.forall₂_same]
    intro collection hmem
    obtain ⟨value, hvalue, hcollection⟩ := hcarried collection hmem
    rw [hvalue, Option.bind_some, readEntryCollection_eq_some.mpr hcollection]
    rfl

variable {tenantHash tenant entity budgets now}

/-- **An entry is accepted where it carries a directory.** -/
theorem decode_eq_some {raw : ByteArray} {snapshot : Snapshot} :
    decode tenantHash family tenant entity budgets now raw = some snapshot ↔
      ∃ collections generatedAt, snapshot = cachedSnapshot collections generatedAt
        ∧ Carries tenantHash family tenant entity budgets now raw collections generatedAt := by
  constructor
  · intro h
    unfold decode at h
    split at h
    · next entry hentry =>
      obtain ⟨⟨hkeys, hheader⟩, h⟩ := Option.ite_none_right_eq_some.mp h
      obtain ⟨generatedAt, htime, h⟩ := Option.bind_eq_some_iff.mp h
      obtain ⟨hfresh, h⟩ := Option.ite_none_right_eq_some.mp h
      obtain ⟨collections, hread, h⟩ := Option.bind_eq_some_iff.mp h
      obtain ⟨listed, hlisted, hread⟩ := Option.bind_eq_some_iff.mp hread
      obtain ⟨hbudget, h⟩ := Option.ite_none_left_eq_some.mp h
      split at h
      · next hrelated =>
        cases h
        exact ⟨collections, generatedAt, rfl, ⟨entry, hentry, hkeys, hheader, htime, listed, hlisted,
          readCollections_eq_some.mp hread⟩, hfresh, Int.not_lt.mp hbudget, hrelated⟩
      · cases h
    · cases h
  · rintro ⟨collections, generatedAt, rfl,
      ⟨entry, hentry, hkeys, hheader, htime, listed, hlisted, hread⟩, hfresh, hbudget, hrelated⟩
    rw [decode, hentry]
    dsimp only
    rw [decodeEntry, if_pos ⟨hkeys, hheader⟩, htime, Option.bind_some, if_pos hfresh, hlisted, Option.bind_some,
      readCollections_eq_some.mpr hread, Option.bind_some, if_neg (Int.not_lt.mpr hbudget), hrelated]

/-- What an entry carries is approved. -/
theorem Carries.approved {raw : ByteArray} {collections : Collections} {generatedAt : Instant}
    (h : Carries tenantHash family tenant entity budgets now raw collections generatedAt) :
    Approved budgets family entity collections := by
  obtain ⟨entry, -, -, -, -, listed, -, entries, -, -, hdatasets, hcarried⟩ := h.entry
  refine ⟨hdatasets, fun collection hmem row hrow => ?_, fun collection hmem => ?_, h.budget, h.related⟩
  · obtain ⟨_, -, _, rows, -, -, -, -, -, hrows⟩ := hcarried collection hmem
    obtain ⟨_, -, hcarriedRow⟩ := Aligned.exists_left hrows hrow
    exact hcarriedRow.1
  · obtain ⟨_, -, _, rows, -, -, -, -, htotal, hrows⟩ := hcarried collection hmem
    rw [htotal, hrows.length_eq]

/-! ## The entry of a snapshot -/

/-- An object has its own keys. -/
theorem hasKeys_self (entries : List (String × Json)) : hasKeys entries (entries.map (·.1)) = true := by
  rw [hasKeys, Bool.and_eq_true, List.all_eq_true, List.all_eq_true]
  exact ⟨fun entry hmem => decide_eq_true (List.mem_map_of_mem hmem), fun name hmem => decide_eq_true hmem⟩

/-- The fields of a dataset have distinct names. -/
theorem nodup_fields (dataset : Dataset) : ((fields dataset).map (·.1)).Nodup := by
  cases dataset <;> decide

/-- The datasets of a family have distinct names. -/
theorem nodup_datasets (family : Family) : ((datasets family).map (·.name)).Nodup := by
  cases family <;> decide

/-- A typed row is carried by its object. -/
theorem carriesRow_rowJson {dataset : Dataset} {row : Row} (h : Typed dataset row) :
    CarriesRow dataset (rowJson row) row := by
  have hnames : (row.map fun field => (field.1, field.2.json)).map (·.1) = row.map (·.1) := by
    rw [List.map_map]
    rfl
  refine ⟨h, _, rfl, ?_, fun field hmem => Json.get?_of_mem ?_ (List.mem_map_of_mem hmem)⟩
  · rw [← hnames]
    exact hasKeys_self _
  · show ((row.map fun field => (field.1, field.2.json)).map (·.1)).Nodup
    rw [hnames, h.names]
    exact nodup_fields dataset

/-- A collection of typed rows is carried by its object. -/
theorem carriesCollection_collectionJson {dataset : Dataset} {collection : Collection}
    (htotal : (collection.rows.length : Int) = collection.total) (htyped : ∀ row ∈ collection.rows, Typed dataset row) :
    CarriesCollection dataset (collectionJson collection) collection := by
  refine ⟨_, collection.rows.map rowJson, rfl, hasKeys_self _, rfl, rfl, ?_, ?_⟩
  · rw [List.length_map, htotal]
  · exact List.forall₂_map_left_iff.mpr (List.forall₂_same.mpr fun row hrow => carriesRow_rowJson (htyped row hrow))

/-- **An approved directory is carried by its object.** -/
theorem Approved.carries_collectionsJson {collections : Collections}
    (h : Approved budgets family entity collections) :
    CarriesCollections family (collectionsJson collections) collections := by
  have hnames : (collections.map fun collection => (collection.1.name, collectionJson collection.2)).map (·.1)
      = (KnowledgeDirectory.datasets family).map (·.name) := by
    rw [← h.datasets, List.map_map, List.map_map]
    rfl
  refine ⟨_, rfl, ?_, h.datasets, fun collection hmem => ⟨_, Json.get?_of_mem ?_ (List.mem_map_of_mem hmem), ?_⟩⟩
  · rw [← hnames]
    exact hasKeys_self _
  · show ((collections.map fun collection => (collection.1.name, collectionJson collection.2)).map (·.1)).Nodup
    rw [hnames]
    exact nodup_datasets family
  · exact carriesCollection_collectionJson (h.totals collection hmem) (h.typed collection hmem)

/-- A row is written as a value of JSON. -/
theorem exact_rowJson (row : Row) : Json.Exact (rowJson row) := by
  refine .obj fun field hmem => ?_
  obtain ⟨⟨name, value⟩, -, rfl⟩ := List.mem_map.mp hmem
  cases value with
  | text value => exact .str value
  | int value => exact .int value
  | flag value => exact .bool value

/-- The collections are written as a value of JSON. -/
theorem exact_collectionsJson (collections : Collections) : Json.Exact (collectionsJson collections) := by
  refine .obj fun field hmem => ?_
  obtain ⟨collection, -, rfl⟩ := List.mem_map.mp hmem
  refine .obj ?_
  simp only [List.forall_mem_cons]
  refine ⟨.arr fun row hrow => ?_, .int _, fun _ h => absurd h List.not_mem_nil⟩
  obtain ⟨row, -, rfl⟩ := List.mem_map.mp hrow
  exact exact_rowJson row

/-- **An entry is read back as its fields.** -/
theorem loads_encode (snapshot : Snapshot) :
    (String.fromUTF8? (encode tenantHash family tenant entity snapshot)).bind Json.loads
      = some (.obj (entryFields tenantHash family tenant entity snapshot)) := by
  rw [encode, Json.fromUTF8?_toUTF8, Option.bind_some]
  refine Json.loads_dumpsCompact (.obj ?_)
  simp only [entryFields, List.forall_mem_cons]
  exact ⟨.int _, .str _, .str _, .str _, .str _, .str _, exact_collectionsJson _,
    fun _ h => absurd h List.not_mem_nil⟩

/-- The fields of an entry are found by their keys. -/
theorem get?_entryFields {snapshot : Snapshot} (key : String) (value : Json)
    (h : (key, value) ∈ entryFields tenantHash family tenant entity snapshot) :
    Json.get? (entryFields tenantHash family tenant entity snapshot) key = some value := by
  have hnodup : ((entryFields tenantHash family tenant entity snapshot).map Prod.fst).Nodup := by
    show entryKeys.Nodup
    decide
  exact Json.get?_of_mem hnodup h

/-- The header of an entry is the one that is asked for. -/
theorem headerMatches_entryFields (snapshot : Snapshot) :
    HeaderMatches tenantHash family tenant entity (entryFields tenantHash family tenant entity snapshot) := by
  unfold HeaderMatches
  rw [get?_entryFields "version" (.int 1) (by simp [entryFields]),
    get?_entryFields "semantics" (.str semanticVersion) (by simp [entryFields]),
    get?_entryFields "family" (.str (familyName family)) (by simp [entryFields]),
    get?_entryFields "tenant" (.str (tenantHash tenant)) (by simp [entryFields]),
    get?_entryFields "entity" (.str entity) (by simp [entryFields])]
  exact ⟨rfl, rfl, rfl, rfl, rfl⟩

/-- The time of an entry is read back. -/
theorem readTime_entryFields (snapshot : Snapshot) :
    readTime (entryFields tenantHash family tenant entity snapshot) = some snapshot.generatedAt := by
  rw [readTime, get?_entryFields "generated_at" (.str snapshot.generatedAt.time.isoformat) (by simp [entryFields]),
    Option.bind_some, text?, Option.bind_some, DateTime.fromisoformat_isoformat, Option.bind_some,
    dif_pos snapshot.generatedAt.zoned]

/-- **What was encoded is carried**, at any age of less than a day. -/
theorem carries_encode {collections : Collections} (h : Approved budgets family entity collections)
    {generatedAt : Instant} (hfresh : Fresh now generatedAt) (reason : Option String) :
    Carries tenantHash family tenant entity budgets now
      (encode tenantHash family tenant entity (liveSnapshot generatedAt collections reason)) collections
      generatedAt := by
  refine ⟨⟨_, loads_encode _, ?_, headerMatches_entryFields _, readTime_entryFields _, _,
    get?_entryFields "collections" (collectionsJson collections) (by simp [entryFields, liveSnapshot]),
    h.carries_collectionsJson⟩, hfresh, h.budget, h.related⟩
  exact hasKeys_self _

/-! ## The cache and the live path -/

/-- **A request for a directory.** Only two of the families are asked for by an entity. -/
structure Request where
  family : Family
  entity : String
  addressed : (family = .styleForm ∨ family = .billProcesses) ∨ entity = ""

/-- The hanging lines are asked for as a whole. -/
theorem Request.entity_eq_empty (request : Request) (h : request.family = .hangingLines) : request.entity = "" := by
  rcases request.addressed with (hfamily | hfamily) | hentity
  · exact absurd (h.symm.trans hfamily) (by decide)
  · exact absurd (h.symm.trans hfamily) (by decide)
  · exact hentity

variable (coerce : Payload → Option Int) (tenantHash : String → String) (budgets : Budgets) (request : Request)

/-- **A live snapshot survives the cache.** Every complete snapshot of the live path is decoded from what it is encoded
to, with its rows, totals and time, as long as it is less than a day old. -/
def RoundTrips : Prop :=
  ∀ (tenant : String) (generatedAt now : Instant) (replies : Nat → Payload) (snapshot : Snapshot),
    fetchLive coerce budgets generatedAt request.family request.entity replies = .ok snapshot →
    snapshot.complete = true → Fresh now generatedAt →
      decode tenantHash request.family tenant request.entity budgets now
        (encode tenantHash request.family tenant request.entity snapshot) = some { snapshot with cacheSource := .cache }

/-- **The cache is not more permissive than the live path**: an entry is accepted only with the header that is asked
for and less than a day old, and only if the live path lets its rows through as well. -/
def NotMorePermissive (tenant : String) (now : Instant) (raw : ByteArray) : Prop :=
  ∀ snapshot, decode tenantHash request.family tenant request.entity budgets now raw = some snapshot →
    (∃ entry, (String.fromUTF8? raw).bind Json.loads = some (.obj entry)
      ∧ HeaderMatches tenantHash request.family tenant request.entity entry
      ∧ readTime entry = some snapshot.generatedAt)
    ∧ Fresh now snapshot.generatedAt
    ∧ ∃ replies, fetchLive coerce budgets snapshot.generatedAt request.family request.entity replies
      = .ok { snapshot with cacheSource := .live }

/-- **Live snapshots survive the cache.** -/
theorem roundTrips : RoundTrips coerce tenantHash budgets request := by
  intro tenant generatedAt now replies snapshot hlive hcomplete hfresh
  obtain ⟨happroved, -, hsnapshot⟩ := approved_of_fetchLive request.entity_eq_empty hlive hcomplete
  rw [hsnapshot]
  exact decode_eq_some.mpr ⟨snapshot.collections, generatedAt, rfl, carries_encode happroved hfresh none⟩

/-- **The cache of a directory against its live path.** Live snapshots survive the cache, and an entry is accepted only
where the live path lets its rows through, just as long as it does not carry an identifier of more than 128
characters. -/
theorem directory_cache_iff (tenant : String) (now : Instant) (raw : ByteArray) :
    (RoundTrips coerce tenantHash budgets request
        ∧ NotMorePermissive coerce tenantHash budgets request tenant now raw) ↔
      ∀ collections generatedAt,
        Carries tenantHash request.family tenant request.entity budgets now raw collections generatedAt →
          Short collections := by
  constructor
  · rintro ⟨-, hlive⟩ collections generatedAt hcarries
    obtain ⟨-, -, replies, hreplies⟩ := hlive _ (decode_eq_some.mpr ⟨collections, generatedAt, rfl, hcarries⟩)
    exact (approved_of_fetchLive request.entity_eq_empty hreplies rfl).2.1
  · refine fun hshort => ⟨roundTrips coerce tenantHash budgets request, fun snapshot hdecode => ?_⟩
    obtain ⟨collections, generatedAt, rfl, hcarries⟩ := decode_eq_some.mp hdecode
    obtain ⟨entry, hentry, -, hheader, htime, -⟩ := hcarries.entry
    exact ⟨⟨entry, hentry, hheader, htime⟩, hcarries.fresh, _,
      hcarries.approved.fetchLive_eq_ok request.entity_eq_empty (hshort collections generatedAt hcarries)⟩

/-- A request for the production types. -/
def typesRequest : Request :=
  ⟨.productionTypes, "", .inr rfl⟩

/-- The budgets of a source by default. -/
def defaultBudgets : Budgets :=
  ⟨250000, 20, by decide⟩

/-- The digest of `tenant-a`. -/
def digest (_ : String) : String :=
  "80a707af7dc77ee1228f9127180f3964835e5beb4c4ab0d812f0fe7593579b3a"

/-- A time, with its zone. -/
def noon : Instant :=
  ⟨⟨⟨2026, 3, 2, 12, 0, 0, 0, some 0⟩, by decide⟩, rfl⟩

/-- An identifier of 129 characters. -/
def longText : String :=
  String.ofList (List.replicate 129 '7')

/-- A production type with a long identifier. -/
def longType : Row :=
  [("type_id", .text longText), ("name", .text "knit"), ("deleted", .flag false), ("counts_cutting", .flag true),
    ("counts_stock", .flag true)]

/-- A directory of one production type. -/
def longDirectory : Collections :=
  [(.productionTypes, ⟨[longType], 1⟩)]

/-- The entry of the directory. -/
def longEntry : ByteArray :=
  encode digest .productionTypes "tenant-a" "" (liveSnapshot noon longDirectory none)

/-- The directory is typed and related. -/
theorem approved_longDirectory : Approved defaultBudgets .productionTypes "" longDirectory where
  datasets := rfl
  typed := by simp [longDirectory, Typed, longType, fields, DictionaryValue.kind]
  totals := by simp [longDirectory]
  budget := by decide
  related := by decide +kernel

/-- The directory has a long identifier. -/
theorem not_short_longDirectory : ¬Short longDirectory := by
  intro hshort
  have hrow : ShortIdentifiers .productionTypes longType :=
    hshort _ List.mem_cons_self longType List.mem_cons_self
  have hlength : longText.length ≤ 128 :=
    hrow ("type_id", .text longText) List.mem_cons_self (by decide) longText rfl
  have hlong : longText.length = 129 := String.length_ofList.trans List.length_replicate
  omega

/-- **A long identifier.** An entry with an identifier of 129 characters is accepted, and no response with it is. -/
theorem long_identifier :
    ¬NotMorePermissive (fun _ => none) digest defaultBudgets typesRequest "tenant-a" noon longEntry := by
  intro hlive
  have hcarries : Carries digest .productionTypes "tenant-a" "" defaultBudgets noon longEntry longDirectory noon :=
    carries_encode approved_longDirectory (by decide) none
  obtain ⟨-, -, replies, hreplies⟩ := hlive _ (decode_eq_some.mpr ⟨longDirectory, noon, rfl, hcarries⟩)
  exact not_short_longDirectory (approved_of_fetchLive (fun h => by cases h) hreplies rfl).2.1

end KnowledgeDirectory
