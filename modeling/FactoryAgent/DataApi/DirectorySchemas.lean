import FactoryAgent.DataApi.DirectorySharing
import FactoryAgent.Lib.Aligned
import FactoryAgent.Lib.Checks
import FactoryAgent.Lib.Except
import FactoryAgent.Lib.IsoDateTime
import FactoryAgent.Lib.Keys
import FactoryAgent.Lib.Text
import Mathlib.Algebra.BigOperators.Ring.Finset
import Mathlib.Data.List.Infix

/-!
# The directories of a tenant

The live path of `data_api/knowledge_directory.py`, with the row schemas of `data_api/dictionary_schemas.py`: the
response to a request is validated field by field, each row is projected to the approved fields, and the rows are
checked against each other. What a complete snapshot of it holds is typed (`typed_of_fetchLive`), and every snapshot of
typed rows that passes the checks is the answer to some response (`fetchLive_of_typed`), as long as its identifiers
have no more than 128 characters.

A snapshot maps datasets to collections and a row maps fields to values; both are listed in the order of the tables
of the source. A text is a sequence of Unicode scalar values, which is what the schemas let through. The budget of
requests and the tenant binding, which refuse a request before there is a response, are left out, and so are the field
paths of a validation error.
-/

namespace KnowledgeDirectory

open DirectorySharing (Family)

/-! ## The tables -/

/-- The datasets of `_FAMILY_BY_DATASET`. -/
inductive Dataset
  | styles
  | styleTypes
  | productionTypes
  | processes
  | styleProcesses
  | styleColors
  | styleSizes
  | billProcesses
  | hangingLines
  deriving DecidableEq

/-- The name of a dataset. -/
def Dataset.name : Dataset → String
  | styles => "styles"
  | styleTypes => "style_types"
  | productionTypes => "production_types"
  | processes => "processes"
  | styleProcesses => "style_processes"
  | styleColors => "style_colors"
  | styleSizes => "style_sizes"
  | billProcesses => "bill_processes"
  | hangingLines => "hanging_lines"

/-- The name of a family. -/
def familyName : Family → String
  | .styleDirectory => "style_directory"
  | .productionTypes => "production_types"
  | .processes => "processes"
  | .styleProcesses => "style_processes"
  | .styleForm => "style_form"
  | .billProcesses => "bill_processes"
  | .hangingLines => "hanging_lines"

/-- `_COLLECTIONS_BY_FAMILY`: the datasets of a family, each with the fields of its rows and of its total. -/
def collectionsByFamily : Family → List (Dataset × String × String)
  | .styleDirectory =>
    [(.styles, "huohaoList", "hh_total"), (.styleTypes, "huohaoTypeList", "ht_total")]
  | .styleForm =>
    [(.styles, "huohaoList", "hh_total"), (.styleColors, "huohaoColorList", "hc_total"),
      (.styleSizes, "huohaoChimaList", "hs_total")]
  | .productionTypes => [(.productionTypes, "sctypeList", "total")]
  | .processes => [(.processes, "worktypeList", "total")]
  | .styleProcesses => [(.styleProcesses, "list", "total")]
  | .billProcesses => [(.billProcesses, "list", "total")]
  | .hangingLines => [(.hangingLines, "list", "total")]

/-- The datasets of a family. -/
def datasets (family : Family) : List Dataset :=
  (collectionsByFamily family).map (·.1)

/-- The types of the fields of a projected row. -/
inductive Kind
  | text
  | int
  | flag
  deriving DecidableEq

/-- `_FIELDS` -/
def fields : Dataset → List (String × Kind)
  | .styles =>
    [("style_id", .text), ("style_code", .text), ("name", .text), ("type_id", .text), ("unit", .text)]
  | .styleTypes =>
    [("type_id", .text), ("parent_type_id", .text), ("name", .text), ("deleted", .flag)]
  | .productionTypes =>
    [("type_id", .text), ("name", .text), ("deleted", .flag), ("counts_cutting", .flag), ("counts_stock", .flag)]
  | .processes =>
    [("process_id", .text), ("name", .text), ("type_name", .text), ("vehicle_type", .text), ("flow_type", .int),
      ("deleted", .flag), ("sort_order", .text)]
  | .styleProcesses =>
    [("configuration_id", .text), ("style_id", .text), ("style_code", .text), ("process_id", .text),
      ("name", .text), ("type_id", .text), ("type_name", .text), ("sort_order", .int), ("active", .flag),
      ("last_process", .flag)]
  | .styleColors => [("configuration_id", .text), ("style_id", .text), ("color", .text)]
  | .styleSizes =>
    [("configuration_id", .text), ("style_id", .text), ("size", .text), ("fit", .text), ("weight", .text)]
  | .billProcesses =>
    [("configuration_id", .text), ("bill_code", .text), ("style_id", .text), ("style_code", .text),
      ("process_id", .text), ("name", .text), ("type_id", .text), ("type_name", .text), ("sort_order", .int),
      ("last_process", .flag)]
  | .hangingLines =>
    [("configuration_id", .text), ("system_name", .text), ("line_code", .text), ("group_name", .text)]

/-- `_KEY_FIELD` -/
def keyField : Dataset → String
  | .styles => "style_id"
  | .styleTypes => "type_id"
  | .productionTypes => "type_id"
  | .processes => "process_id"
  | .styleProcesses => "configuration_id"
  | .styleColors => "configuration_id"
  | .styleSizes => "configuration_id"
  | .billProcesses => "configuration_id"
  | .hangingLines => "configuration_id"

/-! ## Rows -/

/-- A value of a projected row. -/
inductive DictionaryValue
  | text (value : String)
  | int (value : Int)
  | flag (value : Bool)
  deriving DecidableEq

/-- The type of a value. -/
def DictionaryValue.kind : DictionaryValue → Kind
  | text _ => .text
  | int _ => .int
  | flag _ => .flag

/-- **A projected row.** -/
abbrev Row := List (String × DictionaryValue)

/-- `_Collection` -/
structure Collection where
  rows : List Row
  total : Int
  deriving DecidableEq

/-- A dataset and its collection. -/
abbrev Collections := List (Dataset × Collection)

/-- **A row with the fields of its dataset**, each of its type. -/
def Typed (dataset : Dataset) (row : Row) : Prop :=
  row.map (fun field => (field.1, field.2.kind)) = fields dataset

/-! ## What the rows have to do with each other -/

/-- The fields that relate a row to others. -/
def stable (name : String) : Bool :=
  "_id".toList.isSuffixOf name.toList || name ∈ ["style_code", "bill_code", "line_code"]

/-- A text that is neither blank nor surrounded by blanks. -/
def Canonical : DictionaryValue → Prop
  | .text value => value ≠ "" ∧ value = Text.strip value
  | _ => False

instance (value : DictionaryValue) : Decidable (Canonical value) :=
  match value with
  | .text value => inferInstanceAs (Decidable (value ≠ "" ∧ value = Text.strip value))
  | .int _ => .isFalse id
  | .flag _ => .isFalse id

/-- The field that names the entity of a row. -/
def entityField (dataset : Dataset) : String :=
  if dataset = .billProcesses then "bill_code" else "style_id"

/-- The checks of one row. -/
def validateRow (dataset : Dataset) (entity : String) (row : Row) : Except String Unit := do
  Checks.each row fun field =>
    Checks.require (stable field.1 = true → Canonical field.2) "directory contains an invalid stable relation"
  Checks.require (entity ≠ "" → row.lookup (entityField dataset) = some (.text entity))
    "directory response does not match its entity"

/-- A code has one name: `names` are those of the rows before. A field that a row lacks is a `KeyError`. -/
def validateNames (codeField nameField : String) :
    List (DictionaryValue × DictionaryValue) → List Row → Except String Unit
  | _, [] => .ok ()
  | names, row :: rows =>
    match row.lookup codeField, row.lookup nameField with
    | some code, some name => do
      Checks.require (∀ known ∈ names.lookup code, known = name) "directory code has conflicting names"
      validateNames codeField nameField ((code, name) :: names) rows
    | none, _ => .error codeField
    | some _, none => .error nameField

/-- The checks of one collection. -/
def validateCollection (entity : String) (dataset : Dataset) (rows : List Row) : Except String Unit := do
  Checks.require (rows.map (·.lookup (keyField dataset))).Nodup
    "directory contains duplicate stable identifiers"
  Checks.each rows (validateRow dataset entity)
  Checks.each (if dataset = .styleProcesses ∨ dataset = .billProcesses then
      [("style_id", "style_code"), ("process_id", "name"), ("type_id", "type_name")] else [])
    fun names => validateNames names.1 names.2 [] rows
  Checks.require (dataset = .billProcesses → (rows.map (·.lookup "style_id")).eraseDups.length ≤ 1)
    "bill configuration has conflicting style relations"

/-- The values of a field in a dataset. -/
def fieldValues (collections : Collections) (dataset : Dataset) (field : String) : List (Option DictionaryValue) :=
  ((collections.lookup dataset).elim [] (·.rows)).map (·.lookup field)

/-- The checks of the styles against the other collections. -/
def validateStyles (collections : Collections) (entity : String) : Except String Unit :=
  if (collections.lookup .styles).isNone then .ok ()
  else do
    Checks.require (fieldValues collections .styles "style_code").Nodup
      "style codes do not identify a unique style"
    if (collections.lookup .styleTypes).isSome then
      Checks.require (∀ type ∈ fieldValues collections .styles "type_id",
        type ∈ fieldValues collections .styleTypes "type_id") "style references an unknown type"
    else
      Checks.require (entity ≠ "" → ∀ style ∈ fieldValues collections .styleColors "style_id"
          ++ fieldValues collections .styleSizes "style_id", style ∈ fieldValues collections .styles "style_id")
        "style configuration references an unknown style"

/-- **`_validate_relations`** -/
def validateRelations (collections : Collections) (entity : String) : Except String Unit := do
  Checks.each collections fun collection => validateCollection entity collection.1 collection.2.rows
  validateStyles collections entity

/-! ## The row schemas -/

/-- A floating point number, as far as the schemas look at it: whether it is finite, the integer it is equal to, or how
it is written. -/
inductive FloatValue
  | nonFinite
  | whole (value : Int)
  | fractional (text : String)

/-- A value of a response. -/
inductive Payload
  | null
  | bool (value : Bool)
  | int (value : Int)
  | float (value : FloatValue)
  | str (value : String)
  | list (values : List Payload)
  | dict (fields : List (String × Payload))

/-- The types of the fields of the row schemas: `StableId`, `str`, `int` and `Switch`. -/
inductive FieldType
  | stableId
  | str
  | int
  | switch
  deriving DecidableEq

/-- **A field of a row schema**, and the field of the projected row that it becomes. -/
structure Column where
  raw : String
  type : FieldType
  default : Option DictionaryValue
  field : String
  deriving DecidableEq

/-- **The row schemas and their projections**: `StyleRow`, `StyleTypeRow` and so on. -/
def columns : Dataset → List Column
  | .styles =>
    [⟨"bh", .stableId, none, "style_id"⟩, ⟨"bbreed", .stableId, none, "style_code"⟩,
      ⟨"description", .str, none, "name"⟩, ⟨"stype", .stableId, none, "type_id"⟩, ⟨"dw", .str, none, "unit"⟩]
  | .styleTypes =>
    [⟨"bh", .stableId, none, "type_id"⟩, ⟨"pbh", .str, none, "parent_type_id"⟩, ⟨"name", .str, none, "name"⟩,
      ⟨"isdelete", .switch, none, "deleted"⟩]
  | .productionTypes =>
    [⟨"bh", .stableId, none, "type_id"⟩, ⟨"name", .str, none, "name"⟩, ⟨"isdelete", .switch, none, "deleted"⟩,
      ⟨"sfjcj", .switch, none, "counts_cutting"⟩, ⟨"sfcprk", .switch, none, "counts_stock"⟩]
  | .processes =>
    [⟨"bh", .stableId, none, "process_id"⟩, ⟨"name", .str, none, "name"⟩, ⟨"section", .str, none, "type_name"⟩,
      ⟨"vehicle_type", .str, some (.text ""), "vehicle_type"⟩, ⟨"gxtype", .int, none, "flow_type"⟩,
      ⟨"isdelete", .switch, none, "deleted"⟩, ⟨"wt_sort", .str, some (.text ""), "sort_order"⟩]
  | .styleProcesses =>
    [⟨"id", .stableId, none, "configuration_id"⟩, ⟨"huohao", .stableId, none, "style_id"⟩,
      ⟨"huohaoname", .stableId, none, "style_code"⟩, ⟨"wt", .stableId, none, "process_id"⟩,
      ⟨"wtname", .str, none, "name"⟩, ⟨"sctype", .stableId, none, "type_id"⟩,
      ⟨"sctypename", .str, none, "type_name"⟩, ⟨"sort", .int, none, "sort_order"⟩,
      ⟨"using_state", .switch, none, "active"⟩, ⟨"zhgx", .switch, none, "last_process"⟩]
  | .styleColors =>
    [⟨"id", .stableId, none, "configuration_id"⟩, ⟨"bh", .stableId, none, "style_id"⟩,
      ⟨"color", .str, none, "color"⟩]
  | .styleSizes =>
    [⟨"id", .stableId, none, "configuration_id"⟩, ⟨"bh", .stableId, none, "style_id"⟩,
      ⟨"chima", .str, none, "size"⟩, ⟨"banx", .str, some (.text ""), "fit"⟩,
      ⟨"kez", .str, some (.text ""), "weight"⟩]
  | .billProcesses =>
    [⟨"id", .stableId, none, "configuration_id"⟩, ⟨"dh", .stableId, none, "bill_code"⟩,
      ⟨"huohao", .stableId, none, "style_id"⟩, ⟨"huohaoname", .stableId, none, "style_code"⟩,
      ⟨"wt", .stableId, none, "process_id"⟩, ⟨"wtname", .str, none, "name"⟩,
      ⟨"sctype", .stableId, none, "type_id"⟩, ⟨"sctypename", .str, none, "type_name"⟩,
      ⟨"sort", .int, none, "sort_order"⟩, ⟨"zhgx", .switch, none, "last_process"⟩]
  | .hangingLines =>
    [⟨"id", .stableId, none, "configuration_id"⟩, ⟨"dgname", .str, none, "system_name"⟩,
      ⟨"xianhao", .stableId, none, "line_code"⟩, ⟨"zuBieName", .str, none, "group_name"⟩]

/-- The fields that `normalize_strings` takes for identifiers. -/
def identifiers : List String :=
  ["bh", "id", "huohao", "wt", "sctype", "dh", "bbreed", "xianhao"]

/-- The fields that `validate_identifiers` looks at. -/
def canonicalFields : List String :=
  ["bh", "id", "huohao", "wt", "sctype", "dh", "bbreed"]

/-- **`normalize_strings`** -/
def normalizeStrings (column : Column) (value : Payload) : Option Payload :=
  if column.type ≠ .str ∧ column.raw ∉ identifiers then some value
  else
    match value with
    | .bool _ => none
    | .int n => some (.str (toString n))
    | .float .nonFinite => none
    | .float (.whole n) =>
      if column.raw ∈ identifiers ∧ 2 ^ 53 < n.natAbs then none else some (.str (toString n))
    | .float (.fractional text) => if column.raw ∈ identifiers then none else some (.str text)
    | .null => some (.str "")
    | value => some value

/-- **`validate_identifiers`** -/
def validateIdentifiers (column : Column) (value : DictionaryValue) : Option DictionaryValue :=
  if column.raw ∈ canonicalFields ∧ ¬Canonical value then none else some value

variable (coerce : Payload → Option Int)

/-- An integer field: what else than an integer is one is up to the schema library. -/
def laxInt : Payload → Option Int
  | .int n => some n
  | value => coerce value

/-- A value of its type. -/
def FieldType.validate : FieldType → Payload → Option DictionaryValue
  | .stableId, .str text => if 1 ≤ text.length ∧ text.length ≤ 128 then some (.text text) else none
  | .str, .str text => some (.text text)
  | .int, value => (laxInt coerce value).map .int
  | .switch, value =>
    (laxInt coerce value).bind fun n => if 0 ≤ n ∧ n ≤ 1 then some (.flag (n ≠ 0)) else none
  | _, _ => none

/-- A field of a row: of the response, or its default, which is not validated. -/
def Column.read (column : Column) (row : List (String × Payload)) : Option DictionaryValue :=
  match row.lookup column.raw with
  | some value =>
    ((normalizeStrings column value).bind (column.type.validate coerce)).bind (validateIdentifiers column)
  | none => column.default

/-- **A row of a response, validated and projected.** -/
def projectRow (dataset : Dataset) : Payload → Option Row
  | .dict row => (columns dataset).mapM fun column => (column.read coerce row).map (column.field, ·)
  | _ => none

/-- A collection of a response, with the fields of its rows and of its total. -/
def readCollection (dataset : Dataset) (rowField totalField : String) (response : List (String × Payload)) :
    Option Collection :=
  match response.lookup rowField, response.lookup totalField with
  | some (.list rows), some (.int total) =>
    if 0 ≤ total then (rows.mapM (projectRow coerce dataset)).map (⟨·, total⟩) else none
  | _, _ => none

/-- **`from_payload`** of the model of a family, with the rows projected. -/
def fromPayload (family : Family) : Payload → Option Collections
  | .dict response => (collectionsByFamily family).mapM fun (dataset, rowField, totalField) =>
    (readCollection coerce dataset rowField totalField response).map (dataset, ·)
  | _ => none

/-! ## The fetch -/

/-- A time of the clock, which carries its zone. -/
structure Instant where
  time : DateTime
  zoned : time.offset.isSome = true
  deriving DecidableEq

/-- Where a snapshot came from. -/
inductive CacheSource
  | cache
  | live
  deriving DecidableEq

/-- `_DirectorySnapshot` -/
structure Snapshot where
  collections : Collections
  generatedAt : Instant
  complete : Bool
  reason : Option String
  cacheSource : CacheSource
  deriving DecidableEq

/-- **The budgets of a source.** -/
structure Budgets where
  maxRows : Nat
  maxPages : Nat
  positive : 1 ≤ maxPages

variable (budgets : Budgets) (now : Instant)

/-- A snapshot of a fetch. -/
def liveSnapshot (collections : Collections) (reason : Option String) : Snapshot :=
  { collections, generatedAt := now, complete := reason.isNone, reason, cacheSource := .live }

/-- The number of rows of a response, and the totals it claims, where it has its fields. -/
def rawCounts (family : Family) : Payload → Option (List (Nat × Dataset × Int))
  | .dict response => (collectionsByFamily family).mapM fun (dataset, rowField, totalField) =>
    match response.lookup rowField, response.lookup totalField with
    | some (.list rows), some (.int total) => if 0 ≤ total then some (rows.length, dataset, total) else none
    | _, _ => none
  | _ => none

/-- **`_check_raw_budget`** -/
def checkRawBudget (family : Family) (response : Payload) : Option Snapshot :=
  (rawCounts family response).bind fun counts =>
    if budgets.maxRows < (counts.map (·.1)).sum then
      some (liveSnapshot now (counts.map fun count => (count.2.1, ⟨[], count.2.2⟩)) (some "row_budget_exhausted"))
    else none

/-- **`_project`** after the projection of the rows. -/
def project (entity : String) (collections : Collections) : Except String Snapshot :=
  if ∃ collection ∈ collections, (collection.2.rows.length : Int) ≠ collection.2.total then
    .ok (liveSnapshot now collections (some "collection_incomplete"))
  else if budgets.maxRows < (collections.map (·.2.total)).sum then
    .ok (liveSnapshot now collections (some "row_budget_exhausted"))
  else (validateRelations collections entity).map fun _ => liveSnapshot now collections none

/-- `_incomplete_hanging` -/
def incompleteHanging (total : Int) (reason : String) : Except String Snapshot :=
  .ok (liveSnapshot now [(.hangingLines, ⟨[], total⟩)] (some reason))

/-- The rows of a page after those of the pages before it, unless one of them is there already. -/
def addRows (rows page : List Row) : Option (List Row) :=
  page.foldlM (fun rows row =>
    if row.lookup "configuration_id" ∈ rows.map (·.lookup "configuration_id") then none
    else some (rows ++ [row])) rows

/-- What a response that fails its schema is answered with. -/
def schemaError : String :=
  "directory response failed schema validation"

/-- **The loop of `_fetch_hanging_lines`**, with the rows so far and the total of the pages before. -/
def fetchPages (replies : Nat → Payload) : Nat → Nat → List Row → Option Int → Except String Snapshot
  | 0, _, _, expected => incompleteHanging now (expected.getD 0) "page_budget_exhausted"
  | remaining + 1, page, rows, expected =>
    match checkRawBudget budgets now .hangingLines (replies page) with
    | some oversized => .ok oversized
    | none =>
      match fromPayload coerce .hangingLines (replies page) with
      | some [(_, result)] =>
        if ∃ total ∈ expected, result.total ≠ total then incompleteHanging now result.total "total_drift"
        else if budgets.maxRows < result.total then
          incompleteHanging now result.total "row_budget_exhausted"
        else
          match addRows rows result.rows with
          | none => incompleteHanging now result.total "duplicate_page"
          | some rows =>
            if result.total < rows.length then incompleteHanging now result.total "row_overflow"
            else if (rows.length : Int) = result.total then
              (validateRelations [(.hangingLines, ⟨rows, result.total⟩)] "").map fun _ =>
                liveSnapshot now [(.hangingLines, ⟨rows, result.total⟩)] none
            else if result.rows = [] then incompleteHanging now result.total "missing_pages"
            else fetchPages replies remaining (page + 1) rows (some result.total)
      | _ => .error schemaError

/-- **The live path of `_load_family`**, with the responses to its requests by their page. -/
def fetchLive (family : Family) (entity : String) (replies : Nat → Payload) : Except String Snapshot :=
  if family = .hangingLines then fetchPages coerce budgets now replies budgets.maxPages 1 [] none
  else
    match checkRawBudget budgets now family (replies 1) with
    | some oversized => .ok oversized
    | none =>
      match fromPayload coerce family (replies 1) with
      | some collections => project budgets now entity collections
      | none => .error schemaError

/-! ## What the live path lets through -/

/-- **Rows that are related as they should be have canonical identifiers.** -/
theorem canonical_of_validateRelations {collections : Collections} {entity : String}
    (h : validateRelations collections entity = .ok ()) {collection : Dataset × Collection}
    (hmem : collection ∈ collections) {row : Row} (hrow : row ∈ collection.2.rows)
    {field : String × DictionaryValue} (hfield : field ∈ row) (hstable : stable field.1 = true) :
    Canonical field.2 := by
  have hcollection := Checks.each_eq_ok.mp (Checks.then_eq_ok.mp h).1 collection hmem
  have hrows := (Checks.then_eq_ok.mp (Checks.then_eq_ok.mp hcollection).2).1
  have hfields := (Checks.then_eq_ok.mp (Checks.each_eq_ok.mp hrows row hrow)).1
  exact Checks.require_eq_ok.mp (Checks.each_eq_ok.mp hfields field hfield) hstable

/-- **Rows that are related as they should be have distinct keys.** -/
theorem nodup_of_validateRelations {collections : Collections} {entity : String}
    (h : validateRelations collections entity = .ok ()) {collection : Dataset × Collection}
    (hmem : collection ∈ collections) :
    (collection.2.rows.map (·.lookup (keyField collection.1))).Nodup := by
  have hcollection := Checks.each_eq_ok.mp (Checks.then_eq_ok.mp h).1 collection hmem
  exact Checks.require_eq_ok.mp (Checks.then_eq_ok.mp hcollection).1

/-- The type of the values of a field. -/
def FieldType.kind : FieldType → Kind
  | .stableId | .str => .text
  | .int => .int
  | .switch => .flag

/-- Whether a field of a projected row is an identifier, of which the schemas limit the length. -/
def isIdentifier (dataset : Dataset) (name : String) : Bool :=
  (columns dataset).any fun column => column.type = .stableId && column.field = name

/-- **A row whose identifiers have no more than 128 characters.** -/
def ShortIdentifiers (dataset : Dataset) (row : Row) : Prop :=
  ∀ field ∈ row, isIdentifier dataset field.1 = true → ∀ text, field.2 = .text text → text.length ≤ 128

/-- **A directory whose rows are complete, typed and related.** -/
structure Approved (family : Family) (entity : String) (collections : Collections) : Prop where
  datasets : collections.map (·.1) = datasets family
  typed : ∀ collection ∈ collections, ∀ row ∈ collection.2.rows, Typed collection.1 row
  totals : ∀ collection ∈ collections, (collection.2.rows.length : Int) = collection.2.total
  budget : (collections.map (·.2.total)).sum ≤ budgets.maxRows
  related : validateRelations collections entity = .ok ()

/-- A directory with short identifiers. -/
def Short (collections : Collections) : Prop :=
  ∀ collection ∈ collections, ∀ row ∈ collection.2.rows, ShortIdentifiers collection.1 row

/-- The projections have the fields that are read back from the cache. -/
theorem fields_eq_map (dataset : Dataset) :
    fields dataset = (columns dataset).map fun column => (column.field, column.type.kind) := by
  cases dataset <;> rfl

/-- A field that an identifier becomes is one. -/
theorem isIdentifier_field (dataset : Dataset) :
    ∀ column ∈ columns dataset, isIdentifier dataset column.field = true ↔ column.type = .stableId := by
  cases dataset <;> decide

/-- Identifiers relate their rows to others. -/
theorem stable_field (dataset : Dataset) :
    ∀ column ∈ columns dataset, column.type = .stableId → stable column.field = true := by
  cases dataset <;> decide

/-- The fields of a row schema have distinct names. -/
theorem nodup_raw (dataset : Dataset) : ((columns dataset).map (·.raw)).Nodup := by
  cases dataset <;> decide

/-- Only texts have defaults. -/
theorem default_text (dataset : Dataset) :
    ∀ column ∈ columns dataset, ∀ value ∈ column.default, column.type = .str ∧ value.kind = .text := by
  cases dataset <;> decide

variable {coerce : Payload → Option Int} {budgets : Budgets} {now : Instant}

/-- A validated value is of its type. -/
theorem FieldType.validate_eq_some {type : FieldType} {value : Payload} {validated : DictionaryValue}
    (h : type.validate coerce value = some validated) :
    validated.kind = type.kind
      ∧ (type = .stableId → ∀ text, validated = .text text → text.length ≤ 128) := by
  cases type with
  | stableId =>
    cases value with
    | str text =>
      obtain ⟨hlength, h⟩ := Option.ite_none_right_eq_some.mp h
      cases h
      exact ⟨rfl, fun _ text' htext => by cases htext; exact hlength.2⟩
    | _ => cases h
  | str =>
    cases value with
    | str text =>
      cases h
      exact ⟨rfl, fun htype => by cases htype⟩
    | _ => cases h
  | int =>
    obtain ⟨n, -, rfl⟩ := Option.map_eq_some_iff.mp h
    exact ⟨rfl, fun htype => by cases htype⟩
  | switch =>
    obtain ⟨n, -, h⟩ := Option.bind_eq_some_iff.mp h
    obtain ⟨-, h⟩ := Option.ite_none_right_eq_some.mp h
    cases h
    exact ⟨rfl, fun htype => by cases htype⟩

/-- A field of a row is of its type. -/
theorem Column.read_eq_some {dataset : Dataset} {column : Column} (hcolumn : column ∈ columns dataset)
    {row : List (String × Payload)} {value : DictionaryValue} (h : column.read coerce row = some value) :
    value.kind = column.type.kind
      ∧ (column.type = .stableId → ∀ text, value = .text text → text.length ≤ 128) := by
  unfold Column.read at h
  cases hraw : row.lookup column.raw with
  | some raw =>
    rw [hraw] at h
    obtain ⟨validated, hvalidated, h⟩ := Option.bind_eq_some_iff.mp h
    obtain ⟨normalized, -, hvalidated⟩ := Option.bind_eq_some_iff.mp hvalidated
    obtain ⟨-, h⟩ := Option.ite_none_left_eq_some.mp h
    cases h
    exact FieldType.validate_eq_some hvalidated
  | none =>
    rw [hraw] at h
    obtain ⟨htype, hkind⟩ := default_text dataset column hcolumn value h
    rw [htype]
    exact ⟨hkind, fun htype => by cases htype⟩

/-- The fields of a projected row come from those of its schema. -/
theorem forall₂_of_projectRow {dataset : Dataset} {response : Payload} {row : Row}
    (h : projectRow coerce dataset response = some row) :
    ∃ raw, List.Forall₂ (fun column field => column.field = field.1 ∧ column.read coerce raw = some field.2)
      (columns dataset) row := by
  unfold projectRow at h
  cases response with
  | dict raw =>
    refine ⟨raw, (Option.mapM_eq_some_iff.mp h).imp fun column field hfield => ?_⟩
    obtain ⟨value, hvalue, rfl⟩ := Option.map_eq_some_iff.mp hfield
    exact ⟨rfl, hvalue⟩
  | _ => cases h

/-- **A projected row is typed, and its identifiers are short.** -/
theorem typed_of_projectRow {dataset : Dataset} {response : Payload} {row : Row}
    (h : projectRow coerce dataset response = some row) : Typed dataset row ∧ ShortIdentifiers dataset row := by
  obtain ⟨raw, hfields⟩ := forall₂_of_projectRow h
  constructor
  · rw [Typed, fields_eq_map]
    refine (Aligned.map_eq hfields fun column hcolumn field _ hread => ?_).symm
    rw [hread.1, (Column.read_eq_some hcolumn hread.2).1]
  · intro field hfield hidentifier text htext
    obtain ⟨column, hcolumn, hname, hread⟩ := Aligned.exists_left hfields hfield
    rw [← hname, isIdentifier_field dataset column hcolumn] at hidentifier
    exact (Column.read_eq_some hcolumn hread).2 hidentifier text htext

/-- A value as a response has it. -/
def DictionaryValue.payload : DictionaryValue → Payload
  | text value => .str value
  | int value => .int value
  | flag value => .int (if value then 1 else 0)

/-- The fields of a response that a row is projected from. -/
def rowFields (dataset : Dataset) (row : Row) : List (String × Payload) :=
  ((columns dataset).zip row).map fun field => (field.1.raw, field.2.2.payload)

/-- A canonical value passes the check of identifiers. -/
theorem validateIdentifiers_of_canonical {column : Column} {value : DictionaryValue}
    (h : column.raw ∈ canonicalFields → Canonical value) : validateIdentifiers column value = some value :=
  if_neg fun hcheck => hcheck.2 (h hcheck.1)

/-- What the schemas take for an identifier is one. -/
theorem stableId_of_mem_identifiers (dataset : Dataset) :
    ∀ column ∈ columns dataset, column.raw ∈ identifiers → column.type = .stableId := by
  cases dataset <;> decide

/-- What has to be canonical is taken for an identifier. -/
theorem canonicalFields_subset : canonicalFields ⊆ identifiers := by decide

/-- Numbers are not made texts where they are no identifiers. -/
theorem normalizeStrings_of_number {dataset : Dataset} {column : Column} (hcolumn : column ∈ columns dataset)
    (hstr : column.type ≠ .str) (hstable : column.type ≠ .stableId) (value : Payload) :
    normalizeStrings column value = some value :=
  if_pos ⟨hstr, fun h => hstable (stableId_of_mem_identifiers dataset column hcolumn h)⟩

/-- A typed value is read back from a response. -/
theorem Column.read_payload {dataset : Dataset} {column : Column} (hcolumn : column ∈ columns dataset)
    {value : DictionaryValue} (hkind : value.kind = column.type.kind)
    (hcanonical : column.type = .stableId → Canonical value)
    (hshort : column.type = .stableId → ∀ text, value = .text text → text.length ≤ 128)
    {row : List (String × Payload)} (hrow : row.lookup column.raw = some value.payload) :
    column.read coerce row = some value := by
  have hidentifiers : validateIdentifiers column value = some value :=
    validateIdentifiers_of_canonical fun h =>
      hcanonical (stableId_of_mem_identifiers dataset column hcolumn (canonicalFields_subset h))
  have hvalid : (normalizeStrings column value.payload).bind (column.type.validate coerce) = some value := by
    obtain ⟨raw, type, default, name⟩ := column
    cases type with
    | stableId =>
      cases value with
      | text text =>
        have hne : text ≠ "" := (hcanonical rfl).1
        have hlength : 1 ≤ text.length := by
          rw [Nat.one_le_iff_ne_zero]
          exact fun h => hne (String.length_eq_zero_iff.mp h)
        have hnormal : normalizeStrings ⟨raw, .stableId, default, name⟩ (.str text) = some (.str text) :=
          ite_self _
        show (normalizeStrings _ (.str text)).bind _ = _
        rw [hnormal]
        exact if_pos ⟨hlength, hshort rfl text rfl⟩
      | _ => cases hkind
    | str =>
      cases value with
      | text text => rfl
      | _ => cases hkind
    | int =>
      cases value with
      | int n =>
        rw [normalizeStrings_of_number hcolumn (fun h => by cases h) (fun h => by cases h)]
        rfl
      | _ => cases hkind
    | switch =>
      cases value with
      | flag value =>
        rw [normalizeStrings_of_number hcolumn (fun h => by cases h) (fun h => by cases h)]
        cases value <;> rfl
      | _ => cases hkind
  rw [Column.read, hrow]
  dsimp only
  rw [hvalid]
  exact hidentifiers

/-- **A typed row with short canonical identifiers is projected from a response.** -/
theorem projectRow_rowFields {dataset : Dataset} {row : Row} (htyped : Typed dataset row)
    (hcanonical : ∀ field ∈ row, stable field.1 = true → Canonical field.2)
    (hshort : ShortIdentifiers dataset row) : projectRow coerce dataset (.dict (rowFields dataset row)) = some row := by
  rw [Typed, fields_eq_map] at htyped
  have haligned := Aligned.of_map_eq htyped.symm
  have hlength : (columns dataset).length = row.length := haligned.length_eq
  have hnodup : ((rowFields dataset row).map Prod.fst).Nodup := by
    rw [rowFields, List.map_map]
    show (((columns dataset).zip row).map ((·.raw) ∘ Prod.fst)).Nodup
    rw [← List.map_map, List.map_fst_zip hlength.le]
    exact nodup_raw dataset
  refine Option.mapM_eq_some_iff.mpr (List.forall₂_iff_zip.mpr ⟨hlength, fun {column field} hmem => ?_⟩)
  have hcolumn : column ∈ columns dataset := (List.of_mem_zip hmem).1
  have hfield : field ∈ row := (List.of_mem_zip hmem).2
  obtain ⟨hname, hkind⟩ := Prod.mk.inj (List.forall₂_iff_zip.mp haligned |>.2 hmem)
  have hread : column.read coerce (rowFields dataset row) = some field.2 := by
    refine Column.read_payload hcolumn hkind.symm (fun htype => ?_) (fun htype => ?_)
      (Keys.lookup_eq_some hnodup (List.mem_map.mpr ⟨(column, field), hmem, rfl⟩))
    · exact hcanonical field hfield (hname ▸ stable_field dataset column hcolumn htype)
    · exact hshort field hfield (hname ▸ (isIdentifier_field dataset column hcolumn).mpr htype)
  rw [hread, Option.map_some, hname]

/-! ## What a complete snapshot holds -/

/-- The rows of a collection are those that were projected. -/
theorem typed_of_readCollection {dataset : Dataset} {rowField totalField : String}
    {response : List (String × Payload)} {collection : Collection}
    (h : readCollection coerce dataset rowField totalField response = some collection) :
    ∀ row ∈ collection.rows, Typed dataset row ∧ ShortIdentifiers dataset row := by
  unfold readCollection at h
  split at h
  · obtain ⟨-, h⟩ := Option.ite_none_right_eq_some.mp h
    obtain ⟨rows, hrows, rfl⟩ := Option.map_eq_some_iff.mp h
    intro row hrow
    obtain ⟨raw, -, hraw⟩ := Aligned.exists_left (Option.mapM_eq_some_iff.mp hrows) hrow
    exact typed_of_projectRow hraw
  · cases h

/-- **What a response is validated to** has the datasets of its family, and typed rows with short identifiers. -/
theorem typed_of_fromPayload {family : Family} {response : Payload} {collections : Collections}
    (h : fromPayload coerce family response = some collections) :
    collections.map (·.1) = datasets family ∧ ∀ collection ∈ collections, ∀ row ∈ collection.2.rows,
      Typed collection.1 row ∧ ShortIdentifiers collection.1 row := by
  unfold fromPayload at h
  cases response with
  | dict response =>
    have hread := Option.mapM_eq_some_iff.mp h
    constructor
    · refine (Aligned.map_eq hread fun _ _ collection _ hcollection => ?_).symm
      obtain ⟨_, -, rfl⟩ := Option.map_eq_some_iff.mp hcollection
      rfl
    · intro collection hmem
      obtain ⟨⟨dataset, rowField, totalField⟩, -, hcollection⟩ := Aligned.exists_left hread hmem
      obtain ⟨value, hvalue, rfl⟩ := Option.map_eq_some_iff.mp hcollection
      exact typed_of_readCollection hvalue
  | _ => cases h

/-- A snapshot that comes with a reason is not complete. -/
theorem not_complete_of_reason {collections : Collections} {reason : String} {snapshot : Snapshot}
    (h : (.ok (liveSnapshot now collections (some reason)) : Except String Snapshot) = .ok snapshot) :
    snapshot.complete ≠ true := by
  cases h
  exact Bool.false_ne_true

/-- What is too large is not complete. -/
theorem not_complete_of_checkRawBudget {family : Family} {response : Payload} {snapshot : Snapshot}
    (h : checkRawBudget budgets now family response = some snapshot) : snapshot.complete ≠ true := by
  obtain ⟨counts, -, h⟩ := Option.bind_eq_some_iff.mp h
  obtain ⟨-, h⟩ := Option.ite_none_right_eq_some.mp h
  cases h
  exact Bool.false_ne_true

/-- **A complete projection** is one of complete and related rows. -/
theorem project_eq_ok {entity : String} {collections : Collections} {snapshot : Snapshot}
    (h : project budgets now entity collections = .ok snapshot) (hcomplete : snapshot.complete = true) :
    (∀ collection ∈ collections, (collection.2.rows.length : Int) = collection.2.total)
      ∧ (collections.map (·.2.total)).sum ≤ budgets.maxRows ∧ validateRelations collections entity = .ok ()
      ∧ snapshot = liveSnapshot now collections none := by
  unfold project at h
  split at h
  · exact absurd hcomplete (not_complete_of_reason h)
  · next htotals =>
    split at h
    · exact absurd hcomplete (not_complete_of_reason h)
    · next hbudget =>
      push Not at htotals
      cases hrelated : validateRelations collections entity with
      | error message =>
        rw [hrelated] at h
        cases h
      | ok _ =>
        rw [hrelated] at h
        cases h
        exact ⟨htotals, Int.not_lt.mp hbudget, rfl, rfl⟩

/-- The rows of the pages are those of each. -/
theorem mem_of_addRows {rows page added : List Row} (h : addRows rows page = some added) {row : Row}
    (hrow : row ∈ added) : row ∈ rows ∨ row ∈ page := by
  induction page generalizing rows with
  | nil =>
    cases h
    exact .inl hrow
  | cons first page ih =>
    obtain ⟨next, hnext, h⟩ := Option.bind_eq_some_iff.mp (by rwa [addRows, List.foldlM_cons] at h)
    obtain ⟨-, hnext⟩ := Option.ite_none_left_eq_some.mp hnext
    cases hnext
    rcases ih h with hmem | hmem
    · rcases List.mem_append.mp hmem with hmem | hmem
      · exact .inl hmem
      · exact .inr (List.mem_singleton.mp hmem ▸ List.mem_cons_self)
    · exact .inr (List.mem_cons_of_mem _ hmem)

/-- **A complete listing of the hanging lines** is one of complete and related rows, all of them projected. -/
theorem fetchPages_eq_ok {replies : Nat → Payload} {snapshot : Snapshot} (hcomplete : snapshot.complete = true)
    (remaining page : Nat) {rows : List Row} {expected : Option Int}
    (hrows : ∀ row ∈ rows, Typed .hangingLines row ∧ ShortIdentifiers .hangingLines row)
    (h : fetchPages coerce budgets now replies remaining page rows expected = .ok snapshot) :
    ∃ rows total, (∀ row ∈ rows, Typed .hangingLines row ∧ ShortIdentifiers .hangingLines row)
      ∧ (rows.length : Int) = total ∧ total ≤ budgets.maxRows
      ∧ validateRelations [(.hangingLines, ⟨rows, total⟩)] "" = .ok ()
      ∧ snapshot = liveSnapshot now [(.hangingLines, ⟨rows, total⟩)] none := by
  induction remaining generalizing page rows expected with
  | zero => exact absurd hcomplete (not_complete_of_reason h)
  | succ remaining ih =>
    unfold fetchPages at h
    split at h
    · next oversized hoversized =>
      cases h
      exact absurd hcomplete (not_complete_of_checkRawBudget hoversized)
    · split at h
      · next dataset result hresult =>
        obtain ⟨hdatasets, htyped⟩ := typed_of_fromPayload hresult
        have hdataset : dataset = .hangingLines := by cases hdatasets; rfl
        subst hdataset
        have hpage := htyped _ List.mem_cons_self
        split at h
        · exact absurd hcomplete (not_complete_of_reason h)
        · split at h
          · exact absurd hcomplete (not_complete_of_reason h)
          · next hbudget =>
            split at h
            · exact absurd hcomplete (not_complete_of_reason h)
            · next added hadded =>
              have hall : ∀ row ∈ added, Typed .hangingLines row ∧ ShortIdentifiers .hangingLines row := by
                intro row hrow
                rcases mem_of_addRows hadded hrow with hmem | hmem
                · exact hrows row hmem
                · exact hpage row hmem
              split at h
              · exact absurd hcomplete (not_complete_of_reason h)
              · split at h
                · next htotal =>
                  cases hrelated : validateRelations [(.hangingLines, ⟨added, result.total⟩)] "" with
                  | error message =>
                    rw [hrelated] at h
                    cases h
                  | ok _ =>
                    rw [hrelated] at h
                    cases h
                    exact ⟨added, result.total, hall, htotal, Int.not_lt.mp hbudget, hrelated, rfl⟩
                · split at h
                  · exact absurd hcomplete (not_complete_of_reason h)
                  · exact ih (page + 1) hall h
      · cases h

/-- **What a complete snapshot of the live path holds** is approved, and its identifiers are short. -/
theorem approved_of_fetchLive {family : Family} {entity : String} (hentity : family = .hangingLines → entity = "")
    {replies : Nat → Payload} {snapshot : Snapshot}
    (h : fetchLive coerce budgets now family entity replies = .ok snapshot) (hcomplete : snapshot.complete = true) :
    Approved budgets family entity snapshot.collections ∧ Short snapshot.collections
      ∧ snapshot = liveSnapshot now snapshot.collections none := by
  unfold fetchLive at h
  split at h
  · next hfamily =>
    obtain ⟨rows, total, hrows, htotal, hbudget, hrelated, rfl⟩ :=
      fetchPages_eq_ok hcomplete _ _ (fun row hrow => absurd hrow List.not_mem_nil) h
    subst hfamily
    rw [hentity rfl]
    refine ⟨⟨rfl, ?_, ?_, ?_, hrelated⟩, ?_, rfl⟩
    · intro collection hmem row hrow
      cases List.mem_singleton.mp hmem
      exact (hrows row hrow).1
    · intro collection hmem
      cases List.mem_singleton.mp hmem
      exact htotal
    · show total + 0 ≤ _
      rw [add_zero]
      exact hbudget
    · intro collection hmem row hrow
      cases List.mem_singleton.mp hmem
      exact (hrows row hrow).2
  · split at h
    · next oversized hoversized =>
      cases h
      exact absurd hcomplete (not_complete_of_checkRawBudget hoversized)
    · split at h
      · next collections hcollections =>
        obtain ⟨hdatasets, htyped⟩ := typed_of_fromPayload hcollections
        obtain ⟨htotals, hbudget, hrelated, rfl⟩ := project_eq_ok h hcomplete
        exact ⟨⟨hdatasets, fun c hc row hrow => (htyped c hc row hrow).1, htotals, hbudget, hrelated⟩,
          fun c hc row hrow => (htyped c hc row hrow).2, rfl⟩
      · cases h

/-! ## The responses of an approved directory -/

/-- The fields of a response with the given collections. -/
def responseFields (family : Family) (collections : Collections) : List (String × Payload) :=
  ((collectionsByFamily family).zip collections).flatMap fun entry =>
    [(entry.1.2.1, .list (entry.2.2.rows.map fun row => .dict (rowFields entry.2.1 row))),
      (entry.1.2.2, .int entry.2.2.total)]

/-- The fields of the models of a family have distinct names. -/
theorem nodup_responseNames (family : Family) :
    ((collectionsByFamily family).flatMap fun entry => [entry.2.1, entry.2.2]).Nodup := by
  cases family <;> decide

section Responses

variable {family : Family} {entity : String} {collections : Collections}

/-- An approved directory has the collections of its family. -/
theorem Approved.aligned (h : Approved budgets family entity collections) :
    List.Forall₂ (fun entry collection => entry.1 = collection.1) (collectionsByFamily family) collections :=
  Aligned.of_map_eq h.datasets.symm

/-- The response has each field once. -/
theorem Approved.nodup_responseFields (h : Approved budgets family entity collections) :
    ((responseFields family collections).map Prod.fst).Nodup := by
  have hnames : (responseFields family collections).map Prod.fst
      = (((collectionsByFamily family).zip collections).map Prod.fst).flatMap fun entry => [entry.2.1, entry.2.2] := by
    rw [responseFields, List.map_flatMap, List.flatMap_map]
    rfl
  rw [hnames, List.map_fst_zip h.aligned.length_eq.le]
  exact nodup_responseNames family

/-- The response has the rows and the total of each collection. -/
theorem Approved.lookup_responseFields (h : Approved budgets family entity collections) :
    List.Forall₂ (fun entry collection => entry.1 = collection.1
        ∧ (responseFields family collections).lookup entry.2.1
          = some (.list (collection.2.rows.map fun row => .dict (rowFields collection.1 row)))
        ∧ (responseFields family collections).lookup entry.2.2 = some (.int collection.2.total))
      (collectionsByFamily family) collections := by
  refine List.forall₂_iff_zip.mpr ⟨h.aligned.length_eq, fun {entry collection} hmem => ?_⟩
  exact ⟨List.forall₂_iff_zip.mp h.aligned |>.2 hmem,
    Keys.lookup_eq_some h.nodup_responseFields (List.mem_flatMap.mpr ⟨_, hmem, List.mem_cons_self⟩),
    Keys.lookup_eq_some h.nodup_responseFields
      (List.mem_flatMap.mpr ⟨_, hmem, List.mem_cons_of_mem _ List.mem_cons_self⟩)⟩

/-- The total of an approved collection is not negative. -/
theorem Approved.total_nonneg (h : Approved budgets family entity collections)
    {collection : Dataset × Collection} (hmem : collection ∈ collections) : 0 ≤ collection.2.total := by
  rw [← h.totals collection hmem]
  exact Int.natCast_nonneg _

/-- **An approved directory with short identifiers is read from its response.** -/
theorem Approved.fromPayload_responseFields (coerce : Payload → Option Int)
    (h : Approved budgets family entity collections) (hshort : Short collections) :
    fromPayload coerce family (.dict (responseFields family collections)) = some collections := by
  refine Option.mapM_eq_some_iff.mpr (Aligned.mono h.lookup_responseFields fun entry _ collection hmem hfields => ?_)
  obtain ⟨dataset, rowField, totalField⟩ := entry
  obtain ⟨hdataset, hrows, htotal⟩ := hfields
  dsimp only at hdataset hrows htotal
  have hproject : (collection.2.rows.map fun row => Payload.dict (rowFields collection.1 row)).mapM
      (projectRow coerce dataset) = some collection.2.rows := by
    refine Option.mapM_eq_some_iff.mpr (List.forall₂_map_left_iff.mpr (List.forall₂_same.mpr fun row hrow => ?_))
    rw [hdataset]
    exact projectRow_rowFields (h.typed collection hmem row hrow)
      (fun field hfield => canonical_of_validateRelations h.related hmem hrow hfield)
      (hshort collection hmem row hrow)
  show (readCollection coerce dataset rowField totalField _).map _ = _
  rw [readCollection, hrows, htotal]
  dsimp only
  rw [if_pos (h.total_nonneg hmem), hproject, hdataset]
  rfl

/-- **An approved directory is not too large.** -/
theorem Approved.checkRawBudget_responseFields (h : Approved budgets family entity collections) (now : Instant) :
    checkRawBudget budgets now family (.dict (responseFields family collections)) = none := by
  have hcounts : rawCounts family (.dict (responseFields family collections))
      = some (collections.map fun collection => (collection.2.rows.length, collection.1, collection.2.total)) := by
    refine Option.mapM_eq_some_iff.mpr (List.forall₂_map_right_iff.mpr
      (Aligned.mono h.lookup_responseFields fun entry _ collection hmem hfields => ?_))
    obtain ⟨dataset, rowField, totalField⟩ := entry
    obtain ⟨hdataset, hrows, htotal⟩ := hfields
    dsimp only at hdataset hrows htotal ⊢
    rw [hrows, htotal]
    dsimp only
    rw [if_pos (h.total_nonneg hmem), List.length_map, hdataset]
  have hsum : (((collections.map fun collection => collection.2.rows.length).sum : Nat) : Int)
      = (collections.map (·.2.total)).sum := by
    rw [Nat.cast_list_sum, List.map_map]
    exact congrArg List.sum (List.map_congr_left h.totals)
  have hbudget := h.budget
  rw [checkRawBudget, hcounts, Option.bind_some, List.map_map, if_neg]
  show ¬budgets.maxRows < (collections.map fun collection => collection.2.rows.length).sum
  omega

/-- Rows with distinct keys can be added. -/
theorem addRows_of_nodup {rows page : List Row}
    (h : ((rows ++ page).map (·.lookup "configuration_id")).Nodup) : addRows rows page = some (rows ++ page) := by
  induction page generalizing rows with
  | nil => rw [List.append_nil]; rfl
  | cons row page ih =>
    have hsplit : rows ++ row :: page = rows ++ [row] ++ page := by simp
    have hnew : row.lookup "configuration_id" ∉ rows.map (·.lookup "configuration_id") := by
      rw [List.map_append, List.map_cons] at h
      exact fun hmem => List.disjoint_of_nodup_append h hmem List.mem_cons_self
    rw [hsplit] at h ⊢
    rw [addRows, List.foldlM_cons, if_neg hnew]
    exact ih h

/-- **Every approved directory with short identifiers is the answer to some responses.** -/
theorem Approved.fetchLive_eq_ok (h : Approved budgets family entity collections)
    (hentity : family = .hangingLines → entity = "") (hshort : Short collections) :
    fetchLive coerce budgets now family entity (fun _ => .dict (responseFields family collections))
      = .ok (liveSnapshot now collections none) := by
  have hbudget := h.checkRawBudget_responseFields now
  have hread := h.fromPayload_responseFields coerce hshort
  unfold fetchLive
  split
  · next hfamily =>
    subst hfamily
    obtain ⟨pages, hpages⟩ := Nat.exists_eq_add_of_le' budgets.positive
    obtain ⟨collection, rfl⟩ : ∃ collection, collections = [(.hangingLines, collection)] := by
      obtain ⟨⟨dataset, collection⟩, rest, rfl, hdataset, hrest⟩ := List.map_eq_cons_iff.mp h.datasets
      cases hdataset
      obtain rfl : rest = [] := List.map_eq_nil_iff.mp hrest
      exact ⟨collection, rfl⟩
    have hrelated := h.related
    have htotal : (collection.rows.length : Int) = collection.total := h.totals _ List.mem_cons_self
    have hmax : ¬(budgets.maxRows : Int) < collection.total := by
      have hsum : collection.total + 0 ≤ budgets.maxRows := h.budget
      omega
    have hadd : addRows [] collection.rows = some collection.rows :=
      addRows_of_nodup (nodup_of_validateRelations hrelated List.mem_cons_self)
    rw [hentity rfl] at hrelated
    rw [hpages, fetchPages, hbudget]
    dsimp only
    rw [hread]
    dsimp only
    rw [if_neg (fun hdrift => by simp at hdrift), if_neg hmax, hadd]
    dsimp only
    rw [if_neg (by omega), if_pos htotal, hrelated]
    rfl
  · rw [hbudget]
    dsimp only
    rw [hread]
    dsimp only
    have htotals : ¬∃ collection ∈ collections, (collection.2.rows.length : Int) ≠ collection.2.total := by
      push Not
      exact h.totals
    rw [project, if_neg htotals, if_neg (Int.not_lt.mpr h.budget), h.related]
    rfl

end Responses

end KnowledgeDirectory
