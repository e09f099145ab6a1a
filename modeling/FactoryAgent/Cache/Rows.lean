import Mathlib.Data.List.Sort
import FactoryAgent.Lib.Decimal
import FactoryAgent.Lib.Except

/-!
# Rows

The rows that the result cache carries: mappings from column names to scalars, the totals that come
with them, and the parameters they were asked for with. A mapping is an ordered map, so two rows are
equal where they have the same columns with the same values.
-/

/-- **A scalar of a row.** A float is the text that `str` gives it. -/
inductive Cell where
  | null
  | flag (value : Bool)
  | int (value : Int)
  | float (literal : String)
  | text (value : String)
  deriving DecidableEq, Repr

namespace Cell

/-- `str(value)`. -/
def str : Cell → String
  | null => "None"
  | flag true => "True"
  | flag false => "False"
  | int value => toString value
  | float literal => literal
  | text value => value

/-- The truth value of a scalar. -/
def truthy : Cell → Bool
  | null => false
  | flag value => value
  | int value => value ≠ 0
  | float literal => literal ≠ "0.0" && literal ≠ "-0.0"
  | text value => value ≠ ""

/-- `str(value or default)`. -/
def orElse (cell : Cell) (default : String) : String :=
  if cell.truthy then cell.str else default

/-- Whether a scalar is a text. -/
def isText : Cell → Bool
  | text _ => true
  | _ => false

@[simp] theorem orElse_text (value default : String) :
    (text value).orElse default = if value = "" then default else value := by
  by_cases h : value = "" <;> simp [orElse, truthy, str, h]

/-- A text is the text of itself. -/
theorem text_str_of_isText {cell : Cell} (h : cell.isText = true) : text cell.str = cell := by
  cases cell <;> simp_all [isText, str]

end Cell

/-- **A row**: its columns and their values. -/
abbrev Row := Std.ExtTreeMap String Cell

namespace Row

/-- `row.get(column)`. -/
def cell (row : Row) (column : String) : Cell :=
  row.getD column .null

/-- `str(row.get(column) or "")`. -/
def field (row : Row) (column : String) : String :=
  (row.cell column).orElse ""

/-- Whether every value of a row is a text. -/
def IsText (row : Row) : Prop :=
  ∀ (column : String) (cell : Cell), row[column]? = some cell → cell.isText = true

/-- A row of text values. -/
def ofTexts (texts : List (String × String)) : Row :=
  Std.ExtTreeMap.ofList (texts.map (fun entry => (entry.1, Cell.text entry.2)))

/-- One more text value. -/
theorem isText_insert {row : Row} (h : row.IsText) (column value : String) :
    Row.IsText (row.insert column (.text value)) := by
  intro other cell hcell
  rw [Std.ExtTreeMap.getElem?_insert] at hcell
  split at hcell
  · exact Option.some.inj hcell ▸ rfl
  · exact h other cell hcell

/-- A row of text values has text values only. -/
theorem isText_ofTexts (texts : List (String × String)) : (ofTexts texts).IsText := by
  have hinsert : ∀ (texts : List (String × String)) (row : Row), row.IsText →
      Row.IsText (row.insertMany (texts.map (fun entry => (entry.1, Cell.text entry.2)))) := by
    intro texts
    induction texts with
    | nil => exact fun row h => h
    | cons entry texts ih =>
      intro row h
      rw [List.map_cons, Std.ExtTreeMap.insertMany_cons]
      exact ih _ (isText_insert h entry.1 entry.2)
  rw [ofTexts, Std.ExtTreeMap.ofList_eq_insertMany_empty]
  exact hinsert texts ∅ (fun column cell h => by simp at h)

/-- The columns of a map that is filled from a function. -/
theorem getElem?_insertMany_graph {α : Type} (map : Std.ExtTreeMap String α) (value : String → α)
    (columns : List String) (column : String) :
    (map.insertMany (columns.map (fun column => (column, value column))))[column]?
      = if column ∈ columns then some (value column) else map[column]? := by
  induction columns generalizing map with
  | nil => simp
  | cons first columns ih =>
    rw [List.map_cons, Std.ExtTreeMap.insertMany_cons, ih, Std.ExtTreeMap.getElem?_insert]
    simp only [Std.LawfulEqCmp.compare_eq_iff_eq, List.mem_cons]
    rcases eq_or_ne first column with rfl | hfirst
    · simp
    · simp [hfirst, hfirst.symm]

/-- The value of a column, which is null where it is absent. -/
theorem cell_eq (row : Row) (column : String) : row.cell column = (row[column]?).getD .null :=
  Std.ExtTreeMap.getD_eq_getD_getElem?

end Row

/-- **The totals** that come with rows, by their names. -/
abbrev Footer := Std.ExtTreeMap String String

/-- The names of the totals that came, if any came. -/
def footerKeys (footer : Option Footer) : List String :=
  (footer.getD ∅).keys

/-- The column that a total is of: its name without `_total`. -/
def totalColumn? (key : String) : Option String :=
  Text.dropSuffix? "_total" key

/-- **A request parameter**: a text, or a list of texts. -/
inductive ParamValue where
  | text (value : String)
  | sequence (values : List String)
  deriving DecidableEq, Repr

/-- The parameters of a request. -/
abbrev Params := Std.ExtTreeMap String ParamValue

/-- The two operations whose rows are cached. -/
inductive Operation where
  | payroll
  | progress
  deriving DecidableEq, Repr

/-- The name of an operation. -/
def Operation.id : Operation → String
  | payroll => "GongziClQuery"
  | progress => "ScjdQuery"

/-- **A refusal to serve a view of the rows**: the exceptions that the executor answers by asking the
MES instead. -/
inductive ViewError where
  /-- `ProgressDerivationError` -/
  | derivation (reason : String)
  /-- `InvalidRequestError` -/
  | invalidRequest (message : String)
  /-- `decimal.InvalidOperation` -/
  | invalidOperation
  deriving DecidableEq, Repr

/-- The sorted distinct columns of some rows. -/
def columnsOf (rows : List Row) : List String :=
  (Std.ExtTreeSet.ofList (rows.flatMap (fun row => row.keys))).toList

theorem mem_columnsOf {rows : List Row} {column : String} :
    column ∈ columnsOf rows ↔ ∃ row ∈ rows, column ∈ row := by
  simp [columnsOf, Std.ExtTreeSet.mem_ofList]
