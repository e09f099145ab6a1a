import FactoryAgent.Lib.DecimalDigits

/-!
# Card cells

The values of the rows that a card shows, and the text that a cell has of them (`_row_cells` and what it calls in
`ports/card.py`). A value is a text, a number, a truth value, a day, some other object, of which only its text
counts here, or missing. The decimals come from the columns of the sandbox, so they are finite; a text may still be
read as any decimal.
-/

namespace Card

/-- **A value of a row.** -/
inductive CardValue where
  | text (value : String)
  | decimal (negative : Bool) (coefficient : Nat) (exponent : Int)
  | integer (value : Int)
  | boolean (value : Bool)
  | day (isoformat : String)
  | other (str : String)
  | null
  deriving DecidableEq, Repr

/-- A row, by its fields. -/
abbrev CardRow := List (String × CardValue)

namespace CardRow

/-- `name in row` -/
def has (row : CardRow) (name : String) : Bool :=
  (row.lookup name).isSome

/-- `row.get(name)` -/
def get (row : CardRow) (name : String) : CardValue :=
  (row.lookup name).getD .null

end CardRow

/-- `UNAVAILABLE_VALUE` -/
def unavailableValue : String := "unavailable"

/-- Whether a cell shows nothing: `value is None or value == UNAVAILABLE_VALUE`. -/
def CardValue.isUnavailable : CardValue → Bool
  | null => true
  | text value => value == unavailableValue
  | decimal .. | integer _ | boolean _ | day _ | other _ => false

/-- `str(value)` -/
def CardValue.str : CardValue → String
  | text value => value
  | decimal negative coefficient exponent => (Decimal.finite negative coefficient exponent).toText
  | integer value => toString value
  | boolean value => if value then "True" else "False"
  | day isoformat => isoformat
  | other str => str
  | null => "None"

/-- `CardColumn` -/
structure CardColumn where
  name : String
  title : Option String
  columnType : Option String
  unit : Option String
  deriving DecidableEq, Repr

/-- `column.title or column.name` -/
def CardColumn.shownTitle (column : CardColumn) : String :=
  (column.title.filter fun title => !title.isEmpty).getD column.name

/-- `_NUMERIC_COLUMN_TYPES` -/
def numericColumnTypes : List String := ["money", "quantity", "percent"]

/-- Whether a column type is one of `_NUMERIC_COLUMN_TYPES`. -/
def isNumericType (columnType : Option String) : Bool :=
  columnType.any numericColumnTypes.contains

/-- **`_decimal_str`**: numbers of a numeric column have at most two decimals. `none` is a raised
`InvalidOperation`, of a signaling NaN. -/
def decimalStr (value : Decimal) (columnType : Option String) : Option String :=
  let shown := if isNumericType columnType then value.quantizedCents.getD value else value
  shown.normalized.map Decimal.fixedText

/-- `_string_cell` -/
def stringCell (value : String) (columnType : Option String) : String :=
  ((Decimal.parse value).bind fun number => decimalStr number columnType).getD value

/-- **`_cell_text`.** -/
def cellText (value : CardValue) (columnType : Option String) : String :=
  match value with
  | .decimal negative coefficient exponent =>
    (decimalStr (.finite negative coefficient exponent) columnType).getD ""
  | .text text => if isNumericType columnType then stringCell text columnType else text
  | other => other.str

/-- **`_row_cells`.** -/
def rowCells (columns : List CardColumn) (row : CardRow) : List (Option String) :=
  columns.map fun column =>
    let value := row.get column.name
    if value.isUnavailable then none else some (cellText value column.columnType)

/-- **A decimal has a text**, so a cell of one is never left empty for want of it. -/
theorem decimalStr_isSome (negative : Bool) (coefficient : Nat) (exponent : Int) (columnType : Option String) :
    (decimalStr (.finite negative coefficient exponent) columnType).isSome = true := by
  have hshown : ∃ n c e, (if isNumericType columnType then
      (Decimal.finite negative coefficient exponent).quantizedCents.getD (.finite negative coefficient exponent)
      else .finite negative coefficient exponent) = Decimal.finite n c e := by
    split
    · generalize hcents : (if -2 ≤ exponent then Decimal.coefficientAt coefficient exponent (-2)
        else Decimal.roundedHalfEven coefficient (-2 - exponent).toNat) = cents
      rw [Decimal.quantizedCents, hcents]
      split
      · exact ⟨_, _, _, rfl⟩
      · exact ⟨_, _, _, rfl⟩
    · exact ⟨_, _, _, rfl⟩
  obtain ⟨n, c, e, hshown⟩ := hshown
  rw [decimalStr, hshown]
  rfl

end Card
