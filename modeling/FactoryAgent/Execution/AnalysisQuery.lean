import FactoryAgent.Execution.Analysis
import FactoryAgent.Lib.InnerJoin

/-!
# What the compiled query returns

The meaning of the query of a `CompiledAnalysis` over the tables of the sandbox: the joined relation, the
conditions, the groups, and the value of each expression of the select list over a group; and
`HostAnalysisExecutor.analyze`, which runs the query and adds up the metric columns. The comparisons of the
conditions, the truncation of dates and the arrangement of the result are the database's own; the result keeps its
rows whatever their arrangement. The warnings of the result are left out.
-/

variable {σ : Type}

/-- **What the database sees to itself.** -/
structure Database (σ : Type) where
  /-- A condition on a value. -/
  holds : FilterOperator → SqlValue → List σ → Bool
  /-- `CAST(date_trunc(unit, value) AS DATE)` -/
  truncated : BucketUnit → SqlValue → SqlValue
  /-- `ORDER BY`, by the names of the columns and whether they are descending. -/
  arranged : {α : Type} → List (String × Bool) → List α → List α
  arranged_perm : ∀ {α : Type} (order : List (String × Bool)) (rows : List α), (arranged order rows).Perm rows

/-- A row of the joined relation: a row of each table, under the number of its alias. -/
abbrev JoinedRow := List (Nat × SqlRow)

/-- The value of a column in a row of a table. -/
def SqlRow.get (row : SqlRow) (field : String) : SqlValue :=
  (row.lookup field).getD .null

/-- The value of a column in a joined row. -/
def FieldRef.value (ref : FieldRef) (row : JoinedRow) : SqlValue :=
  (row.lookup ref.tableAlias).elim .null fun tableRow => SqlRow.get tableRow ref.field

/-- SQL equality: nothing is equal to `NULL`. -/
def SqlValue.equals (a b : SqlValue) : Bool :=
  a ≠ .null && a == b

/-- The tables of a `JOIN` clause and its condition. -/
def JoinClause.joining (tables : String → List SqlRow) (clause : JoinClause) : InnerJoin.Joining Nat SqlRow :=
  ⟨clause.tableAlias, tables clause.tableName, fun row right =>
    clause.keys.all fun (key, other) => (FieldRef.value ⟨clause.leftAlias, key⟩ row).equals (SqlRow.get right other)⟩

namespace CompiledAnalysis

/-- **The joined relation**, `FROM … JOIN …`. -/
def joined (compiled : CompiledAnalysis σ) (tables : String → List SqlRow) : List JoinedRow :=
  InnerJoin.joined 0 (tables compiled.fromTable) (compiled.joins.map (JoinClause.joining tables))

/-- Whether a joined row meets the `WHERE` clause. -/
def meets (compiled : CompiledAnalysis σ) (database : Database σ) (row : JoinedRow) : Bool :=
  compiled.conditions.all fun condition =>
    database.holds condition.operator (condition.ref.value row) condition.values

/-- **The relation that the query aggregates over.** -/
def relation (compiled : CompiledAnalysis σ) (database : Database σ) (tables : String → List SqlRow) :
    List JoinedRow :=
  (compiled.joined tables).filter (compiled.meets database)

end CompiledAnalysis

/-- The number of a value, which `SUM` adds up; `NULL` adds nothing. -/
def SqlValue.toRat : SqlValue → ℚ
  | number value => value
  | integer value => value
  | text _ | boolean _ | null => 0

/-- Whether `COUNT(DISTINCT NULLIF(value, ''))` counts a value. -/
def SqlValue.counted : SqlValue → Bool
  | text value => value ≠ ""
  | null => false
  | number _ | integer _ | boolean _ => true

/-- **The value of a metric over some rows of a table.** -/
def MetricOperation.overRows (operation : MetricOperation) (field : String) (rows : List SqlRow) : ℚ :=
  match operation with
  | sum => (rows.map fun row => (SqlRow.get row field).toRat).sum
  | count => rows.length
  | countDistinct => ((rows.map fun row => SqlRow.get row field).filter SqlValue.counted).dedup.length

/-- **The value of a metric over some joined rows.** -/
def MetricOperation.overJoined (operation : MetricOperation) (ref : FieldRef) (rows : List JoinedRow) : ℚ :=
  match operation with
  | sum => (rows.map fun row => (ref.value row).toRat).sum
  | count => rows.length
  | countDistinct => ((rows.map ref.value).filter SqlValue.counted).dedup.length

/-- A value of the result. -/
inductive ResultCell where
  | value (value : SqlValue)
  | number (value : ℚ)
  deriving DecidableEq

namespace SelectExpr

/-- The value of an expression in a joined row. A metric has none. -/
def inRow (database : Database σ) (row : JoinedRow) : SelectExpr → SqlValue
  | field ref => ref.value row
  | bucket unit ref => database.truncated unit (ref.value row)
  | metric _ _ => .null

/-- Whether an expression is a metric. -/
def isMetric : SelectExpr → Bool
  | metric _ _ => true
  | field _ | bucket _ _ => false

/-- **The value of an expression over a group.** What is no metric is the same for all of its rows. -/
def overGroup (database : Database σ) (rows : List JoinedRow) : SelectExpr → ResultCell
  | metric operation ref => .number (operation.overJoined ref rows)
  | field ref => .value (rows.head?.elim .null fun row => inRow database row (field ref))
  | bucket unit ref => .value (rows.head?.elim .null fun row => inRow database row (bucket unit ref))

end SelectExpr

namespace CompiledAnalysis

/-- The values that a row is grouped by. -/
def groupKey (compiled : CompiledAnalysis σ) (database : Database σ) (row : JoinedRow) : List SqlValue :=
  compiled.group.map (SelectExpr.inRow database row)

/-- **The groups of the query**: those of `GROUP BY`; without it, all rows where there is a metric, and each row
by itself where there is none. -/
def groups (compiled : CompiledAnalysis σ) (database : Database σ) (rows : List JoinedRow) :
    List (List JoinedRow) :=
  if compiled.group ≠ [] then
    (rows.map (compiled.groupKey database)).dedup.map fun key =>
      rows.filter fun row => compiled.groupKey database row = key
  else if compiled.select.any fun item => item.expr.isMetric then [rows]
  else rows.map ([·])

/-- A row of the result, by the names of its columns. -/
def resultRow (compiled : CompiledAnalysis σ) (database : Database σ) (group : List JoinedRow) :
    List (String × ResultCell) :=
  compiled.select.map fun item => (item.output, item.expr.overGroup database group)

/-- **What the query returns.** -/
def run (compiled : CompiledAnalysis σ) (database : Database σ) (tables : String → List SqlRow) :
    List (List (String × ResultCell)) :=
  (database.arranged compiled.order ((compiled.groups database (compiled.relation database tables)).map
    (compiled.resultRow database))).take compiled.limit

end CompiledAnalysis

/-- `Decimal(str(row[name]))`, where a name that is given twice means the last of them. -/
def resultNumber (row : List (String × ResultCell)) (name : String) : ℚ :=
  match row.reverse.lookup name with
  | some (.number value) => value
  | some (.value value) => value.toRat
  | none => 0

/-- `ResultTable` of an analysis. -/
structure AnalysisResult where
  rows : List (List (String × ResultCell))
  totals : List (String × ℚ)

/-- Whether a metric column has no total: groups may share the values that are counted once. -/
def withoutTotal (plan : AnalysisPlan σ) (column : ResultColumnMeta) : Bool :=
  "_count_distinct".toList.isSuffixOf column.name.toList && (!plan.groupBy.isEmpty || plan.timeBucket.isSome)

/-- **`HostAnalysisExecutor.analyze`**, once the compiler has let the plan through; `none` is a result that is
not complete. -/
def analyze (host : AnalysisHost) (database : Database σ) (plan : AnalysisPlan σ) :
    Except String (Option AnalysisResult) :=
  (compileAnalysis host plan).map fun compiled =>
    let rows := compiled.run database host.table
    if plan.limit < rows.length then none
    else
      let measured := compiled.columns.filter fun column =>
        column.metricName.isSome && !withoutTotal plan column
      some ⟨rows, measured.map fun column => (column.name, (rows.map fun row => resultNumber row column.name).sum)⟩
