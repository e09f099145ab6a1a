import FactoryAgent.Metering.Rollup

/-!
# The facts of the statistics surface

What `statistics/ops.py` reads of the metering tables, and how it puts a call into a bucket and into a category.

An instant is read with the offset of the session that reads it. The start of a day is taken after a conversion to
UTC (`bucketStart`); the start of an hour is taken of the clock as it stands, which is then said to be UTC
(`hourBucket`).
-/

namespace Statistics

/-- **A datetime with an offset**, in microseconds: the clock, and what it is ahead of UTC by. -/
structure AwareDatetime where
  wall : Int
  offset : Int
  deriving DecidableEq, Repr

/-- The range of `datetime`. -/
def inRange (wall : Int) : Bool :=
  -62135596800000000 ≤ wall && wall ≤ 253402300799999999

/-- **`astimezone(timezone.utc)`**; `none` is a raised `OverflowError`. -/
def AwareDatetime.utc? (instant : AwareDatetime) : Option Instant :=
  if inRange (instant.wall - instant.offset) then some (instant.wall - instant.offset) else none

/-- `hour_bucket` of `statistics/store.py`: the clock without its minutes, as one of UTC. -/
def hourBucket (instant : AwareDatetime) : Instant :=
  instant.wall - instant.wall % 3600000000

/-- `_bucket_start` -/
def bucketStart (instant : AwareDatetime) : Granularity → Option Instant
  | .hour => some (hourBucket instant)
  | .day => instant.utc?.map fun utc => utc - utc % 86400000000

/-- **`InteractionFact`**, as far as the breakdowns read it. -/
structure InteractionFact where
  capabilityId : Option String
  entrypoint : Option String
  roleCategory : Option String
  status : Option String
  errorCategory : Option String
  deriving DecidableEq, Repr

/-- **`LlmCallFact`**, as far as the breakdowns read it. -/
structure LlmCallFact where
  modelAlias : String
  actualModel : String
  stage : String
  fallbackReason : Option String
  errorCategory : Option String
  deriving DecidableEq, Repr

/-- **`MesCallFact`**, as far as the breakdowns read it. -/
structure MesCallFact where
  occurredAt : AwareDatetime
  operationId : String
  status : String
  deriving DecidableEq, Repr

/-! ## Categories -/

/-- `DEFAULT_OPERATION_CATEGORIES` -/
def defaultOperationCategories : List (String × String) :=
  ["BarcodeClQuery", "HuohaoWtCLQuery", "PinFengGridPageList", "WorktypeProgressQuery", "YskQuery", "WskQuery"].map
      (·, "output")
    ++ ["GongziClQuery", "GongziMxQuery", "GongziJeOrderQuery"].map (·, "payroll")
    ++ ["PlanGridPageList", "SclzdGridPageList", "SclzdWorktypeQuery", "SclzdBarcodeQuery", "ScjdQuery",
      "ScjdDetailQuery", "ScjdGxQuery", "ScjdFzHzQuery"].map (·, "order")
    ++ ["SystemToken", "TestPermissions", "UserInfoQuery", "MoveMenuQuery", "HuohaoQuery", "HuohaoFormQuery",
      "ScTypeQuery", "RfidWorktypeQuery", "HuohaoWorktypeQuery", "EmployeeQuery", "DeptQuery", "DgGridPageList",
      "DgZuGridPageList", "DgClQuery"].map (·, "other")

/-- **The table `mes_operation_category`**: a category for each operation. -/
structure CategoryTable where
  rows : List (String × String)
  keys : (rows.map (·.1)).Nodup

/-- The category of an operation in the table. -/
def CategoryTable.category? (table : CategoryTable) (operationId : String) : Option String :=
  table.rows.lookup operationId

/-- **`MesCategoryResolver.category_for`**, and `categories_for` of one operation: the table, then the defaults. -/
def categoryFor (table : CategoryTable) (operationId : String) : String :=
  (table.category? operationId).getD ((defaultOperationCategories.lookup operationId).getD "other")

end Statistics
