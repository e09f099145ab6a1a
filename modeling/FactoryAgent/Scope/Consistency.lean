import FactoryAgent.Execution.Fanout
import FactoryAgent.Execution.Recipes
import FactoryAgent.Lib.Keys
import FactoryAgent.Lib.StableSort
import FactoryAgent.Scope.Capabilities
import Mathlib.Data.String.Basic

/-!
# The safety net behind the roles

What a capability returned is compared with what its caller may see: `ConsistencyValidator` of
`application/consistency.py`, on the values that `_observe_ownership` of `execution/kernel.py` finds in the rows, and
with the `ExpectedRange` of `domain/identity.py`. There is an exact finding where a value of a judged dimension is out
of range (`isSome_exactFinding_iff`), whatever the order of the fetches and of their rows, and rows of base data are
never judged. No finding stops the answer (`action_validate`).

The digest of a value is a parameter. A value of the result is kept by its `str`.
-/

namespace Consistency

/-! ## The expected range -/

/-- **`ExpectedRange`**: what the caller is expected to see. -/
structure ExpectedRange where
  role : Role
  employeeId : Option String
  deptIds : List String
  wholeTenant : Bool := false
  deriving DecidableEq, Repr

namespace ExpectedRange

/-- `from_context` -/
def fromContext (context : TenantContext) (scope : DataScope) : ExpectedRange where
  role := context.role
  employeeId := some context.employeeId
  deptIds := scope.deptIds
  wholeTenant := decide (context.role = .owner)

/-- `allows_employee` -/
def allowsEmployee (expected : ExpectedRange) : Option String → Bool
  | none => true
  | some uid => expected.wholeTenant || decide (expected.employeeId = some uid)

/-- `allows_dept` -/
def allowsDept (expected : ExpectedRange) : Option String → Bool
  | none => true
  | some dept => expected.wholeTenant || decide (dept ∈ expected.deptIds)

/-- **The employee of a caller who is not the owner** is the caller. -/
theorem allowsEmployee_fromContext {context : TenantContext} {scope : DataScope} {uid : String} :
    (fromContext context scope).allowsEmployee (some uid) = false
      ↔ context.role ≠ .owner ∧ uid ≠ context.employeeId := by
  rw [allowsEmployee, fromContext, Bool.or_eq_false_iff, decide_eq_false_iff_not, decide_eq_false_iff_not,
    Option.some.injEq, @eq_comm _ context.employeeId]

/-- **The departments of a caller who is not the owner** are the bound ones. -/
theorem allowsDept_fromContext {context : TenantContext} {scope : DataScope} {dept : String} :
    (fromContext context scope).allowsDept (some dept) = false ↔ context.role ≠ .owner ∧ dept ∉ scope.deptIds := by
  rw [allowsDept, fromContext, Bool.or_eq_false_iff, decide_eq_false_iff_not, decide_eq_false_iff_not]

end ExpectedRange

/-- `ROLE_DATA_RANGE` -/
def roleDataRange : Role → String
  | .employee => "本人的产量与工资数据"
  | .groupLeader => "本人数据及所绑定小组的生产与工资数据"
  | .manager => "本人数据及所绑定车间/部门的生产与工资数据"
  | .owner => "本人数据及全厂的订单、产量与工资数据"

/-- `_range_text`. Every role has its text. -/
def rangeText (expected : ExpectedRange) : String :=
  roleDataRange expected.role

/-! ## What the rows of a capability mean -/

/-- **`RowSemantic`** -/
inductive RowSemantic where
  | personal
  | personalSummary
  | groupRank
  | managementOverview
  | teamList
  | ownerOverview
  deriving DecidableEq, Repr

/-- **`SemanticRule`**: what is judged of a capability. -/
structure SemanticRule where
  semantic : RowSemantic
  judgeUidSelf : Bool := false
  judgeDept : Bool := false
  singleSubject : Bool := false
  outputUidColumn : Option String := none
  outputDeptColumn : Option String := none
  deriving DecidableEq, Repr

/-- **`ROW_SEMANTICS`**. Every capability has its rule. -/
def rowSemantics : Capability → SemanticRule
  | .ownOutput => { semantic := .personal, judgeUidSelf := true }
  | .ownPayrollSummary => { semantic := .personalSummary, judgeUidSelf := true, singleSubject := true }
  | .ownPayrollDetail => { semantic := .personal, judgeUidSelf := true }
  | .groupIncomeRank => { semantic := .groupRank, judgeDept := true, singleSubject := true }
  | .orderProgress => { semantic := .managementOverview, judgeDept := true }
  | .orderOutput => { semantic := .managementOverview, judgeDept := true }
  | .workshopComparison => { semantic := .managementOverview, judgeDept := true }
  | .teamPayrollList =>
    { semantic := .teamList, judgeDept := true, outputUidColumn := some "uid", outputDeptColumn := some "dept" }
  | .factoryOrderOverview => { semantic := .ownerOverview }
  | .workshopOutputOverview => { semantic := .managementOverview }
  | .factoryPayrollStats => { semantic := .ownerOverview }
  | .anyEmployeePayroll => { semantic := .ownerOverview, singleSubject := true }
  | .factoryOutputDashboard => { semantic := .ownerOverview }

/-! ## What the kernel observes -/

/-- **The operation of a step**, of the last step with this id that fetches. -/
def apiByStep (recipe : CapabilityRecipe) (stepId : String) : Option String :=
  recipe.steps.reverse.findSome? fun step =>
    if step.stepId = stepId ∧ step.kind = .api then step.operationId else none

/-- The rows that were fetched, without those of base data. -/
def businessRows (recipe : CapabilityRecipe) (fetches : List (String × FetchResult)) (baseData : List String) :
    List Row :=
  fetches.flatMap fun fetch =>
    match apiByStep recipe fetch.1 with
    | none => []
    | some operation => if operation ∈ baseData then [] else fetch.2.rows

/-- The value of a column that says whose a row is. -/
def ownershipValue (column : String) (row : Row) : Option String :=
  if row.cell column = .null ∨ row.cell column = .text "" then none else some (row.cell column).str

/-- **`OwnershipObservation`** -/
structure OwnershipObservation where
  uids : List String := []
  depts : List String := []
  deriving DecidableEq, Repr

/-- The distinct values of a column, in order. -/
def distinctValues (column : String) (rows : List Row) : List String :=
  StableSort.sorted id (rows.filterMap (ownershipValue column)).dedup

/-- **`_observe_ownership`** -/
def observeOwnership (recipe : CapabilityRecipe) (fetches : List (String × FetchResult)) (baseData : List String) :
    OwnershipObservation where
  uids := distinctValues "uid" (businessRows recipe fetches baseData)
  depts := distinctValues "dept" (businessRows recipe fetches baseData)

/-- **The values of a column** are those of the rows. -/
theorem mem_distinctValues {column : String} {rows : List Row} {value : String} :
    value ∈ distinctValues column rows ↔ ∃ row ∈ rows, ownershipValue column row = some value := by
  rw [distinctValues, (StableSort.sorted_perm id _).mem_iff, List.mem_dedup, List.mem_filterMap]

/-- **The order of the rows does not matter**, nor how often a value comes. -/
theorem distinctValues_congr {column : String} {rows rows' : List Row} (h : ∀ row, row ∈ rows ↔ row ∈ rows') :
    distinctValues column rows = distinctValues column rows' := by
  refine StableSort.sorted_eq_of_perm id Function.injective_id
    ((List.perm_ext_iff_of_nodup (List.nodup_dedup _) (List.nodup_dedup _)).mpr fun value => ?_)
  simp only [List.mem_dedup, List.mem_filterMap, h]

/-! ## The result -/

/-- **`CapabilityRunResult`**, as the validator reads it. Each row has a value for each column. -/
structure CapabilityRunResult where
  columnNames : List String
  rows : List (List (Option String))
  observedUidValues : List String := []
  observedDeptValues : List String := []
  aligned : ∀ row ∈ rows, row.length = columnNames.length

/-- `_column_index` -/
def columnIndex (result : CapabilityRunResult) (name : String) : Option Nat :=
  result.columnNames.idxOf? name

/-- The values of a column of the result, without nulls. -/
def outputValues (result : CapabilityRunResult) (column : String) : List String :=
  match columnIndex result column with
  | none => []
  | some index => result.rows.filterMap fun row => row[index]?.join

/-! ## The validator -/

/-- **`ValidationLevel`** -/
inductive ValidationLevel where
  | ok
  | exactHit
  | heuristicHit
  deriving DecidableEq, Repr

/-- The value of a level. -/
def ValidationLevel.value : ValidationLevel → String
  | ok => "ok"
  | exactHit => "exact_hit"
  | heuristicHit => "heuristic_hit"

/-- **`ValidationAction`** -/
inductive ValidationAction where
  | proceed
  | block
  deriving DecidableEq, Repr

/-- **`ValidationFinding`** -/
structure ValidationFinding where
  level : ValidationLevel
  code : String
  reason : String
  expected : String
  actual : String
  sampleCount : Nat := 0
  sampleDigests : List String := []
  deriving DecidableEq, Repr

/-- **`ConsistencyVerdict`** -/
structure ConsistencyVerdict where
  finding : Option ValidationFinding
  action : ValidationAction
  deriving DecidableEq, Repr

/-- **`should_block`**: nothing is ever stopped. -/
def shouldBlock (_level : ValidationLevel) (_mode : String) : Bool :=
  false

/-- Offenders of a dimension, where none were found before. -/
def orOffenders (found : List String × String) (judged : Bool) (outside : List String) (dimension : String) :
    List String × String :=
  if found.1 = [] ∧ judged = true ∧ outside ≠ [] then (outside, dimension) else found

/-- **The offenders of a result**, with the name of their dimension: the work numbers first, then the departments of
the fetched rows, then those of the result. -/
def offenders (result : CapabilityRunResult) (rule : SemanticRule) (expected : ExpectedRange) : List String × String :=
  let uids := orOffenders ([], "") rule.judgeUidSelf
    (result.observedUidValues.filter fun uid => !expected.allowsEmployee (some uid)) "员工工号"
  let depts := orOffenders uids (rule.judgeDept && !expected.wholeTenant)
    (result.observedDeptValues.filter fun dept => !expected.allowsDept (some dept)) "部门"
  match rule.outputDeptColumn with
  | none => depts
  | some column =>
    orOffenders depts (column ≠ "" && !expected.wholeTenant)
      ((outputValues result column).filter fun dept => !expected.allowsDept (some dept)).eraseDups "部门"

section Validator

variable (digest : String → String)

/-- **`_exact_finding`** -/
def exactFinding (result : CapabilityRunResult) (rule : SemanticRule) (expected : ExpectedRange) :
    Option ValidationFinding :=
  let found := offenders result rule expected
  if found.1 = [] ∨ found.2 = "" then none
  else
    let digests := (found.1.take 5).map digest
    some {
      level := .exactHit
      code := "scope_mismatch_exact"
      reason := "本次查询返回的数据中包含不在您可查范围内的记录，已停止展示相关数据。您可查询的范围："
        ++ rangeText expected ++ "。"
      expected := "可查范围：" ++ rangeText expected
      actual := "返回业务数据含 " ++ toString found.1.length ++ " 个范围外" ++ found.2 ++ "值（已摘要："
        ++ ",".intercalate digests ++ "）"
      sampleCount := found.1.length
      sampleDigests := digests }

/-- **`_heuristic_finding`** -/
def heuristicFinding (result : CapabilityRunResult) (rule : SemanticRule) (expected : ExpectedRange) :
    Option ValidationFinding :=
  if rule.singleSubject = false then none
  else if result.rows.length ≤ 1 then none
  else if expected.role = .owner ∧ rule.semantic = .ownerOverview then none
  else
    some {
      level := .heuristicHit
      code := "single_subject_multiple_rows"
      reason := "单主体语义（个人工资汇总/组内排名/任一员工工资）输出多于 1 行：真实 MES 上可能因"
        ++ "一人多 uid/同名等业务原因出现，属可疑形态而非确证越权，按启发式记录不拦截。"
      expected := "单主体语义，期望单行结果（可查范围：" ++ rangeText expected ++ "）"
      actual := "实际返回 " ++ toString result.rows.length ++ " 行结果"
      sampleCount := result.rows.length }

/-- The verdict on a finding. -/
def verdictOn (finding : ValidationFinding) (mode : String) : ConsistencyVerdict :=
  ⟨some finding, if shouldBlock finding.level mode then .block else .proceed⟩

/-- **`ConsistencyValidator.validate`** -/
def validate (result : CapabilityRunResult) (capability : Capability) (expected : ExpectedRange) (mode : String) :
    ConsistencyVerdict :=
  match exactFinding digest result (rowSemantics capability) expected with
  | some exact => verdictOn exact mode
  | none =>
    match heuristicFinding result (rowSemantics capability) expected with
    | some heuristic => verdictOn heuristic mode
    | none => ⟨none, .proceed⟩

variable {digest} {result : CapabilityRunResult} {rule : SemanticRule} {expected : ExpectedRange}
  {capability : Capability} {mode : String}

/-- **No finding stops the answer.** -/
theorem action_validate : (validate digest result capability expected mode).action = .proceed := by
  unfold validate
  split
  · rfl
  · split <;> rfl

/-- **The finding of a verdict**, exact before heuristic. -/
theorem finding_validate : (validate digest result capability expected mode).finding
    = (exactFinding digest result (rowSemantics capability) expected).or
        (heuristicFinding result (rowSemantics capability) expected) := by
  unfold validate
  cases exactFinding digest result (rowSemantics capability) expected with
  | some exact => rfl
  | none => cases heuristicFinding result (rowSemantics capability) expected <;> rfl

/-! ## What is found -/

/-- The dimension of offenders has a name. -/
theorem orOffenders_named (found : List String × String) (h : found.1 = [] ∨ found.2 ≠ "") (judged : Bool)
    (outside : List String) {dimension : String} (hdimension : dimension ≠ "") :
    (orOffenders found judged outside dimension).1 = [] ∨ (orOffenders found judged outside dimension).2 ≠ "" := by
  unfold orOffenders
  split_ifs
  · exact .inr hdimension
  · exact h

/-- **Offenders are found in some dimension.** -/
theorem orOffenders_ne_nil {found : List String × String} {judged : Bool} {outside : List String}
    {dimension : String} : (orOffenders found judged outside dimension).1 ≠ []
      ↔ found.1 ≠ [] ∨ judged = true ∧ outside ≠ [] := by
  unfold orOffenders
  split_ifs with h
  · exact ⟨fun _ => .inr h.2, fun _ => h.2.2⟩
  · refine ⟨.inl, fun hor => hor.elim id fun hout hnil => h ⟨hnil, hout⟩⟩

/-- Offenders have a name for their dimension. -/
theorem offenders_named : (offenders result rule expected).1 = [] ∨ (offenders result rule expected).2 ≠ "" := by
  unfold offenders
  have huids := orOffenders_named ([], "") (.inl rfl) rule.judgeUidSelf
    (result.observedUidValues.filter fun uid => !expected.allowsEmployee (some uid))
    (show "员工工号" ≠ "" by decide)
  have hdepts := orOffenders_named _ huids (rule.judgeDept && !expected.wholeTenant)
    (result.observedDeptValues.filter fun dept => !expected.allowsDept (some dept)) (show "部门" ≠ "" by decide)
  cases rule.outputDeptColumn with
  | none => exact hdepts
  | some column => exact orOffenders_named _ hdepts _ _ (by decide)

/-- **There is an exact finding where there are offenders.** -/
theorem isSome_exactFinding :
    (exactFinding digest result rule expected).isSome = true ↔ (offenders result rule expected).1 ≠ [] := by
  simp only [exactFinding]
  split_ifs with h
  · refine ⟨fun hsome => Bool.noConfusion hsome, fun hne => ?_⟩
    exact absurd (h.resolve_left hne) (offenders_named.resolve_left hne)
  · exact ⟨fun _ => fun hnil => h (.inl hnil), fun _ => rfl⟩

/-- An exact finding, with its level, its code and its samples. -/
theorem exactFinding_eq_some {finding : ValidationFinding}
    (h : exactFinding digest result rule expected = some finding) :
    finding.level = .exactHit ∧ finding.code = "scope_mismatch_exact"
      ∧ finding.sampleCount = (offenders result rule expected).1.length
      ∧ finding.sampleDigests = ((offenders result rule expected).1.take 5).map digest := by
  simp only [exactFinding] at h
  split_ifs at h
  rw [← Option.some.inj h]
  exact ⟨rfl, rfl, rfl, rfl⟩

/-- **There is a heuristic finding** where one subject has several rows, unless the owner looks at the factory. -/
theorem heuristicFinding_isSome : (heuristicFinding result rule expected).isSome = true
    ↔ rule.singleSubject = true ∧ 1 < result.rows.length
      ∧ ¬(expected.role = .owner ∧ rule.semantic = .ownerOverview) := by
  unfold heuristicFinding
  split_ifs with hsingle hrows howner
  · exact ⟨fun h => Bool.noConfusion h, fun h => absurd h.1 (by rw [hsingle]; exact Bool.false_ne_true)⟩
  · exact ⟨fun h => Bool.noConfusion h, fun h => absurd h.2.1 (Nat.not_lt.mpr hrows)⟩
  · exact ⟨fun h => Bool.noConfusion h, fun h => absurd howner h.2.2⟩
  · exact ⟨fun _ => ⟨(Bool.not_eq_false _).mp hsingle, Nat.not_le.mp hrows, howner⟩, fun _ => rfl⟩

/-- A heuristic finding, with its level and its code. -/
theorem heuristicFinding_eq_some {finding : ValidationFinding}
    (h : heuristicFinding result rule expected = some finding) :
    finding.level = .heuristicHit ∧ finding.code = "single_subject_multiple_rows" := by
  unfold heuristicFinding at h
  split_ifs at h
  rw [← Option.some.inj h]
  exact ⟨rfl, rfl⟩

end Validator

/-! ## A capability that has run -/

/-- **A capability that has run**: its caller, what it fetched and what came out. -/
structure Judged where
  recipe : CapabilityRecipe
  fetches : List (String × FetchResult)
  columnNames : List String
  rows : List (List (Option String))
  aligned : ∀ row ∈ rows, row.length = columnNames.length
  capability : Capability
  context : TenantContext
  scope : DataScope

namespace Judged

/-- The rows that are judged. -/
def businessRows (judged : Judged) (baseData : List String) : List Row :=
  Consistency.businessRows judged.recipe judged.fetches baseData

/-- The result, with the ownership values of its rows. -/
def result (judged : Judged) (baseData : List String) : CapabilityRunResult where
  columnNames := judged.columnNames
  rows := judged.rows
  observedUidValues := (observeOwnership judged.recipe judged.fetches baseData).uids
  observedDeptValues := (observeOwnership judged.recipe judged.fetches baseData).depts
  aligned := judged.aligned

/-- **`_scope_verdict`**, where a validator is wired -/
def scopeVerdict (judged : Judged) (digest : String → String) (baseData : List String) (mode : String) :
    ConsistencyVerdict :=
  validate digest (judged.result baseData) judged.capability (.fromContext judged.context judged.scope) mode

/-- **A value that the caller should not see**, in a dimension that is judged. -/
inductive Outside (judged : Judged) (baseData : List String) : Prop where
  | employee (row : Row) (uid : String) : (rowSemantics judged.capability).judgeUidSelf = true →
      row ∈ judged.businessRows baseData → ownershipValue "uid" row = some uid →
      uid ≠ judged.context.employeeId → Outside judged baseData
  | department (row : Row) (dept : String) : (rowSemantics judged.capability).judgeDept = true →
      row ∈ judged.businessRows baseData → ownershipValue "dept" row = some dept →
      dept ∉ judged.scope.deptIds → Outside judged baseData
  | output (column : String) (index : Nat) (row : List (Option String)) (dept : String) :
      (rowSemantics judged.capability).outputDeptColumn = some column →
      judged.columnNames.idxOf? column = some index → row ∈ judged.rows → row[index]? = some (some dept) →
      dept ∉ judged.scope.deptIds → Outside judged baseData

/-- **A mismatch**: a value that a caller who is not the owner should not see. -/
def Mismatch (judged : Judged) (baseData : List String) : Prop :=
  judged.context.role ≠ .owner ∧ judged.Outside baseData

/-- **Several rows about one subject**, where the capability is about one. -/
def Repeated (judged : Judged) : Prop :=
  (rowSemantics judged.capability).singleSubject = true ∧ 1 < judged.rows.length
    ∧ ¬(judged.context.role = .owner ∧ (rowSemantics judged.capability).semantic = .ownerOverview)

variable {judged : Judged} {baseData : List String} {digest : String → String} {mode : String}

/-- There are elements that a test lets through. -/
theorem filter_ne_nil {α : Type} {p : α → Bool} {l : List α} : l.filter p ≠ [] ↔ ∃ a ∈ l, p a = true := by
  rw [ne_eq, List.filter_eq_nil_iff]
  push Not
  exact Iff.rfl

/-- **The work numbers that should not be seen.** -/
theorem uids_outside (judged : Judged) (baseData : List String) :
    ((judged.result baseData).observedUidValues.filter fun uid =>
      !(ExpectedRange.fromContext judged.context judged.scope).allowsEmployee (some uid)) ≠ []
    ↔ judged.context.role ≠ .owner ∧ ∃ row ∈ judged.businessRows baseData, ∃ uid,
        ownershipValue "uid" row = some uid ∧ uid ≠ judged.context.employeeId := by
  simp only [filter_ne_nil, Bool.not_eq_true', ExpectedRange.allowsEmployee_fromContext]
  constructor
  · rintro ⟨uid, hmem, hrole, hne⟩
    obtain ⟨row, hrow, hvalue⟩ := mem_distinctValues.mp hmem
    exact ⟨hrole, row, hrow, uid, hvalue, hne⟩
  · rintro ⟨hrole, row, hrow, uid, hvalue, hne⟩
    exact ⟨uid, mem_distinctValues.mpr ⟨row, hrow, hvalue⟩, hrole, hne⟩

/-- **The departments that should not be seen**, of the fetched rows. -/
theorem depts_outside (judged : Judged) (baseData : List String) :
    ((judged.result baseData).observedDeptValues.filter fun dept =>
      !(ExpectedRange.fromContext judged.context judged.scope).allowsDept (some dept)) ≠ []
    ↔ judged.context.role ≠ .owner ∧ ∃ row ∈ judged.businessRows baseData, ∃ dept,
        ownershipValue "dept" row = some dept ∧ dept ∉ judged.scope.deptIds := by
  simp only [filter_ne_nil, Bool.not_eq_true', ExpectedRange.allowsDept_fromContext]
  constructor
  · rintro ⟨dept, hmem, hrole, hnot⟩
    obtain ⟨row, hrow, hvalue⟩ := mem_distinctValues.mp hmem
    exact ⟨hrole, row, hrow, dept, hvalue, hnot⟩
  · rintro ⟨hrole, row, hrow, dept, hvalue, hnot⟩
    exact ⟨dept, mem_distinctValues.mpr ⟨row, hrow, hvalue⟩, hrole, hnot⟩

/-- The values of a column of the result. -/
theorem mem_outputValues {result : CapabilityRunResult} {column value : String} :
    value ∈ outputValues result column ↔ ∃ index, columnIndex result column = some index
      ∧ ∃ row ∈ result.rows, row[index]? = some (some value) := by
  unfold outputValues
  cases columnIndex result column with
  | none => exact ⟨fun h => absurd h List.not_mem_nil, fun ⟨_, h, _⟩ => absurd h (Option.some_ne_none _).symm⟩
  | some index =>
    simp only [List.mem_filterMap, Option.join_eq_some_iff, Option.some.injEq, exists_eq_left']

/-- **The departments that should not be seen**, of the result. -/
theorem output_outside (judged : Judged) (baseData : List String) (column : String) :
    ((outputValues (judged.result baseData) column).filter fun dept =>
      !(ExpectedRange.fromContext judged.context judged.scope).allowsDept (some dept)).eraseDups ≠ []
    ↔ judged.context.role ≠ .owner ∧ ∃ index, judged.columnNames.idxOf? column = some index
        ∧ ∃ row ∈ judged.rows, ∃ dept, row[index]? = some (some dept) ∧ dept ∉ judged.scope.deptIds := by
  have hdups : ∀ l : List String, l.eraseDups ≠ [] ↔ l ≠ [] := by
    intro l
    rw [← List.length_pos_iff, ← List.length_pos_iff, List.length_pos_iff_exists_mem, List.length_pos_iff_exists_mem]
    simp only [List.mem_eraseDups]
  simp only [hdups, filter_ne_nil, Bool.not_eq_true', ExpectedRange.allowsDept_fromContext, mem_outputValues]
  constructor
  · rintro ⟨dept, ⟨index, hindex, row, hrow, hvalue⟩, hrole, hnot⟩
    exact ⟨hrole, index, hindex, row, hrow, dept, hvalue, hnot⟩
  · rintro ⟨hrole, index, hindex, row, hrow, dept, hvalue, hnot⟩
    exact ⟨dept, ⟨index, hindex, row, hrow, hvalue⟩, hrole, hnot⟩

/-- The column of departments has a name. -/
theorem outputDeptColumn_ne {capability : Capability} {column : String}
    (h : (rowSemantics capability).outputDeptColumn = some column) : column ≠ "" := by
  cases capability <;> first | exact (Option.some_ne_none _ h.symm).elim | (rw [← Option.some.inj h]; decide)

/-- The whole tenant is in the range of the owner. -/
theorem wholeTenant_fromContext {context : TenantContext} {scope : DataScope} :
    (!(ExpectedRange.fromContext context scope).wholeTenant) = true ↔ context.role ≠ .owner := by
  rw [ExpectedRange.fromContext, Bool.not_eq_true', decide_eq_false_iff_not]

/-- **There is an exact finding exactly where there is a mismatch.** -/
theorem isSome_exactFinding_iff (digest : String → String) (judged : Judged) (baseData : List String) :
    (exactFinding digest (judged.result baseData) (rowSemantics judged.capability)
      (.fromContext judged.context judged.scope)).isSome = true ↔ judged.Mismatch baseData := by
  rw [isSome_exactFinding]
  have huids := uids_outside judged baseData
  have hdepts := depts_outside judged baseData
  unfold offenders
  cases hcolumn : (rowSemantics judged.capability).outputDeptColumn with
  | none =>
    simp only [orOffenders_ne_nil, huids, hdepts, Bool.and_eq_true, wholeTenant_fromContext]
    constructor
    · rintro ((hnil | ⟨hself, hrole, row, hrow, uid, hvalue, hne⟩) | ⟨⟨hdept, hrole⟩, -, row, hrow, dept, hvalue, hnot⟩)
      · exact absurd rfl hnil
      · exact ⟨hrole, .employee row uid hself hrow hvalue hne⟩
      · exact ⟨hrole, .department row dept hdept hrow hvalue hnot⟩
    · rintro ⟨hrole, houtside⟩
      cases houtside with
      | employee row uid hself hrow hvalue hne => exact .inl (.inr ⟨hself, hrole, row, hrow, uid, hvalue, hne⟩)
      | department row dept hdept hrow hvalue hnot =>
        exact .inr ⟨⟨hdept, hrole⟩, hrole, row, hrow, dept, hvalue, hnot⟩
      | output column index row dept hsome => exact absurd (hcolumn.symm.trans hsome) (Option.some_ne_none _).symm
  | some column =>
    have hoff := output_outside judged baseData column
    have hname := outputDeptColumn_ne hcolumn
    simp only [orOffenders_ne_nil, huids, hdepts, hoff, Bool.and_eq_true, wholeTenant_fromContext,
      decide_eq_true_eq]
    constructor
    · rintro (((hnil | ⟨hself, hrole, row, hrow, uid, hvalue, hne⟩)
        | ⟨⟨hdept, hrole⟩, -, row, hrow, dept, hvalue, hnot⟩)
        | ⟨⟨-, hrole⟩, -, index, hindex, row, hrow, dept, hvalue, hnot⟩)
      · exact absurd rfl hnil
      · exact ⟨hrole, .employee row uid hself hrow hvalue hne⟩
      · exact ⟨hrole, .department row dept hdept hrow hvalue hnot⟩
      · exact ⟨hrole, .output column index row dept hcolumn hindex hrow hvalue hnot⟩
    · rintro ⟨hrole, houtside⟩
      cases houtside with
      | employee row uid hself hrow hvalue hne =>
        exact .inl (.inl (.inr ⟨hself, hrole, row, hrow, uid, hvalue, hne⟩))
      | department row dept hdept hrow hvalue hnot =>
        exact .inl (.inr ⟨⟨hdept, hrole⟩, hrole, row, hrow, dept, hvalue, hnot⟩)
      | output other index row dept hother hindex hrow hvalue hnot =>
        obtain rfl := Option.some.inj (hcolumn.symm.trans hother)
        exact .inr ⟨⟨hname, hrole⟩, hrole, index, hindex, row, hrow, dept, hvalue, hnot⟩

/-- **There is a heuristic finding exactly where one subject has several rows.** -/
theorem isSome_heuristicFinding_iff (judged : Judged) (baseData : List String) :
    (heuristicFinding (judged.result baseData) (rowSemantics judged.capability)
      (.fromContext judged.context judged.scope)).isSome = true ↔ judged.Repeated :=
  heuristicFinding_isSome

/-- **What was fetched is judged as a set**: neither the order of the fetches nor that of their rows matters, and base
data does not matter at all. -/
theorem scopeVerdict_congr {other : Judged}
    (hrows : ∀ row, row ∈ judged.businessRows baseData ↔ row ∈ other.businessRows baseData)
    (hresult : judged.columnNames = other.columnNames ∧ judged.rows = other.rows)
    (hcaller : judged.capability = other.capability ∧ judged.context = other.context ∧ judged.scope = other.scope) :
    judged.scopeVerdict digest baseData mode = other.scopeVerdict digest baseData mode := by
  have huids : (judged.result baseData).observedUidValues = (other.result baseData).observedUidValues :=
    distinctValues_congr hrows
  have hdepts : (judged.result baseData).observedDeptValues = (other.result baseData).observedDeptValues :=
    distinctValues_congr hrows
  have heq : judged.result baseData = other.result baseData := by
    exact CapabilityRunResult.mk.injEq .. ▸ ⟨hresult.1, hresult.2, huids, hdepts⟩
  rw [scopeVerdict, scopeVerdict, heq, hcaller.1, hcaller.2.1, hcaller.2.2]

end Judged

end Consistency
