import FactoryAgent.Lib.LocalTime
import FactoryAgent.Lib.Machine
import FactoryAgent.Lib.Tally
import FactoryAgent.Lib.TiedPages
import FactoryAgent.Scope.Consistency
import Mathlib.Order.Bounds.Basic

/-!
# The review of what did not fit the roles

Each capability that has run is judged; what is found is recorded and alerted (`_record_scope_violation` of
`application/session/consistency.py`), and `ScopeReviewService` of `application/scope_review.py` reports the records of
a window of days by groups. The runs of different sessions interleave, each with its own clock; a record or an alert may
fail, which changes nothing else. The database returns records of one instant in any order.

A review shows what happened (`review_run`): its groups are those of the mismatches and repetitions that were recorded
in the window, of the oldest thousand where there are more.
-/

namespace Consistency

open LocalTime (Utc dayLength)

/-! ## Recording a finding -/

/-- `Role.value` -/
def roleValue : Role → String
  | .employee => "employee"
  | .groupLeader => "group_leader"
  | .manager => "manager"
  | .owner => "owner"

/-- **`ScopeViolationRecord`** -/
structure ScopeViolationRecord where
  violationId : String
  tenantId : String
  userId : String
  role : Role
  capabilityId : String
  level : String
  mode : String
  reasonCode : String
  interactionId : Option String
  expectedRange : String
  actualSummary : String
  rowCount : Nat
  sampleCount : Nat
  sampleDigests : List String
  createdAt : Utc
  deriving DecidableEq, Repr

/-- The `AuditEventType`s of the safety net. -/
inductive AuditEventType where
  | scopeViolationExact
  | scopeViolationHeuristic
  deriving DecidableEq, Repr

/-- **`AuditEvent`** -/
structure AuditEvent where
  eventType : AuditEventType
  /-- `AuditOutcome.DENIED`, or `ALLOWED` -/
  denied : Bool
  capabilityId : String
  scopeFingerprint : String
  employeeCount : Nat
  deptCount : Nat
  wholeTenant : Bool
  tenantId : String
  status : String
  occurredAt : Utc
  requestId : String
  deriving DecidableEq, Repr

/-- **What the safety net is set up with.** -/
structure Config where
  /-- `_digest` -/
  digest : String → String
  /-- `scope_fingerprint` -/
  fingerprint : String → List String → List String → String
  /-- the operations that fetch base data -/
  baseData : List String
  mode : String

/-- **A run that is judged**, with what its session reads of the world. -/
structure Judging where
  judged : Judged
  /-- the id that `_new_id` returns -/
  violationId : String
  interactionId : String
  now : Utc
  /-- whether the record takes effect -/
  stored : Bool
  /-- whether the sink takes the alert -/
  alerted : Bool

namespace Judging

variable (config : Config) (judging : Judging)

/-- The verdict on the run. -/
def verdict : ConsistencyVerdict :=
  judging.judged.scopeVerdict config.digest config.baseData config.mode

/-- The record of a finding. -/
def record (finding : ValidationFinding) : ScopeViolationRecord where
  violationId := judging.violationId
  tenantId := judging.judged.context.tenantId
  userId := judging.judged.context.userId
  role := judging.judged.context.role
  capabilityId := judging.judged.capability.value
  level := finding.level.value
  mode := config.mode
  reasonCode := finding.code
  interactionId := some judging.interactionId
  expectedRange := finding.expected
  actualSummary := finding.actual
  rowCount := judging.judged.rows.length
  sampleCount := finding.sampleCount
  sampleDigests := finding.sampleDigests
  createdAt := judging.now

/-- The alert of a finding. -/
def audit (finding : ValidationFinding) : AuditEvent :=
  let blocked := decide ((judging.verdict config).action = .block)
  { eventType := if finding.level = .exactHit then .scopeViolationExact else .scopeViolationHeuristic
    denied := blocked
    capabilityId := judging.judged.capability.value
    scopeFingerprint := config.fingerprint judging.judged.context.tenantId judging.judged.scope.employeeIds
      judging.judged.scope.deptIds
    employeeCount := judging.judged.scope.employeeIds.dedup.length
    deptCount := judging.judged.scope.deptIds.dedup.length
    wholeTenant := judging.judged.scope.mesFiltered
    tenantId := judging.judged.context.tenantId
    status := if blocked then "blocked" else "logged"
    occurredAt := judging.now
    requestId := judging.interactionId }

end Judging

/-- **The world**: the table of records, and the alerts. -/
structure World where
  records : List ScopeViolationRecord := []
  audits : List AuditEvent := []
  deriving DecidableEq

/-- **A run is judged**, and `_record_scope_violation` records what was found. No record has the id of another one. -/
def step (config : Config) (world : World) (judging : Judging) : Option World :=
  match (judging.verdict config).finding with
  | none => some world
  | some finding =>
    if judging.stored ∧ judging.violationId ∈ world.records.map (·.violationId) then none
    else
      some {
        records := world.records ++ if judging.stored then [judging.record config finding] else []
        audits := world.audits ++ if judging.alerted then [judging.audit config finding] else [] }

/-- **The sessions**, one judgement after the other. -/
def machine (config : Config) : Machine World Judging where
  init := {}
  step := step config

/-! ## The review -/

/-- **An answer of `SqlScopeViolationStore.list`**: the oldest records since an instant, those of one instant in any
order. -/
def Listed (records : List ScopeViolationRecord) (since : Utc) (limit : Nat) (answer : List ScopeViolationRecord) :
    Prop :=
  ∃ order, TiedPages.Ordering (fun record => record.createdAt.micros)
      (records.filter fun record => since.micros ≤ record.createdAt.micros) order ∧ answer = order.take limit

/-- The default limit of a list. -/
def listLimit : Nat := 1000

/-- **`_group_key`** -/
structure GroupKey where
  tenantId : String
  role : String
  capabilityId : String
  level : String
  reasonCode : String
  deriving DecidableEq, Repr

/-- The key of a record. -/
def groupKey (record : ScopeViolationRecord) : GroupKey where
  tenantId := record.tenantId
  role := roleValue record.role
  capabilityId := record.capabilityId
  level := record.level
  reasonCode := record.reasonCode

/-- `datetime.min` -/
def utcMin : Utc := ⟨-62135596800000000, by decide⟩

/-- **`_Accumulator`** -/
structure Accumulator where
  count : Nat := 0
  rowCountTotal : Nat := 0
  latestAt : Utc := utcMin
  deriving DecidableEq, Repr

/-- A record is added to its group. -/
def Accumulator.add (accumulator : Accumulator) (record : ScopeViolationRecord) : Accumulator where
  count := accumulator.count + 1
  rowCountTotal := accumulator.rowCountTotal + record.rowCount
  latestAt := if accumulator.latestAt.micros < record.createdAt.micros then record.createdAt else accumulator.latestAt

/-- **`ViolationGroup`** -/
structure ViolationGroup where
  key : GroupKey
  count : Nat
  rowCountTotal : Nat
  latestAt : Utc
  deriving DecidableEq, Repr

/-- **`ScopeReviewReport`** -/
structure ScopeReviewReport where
  generatedAt : Utc
  windowStart : Utc
  windowEnd : Utc
  groups : List ViolationGroup := []
  totalFindings : Nat := 0
  deriving DecidableEq, Repr

/-- The groups of the records, the latest first. -/
def groupsOf (records : List ScopeViolationRecord) : List ViolationGroup :=
  (StableSort.sorted (fun item : GroupKey × Accumulator => OrderDual.toDual item.2.latestAt.micros)
    (Tally.tally groupKey Accumulator.add {} Dict.empty records).items).map fun item =>
      ⟨item.1, item.2.count, item.2.rowCountTotal, item.2.latestAt⟩

/-- **`run_once`**, on the answers of the database; `none` is the `OverflowError` of a window that begins before the
calendar. -/
def runOnce (list : Utc → List ScopeViolationRecord) (windowDays : Int) (now : Utc) : Option ScopeReviewReport :=
  (Utc.of? (now.micros - windowDays * dayLength)).map fun windowStart =>
    let records := list windowStart
    if records = [] then { generatedAt := now, windowStart, windowEnd := now }
    else
      { generatedAt := now, windowStart, windowEnd := now, groups := groupsOf records,
        totalFindings := records.length }

/-! ## What should be reviewed -/

/-- **A finding as it is filed.** -/
structure Filing where
  key : GroupKey
  rowCount : Nat
  createdAt : Utc

/-- What is filed in a record. -/
def ScopeViolationRecord.filing (record : ScopeViolationRecord) : Filing :=
  ⟨groupKey record, record.rowCount, record.createdAt⟩

namespace Judging

/-- What is filed of a run at a level. -/
def filed (judging : Judging) (level : ValidationLevel) (code : String) : Filing where
  key := ⟨judging.judged.context.tenantId, roleValue judging.judged.context.role, judging.judged.capability.value,
    level.value, code⟩
  rowCount := judging.judged.rows.length
  createdAt := judging.now

open Classical in
/-- **What should be filed of a run**: a mismatch with the range of its caller, or several rows about one subject. -/
noncomputable def filing? (config : Config) (judging : Judging) : Option Filing :=
  if judging.judged.Mismatch config.baseData then some (judging.filed .exactHit "scope_mismatch_exact")
  else if judging.judged.Repeated then some (judging.filed .heuristicHit "single_subject_multiple_rows")
  else none

open Classical in
/-- **What should be alerted of a run.** -/
noncomputable def alert? (config : Config) (judging : Judging) : Option (AuditEventType × String) :=
  if judging.judged.Mismatch config.baseData then some (.scopeViolationExact, judging.interactionId)
  else if judging.judged.Repeated then some (.scopeViolationHeuristic, judging.interactionId)
  else none

variable {config : Config} {judging : Judging}

/-- **The finding of a run**, by what it should be. -/
theorem finding_verdict {α : Type} (exact heuristic : α) (f : ValidationFinding → α)
    (hexact : ∀ finding : ValidationFinding, finding.level = .exactHit → finding.code = "scope_mismatch_exact" →
      f finding = exact)
    (hheuristic : ∀ finding : ValidationFinding, finding.level = .heuristicHit →
      finding.code = "single_subject_multiple_rows" → f finding = heuristic)
    [Decidable (judging.judged.Mismatch config.baseData)] [Decidable judging.judged.Repeated] :
    (judging.verdict config).finding.map f
      = if judging.judged.Mismatch config.baseData then some exact
        else if judging.judged.Repeated then some heuristic else none := by
  have hmismatch := Judged.isSome_exactFinding_iff config.digest judging.judged config.baseData
  have hrepeated := Judged.isSome_heuristicFinding_iff judging.judged config.baseData
  rw [verdict, Judged.scopeVerdict, finding_validate]
  cases hfirst : exactFinding config.digest (judging.judged.result config.baseData)
      (rowSemantics judging.judged.capability) (.fromContext judging.judged.context judging.judged.scope) with
  | some finding =>
    obtain ⟨hlevel, hcode, -⟩ := exactFinding_eq_some hfirst
    rw [if_pos (hmismatch.mp (by rw [hfirst]; rfl)), Option.some_or, Option.map_some, hexact finding hlevel hcode]
  | none =>
    have hnot : ¬judging.judged.Mismatch config.baseData := fun h => by
      have hsome := hmismatch.mpr h
      rw [hfirst] at hsome
      cases hsome
    rw [if_neg hnot, Option.none_or]
    cases hsecond : heuristicFinding (judging.judged.result config.baseData)
        (rowSemantics judging.judged.capability) (.fromContext judging.judged.context judging.judged.scope) with
    | some finding =>
      obtain ⟨hlevel, hcode⟩ := heuristicFinding_eq_some hsecond
      rw [if_pos (hrepeated.mp (by rw [hsecond]; rfl)), Option.map_some, hheuristic finding hlevel hcode]
    | none =>
      rw [if_neg fun h => ?_]
      · rfl
      · have hsome := hrepeated.mpr h
        rw [hsecond] at hsome
        cases hsome

/-- **What is recorded of a run is what should be filed of it.** -/
theorem filing_eq (config : Config) (judging : Judging) :
    (judging.verdict config).finding.map (fun finding => (judging.record config finding).filing)
      = judging.filing? config := by
  unfold filing?
  classical
  refine finding_verdict _ _ _ ?_ ?_
  · intro finding hlevel hcode
    show Filing.mk ⟨_, _, _, finding.level.value, finding.code⟩ _ _ = _
    rw [hlevel, hcode]
    rfl
  · intro finding hlevel hcode
    show Filing.mk ⟨_, _, _, finding.level.value, finding.code⟩ _ _ = _
    rw [hlevel, hcode]
    rfl

/-- **What is alerted of a run is what should be.** -/
theorem alert_eq (config : Config) (judging : Judging) :
    (judging.verdict config).finding.map (fun finding =>
        ((judging.audit config finding).eventType, (judging.audit config finding).requestId))
      = judging.alert? config := by
  unfold alert?
  classical
  refine finding_verdict _ _ _ ?_ ?_
  · intro finding hlevel _
    show (if finding.level = .exactHit then _ else _, _) = _
    rw [if_pos hlevel]
    rfl
  · intro finding hlevel _
    show (if finding.level = .exactHit then AuditEventType.scopeViolationExact else _, _) = _
    rw [if_neg (by rw [hlevel]; exact ValidationLevel.noConfusion)]
    rfl

end Judging

/-- **What should be filed of the runs** whose records took effect. -/
noncomputable def filings (config : Config) (run : List Judging) : List Filing :=
  (run.filter (·.stored)).filterMap (Judging.filing? config)

/-- **What should be alerted of the runs** whose alerts went out. -/
noncomputable def alerts (config : Config) (run : List Judging) : List (AuditEventType × String) :=
  (run.filter (·.alerted)).filterMap (Judging.alert? config)

/-! ## The records of a run -/

variable {config : Config} {world world' : World} {run : List Judging}

/-- An alert says that nothing was stopped. -/
theorem denied_audit {judging : Judging} {finding : ValidationFinding} :
    (judging.audit config finding).denied = false ∧ (judging.audit config finding).status = "logged" := by
  have hproceed : decide ((judging.verdict config).action = .block) = false := by
    rw [Judging.verdict, Judged.scopeVerdict, action_validate]
    rfl
  simp only [Judging.audit, hproceed]
  exact ⟨trivial, if_neg Bool.false_ne_true⟩

/-- **One judgement**: it files and alerts what it should, or nothing. -/
theorem step_spec {judging : Judging} (h : step config world judging = some world') :
    world'.records.map ScopeViolationRecord.filing
        = world.records.map ScopeViolationRecord.filing ++ filings config [judging]
      ∧ world'.audits.map (fun audit => (audit.eventType, audit.requestId))
        = world.audits.map (fun audit => (audit.eventType, audit.requestId)) ++ alerts config [judging]
      ∧ ((∀ audit ∈ world.audits, audit.denied = false ∧ audit.status = "logged") →
        ∀ audit ∈ world'.audits, audit.denied = false ∧ audit.status = "logged") := by
  have hfiling := Judging.filing_eq config judging
  have halert := Judging.alert_eq config judging
  have hfilings : filings config [judging] = if judging.stored then (judging.filing? config).toList else [] := by
    cases hstored : judging.stored <;> cases hsome : judging.filing? config <;> simp [filings, hstored, hsome]
  have halerts : alerts config [judging] = if judging.alerted then (judging.alert? config).toList else [] := by
    cases halerted : judging.alerted <;> cases hsome : judging.alert? config <;> simp [alerts, halerted, hsome]
  rw [hfilings, halerts, ← hfiling, ← halert]
  unfold step at h
  cases hfinding : (judging.verdict config).finding with
  | none =>
    rw [hfinding] at h
    cases h
    simp
  | some finding =>
    rw [hfinding] at h
    simp only at h
    rw [if_neg fun htaken => by rw [if_pos htaken] at h; cases h] at h
    cases h
    refine ⟨?_, ?_, fun hbefore audit haudit => ?_⟩
    · cases judging.stored <;> simp
    · cases judging.alerted <;> simp
    · rcases List.mem_append.mp haudit with hold | hnew
      · exact hbefore audit hold
      · split_ifs at hnew
        · obtain rfl := List.mem_singleton.mp hnew
          exact denied_audit
        · exact absurd hnew List.not_mem_nil

/-- **The runs file and alert what they should.** -/
theorem records_run (h : (machine config).run Machine.free world run = some world') :
    world'.records.map ScopeViolationRecord.filing
        = world.records.map ScopeViolationRecord.filing ++ filings config run
      ∧ world'.audits.map (fun audit => (audit.eventType, audit.requestId))
        = world.audits.map (fun audit => (audit.eventType, audit.requestId)) ++ alerts config run
      ∧ ((∀ audit ∈ world.audits, audit.denied = false ∧ audit.status = "logged") →
        ∀ audit ∈ world'.audits, audit.denied = false ∧ audit.status = "logged") := by
  induction run generalizing world with
  | nil =>
    cases h
    simp [filings, alerts]
  | cons judging run ih =>
    rw [Machine.run, if_pos (show Machine.free world judging from trivial)] at h
    obtain ⟨next, hnext, hrest⟩ := Option.bind_eq_some_iff.mp h
    obtain ⟨hfiled, halerted, hlogged⟩ := step_spec hnext
    obtain ⟨hfiled', halerted', hlogged'⟩ := ih hrest
    have hfilings : filings config (judging :: run) = filings config [judging] ++ filings config run := by
      rw [filings, filings, filings, ← List.filterMap_append, ← List.filter_append, List.singleton_append]
    have halerts : alerts config (judging :: run) = alerts config [judging] ++ alerts config run := by
      rw [alerts, alerts, alerts, ← List.filterMap_append, ← List.filter_append, List.singleton_append]
    refine ⟨?_, ?_, fun hbefore => hlogged' (hlogged hbefore)⟩
    · rw [hfiled', hfiled, List.append_assoc, hfilings]
    · rw [halerted', halerted, List.append_assoc, halerts]

/-! ## The groups of a review -/

/-- **A group of filings**: those with its key. -/
structure ViolationGroup.Of (filings : List Filing) (group : ViolationGroup) : Prop where
  some : (filings.filter fun filing => filing.key = group.key) ≠ []
  count : group.count = (filings.filter fun filing => filing.key = group.key).length
  rows : group.rowCountTotal = ((filings.filter fun filing => filing.key = group.key).map (·.rowCount)).sum
  latest : IsGreatest {micros | ∃ filing ∈ filings, filing.key = group.key ∧ filing.createdAt.micros = micros}
    group.latestAt.micros

/-- No instant is before the calendar. -/
theorem utcMin_le (utc : Utc) : utcMin.micros ≤ utc.micros := by
  obtain ⟨day, hday⟩ := Option.isSome_iff_exists.mp utc.inRange
  have hbegins := (LocalTime.dayOf?_eq_some.mp hday).1
  have hordinal := day.ordinal_mem.1
  unfold LocalTime.midnight dayLength at hbegins
  show (-62135596800000000 : Int) ≤ utc.micros
  omega

/-- Records that are added to a group are counted, and so are their rows. -/
theorem foldl_add (records : List ScopeViolationRecord) (accumulator : Accumulator) :
    (records.foldl Accumulator.add accumulator).count = accumulator.count + records.length
      ∧ (records.foldl Accumulator.add accumulator).rowCountTotal
        = accumulator.rowCountTotal + (records.map (·.rowCount)).sum := by
  induction records generalizing accumulator with
  | nil => exact ⟨rfl, rfl⟩
  | cons record records ih =>
    obtain ⟨hcount, hrows⟩ := ih (accumulator.add record)
    rw [List.foldl_cons, hcount, hrows, List.length_cons, List.map_cons, List.sum_cons]
    exact ⟨by rw [Accumulator.add, Nat.add_assoc, Nat.add_comm 1], by rw [Accumulator.add, Nat.add_assoc]⟩

/-- The latest of a group is its greatest instant. -/
theorem latestAt_foldl (records : List ScopeViolationRecord) (accumulator : Accumulator) :
    accumulator.latestAt.micros ≤ (records.foldl Accumulator.add accumulator).latestAt.micros
      ∧ (∀ record ∈ records, record.createdAt.micros ≤ (records.foldl Accumulator.add accumulator).latestAt.micros)
      ∧ ((records.foldl Accumulator.add accumulator).latestAt = accumulator.latestAt
        ∨ ∃ record ∈ records, record.createdAt = (records.foldl Accumulator.add accumulator).latestAt) := by
  induction records generalizing accumulator with
  | nil => exact ⟨le_refl _, fun _ h => absurd h List.not_mem_nil, .inl rfl⟩
  | cons record records ih =>
    obtain ⟨hle, hall, hone⟩ := ih (accumulator.add record)
    have hadd : accumulator.latestAt.micros ≤ (accumulator.add record).latestAt.micros
        ∧ record.createdAt.micros ≤ (accumulator.add record).latestAt.micros
        ∧ ((accumulator.add record).latestAt = accumulator.latestAt
          ∨ (accumulator.add record).latestAt = record.createdAt) := by
      unfold Accumulator.add
      split_ifs with hlater
      · exact ⟨le_of_lt hlater, le_refl _, .inr rfl⟩
      · exact ⟨le_refl _, not_lt.mp hlater, .inl rfl⟩
    rw [List.foldl_cons]
    refine ⟨hadd.1.trans hle, List.forall_mem_cons.mpr ⟨hadd.2.1.trans hle, hall⟩, ?_⟩
    rcases hone with hsame | ⟨other, hother, heq⟩
    · rcases hadd.2.2 with hold | hnew
      · exact .inl (hsame.trans hold)
      · exact .inr ⟨record, List.mem_cons_self, (hsame.trans hnew).symm⟩
    · exact .inr ⟨other, List.mem_cons_of_mem _ hother, heq⟩

/-- The filings with a key are those of the records with it. -/
theorem filter_filing (records : List ScopeViolationRecord) (key : GroupKey) :
    (records.map ScopeViolationRecord.filing).filter (fun filing => filing.key = key)
      = (records.filter fun record => groupKey record = key).map ScopeViolationRecord.filing := by
  rw [List.filter_map]
  rfl

/-- Instants with the same microseconds are the same. -/
theorem utc_ext {utc utc' : Utc} (h : utc.micros = utc'.micros) : utc = utc' := by
  cases utc
  cases utc'
  cases h
  rfl

/-- The accumulated group of a key is the group of its filings. -/
theorem of_foldl {records : List ScopeViolationRecord} {key : GroupKey} {group : ViolationGroup}
    (hkey : group.key = key) (hsome : (records.filter fun record => groupKey record = key) ≠ []) :
    group.Of (records.map ScopeViolationRecord.filing)
      ↔ group = ⟨key, ((records.filter fun record => groupKey record = key).foldl Accumulator.add {}).count,
          ((records.filter fun record => groupKey record = key).foldl Accumulator.add {}).rowCountTotal,
          ((records.filter fun record => groupKey record = key).foldl Accumulator.add {}).latestAt⟩ := by
  subst hkey
  obtain ⟨hcount, hrows⟩ := foldl_add (records.filter fun record => groupKey record = group.key) {}
  obtain ⟨-, hall, hone⟩ := latestAt_foldl (records.filter fun record => groupKey record = group.key) {}
  generalize hfold : (records.filter fun record => groupKey record = group.key).foldl Accumulator.add {} = accumulated
    at hcount hrows hall hone
  have hgreatest : IsGreatest {micros | ∃ filing ∈ records.map ScopeViolationRecord.filing,
      filing.key = group.key ∧ filing.createdAt.micros = micros} accumulated.latestAt.micros := by
    constructor
    · obtain ⟨first, hfirst⟩ := List.exists_mem_of_ne_nil _ hsome
      -- where nothing is later than the start of the calendar, everything is at it
      obtain ⟨record, hmem, heq⟩ : ∃ record ∈ records.filter fun record => groupKey record = group.key,
          record.createdAt.micros = accumulated.latestAt.micros := by
        rcases hone with hmin | ⟨record, hmem, heq⟩
        · exact ⟨first, hfirst, le_antisymm (hall first hfirst) (hmin ▸ utcMin_le first.createdAt)⟩
        · exact ⟨record, hmem, congrArg Utc.micros heq⟩
      rw [List.mem_filter] at hmem
      exact ⟨record.filing, List.mem_map_of_mem hmem.1, of_decide_eq_true hmem.2, heq⟩
    · rintro micros ⟨filing, hfiling, hkey, rfl⟩
      obtain ⟨record, hrecord, rfl⟩ := List.mem_map.mp hfiling
      exact hall record (List.mem_filter.mpr ⟨hrecord, decide_eq_true hkey⟩)
  have hlength : ((records.map ScopeViolationRecord.filing).filter fun filing => filing.key = group.key).length
      = accumulated.count := by rw [filter_filing, List.length_map, hcount, Nat.zero_add]
  have hsum : (((records.map ScopeViolationRecord.filing).filter fun filing => filing.key = group.key).map
      (·.rowCount)).sum = accumulated.rowCountTotal := by
    rw [filter_filing, List.map_map, hrows, Nat.zero_add]
    rfl
  constructor
  · intro h
    have hlatest := utc_ext (h.latest.unique hgreatest)
    obtain ⟨key, count, rowCountTotal, latestAt⟩ := group
    rw [ViolationGroup.mk.injEq]
    exact ⟨rfl, h.count.trans hlength, h.rows.trans hsum, hlatest⟩
  · intro heq
    refine ⟨?_, ?_, ?_, ?_⟩
    · rw [filter_filing]
      exact fun hnil => hsome (List.map_eq_nil_iff.mp hnil)
    · rw [hlength, heq]
    · rw [hsum, heq]
    · rw [show group.latestAt = accumulated.latestAt by rw [heq]]
      exact hgreatest

/-- **The groups of records** are the groups of their filings. -/
theorem mem_groupsOf {records : List ScopeViolationRecord} {group : ViolationGroup} :
    group ∈ groupsOf records ↔ group.Of (records.map ScopeViolationRecord.filing) := by
  rw [groupsOf, List.mem_map]
  constructor
  · rintro ⟨⟨key, accumulated⟩, hmem, rfl⟩
    rw [(StableSort.sorted_perm _ _).mem_iff, Tally.mem_items_tally] at hmem
    obtain ⟨hsome, rfl⟩ := hmem
    exact (of_foldl rfl hsome).mpr rfl
  · intro h
    have hsome := h.some
    rw [filter_filing, ne_eq, List.map_eq_nil_iff] at hsome
    refine ⟨(group.key, (records.filter fun record => groupKey record = group.key).foldl Accumulator.add {}), ?_,
      ((of_foldl rfl hsome).mp h).symm⟩
    rw [(StableSort.sorted_perm _ _).mem_iff, Tally.mem_items_tally]
    exact ⟨hsome, rfl⟩

/-- No two groups have one key. -/
theorem nodup_groupsOf (records : List ScopeViolationRecord) : ((groupsOf records).map (·.key)).Nodup := by
  rw [groupsOf, List.map_map]
  exact ((StableSort.sorted_perm _ _).map Prod.fst).nodup_iff.mpr (Dict.nodup _)

/-- The latest groups come first. -/
theorem pairwise_groupsOf (records : List ScopeViolationRecord) :
    (groupsOf records).Pairwise fun group other => other.latestAt.micros ≤ group.latestAt.micros := by
  rw [groupsOf, List.pairwise_map]
  exact StableSort.pairwise_sorted (fun item : GroupKey × Accumulator => OrderDual.toDual item.2.latestAt.micros) _

/-! ## What a review shows -/

/-- **The oldest filings**, so many of them. -/
def Oldest (limit : Nat) (filings shown : List Filing) : Prop :=
  ∃ dropped, (shown ++ dropped).Perm filings ∧ shown.length = min limit filings.length
    ∧ ∀ filing ∈ shown, ∀ other ∈ dropped, filing.createdAt.micros ≤ other.createdAt.micros

/-- **A report of filings.** -/
structure ScopeReviewReport.Shows (report : ScopeReviewReport) (shown : List Filing) : Prop where
  total : report.totalFindings = shown.length
  groups : ∀ group, group ∈ report.groups ↔ group.Of shown
  distinct : (report.groups.map (·.key)).Nodup
  latestFirst : report.groups.Pairwise fun group other => other.latestAt.micros ≤ group.latestAt.micros

/-- An answer of the database has the oldest filings. -/
theorem Listed.oldest {records answer : List ScopeViolationRecord} {since : Utc} {limit : Nat}
    (h : Listed records since limit answer) :
    Oldest limit ((records.map ScopeViolationRecord.filing).filter fun filing =>
      since.micros ≤ filing.createdAt.micros) (answer.map ScopeViolationRecord.filing) := by
  obtain ⟨order, ⟨hperm, hordered⟩, rfl⟩ := h
  have hfilter : (records.map ScopeViolationRecord.filing).filter (fun filing =>
      since.micros ≤ filing.createdAt.micros)
      = (records.filter fun record => since.micros ≤ record.createdAt.micros).map ScopeViolationRecord.filing := by
    rw [List.filter_map]
    rfl
  rw [hfilter]
  refine ⟨(order.drop limit).map ScopeViolationRecord.filing, ?_, ?_, ?_⟩
  · rw [← List.map_append, List.take_append_drop]
    exact hperm.map _
  · rw [List.length_map, List.length_take, List.length_map, hperm.length_eq]
  · rw [← List.take_append_drop limit order, List.pairwise_append] at hordered
    intro filing hfiling other hother
    obtain ⟨record, hrecord, rfl⟩ := List.mem_map.mp hfiling
    obtain ⟨record', hrecord', rfl⟩ := List.mem_map.mp hother
    exact hordered.2.2 record hrecord record' hrecord'

/-- **A review shows what happened.** Whatever the runs were and in whichever order their sessions came, and whatever
order the database returns records of one instant in, the report shows the mismatches and repetitions that were
recorded in the window, of the oldest thousand where there are more; and each that was alerted was alerted, without
stopping an answer, whether or not it was recorded. -/
theorem review_run (h : (machine config).run Machine.free {} run = some world)
    {list : Utc → List ScopeViolationRecord} (hlist : ∀ since, Listed world.records since listLimit (list since))
    {windowDays : Int} {now : Utc} {report : ScopeReviewReport} (hreport : runOnce list windowDays now = some report) :
    (report.generatedAt = now ∧ report.windowEnd = now
      ∧ report.windowStart.micros = now.micros - windowDays * dayLength)
    ∧ (∃ shown, Oldest listLimit ((filings config run).filter fun filing =>
        report.windowStart.micros ≤ filing.createdAt.micros) shown ∧ report.Shows shown)
    ∧ world.audits.map (fun audit => (audit.eventType, audit.requestId)) = alerts config run
    ∧ ∀ audit ∈ world.audits, audit.denied = false ∧ audit.status = "logged" := by
  obtain ⟨hfiled, halerted, hlogged⟩ := records_run h
  rw [List.map_nil, List.nil_append] at hfiled halerted
  obtain ⟨start, hstart, hreport⟩ := Option.map_eq_some_iff.mp hreport
  simp only at hreport
  have hwindow : report.generatedAt = now ∧ report.windowEnd = now ∧ report.windowStart = start := by
    split_ifs at hreport <;> rw [← hreport] <;> exact ⟨rfl, rfl, rfl⟩
  have holdest := (hlist start).oldest
  rw [hfiled] at holdest
  refine ⟨⟨hwindow.1, hwindow.2.1, hwindow.2.2 ▸ Utc.of?_eq_some.mp hstart⟩,
    ⟨(list start).map ScopeViolationRecord.filing, hwindow.2.2 ▸ holdest, ?_⟩, halerted,
    hlogged fun _ haudit => absurd haudit List.not_mem_nil⟩
  split_ifs at hreport with hempty
  · rw [← hreport, hempty]
    exact ⟨rfl, fun group => ⟨fun hgroup => absurd hgroup List.not_mem_nil, fun hgroup => absurd rfl hgroup.some⟩,
      List.nodup_nil, List.Pairwise.nil⟩
  · rw [← hreport]
    exact ⟨(List.length_map _).symm, fun _ => mem_groupsOf, nodup_groupsOf _, pairwise_groupsOf _⟩

/-- A set-up whose digests all look alike. -/
def plainConfig : Config where
  digest := fun _ => "0123456789abcdef"
  fingerprint := fun _ _ _ => "0123456789abcdef0123456789abcdef"
  baseData := ["GetEmployee"]
  mode := "production"

/-- An employee asks for his output; the rows of a colleague come with his own, and the roster. -/
def colleagueJudging : Judging where
  judged := {
    recipe := {
      capabilityId := "fr001_personal_output"
      steps := [{ stepId := "output", operationId := some "GetOutput" },
        { stepId := "roster", operationId := some "GetEmployee" }] }
    fetches := [
      ("output", ⟨[.ofTexts [("uid", "1001")], .ofTexts [("uid", "1002")]], 2, 1, true, none, none, none, false, none⟩),
      ("roster", ⟨[.ofTexts [("uid", "1003")]], 1, 1, true, none, none, none, false, none⟩)]
    columnNames := ["quantity"]
    rows := [[some "12"]]
    aligned := by decide
    capability := .ownOutput
    context := ⟨"t1", "u1", "1001", .employee⟩
    scope := ⟨"t1", ["1001"], ["d1"], true⟩ }
  violationId := "v1"
  interactionId := "i1"
  now := ⟨1788422400000000, by decide⟩
  stored := true
  alerted := false

/-- The world after it. -/
def colleagueWorld : World :=
  (machine plainConfig).after [colleagueJudging]

/-- **The colleague is reported**, a day later. -/
theorem review_run_colleague : ∃ report,
    runOnce (fun since => (colleagueWorld.records.filter fun record => since.micros ≤ record.createdAt.micros).take
      listLimit) 7 ⟨1788508800000000, by decide⟩ = some report
    ∧ report.groups = [⟨⟨"t1", "employee", "FR-001", "exact_hit", "scope_mismatch_exact"⟩, 1, 1,
      ⟨1788422400000000, by decide⟩⟩]
    ∧ ∃ shown, Oldest listLimit ((filings plainConfig [colleagueJudging]).filter fun filing =>
        report.windowStart.micros ≤ filing.createdAt.micros) shown ∧ report.Shows shown := by
  have hrun : ((machine plainConfig).run Machine.free {} [colleagueJudging]).isSome = true := by decide +kernel
  have hordered : colleagueWorld.records.Pairwise fun record other =>
      record.createdAt.micros ≤ other.createdAt.micros := by decide +kernel
  have hlisted : ∀ since, Listed colleagueWorld.records since listLimit
      ((colleagueWorld.records.filter fun record => since.micros ≤ record.createdAt.micros).take listLimit) :=
    fun _ => ⟨_, ⟨List.Perm.refl _, hordered.filter _⟩, rfl⟩
  have hreport : (runOnce (fun since => (colleagueWorld.records.filter fun record =>
      since.micros ≤ record.createdAt.micros).take listLimit) 7 ⟨1788508800000000, by decide⟩).isSome = true := by
    decide +kernel
  obtain ⟨report, hreport⟩ := Option.isSome_iff_exists.mp hreport
  refine ⟨report, hreport, ?_, (review_run (Machine.run_after _ hrun) hlisted hreport).2.1⟩
  have hgroups : (runOnce (fun since => (colleagueWorld.records.filter fun record =>
      since.micros ≤ record.createdAt.micros).take listLimit) 7 ⟨1788508800000000, by decide⟩).map (·.groups)
        = some [⟨⟨"t1", "employee", "FR-001", "exact_hit", "scope_mismatch_exact"⟩, 1, 1,
          ⟨1788422400000000, by decide⟩⟩] := by decide +kernel
  rw [hreport] at hgroups
  exact Option.some.inj hgroups

end Consistency
