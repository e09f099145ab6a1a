import FactoryAgent.Lib.Except

/-!
# Resolving names against the directory

`BusinessFilterResolver` of `application/business_filters.py`: the department and employee names of a
question become ids, each name exactly one. The directory lists the full roster for every role, so what
is resolved here says nothing about the scope of the caller.
-/

/-- One department of the directory. -/
structure DeptRecord where
  deptId : String
  name : String
  namePk : String
  deriving DecidableEq, Repr

/-- One employee of the directory. -/
structure EmployeeRecord where
  employeeId : String
  name : String
  dept : Option String := none
  deriving DecidableEq, Repr

/-- A lookup that failed: not found, ambiguous, or refused. -/
structure DirectoryError where
  code : String
  message : String
  deriving DecidableEq, Repr

/-- **The directory** as one turn reads it. A listing may fail. -/
structure DirectoryResolver where
  listDepts : Except DirectoryError (List DeptRecord)
  listEmployees : Except DirectoryError (List EmployeeRecord)

/-- The slots of a question that narrow it. -/
structure IntentSlots where
  orderCodes : List String := []
  planCodes : List String := []
  styleCodes : List String := []
  bedCodes : List String := []
  materialIds : List String := []
  deptNames : List String := []
  employeeNames : List String := []
  deriving DecidableEq, Repr

/-- The narrowing inputs of a turn. -/
structure ResolvedBusinessFilters where
  employeeIds : Option (List String) := none
  deptIds : Option (List String) := none
  orderCodes : Option (List String) := none
  styleCodes : Option (List String) := none
  planCodes : Option (List String) := none
  materialIds : Option (List String) := none
  bedCodes : Option (List String) := none
  deriving DecidableEq, Repr

/-- `_as_frozenset`: no values are no filter. -/
def asFrozenset (values : List String) : Option (List String) :=
  if values = [] then none else some values

/-- What is looked up under a name: how a record matches it, the id of a record, and the texts of the
two failures. -/
structure NameLookup (ρ : Type) where
  matchesName : ρ → String → Bool
  idOf : ρ → String
  notFound : String → String
  ambiguous : String → String

namespace NameLookup

variable {ρ : Type}

/-- One name: the one id of the records that match it. -/
def resolveName (lookup : NameLookup ρ) (records : List ρ) (name : String) :
    Except DirectoryError String :=
  match records.filter (fun record => lookup.matchesName record name) with
  | [] => .error ⟨"not_found", lookup.notFound name⟩
  | first :: rest =>
    if rest.all (fun record => lookup.idOf record = lookup.idOf first) then .ok (lookup.idOf first)
    else .error ⟨"ambiguous", lookup.ambiguous name⟩

/-- **The ids of a list of names**; no names are no filter, and read no listing. -/
def resolveNames (lookup : NameLookup ρ) (records : Except DirectoryError (List ρ))
    (names : List String) : Except DirectoryError (Option (List String)) :=
  if names = [] then .ok none
  else do
    let records ← records
    let ids ← names.mapM (lookup.resolveName records)
    pure (some ids)

variable {lookup : NameLookup ρ} {records : List ρ}

/-- **The id of a name** is the id of every record that matches it, and there is one. -/
theorem resolveName_eq_ok {name id : String} (h : lookup.resolveName records name = .ok id) :
    (∃ record ∈ records, lookup.matchesName record name = true)
      ∧ ∀ record ∈ records, lookup.matchesName record name = true → lookup.idOf record = id := by
  unfold resolveName at h
  split at h
  · cases h
  · rename_i first rest hmatches
    split at h
    · rename_i hall
      cases h
      have hmem : ∀ record, record ∈ first :: rest ↔
          record ∈ records ∧ lookup.matchesName record name = true := by
        intro record
        rw [← hmatches, List.mem_filter]
      refine ⟨⟨first, (hmem first).mp List.mem_cons_self⟩, fun record hrecord hname => ?_⟩
      rcases List.mem_cons.mp ((hmem record).mpr ⟨hrecord, hname⟩) with rfl | hrest
      · rfl
      · simpa using List.all_eq_true.mp hall record hrest
    · cases h

/-- **Resolved names**: either there were none, or the ids are those of the records that match a
name. -/
theorem resolveNames_eq_ok {listing : Except DirectoryError (List ρ)} {names : List String}
    {ids : Option (List String)} (h : lookup.resolveNames listing names = .ok ids) :
    (names = [] ∧ ids = none) ∨
    ∃ records resolved, names ≠ [] ∧ listing = .ok records ∧ ids = some resolved
      ∧ ∀ id, id ∈ resolved ↔ ∃ name ∈ names, ∃ record ∈ records,
          lookup.matchesName record name = true ∧ lookup.idOf record = id := by
  unfold resolveNames at h
  split at h
  · rename_i hnil
    cases h
    exact Or.inl ⟨hnil, rfl⟩
  · rename_i hnames
    obtain ⟨records, hrecords, h⟩ := Except.bind_eq_ok.mp h
    obtain ⟨resolved, hresolved, h⟩ := Except.bind_eq_ok.mp h
    refine Or.inr ⟨records, resolved, hnames, hrecords, (Except.pure_eq_ok.mp h).symm,
      fun id => ⟨fun hid => ?_, ?_⟩⟩
    · obtain ⟨name, hname, hone⟩ := Except.exists_of_mem_mapM hresolved hid
      obtain ⟨⟨record, hrecord, hmatch⟩, hall⟩ := resolveName_eq_ok hone
      exact ⟨name, hname, record, hrecord, hmatch, hall record hrecord hmatch⟩
    · rintro ⟨name, hname, record, hrecord, hmatch, rfl⟩
      obtain ⟨id, hid, hone⟩ := Except.exists_mem_of_mapM hresolved hname
      rw [(resolveName_eq_ok hone).2 record hrecord hmatch]
      exact hid

end NameLookup

/-- `_resolve_dept_names`: by the name or its key. -/
def deptLookup : NameLookup DeptRecord where
  matchesName dept name := decide (dept.name = name ∨ dept.namePk = name)
  idOf := DeptRecord.deptId
  notFound name := "未找到车间「" ++ name ++ "」"
  ambiguous name := "车间「" ++ name ++ "」存在多个匹配"

/-- `_resolve_employee_names`: by the name. -/
def employeeLookup : NameLookup EmployeeRecord where
  matchesName employee name := decide (employee.name = name)
  idOf := EmployeeRecord.employeeId
  notFound name := "未找到员工「" ++ name ++ "」"
  ambiguous name := "员工「" ++ name ++ "」存在同名，请提供工号"

namespace DirectoryResolver

/-- **`resolve`**: the narrowing inputs of a question. -/
def resolve (directory : DirectoryResolver) (slots : IntentSlots) :
    Except DirectoryError ResolvedBusinessFilters := do
  let deptIds ← deptLookup.resolveNames directory.listDepts slots.deptNames
  let employeeIds ← employeeLookup.resolveNames directory.listEmployees slots.employeeNames
  pure
    { employeeIds := employeeIds
      deptIds := deptIds
      orderCodes := asFrozenset slots.orderCodes
      styleCodes := asFrozenset slots.styleCodes
      planCodes := asFrozenset slots.planCodes
      materialIds := asFrozenset slots.materialIds
      bedCodes := asFrozenset slots.bedCodes }

/-- `find_employee_by_id`: the first record of an employee. -/
def findEmployeeById (directory : DirectoryResolver) (employeeId : String) :
    Except DirectoryError (Option EmployeeRecord) := do
  let employees ← directory.listEmployees
  pure (employees.find? (fun employee => decide (employee.employeeId = employeeId)))

/-- The employees of a resolved question are the ones its names name. -/
theorem employeeIds_of_resolve {directory : DirectoryResolver} {slots : IntentSlots}
    {resolved : ResolvedBusinessFilters} (h : directory.resolve slots = .ok resolved) :
    employeeLookup.resolveNames directory.listEmployees slots.employeeNames
      = .ok resolved.employeeIds := by
  obtain ⟨deptIds, -, h⟩ := Except.bind_eq_ok.mp h
  obtain ⟨employeeIds, hemployees, h⟩ := Except.bind_eq_ok.mp h
  rw [hemployees, ← Except.pure_eq_ok.mp h]

end DirectoryResolver
