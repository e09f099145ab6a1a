import FactoryAgent.Scope.Turn

/-!
# Which turns enforce the employee scope

The employees of a turn come from three places, and the employee filter of the runner is one of them
as it is (`Turn.employees`): the scope of the caller, whose own id it is; the target of a drill or the
names of an analysis, each of which the directory has to place in a bound department; and the names of
a question in free text, which are resolved and passed on. Nothing compares the departments of the
last kind with the scope, although the permission matrix promises it for the wages of any employee.
-/

/-! ## Where the scope is enforced -/

/-- The directory places an employee in a department of the scope. -/
def TurnReading.InScope (reading : TurnReading) (scope : DataScope) (employeeId : String) : Prop :=
  ∃ directory ∈ reading.directory, directory.employsWithin scope employeeId = .ok (some true)

/-- **A filter lets through employees of the scope only.** -/
def TurnReading.Enforces (reading : TurnReading) (scope : DataScope)
    (employeeIds : Option (List String)) : Prop :=
  ∀ ids ∈ employeeIds, ∀ id ∈ ids, reading.InScope scope id

namespace Turn

/-- Whether a turn asks for the caller's own record: a personal capability, the wages of any employee
without one being named, an analysis about the caller. -/
def asksForCaller (reading : TurnReading) (authorization : ResolvedAuthorization) : Turn → Bool
  | .freeText capabilityId slots => (capabilityFor capabilityId).any (fun capability =>
      capability.isPersonal || (decide (capability = .anyEmployeePayroll)
        && (reading.directory.isNone || decide (slots.employeeNames = []))))
  | .drill payload => (capabilityFor payload.capabilityId).any (fun capability =>
      capability.isPersonal || (decide (capability = .anyEmployeePayroll)
        && decide (payload.employeeUid.filter (fun uid => decide (uid ≠ "")) = none)))
  | .analysis aboutCaller _ => selfOnly authorization aboutCaller

/-- The names of a turn that nothing compares with the scope: those of a question in free text, unless
the capability is personal and ignores them. -/
def uncheckedNames : Turn → List String
  | .freeText capabilityId slots =>
    if (capabilityFor capabilityId).any Capability.isPersonal then [] else slots.employeeNames
  | .drill _ | .analysis _ _ => []

/-- **The condition on a turn**: its caller, where it asks for the caller, and the employees that it
names in free text, are in a department of the scope. -/
structure Bound (reading : TurnReading) (authorization : ResolvedAuthorization) (turn : Turn) :
    Prop where
  caller : turn.asksForCaller reading authorization = true →
    ∀ id ∈ authorization.dataScope.employeeIds, reading.InScope authorization.dataScope id
  named : ∀ directory ∈ reading.directory, ∀ employees, directory.listEmployees = .ok employees →
    ∀ name ∈ turn.uncheckedNames, ∀ employee ∈ employees, employee.name = name →
      reading.InScope authorization.dataScope employee.employeeId

variable {reading : TurnReading} {authorization : ResolvedAuthorization} {filters : NarrowedFilters}

/-- A filter of the caller's own employees enforces the scope if they are in it. -/
theorem enforces_own {scope : DataScope} {ids : List String} :
    reading.Enforces scope (some ids) ↔ ∀ id ∈ ids, reading.InScope scope id :=
  ⟨fun h id hid => h ids rfl id hid, fun h _ hids id hid => by
    rw [← Option.mem_some.mp hids] at hid
    exact h id hid⟩

/-- **The employees of a question in free text**: none, or those its names name. -/
theorem freeTextFilters_eq_ok {directory : Option DirectoryResolver} {slots : IntentSlots}
    {resolved : ResolvedBusinessFilters} (h : freeTextFilters directory slots = .ok resolved) :
    ((directory = none ∨ slots.employeeNames = []) ∧ resolved.employeeIds = none) ∨
    ∃ resolver employees ids, directory = some resolver ∧ slots.employeeNames ≠ []
      ∧ resolver.listEmployees = .ok employees ∧ resolved.employeeIds = some ids
      ∧ ∀ id, id ∈ ids ↔ ∃ name ∈ slots.employeeNames, ∃ employee ∈ employees,
          employee.name = name ∧ employee.employeeId = id := by
  unfold freeTextFilters at h
  split at h
  · cases h
    exact Or.inl ⟨Or.inl rfl, rfl⟩
  · rename_i resolver
    rw [Except.mapError_eq_ok] at h
    rcases NameLookup.resolveNames_eq_ok (DirectoryResolver.employeeIds_of_resolve h) with
      ⟨hnil, hnone⟩ | ⟨employees, ids, hnames, hlisting, hids, hmem⟩
    · exact Or.inl ⟨Or.inr hnil, hnone⟩
    · refine Or.inr ⟨resolver, employees, ids, rfl, hnames, hlisting, hids, fun id => ?_⟩
      rw [hmem id]
      simp [employeeLookup]

/-- **The target of a drill** was found in a bound department, unless the MES filters the scope. -/
theorem drillEmployee_eq_ok {directory : Option DirectoryResolver} {payload : DrillPayload}
    {scope : DataScope} {ids : Option (List String)} (hlocal : scope.mesFiltered = false)
    (h : drillEmployee directory payload scope = .ok ids) :
    (payload.employeeUid.filter (fun uid => decide (uid ≠ "")) = none ∧ ids = none) ∨
    ∃ uid resolver, payload.employeeUid.filter (fun uid => decide (uid ≠ "")) = some uid
      ∧ ids = some [uid] ∧ directory = some resolver
      ∧ resolver.employsWithin scope uid = .ok (some true) := by
  unfold drillEmployee at h
  split at h
  · rename_i hnone
    cases h
    exact Or.inl ⟨hnone, rfl⟩
  · rename_i uid huid
    split at h
    · cases h
    · rename_i resolver
      obtain ⟨found, hfound, h⟩ := Except.bind_eq_ok.mp h
      split at h
      · cases h
      · rename_i bound
        split at h
        · cases h
        · rename_i hbound
          have htrue : bound = true := by
            cases bound with
            | true => rfl
            | false => exact absurd ⟨hlocal, rfl⟩ hbound
          cases h
          exact Or.inr ⟨uid, resolver, huid, rfl, rfl, htrue ▸ hfound⟩

/-- **The employees an analysis of a group leader or a manager names** are in a bound department. -/
theorem analysisEmployees_eq_ok {directory : Option DirectoryResolver} {role : Role}
    {scope : DataScope} {employeeIds : List String} (hrole : role = .groupLeader ∨ role = .manager)
    (h : analysisEmployees directory role scope employeeIds = .ok ()) :
    ∃ resolver, directory = some resolver
      ∧ ∀ id ∈ employeeIds, resolver.employsWithin scope id = .ok (some true) := by
  unfold analysisEmployees at h
  rw [if_neg (by rcases hrole with rfl | rfl <;> simp), if_pos hrole] at h
  split at h
  · cases h
  · rename_i resolver
    obtain ⟨checked, hchecked, -⟩ := Except.bind_eq_ok.mp h
    refine ⟨resolver, rfl, fun id hid => ?_⟩
    obtain ⟨_, -, hone⟩ := Except.exists_mem_of_mapM hchecked hid
    obtain ⟨found, hfound, hone⟩ := Except.bind_eq_ok.mp hone
    rw [Except.mapError_eq_ok] at hfound
    split at hone
    · exact hfound
    · cases hone

/-! ### The three kinds of turns -/

theorem enforces_freeText {capabilityId : String} {slots : IntentSlots}
    (h : (Turn.freeText capabilityId slots).filters reading authorization = .ok filters) :
    reading.Enforces authorization.dataScope filters.employeeIds
      ↔ (Turn.freeText capabilityId slots).Bound reading authorization := by
  obtain ⟨capability, hauthorized, h⟩ := Except.bind_eq_ok.mp h
  have hcapability := capabilityFor_of_authorized hauthorized
  split at h
  · cases h
  · obtain ⟨resolved, hresolved, h⟩ := Except.bind_eq_ok.mp h
    rw [employeeIds_of_narrowTurn h]
    have hcaller : (Turn.freeText capabilityId slots).asksForCaller reading authorization
        = (capability.isPersonal || (decide (capability = .anyEmployeePayroll)
            && (reading.directory.isNone || decide (slots.employeeNames = [])))) := by
      simp only [asksForCaller, hcapability, Option.any_some]
    have hnames : (Turn.freeText capabilityId slots).uncheckedNames
        = if capability.isPersonal then [] else slots.employeeNames := by
      simp only [uncheckedNames, hcapability, Option.any_some]
    by_cases hpersonal : capability.isPersonal = true
    · -- the caller's own record, whoever was named
      have hnot : capability ≠ .anyEmployeePayroll := by
        rintro rfl
        cases hpersonal
      rw [chainEmployees, if_neg hnot, if_pos hpersonal, enforces_own]
      rw [hpersonal, if_pos rfl] at hnames
      refine ⟨fun hin => ⟨fun _ => hin, fun _ _ _ _ name hname => ?_⟩, fun hbound =>
        hbound.caller (by rw [hcaller, hpersonal]; rfl)⟩
      rw [hnames] at hname
      cases hname
    · rw [if_neg hpersonal] at hnames
      rcases freeTextFilters_eq_ok hresolved with ⟨hnobody, hnone⟩ |
        ⟨resolver, employees, ids, hdirectory, hsome, hlisting, hids, hmem⟩
      · -- nobody was named
        have hnamed : ∀ directory ∈ reading.directory, ∀ employees,
            directory.listEmployees = .ok employees →
            ∀ name ∈ (Turn.freeText capabilityId slots).uncheckedNames, ∀ employee ∈ employees,
              employee.name = name →
              reading.InScope authorization.dataScope employee.employeeId := by
          intro directory hdirectory _ _ name hname
          rcases hnobody with hno | hno
          · rw [hno] at hdirectory
            cases hdirectory
          · rw [hnames, hno] at hname
            cases hname
        have hnobody' : (reading.directory.isNone || decide (slots.employeeNames = [])) = true := by
          rcases hnobody with hno | hno <;> simp [hno]
        by_cases hany : capability = .anyEmployeePayroll
        · rw [chainEmployees, if_pos hany, hnone, Option.getD_none, enforces_own]
          exact ⟨fun hin => ⟨fun _ => hin, hnamed⟩, fun hbound =>
            hbound.caller (by rw [hcaller, hnobody']; simp [hany])⟩
        · rw [chainEmployees, if_neg hany, if_neg hpersonal, hnone]
          refine ⟨fun _ => ⟨fun hasks => ?_, hnamed⟩, fun _ _ hids => by cases hids⟩
          rw [hcaller] at hasks
          simp [hany, hpersonal] at hasks
      · -- the employees that the names name, whichever department they are in
        have hchain : chainEmployees capability authorization.dataScope resolved.employeeIds
            = some ids := by
          rw [chainEmployees, hids, Option.getD_some, if_neg hpersonal]
          split <;> rfl
        rw [hchain, enforces_own]
        refine ⟨fun hin => ⟨fun hasks => ?_, fun directory hd listed hl name hname employee hemp hn =>
          ?_⟩, fun hbound id hid => ?_⟩
        · rw [hcaller] at hasks
          simp [hpersonal, hdirectory, hsome] at hasks
        · rw [hdirectory, Option.mem_some] at hd
          subst hd
          rw [hlisting] at hl
          cases hl
          exact hin _ ((hmem _).mpr ⟨name, hnames ▸ hname, employee, hemp, hn, rfl⟩)
        · obtain ⟨name, hname, employee, hemp, hn, rfl⟩ := (hmem id).mp hid
          exact hbound.named resolver (by rw [hdirectory]; rfl) employees hlisting name
            (hnames ▸ hname) employee hemp hn

theorem enforces_drill {payload : DrillPayload} (hlocal : authorization.dataScope.mesFiltered = false)
    (h : (Turn.drill payload).filters reading authorization = .ok filters) :
    reading.Enforces authorization.dataScope filters.employeeIds
      ↔ (Turn.drill payload).Bound reading authorization := by
  obtain ⟨capability, hauthorized, h⟩ := Except.bind_eq_ok.mp h
  have hcapability := capabilityFor_of_authorized hauthorized
  obtain ⟨resolved, hresolved, h⟩ := Except.bind_eq_ok.mp h
  rw [Except.mapError_eq_ok] at hresolved
  obtain ⟨deptIds, -, hresolved⟩ := Except.bind_eq_ok.mp hresolved
  obtain ⟨employeeIds, htarget, hresolved⟩ := Except.bind_eq_ok.mp hresolved
  cases hresolved
  rw [employeeIds_of_narrowTurn h]
  dsimp only
  have hcaller : (Turn.drill payload).asksForCaller reading authorization
      = (capability.isPersonal || (decide (capability = .anyEmployeePayroll)
          && decide (payload.employeeUid.filter (fun uid => decide (uid ≠ "")) = none))) := by
    simp only [asksForCaller, hcapability, Option.any_some]
  have hbound : (Turn.drill payload).Bound reading authorization ↔
      ((Turn.drill payload).asksForCaller reading authorization = true →
        ∀ id ∈ authorization.dataScope.employeeIds, reading.InScope authorization.dataScope id) :=
    ⟨fun hb => hb.caller, fun hc => ⟨hc, fun _ _ _ _ _ hname => by cases hname⟩⟩
  rw [hbound, hcaller]
  by_cases hpersonal : capability.isPersonal = true
  · have hnot : capability ≠ .anyEmployeePayroll := by
      rintro rfl
      cases hpersonal
    rw [chainEmployees, if_neg hnot, if_pos hpersonal, enforces_own]
    simp [hpersonal]
  · rcases drillEmployee_eq_ok hlocal htarget with ⟨huid, rfl⟩ |
      ⟨uid, resolver, huid, rfl, hdirectory, hwithin⟩
    · by_cases hany : capability = .anyEmployeePayroll
      · rw [chainEmployees, if_pos hany, Option.getD_none, enforces_own, huid]
        simp [hany]
      · rw [chainEmployees, if_neg hany, if_neg hpersonal]
        refine ⟨fun _ hasks => ?_, fun _ _ hids => by cases hids⟩
        simp [hany, hpersonal] at hasks
    · have hchain : chainEmployees capability authorization.dataScope (some [uid]) = some [uid] := by
        rw [chainEmployees, Option.getD_some, if_neg hpersonal]
        split <;> rfl
      rw [hchain, enforces_own]
      refine ⟨fun _ hasks => ?_, fun _ id hid => ?_⟩
      · rw [huid] at hasks
        simp [hpersonal] at hasks
      · rw [List.mem_singleton.mp hid]
        exact ⟨resolver, hdirectory, hwithin⟩

theorem enforces_analysis {aboutCaller : Bool} {slots : IntentSlots}
    (hrole : authorization.membership.role = .groupLeader ∨ authorization.membership.role = .manager)
    (h : (Turn.analysis aboutCaller slots).filters reading authorization = .ok filters) :
    reading.Enforces authorization.dataScope filters.employeeIds
      ↔ (Turn.analysis aboutCaller slots).Bound reading authorization := by
  simp only [Turn.filters] at h
  split at h
  · cases h
  · obtain ⟨resolved, -, h⟩ := Except.bind_eq_ok.mp h
    obtain ⟨_, hchecked, h⟩ := Except.bind_eq_ok.mp h
    rw [Except.mapError_eq_ok] at h
    have hbound : (Turn.analysis aboutCaller slots).Bound reading authorization ↔
        (selfOnly authorization aboutCaller = true →
          ∀ id ∈ authorization.dataScope.employeeIds,
            reading.InScope authorization.dataScope id) :=
      ⟨fun hb => hb.caller, fun hc => ⟨hc, fun _ _ _ _ _ hname => by cases hname⟩⟩
    rw [hbound]
    cases hself : selfOnly authorization aboutCaller with
    | true =>
      rw [hself] at h
      rw [DataScope.employeeIds_of_narrow_own rfl h, enforces_own]
      simp
    | false =>
      rw [hself] at h
      rw [DataScope.employeeIds_of_narrow_resolved rfl h]
      refine ⟨fun _ hf => (by cases hf), fun _ ids hids id hid => ?_⟩
      cases hemployees : resolved.employeeIds with
      | none => simp [analysisRequest, hemployees] at hids
      | some employeeIds =>
        have hids' : employeeIds = ids := by
          simpa [analysisRequest, hemployees] using hids
        rw [hemployees] at hchecked
        obtain ⟨resolver, hdirectory, hall⟩ := analysisEmployees_eq_ok hrole hchecked
        exact ⟨resolver, hdirectory, hall id (hids' ▸ hid)⟩

/-- **When the employee scope is enforced.** The filters that a turn of a group leader or a manager
hands to its runner let through employees of the bound departments only, if and only if the caller,
where the turn asks for the caller, and the employees it names in free text are in one. -/
theorem employee_scope_enforced_iff {turn : Turn}
    (hrole : authorization.membership.role = .groupLeader ∨ authorization.membership.role = .manager)
    (h : turn.filters reading authorization = .ok filters) :
    reading.Enforces authorization.dataScope filters.employeeIds
      ↔ turn.Bound reading authorization := by
  have hlocal : authorization.dataScope.mesFiltered = false :=
    decide_eq_false (by rcases hrole with hrole | hrole <;> simp [hrole])
  cases turn with
  | freeText capabilityId slots => exact enforces_freeText h
  | drill payload => exact enforces_drill hlocal h
  | analysis aboutCaller slots => exact enforces_analysis hrole h

/-! ### A manager and two employees -/

/-- The wages of an employee of the manager's own department. -/
theorem employee_scope_enforced_colleague :
    (Turn.freeText "fr012_employee_payroll" { employeeNames := ["乙"] }).filters plainReading
        managerOfOne
      = .ok ⟨"t-1", some ["u-2"], some ["d-1"], none, none, none, none, none, none⟩
    ∧ (Turn.freeText "fr012_employee_payroll" { employeeNames := ["乙"] }).Bound plainReading
        managerOfOne := by
  have hfilters : (Turn.freeText "fr012_employee_payroll" { employeeNames := ["乙"] }).filters
      plainReading managerOfOne
        = .ok ⟨"t-1", some ["u-2"], some ["d-1"], none, none, none, none, none, none⟩ := by
    decide +kernel
  refine ⟨hfilters, (employee_scope_enforced_iff (Or.inr rfl) hfilters).mp ?_⟩
  rintro ids hids id hid
  cases hids
  rw [List.mem_singleton.mp hid]
  exact ⟨twoDepartments, rfl, by decide +kernel⟩

/-- **The wages of an employee of another department are asked for.** The same employee is refused to
a drill. -/
theorem employee_outside_scope_handed :
    ∃ filters, (Turn.freeText "fr012_employee_payroll" { employeeNames := ["丙"] }).filters
        plainReading managerOfOne = .ok filters
      ∧ filters.employeeIds = some ["u-3"]
      ∧ ¬ plainReading.Enforces managerOfOne.dataScope filters.employeeIds
      ∧ (Turn.drill { capabilityId := "fr012_employee_payroll", employeeUid := some "u-3" }).filters
          plainReading managerOfOne = .error (.failed "filter_forbidden") := by
  refine ⟨⟨"t-1", some ["u-3"], some ["d-1"], none, none, none, none, none, none⟩,
    by decide +kernel, rfl, fun henforces => ?_, by decide +kernel⟩
  obtain ⟨directory, hdirectory, hwithin⟩ := henforces ["u-3"] rfl "u-3" (List.mem_singleton_self _)
  cases hdirectory
  have hother : twoDepartments.employsWithin managerOfOne.dataScope "u-3" = .ok (some false) := by
    decide +kernel
  rw [hother] at hwithin
  cases hwithin

end Turn
