import FactoryAgent.Lib.Machine
import FactoryAgent.Scope.Recipes

/-!
# Drills, from the click to the filters

A drill is accepted by one process of the service, which persists the interaction and keeps the payload
in a map of its own (`_drill_requests`). Whichever process wins the claim of the interaction runs it,
with the payload it finds in its own map. The row has no copy: a process that did not accept the click,
or that was restarted since, runs the interaction as a question in free text.

Within one process the payload passes through `_resolve_drill_filters`, which leaves out the bed codes,
and the narrower, which gives a personal capability the caller's own id. These three are all the places
where a narrowing value is lost.
-/

/-! ## Routing -/

/-- **The intent of a turn**, with the slots that are missing after the session's window was
inherited. -/
structure ParsedIntent where
  capabilityId : Option String
  slots : IntentSlots := {}
  missing : List String := []
  ambiguous : List String := []
  aboutCaller : Bool := false
  deriving DecidableEq, Repr

namespace ParsedIntent

/-- `CapabilityIntent.needs_clarification`. -/
def needsClarification (intent : ParsedIntent) : Bool :=
  intent.capabilityId.isNone || decide (intent.missing ≠ []) || decide (intent.ambiguous ≠ [])

/-- A question in free text about beds is an analysis. -/
def rerouted (intent : ParsedIntent) : ParsedIntent :=
  if intent.slots.bedCodes ≠ [] ∧ intent.capabilityId.isSome then
    { intent with capabilityId := some l2CapabilityId, missing := [] }
  else intent

end ParsedIntent

/-- `_drill_parse_outcome`: the intent of a drill, without a model. -/
def DrillPayload.intent (payload : DrillPayload) : ParsedIntent where
  capabilityId := some payload.capabilityId

/-- What a run asks its collaborators. -/
structure RunReading where
  /-- A stop before the parse. -/
  stopped : Option TurnEnd
  /-- The model's parse of a question in free text. -/
  parse : Except TurnEnd ParsedIntent
  /-- Whether the window of a drill is refused. -/
  windowUnreadable : Bool
  /-- The end of a question that is not clear: a clarification, or a failure after too many. -/
  unclear : TurnEnd
  turn : TurnReading

/-- The intent of a run: from the payload, where the run has one, else from the model. -/
def RunReading.intent (reading : RunReading) : Option DrillPayload → Except TurnEnd ParsedIntent
  | some payload =>
    if reading.windowUnreadable then .error (.failed "drill_invalid_time") else .ok payload.intent
  | none => reading.parse.map ParsedIntent.rerouted

/-- **`_pipeline`** up to its three branches: the turn that a run asks for. -/
def RunReading.route (reading : RunReading) (drill : Option DrillPayload) :
    Except TurnEnd Turn :=
  match reading.stopped with
  | some stop => .error stop
  | none => do
    let intent ← reading.intent drill
    if intent.needsClarification then .error reading.unclear
    else
      match intent.capabilityId with
      | none => .error (.failed "capability_unresolved")
      | some capabilityId =>
        if capabilityId = chitchatCapabilityId then .error .chatted
        else if capabilityId = l2CapabilityId then
          .ok (.analysis intent.aboutCaller intent.slots)
        else
          match drill with
          | some payload => .ok (.drill payload)
          | none => .ok (.freeText capabilityId intent.slots)

/-! ## What a drill narrows -/

/-- **A dimension is carried**: its values, where there are some, are the filter. -/
def Carried (values : List String) (filter : Option (List String)) : Prop :=
  values = [] ∨ ∃ kept, filter = some kept ∧ ∀ value, value ∈ kept ↔ value ∈ values

namespace Carried

variable {values : List String} {filter : Option (List String)}

/-- The codes of a dimension that is passed on are carried. -/
theorem of_codes (values : List String) : Carried values (asSet (asFrozenset values)) := by
  unfold asFrozenset
  split
  · rename_i hnil
    exact Or.inl hnil
  · rename_i hne
    refine Or.inr ⟨values, ?_, fun _ => Iff.rfl⟩
    simp [asSet, hne]

/-- A dimension that nothing filters is carried if it has no values. -/
theorem none_iff : Carried values none ↔ values = [] :=
  ⟨fun h => h.elim id (fun ⟨_, hnone, _⟩ => by cases hnone), Or.inl⟩

/-- A dimension of one value. -/
theorem singleton_iff {value : String} {kept : List String} :
    Carried [value] (some kept) ↔ ∀ other, other ∈ kept ↔ other = value := by
  constructor
  · rintro (hnil | ⟨kept', hkept, hmem⟩)
    · cases hnil
    · cases hkept
      exact fun other => (hmem other).trans List.mem_singleton
  · exact fun h => Or.inr ⟨kept, rfl, fun other => (h other).trans List.mem_singleton.symm⟩

end Carried

namespace DrillPayload

/-- **The filters keep the narrowing of a drill**, in every dimension. -/
structure Kept (payload : DrillPayload) (filters : NarrowedFilters) : Prop where
  orders : Carried payload.orderCodes filters.orderCodes
  styles : Carried payload.styleCodes filters.styleCodes
  plans : Carried payload.planCodes filters.planCodes
  beds : Carried payload.bedCodes filters.bedCodes
  materials : Carried payload.materialIds filters.materialIds
  depts : Carried payload.deptIds filters.deptIds
  requestedDepts : Carried payload.deptIds filters.requestedDeptIds
  employee : Carried payload.employeeUid.toList filters.employeeIds

/-- **What can be carried**: a drill without beds, and to a personal capability only about the
caller. -/
structure Carriable (payload : DrillPayload) (authorization : ResolvedAuthorization) : Prop where
  noBeds : payload.bedCodes = []
  own : (capabilityFor payload.capabilityId).any Capability.isPersonal = true →
    ∀ uid ∈ payload.employeeUid, uid = authorization.membership.employeeId

instance (payload : DrillPayload) (authorization : ResolvedAuthorization) :
    Decidable (payload.Carriable authorization) :=
  decidable_of_iff (payload.bedCodes = [] ∧
    ((capabilityFor payload.capabilityId).any Capability.isPersonal = true →
      ∀ uid ∈ payload.employeeUid, uid = authorization.membership.employeeId))
    ⟨fun h => ⟨h.1, h.2⟩, fun h => ⟨h.noBeds, h.own⟩⟩

variable {payload : DrillPayload} {scope : DataScope} {filters : NarrowedFilters}

/-- The departments of a drill are carried: the chain made sure that all of them are bound. -/
theorem carried_depts {resolved : Option (List String)} {request : FilterRequest}
    (hresolved : drillDepts payload scope = .ok resolved) (hdepts : request.deptIds = resolved)
    (h : scope.narrow request = .ok filters) :
    Carried payload.deptIds filters.deptIds ∧ Carried payload.deptIds filters.requestedDeptIds := by
  obtain ⟨_, depts, -, hnarrowed, -, -, rfl⟩ := DataScope.narrow_eq_ok h
  unfold drillDepts at hresolved
  split at hresolved
  · rename_i hnil
    exact ⟨Or.inl hnil, Or.inl hnil⟩
  · split at hresolved
    · cases hresolved
    · rename_i hbound
      cases hresolved
      unfold DataScope.narrowedDepts at hnarrowed
      rw [hdepts] at hnarrowed
      dsimp only at hnarrowed ⊢
      split at hnarrowed
      · -- the MES filters the scope, and the request is passed on as it is
        cases hnarrowed
        exact ⟨Or.inr ⟨_, rfl, fun _ => Iff.rfl⟩, Or.inr ⟨_, rfl, fun _ => Iff.rfl⟩⟩
      · rename_i hlocal
        split at hnarrowed
        · cases hnarrowed
        · rename_i narrowed hdeptScope
          cases hnarrowed
          have hmem : ∀ id, id ∈ narrowed.deptIds ↔ id ∈ payload.deptIds := fun id => by
            rw [(DataScope.narrowToDepts_eq_some hdeptScope).2 id]
            refine ⟨fun hid => hid.2, fun hid => ⟨?_, hid⟩⟩
            refine Decidable.byContradiction fun hout => hbound ⟨eq_false_of_ne_true hlocal, ?_⟩
            exact List.any_eq_true.mpr ⟨id, hid, decide_eq_true hout⟩
          exact ⟨Or.inr ⟨_, rfl, hmem⟩, Or.inr ⟨_, rfl, hmem⟩⟩

/-- The employee of a drill is passed on. -/
theorem employees_of_drillEmployee {directory : Option DirectoryResolver}
    {ids : Option (List String)} (hvalid : ∀ uid ∈ payload.employeeUid, uid ≠ "")
    (h : drillEmployee directory payload scope = .ok ids) :
    ids = payload.employeeUid.map (fun uid => [uid]) := by
  have hfilter : payload.employeeUid.filter (fun uid => decide (uid ≠ "")) = payload.employeeUid := by
    cases huid : payload.employeeUid with
    | none => rfl
    | some uid => simp [Option.filter, hvalid uid huid]
  unfold drillEmployee at h
  rw [hfilter] at h
  split at h
  · rename_i hnone
    cases h
    rw [hnone]
    rfl
  · rename_i uid huid
    rw [huid]
    split at h
    · cases h
    · obtain ⟨found, -, h⟩ := Except.bind_eq_ok.mp h
      split at h
      · cases h
      · split at h <;> cases h
        rfl

/-- The employee of a drill is carried, unless a personal capability is about somebody else. -/
theorem carried_employee_iff (capability : Capability) (own : String) (employeeUid : Option String)
    {scope : DataScope} (hown : scope.employeeIds = [own]) :
    Carried employeeUid.toList
        (chainEmployees capability scope (employeeUid.map (fun uid => [uid])))
      ↔ (capability.isPersonal = true → ∀ uid ∈ employeeUid, uid = own) := by
  cases employeeUid with
  | none => simp [Carried]
  | some uid =>
    unfold chainEmployees
    rw [Option.map_some, Option.getD_some, Option.toList_some, hown]
    by_cases hpersonal : capability.isPersonal = true
    · have hnot : capability ≠ .anyEmployeePayroll := by
        rintro rfl
        cases hpersonal
      rw [if_neg hnot, if_pos hpersonal, Carried.singleton_iff]
      refine ⟨fun h _ other hother => ?_, fun h other => ?_⟩
      · rw [← Option.mem_some.mp hother]
        exact ((h own).mp (List.mem_singleton_self _)).symm
      · rw [h hpersonal uid rfl]
        exact List.mem_singleton
    · have hkept : Carried [uid] (some [uid]) :=
        Carried.singleton_iff.mpr (fun _ => List.mem_singleton)
      rw [if_neg hpersonal, ite_self]
      exact ⟨fun _ h => absurd h hpersonal, fun _ => hkept⟩

/-- **When the narrowing of a drill is kept**, where it reaches a runner with its payload. -/
theorem kept_iff {reading : TurnReading} {authorization : ResolvedAuthorization}
    (hvalid : ∀ uid ∈ payload.employeeUid, uid ≠ "")
    (h : (Turn.drill payload).filters reading authorization = .ok filters) :
    payload.Kept filters ↔ payload.Carriable authorization := by
  obtain ⟨capability, hauthorized, h⟩ := Except.bind_eq_ok.mp h
  obtain ⟨resolved, hresolved, h⟩ := Except.bind_eq_ok.mp h
  rw [Except.mapError_eq_ok] at hresolved
  obtain ⟨deptIds, hdepts, hresolved⟩ := Except.bind_eq_ok.mp hresolved
  obtain ⟨employeeIds, htarget, hresolved⟩ := Except.bind_eq_ok.mp hresolved
  obtain ⟨hdeptIds, horders, hstyles, hplans, hmaterials, hbeds⟩ :=
    resolved.request_business capability authorization.dataScope
  have hnarrow := narrow_of_narrowTurn h
  have hemployees := employeeIds_of_narrowTurn h
  cases hresolved
  obtain ⟨hcarried, hcarriedRequest⟩ := carried_depts hdepts hdeptIds hnarrow
  rw [show employeeIds = payload.employeeUid.map (fun uid => [uid]) from
    employees_of_drillEmployee hvalid htarget] at hemployees
  have hemployee : Carried payload.employeeUid.toList filters.employeeIds ↔
      ((capabilityFor payload.capabilityId).any Capability.isPersonal = true →
        ∀ uid ∈ payload.employeeUid, uid = authorization.membership.employeeId) := by
    rw [hemployees, capabilityFor_of_authorized hauthorized, Option.any_some]
    exact carried_employee_iff capability _ payload.employeeUid rfl
  obtain ⟨_, _, -, -, -, -, rfl⟩ := DataScope.narrow_eq_ok hnarrow
  constructor
  · intro hkept
    refine ⟨?_, hemployee.mp hkept.employee⟩
    have hnobeds := hkept.beds
    rw [hbeds] at hnobeds
    exact Carried.none_iff.mp hnobeds
  · intro hcarriable
    exact
      { orders := horders ▸ Carried.of_codes _
        styles := hstyles ▸ Carried.of_codes _
        plans := hplans ▸ Carried.of_codes _
        beds := Or.inl hcarriable.noBeds
        materials := hmaterials ▸ Carried.of_codes _
        depts := hcarried
        requestedDepts := hcarriedRequest
        employee := hemployee.mpr hcarriable.own }

end DrillPayload
