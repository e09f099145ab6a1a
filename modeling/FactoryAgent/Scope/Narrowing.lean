import FactoryAgent.Cache.View
import FactoryAgent.Scope.Filters

/-!
# Narrowing never widens

Three layers encode one rule: `narrow` intersects a request with the scope, `verify` checks the result
against the scope before a call, and `scope_filtered_rows` lets rows through by the result. They use
`None`, the empty set and the role in different ways, so what has to be shown is that they mean the same
(`NarrowedFilters.Within`): the filters are inside the scope, a request that intersects to nothing is
refused rather than dropped, and a row that is let through is inside the scope.
-/

/-- **Filters that did not widen** the scope or the request they come from. -/
structure NarrowedFilters.Within (scope : DataScope) (request : FilterRequest)
    (filters : NarrowedFilters) : Prop where
  /-- The verifier accepts them. -/
  verified : StrictScopeVerifier.verify scope filters = .ok ()
  /-- Requested employees leave a filter that is not empty, inside the scope and the request. -/
  employees : ∀ requested ∈ request.employeeIds, ∃ narrowed ∈ filters.employeeIds,
    narrowed ≠ [] ∧ ∀ id ∈ narrowed, id ∈ scope.employeeIds ∧ id ∈ requested
  /-- There is always a department filter, inside the scope. -/
  depts : ∃ narrowed ∈ filters.deptIds, ∀ id ∈ narrowed, id ∈ scope.deptIds
  /-- Requested departments leave a filter that is not empty, inside the request. -/
  requestedDepts : ∀ requested ∈ request.deptIds, ∃ narrowed ∈ filters.deptIds,
    narrowed ≠ [] ∧ ∀ id ∈ narrowed, id ∈ requested
  /-- What a group leader or a manager is let through is inside the scope, and of the requested
  employees. -/
  rows : ∀ role, role = .groupLeader ∨ role = .manager → ∀ rows : List Row,
    ∀ row ∈ scopeFilteredRows rows filters (some role), row.field "dept" ∈ scope.deptIds
      ∧ (request.employeeIds.isSome = true →
          ∃ narrowed ∈ filters.employeeIds, row.field "uid" ∈ narrowed)

namespace DataScope

variable {scope : DataScope} {request : FilterRequest} {filters : NarrowedFilters}

/-- A value that a filter lets through is one of its members. -/
theorem mem_of_inScope {values : Option (List String)} {value : String}
    (h : inScope values value = true) : ∀ ids ∈ values, value ∈ ids := by
  rintro ids rfl
  simp only [inScope, Option.all_some, Bool.and_eq_true, decide_eq_true_eq] at h
  exact h.2

/-- The rows of a group leader and of a manager are filtered by the departments of the filters. -/
theorem effectiveDeptIds_of_bound {role : Role} (h : role = .groupLeader ∨ role = .manager)
    (filters : NarrowedFilters) : filters.effectiveDeptIds (some role) = filters.deptIds := by
  rcases h with rfl | rfl <;> rfl

/-- **Filters inside the scope are accepted** by the verifier. -/
theorem verify_of_within (htenant : filters.tenantId = scope.tenantId)
    (hemployees : ∀ ids ∈ filters.employeeIds, ∀ id ∈ ids, id ∈ scope.employeeIds)
    (hdepts : ∀ ids ∈ filters.deptIds, ∀ id ∈ ids, id ∈ scope.deptIds) :
    StrictScopeVerifier.verify scope filters = .ok () := by
  unfold StrictScopeVerifier.verify
  rw [if_neg (not_not_intro htenant), if_neg (c := _ = false) (by simp [within_iff.mpr hemployees]),
    if_neg (c := _ = false) (by simp [within_iff.mpr hdepts])]
  split <;> rfl

/-- **Narrowing never widens.** For a scope that the MES does not filter itself and a request without
tenant-resolved employees, whatever `narrow` does not reject stays within the scope and the request, in
the reading of all three layers. -/
theorem narrow_within (hlocal : scope.mesFiltered = false)
    (hresolved : request.tenantResolvedEmployeeIds = none) (h : scope.narrow request = .ok filters) :
    filters.Within scope request := by
  obtain ⟨employeeIds, depts, hemployees, hdepts, hsome, hrequested, rfl⟩ := narrow_eq_ok h
  have hmem := mem_of_narrowedEmployees hresolved hemployees
  have hdept := mem_of_narrowedDepts hlocal hdepts
  refine ⟨?_, ?_, ?_, ?_, ?_⟩
  · refine verify_of_within rfl (fun ids hids id hid => (hmem ids hids id hid).1) ?_
    rintro ids hids id hid
    cases hids
    exact (hdept id hid).1
  · intro requested hrequest
    have hsome' : request.employeeIds.isSome = true :=
      Option.isSome_iff_exists.mpr ⟨requested, hrequest⟩
    obtain ⟨narrowed, rfl⟩ :=
      Option.isSome_iff_exists.mp (isSome_of_narrowedEmployees hsome' hemployees)
    exact ⟨narrowed, rfl, hsome hsome', fun id hid =>
      ⟨(hmem narrowed rfl id hid).1, (hmem narrowed rfl id hid).2 requested hrequest⟩⟩
  · exact ⟨depts.1, rfl, fun id hid => (hdept id hid).1⟩
  · intro requested hrequest
    exact ⟨depts.1, rfl, hrequested (Option.isSome_iff_exists.mpr ⟨requested, hrequest⟩),
      fun id hid => (hdept id hid).2 requested hrequest⟩
  · intro role hrole rows row hrow
    have hvisible := (List.mem_filter.mp hrow).2
    simp only [visibleTo, Bool.and_eq_true] at hvisible
    have heffective := effectiveDeptIds_of_bound hrole _ ▸ hvisible.1
    refine ⟨(hdept _ (mem_of_inScope heffective depts.1 rfl)).1, fun hsome' => ?_⟩
    obtain ⟨narrowed, rfl⟩ :=
      Option.isSome_iff_exists.mp (isSome_of_narrowedEmployees hsome' hemployees)
    exact ⟨narrowed, rfl, mem_of_inScope hvisible.2 narrowed rfl⟩

/-- A manager of two departments who asks for one of them and for one more. -/
theorem narrow_within_manager :
    ∃ filters,
      (DataScope.mk "t-1" ["u-1"] ["d-1", "d-2"] false).narrow { deptIds := some ["d-2", "d-3"] }
          = .ok filters
        ∧ filters.deptIds = some ["d-2"]
        ∧ filters.Within ⟨"t-1", ["u-1"], ["d-1", "d-2"], false⟩ { deptIds := some ["d-2", "d-3"] } :=
  ⟨⟨"t-1", some ["u-1"], some ["d-2"], none, none, none, none, some ["d-2"], none⟩, by decide, rfl,
    narrow_within rfl rfl (by decide)⟩

end DataScope
