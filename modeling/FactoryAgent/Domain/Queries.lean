import FactoryAgent.Domain.Identity

/-!
# Narrowed filters

The filters of `domain/queries.py` that leave the permission layer: the scope of the caller and the
business filters of the question. `none` restricts nothing. The frozen sets of the source are lists.
-/

/-- **The filters of one question**, already intersected with the scope of the caller. -/
structure NarrowedFilters where
  tenantId : String
  employeeIds : Option (List String)
  deptIds : Option (List String)
  orderCodes : Option (List String)
  styleCodes : Option (List String)
  planCodes : Option (List String)
  /-- the material numbers of packages -/
  materialIds : Option (List String)
  /-- the departments that the question itself asked for -/
  requestedDeptIds : Option (List String)
  bedCodes : Option (List String)
  deriving DecidableEq, Repr

namespace NarrowedFilters

/-- The filters of a tenant that restrict nothing. -/
def ofTenant (tenantId : String) : NarrowedFilters :=
  ⟨tenantId, none, none, none, none, none, none, none, none⟩

/-- The departments that rows are filtered by. The data of an owner and of an employee is not
filtered by the departments they are bound to. -/
def effectiveDeptIds (filters : NarrowedFilters) (role : Option Role) : Option (List String) :=
  if role = some .owner ∨ role = some .employee then filters.requestedDeptIds else filters.deptIds

end NarrowedFilters
