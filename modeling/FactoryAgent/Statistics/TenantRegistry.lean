import FactoryAgent.Domain.Session
import FactoryAgent.Lib.TiedPages

/-!
# The tenant registry

The tenants of `statistics/tenants.py` and the listing of them. The listing is ordered by the time of creation alone,
so the database may return tenants that were created at one time in any order, and in another one for the next page.
A page leaves out the tenants that are not in the scope of the reader after it was cut; its cursor counts the rows
that were scanned. Following the cursors ends after as many pages as it takes (`follow_eq`), but a tenant can be on
two pages or on none, exactly where its tie reaches over the end of a page (`list_covers_scope_iff`).
-/

namespace Statistics

/-- **`PlatformRole`** -/
inductive PlatformRole where
  | viewer
  | analyst
  | admin
  deriving DecidableEq, Repr

/-- **`PlatformScope`**. No tenants at all stand for the whole platform. -/
structure PlatformScope where
  principalId : String
  role : PlatformRole
  tenantIds : List String
  deriving DecidableEq, Repr

/-- `covers_tenant` -/
def PlatformScope.coversTenant (scope : PlatformScope) (tenantId : String) : Bool :=
  scope.tenantIds.isEmpty || scope.tenantIds.contains tenantId

/-- `ACTIVE` and `DISABLED` -/
inductive TenantStatus where
  | active
  | disabled
  deriving DecidableEq, Repr

/-- **`TenantRegistryRecord`** -/
structure TenantRegistryRecord where
  appKey : String
  tenantRef : String
  tenantName : String
  status : TenantStatus
  createdAt : Instant
  updatedAt : Instant
  deriving DecidableEq, Repr

/-- **The table `tenant_registry`**: a primary key, and a reference that is unique as well. -/
structure TenantRegistry where
  rows : List TenantRegistryRecord
  keys : (rows.map (·.appKey)).Nodup
  refs : (rows.map (·.tenantRef)).Nodup

/-- The rows of a table are different. -/
theorem TenantRegistry.nodup (registry : TenantRegistry) : registry.rows.Nodup :=
  registry.keys.of_map _

/-! ## Listing the tenants -/

/-- **`list_tenant_registry`**: a page of the rows in the order that they come in, and how many there are. -/
def listTenantRegistry (order : List TenantRegistryRecord) (limit offset : Nat) : List TenantRegistryRecord × Nat :=
  (TiedPages.page limit offset order, order.length)

/-- **`TenantRegistryPage`** -/
structure TenantRegistryPage where
  items : List TenantRegistryRecord
  total : Nat
  nextCursor : Option Nat
  deriving DecidableEq, Repr

/-- **`TenantRegistryService.list`** -/
def list (order : List TenantRegistryRecord) (scope : PlatformScope) (limit : Nat) (offset : Int) :
    Except String TenantRegistryPage :=
  if offset < 0 then .error "offset must not be negative"
  else
    let (records, total) := listTenantRegistry order limit offset.toNat
    let visible := records.filter fun record => scope.coversTenant record.appKey
    let scanned := offset.toNat + records.length
    .ok ⟨visible, total, if scanned < total then some scanned else none⟩

/-- **Following the cursors** from an offset on, in so many requests at most: each is answered in an order of its
own. -/
def follow (orders : Nat → List TenantRegistryRecord) (scope : PlatformScope) (limit : Nat) :
    Nat → Nat → Option (List TenantRegistryRecord)
  | 0, _ => none
  | requests + 1, offset =>
    match list (orders offset) scope limit offset with
    | .error _ => none
    | .ok page =>
      match page.nextCursor with
      | none => some page.items
      | some cursor => (follow orders scope limit requests cursor).map (page.items ++ ·)

section

variable {orders : Nat → List TenantRegistryRecord} {rows : List TenantRegistryRecord} {limit : Nat}

/-- A page at an offset in the range of the rows. -/
theorem list_eq (order : List TenantRegistryRecord) (scope : PlatformScope) (limit offset : Nat) :
    list order scope limit offset = .ok ⟨(TiedPages.page limit offset order).filter fun record =>
        scope.coversTenant record.appKey, order.length,
      if offset + (TiedPages.page limit offset order).length < order.length
        then some (offset + (TiedPages.page limit offset order).length) else none⟩ := by
  rw [list, if_neg (by omega)]
  rfl

/-- **Following the cursors gives all pages** that are left, in as many requests as it takes. -/
theorem follow_eq (hlength : ∀ offset, (orders offset).length = rows.length) (scope : PlatformScope) :
    ∀ requests n : Nat, 0 < requests → rows.length < (n + requests) * limit →
      follow orders scope limit requests (n * limit)
        = some (((List.range' n requests).flatMap fun n =>
          TiedPages.page limit (n * limit) (orders (n * limit))).filter fun record => scope.coversTenant record.appKey) := by
  intro requests
  induction requests with
  | zero => exact fun _ hpos => absurd hpos (Nat.lt_irrefl 0)
  | succ requests ih =>
    intro n _ hlast
    have hpage : (TiedPages.page limit (n * limit) (orders (n * limit))).length
        = min limit (rows.length - n * limit) := by
      rw [TiedPages.page, List.length_take, List.length_drop, hlength]
    rw [follow, list_eq, hlength, hpage, List.range'_succ, List.flatMap_cons, List.filter_append]
    by_cases hmore : n * limit + min limit (rows.length - n * limit) < rows.length
    · have hnext : n * limit + min limit (rows.length - n * limit) = (n + 1) * limit := by
        rw [Nat.add_mul, Nat.one_mul]
        omega
      have hsome : 0 < requests := by
        rcases Nat.eq_zero_or_pos requests with rfl | hpos
        · rw [Nat.zero_add] at hlast
          omega
        · exact hpos
      simp only [hmore, if_true]
      rw [hnext, ih (n + 1) hsome (by rw [Nat.add_assoc, Nat.add_comm 1]; exact hlast)]
      rfl
    · simp only [hmore, if_false]
      -- The pages that are not asked for are empty.
      have hrest : ((List.range' (n + 1) requests).flatMap fun n =>
          TiedPages.page limit (n * limit) (orders (n * limit))) = [] := by
        rw [List.flatMap_eq_nil_iff]
        intro m hm
        have hle : n + 1 ≤ m := (List.mem_range'_1.mp hm).1
        have hpast : rows.length ≤ m * limit := by
          have := Nat.mul_le_mul_right limit hle
          rw [Nat.add_mul, Nat.one_mul] at this
          omega
        rw [TiedPages.page, List.drop_eq_nil_of_le (by rw [hlength]; exact hpast), List.take_nil]
      rw [hrest, List.filter_nil, List.append_nil]

end

/-- **Following the cursors shows each tenant of a scope once, whatever the orders are, exactly where no tie of such a
tenant reaches over the end of a page.** -/
theorem list_covers_scope_iff (registry : TenantRegistry) (scope : PlatformScope) {limit : Nat} (hlimit : 1 ≤ limit) :
    (∀ orders : Nat → List TenantRegistryRecord,
      (∀ offset, TiedPages.Ordering (·.createdAt) registry.rows (orders offset)) →
      ∃ items, follow orders scope limit (registry.rows.length + 1) 0 = some items
        ∧ items.Perm (registry.rows.filter fun record => scope.coversTenant record.appKey))
      ↔ ∀ record ∈ registry.rows, scope.coversTenant record.appKey = true →
        (registry.rows.filter fun other => other.createdAt < record.createdAt).length / limit
          = ((registry.rows.filter fun other => other.createdAt ≤ record.createdAt).length - 1) / limit := by
  have hfollow : ∀ orders : Nat → List TenantRegistryRecord,
      (∀ offset, TiedPages.Ordering (·.createdAt) registry.rows (orders offset)) →
      follow orders scope limit (registry.rows.length + 1) 0
        = some (((List.range (registry.rows.length + 1)).flatMap fun n =>
          TiedPages.page limit (n * limit) (orders (n * limit))).filter fun record =>
            scope.coversTenant record.appKey) := by
    intro orders horders
    have hlength : ∀ offset, (orders offset).length = registry.rows.length := fun offset =>
      (horders offset).1.length_eq
    have hpages := follow_eq hlength scope (registry.rows.length + 1) 0 (Nat.succ_pos _) (by
        rw [Nat.zero_add]
        exact Nat.lt_of_lt_of_le (Nat.lt_succ_self _) (Nat.le_mul_of_pos_right _ hlimit))
    rw [Nat.zero_mul, ← List.range_eq_range'] at hpages
    exact hpages
  refine Iff.trans ⟨fun h orders horders => ?_, fun h orders horders => ⟨_, hfollow orders horders, h orders horders⟩⟩
    (TiedPages.pages_perm_iff registry.nodup hlimit fun record => scope.coversTenant record.appKey)
  obtain ⟨items, hitems, hperm⟩ := h orders horders
  rw [hfollow orders horders, Option.some.injEq] at hitems
  exact hitems ▸ hperm

/-- Two tenants that were created at one time. -/
def twoTenants : TenantRegistry :=
  ⟨[⟨"key-a", "t_a", "A", .active, 0, 0⟩, ⟨"key-b", "t_b", "B", .active, 0, 0⟩], by decide, by decide⟩

/-- The pages of two tenants of one time, shown together. -/
theorem list_covers_scope_two :
    (∀ orders : Nat → List TenantRegistryRecord,
      (∀ offset, TiedPages.Ordering (·.createdAt) twoTenants.rows (orders offset)) →
      ∃ items, follow orders ⟨"admin", .admin, []⟩ 2 3 0 = some items
        ∧ items.Perm (twoTenants.rows.filter fun record => (⟨"admin", .admin, []⟩ : PlatformScope).coversTenant record.appKey))
      ↔ ∀ record ∈ twoTenants.rows, (⟨"admin", .admin, []⟩ : PlatformScope).coversTenant record.appKey = true →
        (twoTenants.rows.filter fun other => other.createdAt < record.createdAt).length / 2
          = ((twoTenants.rows.filter fun other => other.createdAt ≤ record.createdAt).length - 1) / 2 :=
  list_covers_scope_iff twoTenants ⟨"admin", .admin, []⟩ (by decide)

/-- **A tenant that is shown twice, and another one never**: two tenants of one time, one on a page. -/
theorem list_repeats_tenant :
    ¬∀ orders : Nat → List TenantRegistryRecord,
      (∀ offset, TiedPages.Ordering (·.createdAt) twoTenants.rows (orders offset)) →
      ∃ items, follow orders ⟨"admin", .admin, []⟩ 1 3 0 = some items
        ∧ items.Perm (twoTenants.rows.filter fun record =>
          (⟨"admin", .admin, []⟩ : PlatformScope).coversTenant record.appKey) := by
  intro h
  obtain ⟨items, hitems, hperm⟩ := h (fun offset => if offset = 0 then twoTenants.rows else twoTenants.rows.reverse)
    fun offset => by
      show TiedPages.Ordering _ twoTenants.rows (if _ then _ else _)
      split
      · exact ⟨List.Perm.refl _, by decide⟩
      · exact ⟨List.reverse_perm _, by decide⟩
  have hshown : follow (fun offset => if offset = 0 then twoTenants.rows else twoTenants.rows.reverse)
      ⟨"admin", .admin, []⟩ 1 3 0
      = some [⟨"key-a", "t_a", "A", .active, 0, 0⟩, ⟨"key-a", "t_a", "A", .active, 0, 0⟩] := by decide
  rw [hshown, Option.some.injEq] at hitems
  subst hitems
  have hnodup := hperm.nodup_iff.mpr (twoTenants.nodup.filter _)
  exact absurd hnodup (by decide)

end Statistics
