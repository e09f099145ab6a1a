import FactoryAgent.Lib.Like
import FactoryAgent.Lib.OffsetPages
import FactoryAgent.Statistics.TenantRegistry
import Mathlib.Data.List.Dedup
import Mathlib.Data.String.Basic

/-!
# Usage by tenant

The detail table of `statistics/ops.py`, by tenant and page by page, with its two filters. The handle of one tenant
and the tenants whose name matches are collected into one set, and a set without a tenant stands for no filter. So a
name that matches nothing shows all tenants, a handle with a name shows what either selects, a name that also matches
a tenant outside the scope is refused, and the characters of a pattern are not taken as they are
(`by_tenant_narrows_iff`).
-/

namespace Statistics

/-- `user_page_size` of `OpsLimits`. -/
def userPageSize : Nat := 50

/-- `user_page_max` of `OpsLimits`. -/
def userPageMax : Nat := 200

/-- What a query is refused with. -/
inductive OpsError where
  | negativeOffset
  | pageSize
  | unknownTenantRef (tenantRef : String)
  | outsideScope
  deriving DecidableEq, Repr

/-- **What the store holds**: the registry, the tenants with data in the range of the request, the usage of each, and
how the database folds the case of a character. -/
structure TenantStore where
  registry : TenantRegistry
  dataTenants : List String
  tokenTotal : String → Nat
  questionCount : String → Nat
  lastUsageAt : String → Option Instant
  lower : Char → Char

/-- `_clamp_page` -/
def clampPage (limit : Option Int) : Except OpsError Nat :=
  match limit with
  | none => .ok userPageSize
  | some limit => if limit < 1 then .error .pageSize else .ok (min limit.toNat userPageMax)

/-- A filter, unless it is missing or empty. -/
def given (filter : Option String) : Option String :=
  filter.filter (· ≠ "")

/-- **`search_tenant_registry_names`**: `tenant_name ILIKE '%' || fragment || '%'`. -/
def searchTenantRegistryNames (store : TenantStore) (fragment : String) : List String :=
  (store.registry.rows.filter fun row =>
    Like.like ((Like.contains fragment.toList).map store.lower) (row.tenantName.toList.map store.lower)).map (·.appKey)

/-- **`_resolve_ref`** -/
def resolveRef (store : TenantStore) (scope : PlatformScope) (tenantRef : String) : Except OpsError String :=
  match store.registry.rows.find? fun row => row.tenantRef = tenantRef with
  | none => .error (.unknownTenantRef tenantRef)
  | some row => if scope.coversTenant row.appKey then .ok row.appKey else .error .outsideScope

/-- **`_candidate_tenant_keys`** -/
def candidateTenantKeys (store : TenantStore) (scope : PlatformScope) : List String :=
  if scope.tenantIds = [] then store.registry.rows.map (·.appKey) ++ store.dataTenants else scope.tenantIds

/-- The key of the handle of a request, if one is given. -/
def refKeys (store : TenantStore) (scope : PlatformScope) (tenantRef : Option String) : Except OpsError (List String) :=
  match given tenantRef with
  | none => .ok []
  | some tenantRef => (resolveRef store scope tenantRef).map fun key => [key]

/-- The keys of the tenants whose name matches. -/
def nameKeys (store : TenantStore) (name : Option String) : List String :=
  match given name with
  | none => []
  | some name => searchTenantRegistryNames store name

/-- **`ByTenantItem`**, as far as the tenant goes, with some of its usage. -/
structure ByTenantItem where
  appKey : String
  tenantName : Option String
  status : Option TenantStatus
  tokenTotal : Nat
  questionCount : Nat
  lastUsageAt : Option Instant
  deriving DecidableEq, Repr

/-- The item of a tenant. -/
def TenantStore.item (store : TenantStore) (key : String) : ByTenantItem :=
  let record := store.registry.rows.find? fun row => row.appKey = key
  ⟨key, record.map (·.tenantName), record.map (·.status), store.tokenTotal key, store.questionCount key,
    store.lastUsageAt key⟩

/-- **`ByTenantPage`** -/
structure ByTenantPage where
  tenantIds : List String
  items : List ByTenantItem
  total : Nat
  nextCursor : Option Nat
  deriving DecidableEq, Repr

/-- The page of some tenants at an offset. -/
def tenantPage (store : TenantStore) (candidateKeys : List String) (pageSize offset : Nat) : ByTenantPage :=
  if candidateKeys = [] then ⟨[], [], 0, none⟩
  else
    let keys := StableSort.sorted id candidateKeys.dedup
    let rows := keys.map store.item
    let page := (rows.drop offset).take pageSize
    ⟨keys, page, rows.length, if offset + page.length < rows.length then some (offset + page.length) else none⟩

/-- **`by_tenant`**, for a range that the service accepts. -/
def byTenant (store : TenantStore) (scope : PlatformScope) (limit : Option Int) (offset : Int)
    (name tenantRef : Option String) : Except OpsError ByTenantPage :=
  if offset < 0 then .error .negativeOffset
  else do
    let pageSize ← clampPage limit
    let keys ← refKeys store scope tenantRef
    let requested := keys ++ nameKeys store name
    let scopedKeys := candidateTenantKeys store scope
    if requested ≠ [] ∧ ¬∀ key ∈ requested, key ∈ scopedKeys then .error .outsideScope
    else
      .ok (tenantPage store (if requested = [] then scopedKeys else requested.filter fun key => key ∈ scopedKeys)
        pageSize offset.toNat)

/-- The page at an offset, with its cursor. -/
def readByTenant (store : TenantStore) (scope : PlatformScope) (limit : Option Int) (name tenantRef : Option String)
    (offset : Nat) : Option (List ByTenantItem × Option Nat) :=
  match byTenant store scope limit offset name tenantRef with
  | .error _ => none
  | .ok page => some (page.items, page.nextCursor)

/-! ## What the filters ask for -/

section

variable (store : TenantStore) (scope : PlatformScope) (name tenantRef : Option String)

/-- **Whether the name of a tenant contains a fragment**, up to case. -/
def NameContains (fragment key : String) : Prop :=
  ∃ row ∈ store.registry.rows, row.appKey = key
    ∧ fragment.toList.map store.lower <:+: row.tenantName.toList.map store.lower

/-- **A tenant inside the scope that satisfies all filters.** -/
def Satisfies (key : String) : Prop :=
  key ∈ candidateTenantKeys store scope
    ∧ (∀ tenantRef', given tenantRef = some tenantRef' → ∃ row ∈ store.registry.rows, row.appKey = key
      ∧ row.tenantRef = tenantRef')
    ∧ ∀ fragment, given name = some fragment → NameContains store fragment key

/-- **The filters narrow**: a handle that is none of a tenant inside the scope is refused, and otherwise the pages
list the tenants that satisfy the filters, each once. -/
def Narrows (limit : Option Int) : Prop :=
  match refKeys store scope tenantRef with
  | .error error => byTenant store scope limit 0 name tenantRef = .error error
  | .ok _ => ∃ pages items, OffsetPages.followCursors (readByTenant store scope limit name tenantRef) pages 0 = some items
    ∧ (items.map (·.appKey)).Nodup ∧ ∀ key, key ∈ items.map (·.appKey) ↔ Satisfies store scope name tenantRef key

/-- **Where a name filter narrows**: without a handle, either the pattern matches a tenant, and then only tenants
inside the scope, namely those that contain the fragment; or it matches none and all tenants contain it. With a handle,
the tenant of the handle contains the fragment, and the pattern matches no other one. -/
def NameNarrows (keys : List String) (fragment : String) : Prop :=
  match keys with
  | [] =>
    if searchTenantRegistryNames store fragment = [] then
      ∀ key ∈ candidateTenantKeys store scope, NameContains store fragment key
    else ∀ key, key ∈ searchTenantRegistryNames store fragment
      ↔ key ∈ candidateTenantKeys store scope ∧ NameContains store fragment key
  | key :: _ => NameContains store fragment key ∧ ∀ other ∈ searchTenantRegistryNames store fragment, other = key

end

/-! ## What the pages list -/

section

variable {store : TenantStore} {scope : PlatformScope} {name tenantRef : Option String} {limit : Option Int}
  {keys : List String} {size : Nat}

/-- A page holds at least one tenant. -/
theorem clampPage_pos (h : clampPage limit = .ok size) : 0 < size := by
  cases limit with
  | none =>
    cases h
    decide
  | some limit =>
    rw [clampPage] at h
    split at h
    · cases h
    · cases h
      rw [userPageMax]
      omega

/-- The tenants of a request, in the order of the table. -/
def listedKeys (store : TenantStore) (scope : PlatformScope) (requested : List String) : List String :=
  StableSort.sorted id (if requested = [] then candidateTenantKeys store scope
    else requested.filter fun key => key ∈ candidateTenantKeys store scope).dedup

/-- Each tenant is listed once. -/
theorem nodup_listedKeys (store : TenantStore) (scope : PlatformScope) (requested : List String) :
    (listedKeys store scope requested).Nodup :=
  (StableSort.sorted_perm id _).nodup_iff.mpr (List.nodup_dedup _)

/-- The tenants of a request. -/
theorem mem_listedKeys {requested : List String} {key : String} :
    key ∈ listedKeys store scope requested
      ↔ key ∈ candidateTenantKeys store scope ∧ (requested = [] ∨ key ∈ requested) := by
  rw [listedKeys, (StableSort.sorted_perm id _).mem_iff, List.mem_dedup]
  by_cases hnone : requested = []
  · rw [if_pos hnone, and_iff_left (.inl hnone)]
  · rw [if_neg hnone, List.mem_filter, decide_eq_true_eq, and_comm, or_iff_right hnone]

/-- The page of a request whose handle and limit are accepted. -/
theorem byTenant_eq (hkeys : refKeys store scope tenantRef = .ok keys) (hsize : clampPage limit = .ok size)
    (offset : Nat) : byTenant store scope limit offset name tenantRef
      = if keys ++ nameKeys store name ≠ [] ∧ ¬∀ key ∈ keys ++ nameKeys store name, key ∈ candidateTenantKeys store scope
        then .error .outsideScope
        else .ok (tenantPage store (if keys ++ nameKeys store name = [] then candidateTenantKeys store scope
          else (keys ++ nameKeys store name).filter fun key => key ∈ candidateTenantKeys store scope) size offset) := by
  rw [byTenant, if_neg (by omega), hsize, hkeys]
  rfl

/-- **A request with a tenant outside the scope lists nothing.** -/
theorem followByTenant_none (hkeys : refKeys store scope tenantRef = .ok keys) (hsize : clampPage limit = .ok size)
    (hnot : ¬∀ key ∈ keys ++ nameKeys store name, key ∈ candidateTenantKeys store scope) (pages : Nat) :
    OffsetPages.followCursors (readByTenant store scope limit name tenantRef) pages 0 = none := by
  have hsome : keys ++ nameKeys store name ≠ [] := by
    intro hnone
    rw [hnone] at hnot
    exact hnot fun key hkey => absurd hkey List.not_mem_nil
  have hread : readByTenant store scope limit name tenantRef 0 = none := by
    rw [readByTenant, byTenant_eq hkeys hsize, if_pos ⟨hsome, hnot⟩]
  cases pages with
  | zero => rfl
  | succ pages => rw [OffsetPages.followCursors, hread, Option.bind_none]

/-- The items of a page, and its cursor. -/
theorem tenantPage_eq (candidateKeys : List String) (pageSize offset : Nat) :
    let rows := (StableSort.sorted id candidateKeys.dedup).map store.item
    (tenantPage store candidateKeys pageSize offset).items = (rows.drop offset).take pageSize
      ∧ (tenantPage store candidateKeys pageSize offset).nextCursor
        = if offset + ((rows.drop offset).take pageSize).length < rows.length
          then some (offset + ((rows.drop offset).take pageSize).length) else none := by
  rw [tenantPage]
  split
  · next hnone =>
    rw [hnone]
    exact ⟨by simp [StableSort.sorted], by simp [StableSort.sorted]⟩
  · exact ⟨rfl, rfl⟩

/-- **Otherwise it lists the tenants of the request.** -/
theorem followByTenant_eq (hkeys : refKeys store scope tenantRef = .ok keys) (hsize : clampPage limit = .ok size)
    (hin : ∀ key ∈ keys ++ nameKeys store name, key ∈ candidateTenantKeys store scope) :
    ∃ pages, OffsetPages.followCursors (readByTenant store scope limit name tenantRef) pages 0
      = some ((listedKeys store scope (keys ++ nameKeys store name)).map store.item) := by
  refine ⟨_, OffsetPages.followCursors_eq (clampPage_pos hsize) fun offset _ => ?_⟩
  have hpage := @tenantPage_eq store (if keys ++ nameKeys store name = [] then candidateTenantKeys store scope
    else (keys ++ nameKeys store name).filter fun key => key ∈ candidateTenantKeys store scope) size offset
  rw [readByTenant, byTenant_eq hkeys hsize, if_neg fun hnot => hnot.2 hin, listedKeys]
  show some (_, _) = _
  rw [hpage.1, hpage.2]

/-- The item of a tenant has its key. -/
theorem map_appKey_item (keys : List String) : (keys.map store.item).map (·.appKey) = keys := by
  rw [List.map_map]
  exact List.map_id keys

/-- The key of a handle is one of the scope, and its row is that of the handle. -/
theorem refKeys_eq_ok (h : refKeys store scope tenantRef = .ok keys) :
    match given tenantRef with
    | none => keys = []
    | some tenantRef => ∃ row ∈ store.registry.rows, row.tenantRef = tenantRef ∧ keys = [row.appKey]
      ∧ row.appKey ∈ candidateTenantKeys store scope := by
  rw [refKeys] at h
  cases hgiven : given tenantRef with
  | none =>
    rw [hgiven] at h
    cases h
    rfl
  | some tenantRef =>
    rw [hgiven] at h
    show ∃ row ∈ store.registry.rows, _
    have hresolved : (resolveRef store scope tenantRef).map (fun key => [key]) = .ok keys := h
    rw [resolveRef] at hresolved
    cases hfind : store.registry.rows.find? fun row => row.tenantRef = tenantRef with
    | none =>
      rw [hfind] at hresolved
      cases hresolved
    | some row =>
      rw [hfind] at hresolved
      have hmem := List.mem_of_find?_eq_some hfind
      have hcovers : scope.coversTenant row.appKey = true ∧ [row.appKey] = keys := by
        by_cases hcovers : scope.coversTenant row.appKey = true
        · simp only [hcovers, if_true] at hresolved
          cases hresolved
          exact ⟨hcovers, rfl⟩
        · simp only [hcovers] at hresolved
          cases hresolved
      refine ⟨row, hmem, by simpa using List.find?_some hfind, hcovers.2.symm, ?_⟩
      rw [candidateTenantKeys]
      split
      · exact List.mem_append_left _ (List.mem_map_of_mem hmem)
      · next hsome =>
        have hin := hcovers.1
        rw [PlatformScope.coversTenant, Bool.or_eq_true, List.isEmpty_iff, or_iff_right hsome,
          List.contains_iff_mem] at hin
        exact hin

/-- **The pages list what the filters ask for exactly where the listed tenants are those.** -/
theorem narrows_iff (hkeys : refKeys store scope tenantRef = .ok keys) (hsize : clampPage limit = .ok size) :
    Narrows store scope name tenantRef limit
      ↔ (∀ key ∈ keys ++ nameKeys store name, key ∈ candidateTenantKeys store scope)
        ∧ ∀ key, key ∈ listedKeys store scope (keys ++ nameKeys store name) ↔ Satisfies store scope name tenantRef key := by
  rw [Narrows, hkeys]
  constructor
  · rintro ⟨pages, items, hitems, -, hall⟩
    by_cases hin : ∀ key ∈ keys ++ nameKeys store name, key ∈ candidateTenantKeys store scope
    · obtain ⟨pages', hpages⟩ := followByTenant_eq hkeys hsize hin
      have hsame := OffsetPages.followCursors_unique hitems hpages
      rw [hsame, map_appKey_item] at hall
      exact ⟨hin, hall⟩
    · rw [followByTenant_none hkeys hsize hin] at hitems
      cases hitems
  · rintro ⟨hin, hall⟩
    obtain ⟨pages, hpages⟩ := followByTenant_eq hkeys hsize hin
    refine ⟨pages, _, hpages, ?_, ?_⟩
    · rw [map_appKey_item]
      exact nodup_listedKeys store scope _
    · rw [map_appKey_item]
      exact hall

/-- The tenants of a handle are those that it asks for, inside the scope. -/
theorem refKeys_spec (h : refKeys store scope tenantRef = .ok keys) :
    (∀ key ∈ keys, key ∈ candidateTenantKeys store scope) ∧ (keys = [] ∨ ∃ key, keys = [key])
      ∧ ∀ key, (∀ tenantRef', given tenantRef = some tenantRef' → ∃ row ∈ store.registry.rows, row.appKey = key
        ∧ row.tenantRef = tenantRef') ↔ keys = [] ∨ key ∈ keys := by
  have hrow := refKeys_eq_ok h
  cases hgiven : given tenantRef with
  | none =>
    rw [hgiven] at hrow
    have hnone : keys = [] := hrow
    subst hnone
    exact ⟨fun key hkey => absurd hkey List.not_mem_nil, .inl rfl, fun key =>
      iff_of_true (fun _ hsome => by cases hsome) (.inl rfl)⟩
  | some tenantRef' =>
    rw [hgiven] at hrow
    obtain ⟨row, hmem, href, rfl, hin⟩ := hrow
    refine ⟨fun key hkey => List.mem_singleton.mp hkey ▸ hin, .inr ⟨_, rfl⟩, fun key => ?_⟩
    rw [or_iff_right (List.cons_ne_nil _ _), List.mem_singleton]
    constructor
    · intro hall
      obtain ⟨other, hother, hkey, hsame⟩ := hall tenantRef' rfl
      rw [← hkey, List.inj_on_of_nodup_map store.registry.refs hother hmem (hsame.trans href.symm)]
    · rintro rfl _ ⟨⟩
      exact ⟨row, hmem, rfl, href⟩

/-- **The filters narrow exactly where** no name is given, or the name narrows. -/
theorem by_tenant_narrows_iff (hsize : clampPage limit = .ok size) :
    Narrows store scope name tenantRef limit
      ↔ ∀ keys, refKeys store scope tenantRef = .ok keys → ∀ fragment, given name = some fragment →
        NameNarrows store scope keys fragment := by
  cases hkeys : refKeys store scope tenantRef with
  | error error =>
    refine iff_of_true ?_ fun keys hok => by cases hok
    rw [Narrows, hkeys]
    show byTenant store scope limit 0 name tenantRef = .error error
    rw [byTenant, if_neg (by decide), hsize, hkeys]
    rfl
  | ok keys =>
    obtain ⟨hkeysIn, hshape, href⟩ := refKeys_spec hkeys
    rw [narrows_iff hkeys hsize]
    simp only [mem_listedKeys, Satisfies, href, Except.ok.injEq, forall_eq']
    cases hname : given name with
    | none =>
      have hnone : nameKeys store name = [] := by rw [nameKeys, hname]
      simp only [hnone, List.append_nil, reduceCtorEq, false_implies, implies_true, and_true]
      exact iff_true_intro hkeysIn
    | some fragment =>
      have hsome : nameKeys store name = searchTenantRegistryNames store fragment := by rw [nameKeys, hname]
      simp only [hsome, Option.some.injEq, forall_eq']
      rcases hshape with rfl | ⟨key, rfl⟩
      · -- Only the name filters, and where it matches nothing all tenants are listed.
        simp only [List.nil_append, true_or, true_and, NameNarrows]
        split
        · next hnothing =>
          rw [hnothing]
          simp
        · next hmatches =>
          simp only [hmatches, false_or]
          constructor
          · rintro ⟨hin, hall⟩ key
            rw [← hall, and_iff_right_of_imp (hin key)]
          · intro hall
            refine ⟨fun key hkey => ((hall key).mp hkey).1, fun key => ?_⟩
            rw [hall, and_iff_right_of_imp And.left]
      · -- The handle is listed in any case, with what the name matches.
        have hkey : key ∈ candidateTenantKeys store scope := hkeysIn key (List.mem_singleton_self key)
        simp only [List.singleton_append, List.mem_cons, forall_eq_or_imp, reduceCtorEq, false_or, List.not_mem_nil,
          or_false, NameNarrows]
        constructor
        · rintro ⟨⟨-, hin⟩, hall⟩
          refine ⟨((hall key).mp ⟨hkey, .inl rfl⟩).2.2, fun other hother => ?_⟩
          exact ((hall other).mp ⟨hin other hother, .inr hother⟩).2.1
        · rintro ⟨hcontains, honly⟩
          refine ⟨⟨hkey, fun other hother => honly other hother ▸ hkey⟩, fun other => ?_⟩
          constructor
          · rintro ⟨hother, rfl | hmatched⟩
            · exact ⟨hkey, rfl, hcontains⟩
            · exact ⟨hother, honly other hmatched, honly other hmatched ▸ hcontains⟩
          · rintro ⟨hother, rfl, -⟩
            exact ⟨hother, .inl rfl⟩

end

/-- Two tenants without usage. -/
def twoTenantStore : TenantStore :=
  ⟨twoTenants, [], fun _ => 0, fun _ => 0, fun _ => none, Char.toLower⟩

/-- The filters of a request by name, on the whole platform. -/
theorem by_tenant_narrows_two :
    Narrows twoTenantStore ⟨"viewer", .viewer, []⟩ (some "a") none none
      ↔ ∀ keys, refKeys twoTenantStore ⟨"viewer", .viewer, []⟩ none = .ok keys → ∀ fragment, given (some "a") = some fragment →
        NameNarrows twoTenantStore ⟨"viewer", .viewer, []⟩ keys fragment :=
  by_tenant_narrows_iff (show clampPage none = .ok 50 from rfl)

/-- **A name that nobody has shows everybody.** -/
theorem by_tenant_shows_all : ¬Narrows twoTenantStore ⟨"viewer", .viewer, []⟩ (some "Z") none none := by
  intro h
  have hlisted := ((narrows_iff (show refKeys twoTenantStore ⟨"viewer", .viewer, []⟩ none = .ok [] from rfl)
    (show clampPage none = .ok 50 from rfl)).mp h).2 "key-a"
  obtain ⟨-, -, hname⟩ := hlisted.mp (mem_listedKeys.mpr ⟨by decide +kernel, .inl (by decide +kernel)⟩)
  obtain ⟨row, hrow, -, hcontains⟩ := hname "Z" (by decide)
  have hnone : ∀ row ∈ twoTenants.rows, ¬"Z".toList.map Char.toLower <:+: row.tenantName.toList.map Char.toLower := by
    decide +kernel
  exact hnone row hrow hcontains

/-- **Plain characters are looked for as they are**: what the pattern of a name matches is what contains it. -/
theorem mem_searchTenantRegistryNames {store : TenantStore} {fragment : String}
    (h : ∀ c ∈ fragment.toList, Like.IsPlain (store.lower c)) (hany : store.lower '%' = '%') {key : String} :
    key ∈ searchTenantRegistryNames store fragment ↔ NameContains store fragment key := by
  have hpattern : (Like.contains fragment.toList).map store.lower = Like.contains (fragment.toList.map store.lower) := by
    rw [Like.contains, Like.contains, List.map_cons, List.map_append, List.map_singleton, hany]
  have hplain : ∀ c ∈ fragment.toList.map store.lower, Like.IsPlain c := by
    intro c hc
    obtain ⟨d, hd, rfl⟩ := List.mem_map.mp hc
    exact h d hd
  rw [searchTenantRegistryNames, hpattern, List.mem_map]
  constructor
  · rintro ⟨row, hrow, rfl⟩
    rw [List.mem_filter, Like.like_contains_iff hplain] at hrow
    exact ⟨row, hrow.1, rfl, hrow.2⟩
  · rintro ⟨row, hrow, hkey, hcontains⟩
    exact ⟨row, List.mem_filter.mpr ⟨hrow, (Like.like_contains_iff hplain _).mpr hcontains⟩, hkey⟩

end Statistics
