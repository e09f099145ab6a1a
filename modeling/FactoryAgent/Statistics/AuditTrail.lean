import FactoryAgent.Lib.Gather
import FactoryAgent.Lib.Machine
import FactoryAgent.Lib.Text
import FactoryAgent.Statistics.TenantRegistry

/-!
# The audit trail of the tenant registry

The calls of `TenantRegistryService` that write, by any number of administrators. A call reads the row, writes it,
and records in an entry what it did, each in a transaction of its own: the entry says what the row was when it was
*read*. Where the row is still that when it is written, and no call ends between its write and its entry, the trail
is exact (`audit_trail_exact`). Otherwise it can miss a change, or say that a value was replaced that was not there.
-/

namespace Statistics

/-! ## The table -/

namespace TenantRegistry

/-- `get_tenant_registry_by_ref` -/
def byRef (registry : TenantRegistry) (tenantRef : String) : Option TenantRegistryRecord :=
  registry.rows.find? fun row => row.tenantRef = tenantRef

/-- The row of a key. -/
def byKey (registry : TenantRegistry) (appKey : String) : Option TenantRegistryRecord :=
  registry.rows.find? fun row => row.appKey = appKey

/-- **`create_tenant_registry`**; `none` is a key or a reference that is there. -/
def create (registry : TenantRegistry) (record : TenantRegistryRecord) : Option TenantRegistry :=
  if h : record.appKey ∉ registry.rows.map (·.appKey) ∧ record.tenantRef ∉ registry.rows.map (·.tenantRef) then
    some ⟨registry.rows ++ [record],
      by rw [List.map_append]; exact List.nodup_append_comm.mp (List.nodup_cons.mpr ⟨h.1, registry.keys⟩),
      by rw [List.map_append]; exact List.nodup_append_comm.mp (List.nodup_cons.mpr ⟨h.2, registry.refs⟩)⟩
  else none

/-- The new values of a row: `COALESCE(%s, tenant_name)` and `COALESCE(%s, status)`. -/
def updated (row : TenantRegistryRecord) (tenantName : Option String) (status : Option TenantStatus)
    (updatedAt : Instant) : TenantRegistryRecord :=
  { row with tenantName := tenantName.getD row.tenantName, status := status.getD row.status, updatedAt }

/-- The rows with those of a key replaced. -/
def replaceRows (rows : List TenantRegistryRecord) (after : TenantRegistryRecord) : List TenantRegistryRecord :=
  rows.map fun row => if row.appKey = after.appKey then after else row

/-- **`update_tenant_registry`**: the row that was replaced, and the table with the new one. -/
def update (registry : TenantRegistry) (appKey : String) (tenantName : Option String) (status : Option TenantStatus)
    (updatedAt : Instant) : Option (TenantRegistryRecord × TenantRegistryRecord × TenantRegistry) :=
  match h : registry.byKey appKey with
  | none => none
  | some row =>
    let after := updated row tenantName status updatedAt
    have hsame : ∀ other ∈ registry.rows, other.appKey = after.appKey → other = row := fun other hother heq =>
      List.inj_on_of_nodup_map registry.keys hother (List.mem_of_find?_eq_some h) heq
    some (row, after, ⟨replaceRows registry.rows after,
      by
        have hkeys : (replaceRows registry.rows after).map (·.appKey) = registry.rows.map (·.appKey) := by
          rw [replaceRows, List.map_map]
          refine List.map_congr_left fun other _ => ?_
          show (if other.appKey = after.appKey then after else other).appKey = other.appKey
          split
          · next heq => exact heq.symm
          · rfl
        exact hkeys ▸ registry.keys,
      by
        have hrefs : (replaceRows registry.rows after).map (·.tenantRef) = registry.rows.map (·.tenantRef) := by
          rw [replaceRows, List.map_map]
          refine List.map_congr_left fun other hother => ?_
          show (if other.appKey = after.appKey then after else other).tenantRef = other.tenantRef
          split
          · next heq => rw [hsame other hother heq]; rfl
          · rfl
        exact hrefs ▸ registry.refs⟩)

end TenantRegistry

/-! ## Calls -/

/-- What went wrong with a call. -/
inductive RegistryError where
  | notAdmin
  | emptyName
  | badStatus (status : String)
  | keyExists
  | notFound
  /-- The database, at any step. -/
  | unavailable
  deriving DecidableEq, Repr

/-- `_validate_status` -/
def validateStatus (status : String) : Except RegistryError TenantStatus :=
  if status = "active" then .ok .active
  else if status = "disabled" then .ok .disabled
  else .error (.badStatus status)

/-- **The values of an entry.** -/
inductive AuditDetail where
  | created (tenantName : String) (status : TenantStatus)
  | updated (before after : String × TenantStatus)
  | statusSet (before after : TenantStatus)
  deriving DecidableEq, Repr

/-- **`AuditEntry`** -/
structure AuditEntry where
  auditId : String
  principalId : String
  action : String
  target : String
  detail : AuditDetail
  createdAt : Instant
  deriving DecidableEq, Repr

/-- **What a call asks for.** -/
inductive AdminRequest where
  | create (tenantName status : String) (appKey : Option String)
  | update (tenantRef : String) (tenantName status : Option String)
  | disable (tenantRef : String)
  | enable (tenantRef : String)
  deriving DecidableEq, Repr

/-- What an entry says, apart from its own key and time: who, what, of which tenant, and the values. -/
abbrev Described := String × String × String × AuditDetail

/-- **How far a call is.** -/
inductive CallPhase where
  | called
  | read (before : TenantRegistryRecord)
  | written (owed : Described)
  | returned
  | raised (error : RegistryError)
  deriving DecidableEq, Repr

/-- **A call.** -/
structure AdminCall where
  scope : PlatformScope
  request : AdminRequest
  phase : CallPhase
  deriving DecidableEq, Repr

/-- The entry that a call still owes. -/
def AdminCall.owed (call : AdminCall) : Option Described :=
  match call.phase with
  | .written owed => some owed
  | _ => none

/-- What an entry says. -/
def AuditEntry.described (entry : AuditEntry) : Described :=
  (entry.principalId, entry.action, entry.target, entry.detail)

/-- **A change of the table**: who made it, by what, and the row before and after. -/
structure RegistryWrite where
  principalId : String
  action : String
  before : Option TenantRegistryRecord
  after : TenantRegistryRecord
  deriving DecidableEq, Repr

namespace RegistryWrite

/-- The values that a change replaced and stored, as its entry should say them. -/
def detail (write : RegistryWrite) : AuditDetail :=
  match write.before with
  | none => .created write.after.tenantName write.after.status
  | some before =>
    if write.action = "tenant.update" then
      .updated (before.tenantName, before.status) (write.after.tenantName, write.after.status)
    else .statusSet before.status write.after.status

/-- What the entry of a change should say. -/
def described (write : RegistryWrite) : Described :=
  (write.principalId, write.action, write.after.tenantRef, write.detail)

/-- **A change of some rows**, if they are what it replaced. -/
def apply (rows : List TenantRegistryRecord) (write : RegistryWrite) : Option (List TenantRegistryRecord) :=
  if rows.find? (fun row => row.appKey = write.after.appKey) = write.before then
    some (if write.before.isNone then rows ++ [write.after] else TenantRegistry.replaceRows rows write.after)
  else none

end RegistryWrite

/-- **The registry, its trail and the calls**, with the changes so far. -/
structure AuditWorld where
  registry : TenantRegistry
  audits : List AuditEntry
  calls : List AdminCall
  writes : List RegistryWrite

namespace AuditWorld

/-- A call moves on. -/
def moved (world : AuditWorld) (index : Nat) (call : AdminCall) (phase : CallPhase) : AuditWorld :=
  { world with calls := world.calls.set index { call with phase } }

/-- A call has written, and owes the entry that it describes. -/
def wrote (world : AuditWorld) (index : Nat) (call : AdminCall) (registry : TenantRegistry) (write : RegistryWrite)
    (target : String) (detail : AuditDetail) : AuditWorld :=
  { world.moved index call (.written (call.scope.principalId, write.action, target, detail)) with
    registry, writes := world.writes ++ [write] }

/-- **The write of `create`.** -/
def writeCreate (world : AuditWorld) (index : Nat) (call : AdminCall) (tenantName status : String)
    (appKey : Option String) (generatedKey tenantRef : String) (now : Instant) : AuditWorld :=
  if call.scope.role ≠ .admin then world.moved index call (.raised .notAdmin)
  else
    let name := Text.strip tenantName
    if name = "" then world.moved index call (.raised .emptyName)
    else match validateStatus status with
      | .error error => world.moved index call (.raised error)
      | .ok value =>
        let given := Text.strip (appKey.getD "")
        let record : TenantRegistryRecord :=
          ⟨if given = "" then generatedKey else given, tenantRef, name, value, now, now⟩
        match world.registry.create record with
        | none => world.moved index call (.raised .keyExists)
        | some registry =>
          world.wrote index call registry ⟨call.scope.principalId, "tenant.create", none, record⟩ tenantRef
            (.created name value)

/-- The row that `update` and `_set_status` begin with. -/
def readRow (world : AuditWorld) (index : Nat) (call : AdminCall) (tenantRef : String) : AuditWorld :=
  if call.scope.role ≠ .admin then world.moved index call (.raised .notAdmin)
  else match world.registry.byRef tenantRef with
    | none => world.moved index call (.raised .notFound)
    | some before => world.moved index call (.read before)

/-- **The write of `update`.** -/
def writeUpdate (world : AuditWorld) (index : Nat) (call : AdminCall) (before : TenantRegistryRecord)
    (tenantRef : String) (tenantName status : Option String) (now : Instant) : AuditWorld :=
  let name := tenantName.map Text.strip
  if name = some "" then world.moved index call (.raised .emptyName)
  else match status.mapM validateStatus with
    | .error error => world.moved index call (.raised error)
    | .ok value => match world.registry.update before.appKey name value now with
      | none => world.moved index call (.raised .notFound)
      | some (replaced, after, registry) =>
        world.wrote index call registry ⟨call.scope.principalId, "tenant.update", some replaced, after⟩ tenantRef
          (.updated (before.tenantName, before.status) (after.tenantName, after.status))

/-- **The write of `_set_status`.** -/
def writeStatus (world : AuditWorld) (index : Nat) (call : AdminCall) (before : TenantRegistryRecord)
    (tenantRef : String) (status : TenantStatus) (action : String) (now : Instant) : AuditWorld :=
  match world.registry.update before.appKey none (some status) now with
  | none => world.moved index call (.raised .notFound)
  | some (replaced, after, registry) =>
    world.wrote index call registry ⟨call.scope.principalId, action, some replaced, after⟩ tenantRef
      (.statusSet before.status after.status)

end AuditWorld

/-- **What can happen**: an administrator calls, a call reads, writes or records its entry, or it fails, at any
step. -/
inductive AuditAction where
  | call (scope : PlatformScope) (request : AdminRequest)
  | read (index : Nat)
  | write (index : Nat) (generatedKey generatedRef : String) (now : Instant)
  | audit (index : Nat) (auditId : String) (now : Instant)
  | fail (index : Nat)

/-- **The step of the calls on the registry.** -/
def auditStep (world : AuditWorld) : AuditAction → Option AuditWorld
  | .call scope request => some { world with calls := world.calls ++ [⟨scope, request, .called⟩] }
  | .read index => world.calls[index]?.bind fun call =>
    match call.phase, call.request with
    | .called, .update tenantRef _ _ => some (world.readRow index call tenantRef)
    | .called, .disable tenantRef => some (world.readRow index call tenantRef)
    | .called, .enable tenantRef => some (world.readRow index call tenantRef)
    | _, _ => none
  | .write index generatedKey generatedRef now => world.calls[index]?.bind fun call =>
    match call.phase, call.request with
    | .called, .create tenantName status appKey =>
      some (world.writeCreate index call tenantName status appKey generatedKey generatedRef now)
    | .read before, .update tenantRef tenantName status =>
      some (world.writeUpdate index call before tenantRef tenantName status now)
    | .read before, .disable tenantRef =>
      some (world.writeStatus index call before tenantRef .disabled "tenant.disable" now)
    | .read before, .enable tenantRef =>
      some (world.writeStatus index call before tenantRef .active "tenant.enable" now)
    | _, _ => none
  | .audit index auditId now => world.calls[index]?.bind fun call =>
    match call.phase with
    | .written (principalId, action, target, detail) =>
      some { world.moved index call .returned with
        audits := world.audits ++ [⟨auditId, principalId, action, target, detail, now⟩] }
    | _ => none
  | .fail index => world.calls[index]?.bind fun call =>
    match call.phase with
    | .returned => none
    | .raised _ => none
    | _ => some (world.moved index call (.raised .unavailable))

/-- **The registry and its administrators**, from any content on. -/
def auditMachine (registry : TenantRegistry) : Machine AuditWorld AuditAction where
  init := ⟨registry, [], [], []⟩
  step := auditStep

/-- **The steps of an exact trail.** The row is still as it was read when it is written: its status, and for an
update its name. No call fails while it owes an entry. -/
def Sound (world : AuditWorld) : AuditAction → Prop
  | .write index _ _ _ => ∀ call before, world.calls[index]? = some call → call.phase = .read before →
    ∀ row ∈ world.registry.rows, row.appKey = before.appKey → row.status = before.status
      ∧ ∀ tenantRef tenantName status, call.request = .update tenantRef tenantName status →
        row.tenantName = before.tenantName
  | .fail index => ∀ call, world.calls[index]? = some call → call.owed = none
  | _ => True

/-! ## What the table does -/

namespace TenantRegistry

/-- A new row is added, and its key is new. -/
theorem create_eq_some {registry registry' : TenantRegistry} {record : TenantRegistryRecord}
    (h : registry.create record = some registry') :
    registry'.rows = registry.rows ++ [record] ∧ registry.rows.find? (fun row => row.appKey = record.appKey) = none := by
  rw [create] at h
  split at h
  · next hnew =>
    rw [Option.some.injEq] at h
    subst h
    refine ⟨rfl, List.find?_eq_none.mpr fun row hrow => ?_⟩
    rw [decide_eq_true_eq]
    exact fun heq => hnew.1 (heq ▸ List.mem_map_of_mem hrow)
  · cases h

/-- The row of the key is replaced by its update. -/
theorem update_eq_some {registry registry' : TenantRegistry} {appKey : String} {tenantName : Option String}
    {status : Option TenantStatus} {now : Instant} {row after : TenantRegistryRecord}
    (h : registry.update appKey tenantName status now = some (row, after, registry')) :
    row ∈ registry.rows ∧ row.appKey = appKey ∧ registry.byKey appKey = some row
      ∧ after = updated row tenantName status now ∧ registry'.rows = replaceRows registry.rows after := by
  rw [update] at h
  split at h
  · cases h
  · next found hfound =>
    simp only [Option.some.injEq, Prod.mk.injEq] at h
    obtain ⟨rfl, rfl, rfl⟩ := h
    have hfind : registry.rows.find? (fun row => row.appKey = appKey) = some found := hfound
    exact ⟨List.mem_of_find?_eq_some hfind, by simpa using List.find?_some hfind, hfound, rfl, rfl⟩

end TenantRegistry

/-- **An update is a change of the row that it replaced.** -/
theorem apply_update {registry registry' : TenantRegistry} {appKey principalId action : String}
    {tenantName : Option String} {status : Option TenantStatus} {now : Instant} {row after : TenantRegistryRecord}
    (h : registry.update appKey tenantName status now = some (row, after, registry')) :
    RegistryWrite.apply registry.rows ⟨principalId, action, some row, after⟩ = some registry'.rows := by
  obtain ⟨-, hkey, hfound, rfl, hrows⟩ := TenantRegistry.update_eq_some h
  have hfind : registry.rows.find? (fun other => other.appKey = (TenantRegistry.updated row tenantName status now).appKey)
      = some row := by
    rw [← hfound, TenantRegistry.byKey, ← hkey]
    rfl
  rw [RegistryWrite.apply, if_pos hfind, hrows]
  rfl

/-- **A creation is a change of a row that was not there.** -/
theorem apply_create {registry registry' : TenantRegistry} {principalId action : String}
    {record : TenantRegistryRecord} (h : registry.create record = some registry') :
    RegistryWrite.apply registry.rows ⟨principalId, action, none, record⟩ = some registry'.rows := by
  obtain ⟨hrows, hnone⟩ := TenantRegistry.create_eq_some h
  rw [RegistryWrite.apply, if_pos hnone, hrows]
  rfl

/-- The keys and references of some rows. -/
def identities (rows : List TenantRegistryRecord) : List (String × String) :=
  rows.map fun row => (row.appKey, row.tenantRef)

/-- A table keeps its keys and references. -/
theorem identities_update {registry registry' : TenantRegistry} {appKey : String} {tenantName : Option String}
    {status : Option TenantStatus} {now : Instant} {row after : TenantRegistryRecord}
    (h : registry.update appKey tenantName status now = some (row, after, registry')) :
    identities registry'.rows = identities registry.rows := by
  obtain ⟨hmem, hkey, -, rfl, hrows⟩ := TenantRegistry.update_eq_some h
  rw [hrows, identities, TenantRegistry.replaceRows, List.map_map]
  refine List.map_congr_left fun other hother => ?_
  show ((if other.appKey = row.appKey then TenantRegistry.updated row tenantName status now else other).appKey,
    (if other.appKey = row.appKey then TenantRegistry.updated row tenantName status now else other).tenantRef) = _
  split
  · next heq =>
    rw [List.inj_on_of_nodup_map registry.keys hother hmem heq]
    rfl
  · rfl

/-! ## What a step does -/

/-- The tenant that a request is about. -/
def AdminRequest.tenantRef? : AdminRequest → Option String
  | .create _ _ _ => none
  | .update tenantRef _ _ => some tenantRef
  | .disable tenantRef => some tenantRef
  | .enable tenantRef => some tenantRef

/-- Whether what a call has read is the row of the tenant that it is about. -/
def Targeted (rows : List TenantRegistryRecord) (call : AdminCall) : Prop :=
  ∀ before, call.phase = .read before →
    call.request.tenantRef? = some before.tenantRef ∧ (before.appKey, before.tenantRef) ∈ identities rows

/-- **What a step of an exact trail does.** -/
inductive AuditEffect (world : AuditWorld) : AuditWorld → Prop where
  | called (call : AdminCall) (hphase : call.phase = .called) :
    AuditEffect world { world with calls := world.calls ++ [call] }
  | moved (index : Nat) (call : AdminCall) (phase : CallPhase) (hcall : world.calls[index]? = some call)
    (howed : call.owed = none) (hphase : ({ call with phase } : AdminCall).owed = none)
    (htargeted : Targeted world.registry.rows { call with phase }) : AuditEffect world (world.moved index call phase)
  | wrote (index : Nat) (call : AdminCall) (registry : TenantRegistry) (write : RegistryWrite)
    (hcall : world.calls[index]? = some call) (howed : call.owed = none)
    (hidentities : ∀ identity ∈ identities world.registry.rows, identity ∈ identities registry.rows)
    (happly : write.apply world.registry.rows = some registry.rows)
    (target : String) (detail : AuditDetail)
    (hdescribed : (call.scope.principalId, write.action, target, detail) = write.described) :
    AuditEffect world (world.wrote index call registry write target detail)
  | audited (index : Nat) (call : AdminCall) (entry : AuditEntry) (hcall : world.calls[index]? = some call)
    (howed : call.owed = some entry.described) :
    AuditEffect world { world.moved index call .returned with audits := world.audits ++ [entry] }

/-- A call that has raised has read nothing. -/
theorem targeted_raised (rows : List TenantRegistryRecord) (call : AdminCall) (error : RegistryError) :
    Targeted rows { call with phase := .raised error } := by
  intro before hbefore
  cases hbefore

section

variable {world world' : AuditWorld} {index : Nat} {call : AdminCall}

/-- A call that raises. -/
theorem effect_raised (hcall : world.calls[index]? = some call) (howed : call.owed = none) (error : RegistryError) :
    AuditEffect world (world.moved index call (.raised error)) :=
  .moved index call _ hcall howed rfl (targeted_raised _ _ _)

/-- The read of a call. -/
theorem effect_readRow (hcall : world.calls[index]? = some call) (howed : call.owed = none) {tenantRef : String}
    (hrequest : call.request.tenantRef? = some tenantRef) : AuditEffect world (world.readRow index call tenantRef) := by
  rw [AuditWorld.readRow]
  split
  · exact effect_raised hcall howed _
  · cases hfound : world.registry.byRef tenantRef with
    | none => exact effect_raised hcall howed _
    | some before =>
      refine .moved index call (.read before) hcall howed rfl ?_
      rintro _ ⟨⟩
      have hfind : world.registry.rows.find? (fun row => row.tenantRef = tenantRef) = some before := hfound
      have href : before.tenantRef = tenantRef := by simpa using List.find?_some hfind
      exact ⟨href ▸ hrequest, List.mem_map_of_mem (List.mem_of_find?_eq_some hfind)⟩

/-- The write of a creation. -/
theorem effect_writeCreate (hcall : world.calls[index]? = some call) (howed : call.owed = none)
    (tenantName status : String) (appKey : Option String) (generatedKey tenantRef : String) (now : Instant) :
    AuditEffect world (world.writeCreate index call tenantName status appKey generatedKey tenantRef now) := by
  rw [AuditWorld.writeCreate]
  split
  · exact effect_raised hcall howed _
  · dsimp only
    split
    · exact effect_raised hcall howed _
    · cases validateStatus status with
      | error error => exact effect_raised hcall howed _
      | ok value =>
        dsimp only
        split
        · exact effect_raised hcall howed _
        · next registry hcreate =>
          refine .wrote index call registry _ hcall howed (fun identity hidentity => ?_) (apply_create hcreate) _ _ rfl
          rw [identities, (TenantRegistry.create_eq_some hcreate).1, List.map_append]
          exact List.mem_append_left _ hidentity

/-- **An update of the row that a call has read**: the entry says what was replaced, where that is still there. -/
theorem effect_update (hcall : world.calls[index]? = some call) (howed : call.owed = none)
    {before row after : TenantRegistryRecord} {tenantRef : String} {tenantName : Option String}
    {status : Option TenantStatus} {now : Instant} {registry : TenantRegistry}
    (hphase : call.phase = .read before) (hrequest : call.request.tenantRef? = some tenantRef)
    (htargeted : Targeted world.registry.rows call)
    (hupdate : world.registry.update before.appKey tenantName status now = some (row, after, registry))
    {action : String} {detail : AuditDetail}
    (hdetail : (⟨call.scope.principalId, action, some row, after⟩ : RegistryWrite).detail = detail) :
    AuditEffect world (world.wrote index call registry ⟨call.scope.principalId, action, some row, after⟩ tenantRef
      detail) := by
  obtain ⟨hmem, hkey, -, hafter, -⟩ := TenantRegistry.update_eq_some hupdate
  obtain ⟨href, hidentity⟩ := htargeted before hphase
  have htarget : after.tenantRef = tenantRef := by
    obtain ⟨other, hother, heq⟩ := List.mem_map.mp hidentity
    rw [Prod.mk.injEq] at heq
    have hsame : other = row := List.inj_on_of_nodup_map world.registry.keys hother hmem (heq.1.trans hkey.symm)
    rw [hafter, TenantRegistry.updated, ← hsame, heq.2]
    exact Option.some.inj (href.symm.trans hrequest)
  refine .wrote index call registry _ hcall howed (fun identity hin => ?_) (apply_update hupdate) _ _ ?_
  · rw [identities_update hupdate]
    exact hin
  · rw [RegistryWrite.described, hdetail, htarget]

/-- The write of an update. -/
theorem effect_writeUpdate (hcall : world.calls[index]? = some call) (howed : call.owed = none)
    {before : TenantRegistryRecord} {tenantRef : String} {tenantName status : Option String} {now : Instant}
    (hphase : call.phase = .read before) (hrequest : call.request = .update tenantRef tenantName status)
    (htargeted : Targeted world.registry.rows call)
    (hsound : ∀ row ∈ world.registry.rows, row.appKey = before.appKey → row.status = before.status
      ∧ row.tenantName = before.tenantName) :
    AuditEffect world (world.writeUpdate index call before tenantRef tenantName status now) := by
  rw [AuditWorld.writeUpdate]
  split
  · exact effect_raised hcall howed _
  · cases status.mapM validateStatus with
    | error error => exact effect_raised hcall howed _
    | ok value =>
      dsimp only
      split
      · exact effect_raised hcall howed _
      · next row after registry hupdate =>
        obtain ⟨hmem, hkey, -, -, -⟩ := TenantRegistry.update_eq_some hupdate
        obtain ⟨hstatus, hname⟩ := hsound row hmem hkey
        refine effect_update hcall howed hphase (by rw [hrequest]; rfl) htargeted hupdate ?_
        rw [RegistryWrite.detail, ← hstatus, ← hname]
        rfl

/-- The write of a status. -/
theorem effect_writeStatus (hcall : world.calls[index]? = some call) (howed : call.owed = none)
    {before : TenantRegistryRecord} {tenantRef action : String} {status : TenantStatus} {now : Instant}
    (hphase : call.phase = .read before) (hrequest : call.request.tenantRef? = some tenantRef)
    (htargeted : Targeted world.registry.rows call) (haction : action ≠ "tenant.update")
    (hsound : ∀ row ∈ world.registry.rows, row.appKey = before.appKey → row.status = before.status) :
    AuditEffect world (world.writeStatus index call before tenantRef status action now) := by
  rw [AuditWorld.writeStatus]
  split
  · exact effect_raised hcall howed _
  · next row after registry hupdate =>
    obtain ⟨hmem, hkey, -, -, -⟩ := TenantRegistry.update_eq_some hupdate
    refine effect_update hcall howed hphase hrequest htargeted hupdate ?_
    rw [RegistryWrite.detail, ← hsound row hmem hkey]
    exact if_neg haction

end

/-- **What a step of an exact trail does** is one of these. -/
theorem effect_of_step {world world' : AuditWorld} {action : AuditAction} (hsound : Sound world action)
    (htargeted : ∀ call ∈ world.calls, Targeted world.registry.rows call) (h : auditStep world action = some world') :
    AuditEffect world world' := by
  cases action with
  | call scope request =>
    cases h
    exact .called _ rfl
  | read index =>
    obtain ⟨call, hcall, hstep⟩ := Option.bind_eq_some_iff.mp h
    split at hstep
    all_goals first
      | (next hphase hrequest =>
          cases hstep
          exact effect_readRow hcall (by rw [AdminCall.owed, hphase]) (by rw [hrequest]; rfl))
      | cases hstep
  | write index generatedKey generatedRef now =>
    obtain ⟨call, hcall, hstep⟩ := Option.bind_eq_some_iff.mp h
    have hin := htargeted call (List.mem_of_getElem? hcall)
    split at hstep
    · next hphase _ =>
      cases hstep
      exact effect_writeCreate hcall (by rw [AdminCall.owed, hphase]) _ _ _ _ _ _
    · next hphase hrequest =>
      cases hstep
      exact effect_writeUpdate hcall (by rw [AdminCall.owed, hphase]) hphase hrequest hin fun row hrow hkey =>
        ⟨(hsound call _ hcall hphase row hrow hkey).1, (hsound call _ hcall hphase row hrow hkey).2 _ _ _ hrequest⟩
    · next hphase hrequest =>
      cases hstep
      exact effect_writeStatus hcall (by rw [AdminCall.owed, hphase]) hphase (by rw [hrequest]; rfl) hin (by decide)
        fun row hrow hkey => (hsound call _ hcall hphase row hrow hkey).1
    · next hphase hrequest =>
      cases hstep
      exact effect_writeStatus hcall (by rw [AdminCall.owed, hphase]) hphase (by rw [hrequest]; rfl) hin (by decide)
        fun row hrow hkey => (hsound call _ hcall hphase row hrow hkey).1
    · cases hstep
  | audit index auditId now =>
    obtain ⟨call, hcall, hstep⟩ := Option.bind_eq_some_iff.mp h
    split at hstep
    · next principalId action target detail hphase =>
      cases hstep
      exact .audited index call ⟨auditId, principalId, action, target, detail, now⟩ hcall
        (by rw [AdminCall.owed, hphase]; rfl)
    · cases hstep
  | fail index =>
    obtain ⟨call, hcall, hstep⟩ := Option.bind_eq_some_iff.mp h
    split at hstep
    · cases hstep
    · cases hstep
    · cases hstep
      exact effect_raised hcall (hsound call hcall) _

/-! ## The trail along a run -/

/-- **What is exact about a trail**: the changes are those of the table, one after the other; each has one entry that
says what it replaced and stored, or a call that owes it, and there is no other entry. -/
structure AuditExact (registry : TenantRegistry) (world : AuditWorld) : Prop where
  replays : world.writes.foldlM RegistryWrite.apply registry.rows = some world.registry.rows
  trail : (world.audits.map AuditEntry.described ++ world.calls.filterMap AdminCall.owed).Perm
    (world.writes.map RegistryWrite.described)

/-- What holds along a run. -/
structure AuditInvariant (registry : TenantRegistry) (world : AuditWorld) : Prop extends AuditExact registry world where
  targeted : ∀ call ∈ world.calls, Targeted world.registry.rows call

/-- Where the keys and references are kept, calls still have the row of their tenant. -/
theorem Targeted.mono {rows rows' : List TenantRegistryRecord} {call : AdminCall} (h : Targeted rows call)
    (hkept : ∀ identity ∈ identities rows, identity ∈ identities rows') : Targeted rows' call := fun before hbefore =>
  ⟨(h before hbefore).1, hkept _ (h before hbefore).2⟩

/-- **Each step of an exact trail leaves it exact.** -/
theorem AuditInvariant.step {registry : TenantRegistry} {world world' : AuditWorld} {action : AuditAction}
    (h : AuditInvariant registry world) (hsound : Sound world action) (hstep : auditStep world action = some world') :
    AuditInvariant registry world' := by
  cases effect_of_step hsound h.targeted hstep with
  | called call hphase =>
    refine ⟨⟨h.replays, ?_⟩, fun other hother => ?_⟩
    · have howed : call.owed = none := by rw [AdminCall.owed, hphase]
      rw [List.filterMap_append, List.filterMap_cons, howed, List.filterMap_nil, List.append_nil]
      exact h.trail
    · rcases List.mem_append.mp hother with hother | hother
      · exact h.targeted other hother
      · intro before hbefore
        rw [List.mem_singleton.mp hother, hphase] at hbefore
        cases hbefore
  | moved index call phase hcall howed hphase htargeted =>
    refine ⟨⟨h.replays, ?_⟩, fun other hother => ?_⟩
    · have hset := Gather.filterMap_set_perm AdminCall.owed hcall { call with phase }
      rw [howed, hphase] at hset
      simp only [Option.toList_none, List.append_nil] at hset
      exact (hset.append_left _).trans h.trail
    · rcases List.mem_or_eq_of_mem_set hother with hother | rfl
      · exact h.targeted other hother
      · exact htargeted
  | wrote index call registry' write hcall howed hidentities happly target detail hdescribed =>
    refine ⟨⟨?_, ?_⟩, fun other hother => ?_⟩
    · show (world.writes ++ [write]).foldlM RegistryWrite.apply registry.rows = some registry'.rows
      rw [List.foldlM_append, h.replays]
      show (List.foldlM RegistryWrite.apply world.registry.rows [write]) = _
      rw [List.foldlM_cons, happly]
      rfl
    · have hset := Gather.filterMap_set_perm AdminCall.owed hcall
        { call with phase := .written (call.scope.principalId, write.action, target, detail) }
      rw [howed] at hset
      simp only [Option.toList_none, List.append_nil] at hset
      show (world.audits.map AuditEntry.described ++ (world.calls.set index _).filterMap AdminCall.owed).Perm
        ((world.writes ++ [write]).map RegistryWrite.described)
      rw [List.map_append]
      refine (hset.append_left _).trans ?_
      rw [← List.append_assoc]
      refine h.trail.append ?_
      rw [List.map_singleton, ← hdescribed]
      exact List.Perm.refl _
    · rcases List.mem_or_eq_of_mem_set hother with hother | rfl
      · exact (h.targeted other hother).mono hidentities
      · intro before hbefore
        cases hbefore
  | audited index call entry hcall howed =>
    refine ⟨⟨h.replays, ?_⟩, fun other hother => ?_⟩
    · have hset := Gather.filterMap_set_perm AdminCall.owed hcall { call with phase := .returned }
      rw [howed] at hset
      show ((world.audits ++ [entry]).map AuditEntry.described
        ++ (world.calls.set index { call with phase := .returned }).filterMap AdminCall.owed).Perm
        (world.writes.map RegistryWrite.described)
      rw [List.map_append, List.append_assoc]
      refine (List.Perm.append_left _ ?_).trans h.trail
      rw [List.map_singleton]
      refine List.perm_append_comm.trans (hset.trans ?_)
      show (world.calls.filterMap AdminCall.owed ++ []).Perm _
      rw [List.append_nil]
    · rcases List.mem_or_eq_of_mem_set hother with hother | rfl
      · exact h.targeted other hother
      · intro before hbefore
        cases hbefore

/-- **The trail is exact along every run** in which each write finds the row that its call has read, and no call fails
between its write and its entry. -/
theorem audit_trail_exact (registry : TenantRegistry) {world : AuditWorld}
    (h : (auditMachine registry).Reach Sound world) : AuditExact registry world := by
  have hinvariant : AuditInvariant registry world := by
    refine h.invariant ⟨⟨rfl, List.Perm.refl _⟩, fun call hcall => absurd hcall List.not_mem_nil⟩ ?_
    intro s t a hs hsound hstep
    exact hs.step hsound hstep
  exact hinvariant.toAuditExact

/-- An administrator of all tenants. -/
def administrator : PlatformScope := ⟨"admin", .admin, []⟩

/-- **The trail of a call** that disables a tenant: one entry, and the tenant is disabled. -/
theorem audit_trail_exact_disabled :
    ∃ world, world.audits.map AuditEntry.described = [("admin", "tenant.disable", "t_a", .statusSet .active .disabled)]
      ∧ AuditExact twoTenants world := by
  have hactive : ∀ row ∈ twoTenants.rows, row.appKey = "key-a" → row.status = .active := by decide
  have hcalled := Machine.Reach.step (m := auditMachine twoTenants) (G := Sound) .init
    (a := .call administrator (.disable "t_a")) (by exact trivial) rfl
  have hread := hcalled.step (a := .read 0) (by exact trivial) rfl
  have hwritten := hread.step (a := .write 0 "" "" 5) (by
    intro call before hcall hphase row hrow hkey
    cases hcall
    cases hphase
    exact ⟨hactive row hrow hkey, fun _ _ _ hrequest => by cases hrequest⟩) rfl
  have haudited := hwritten.step (a := .audit 0 "1" 6) (by exact trivial) rfl
  exact ⟨_, rfl, audit_trail_exact twoTenants haudited⟩

/-- **An entry with a value that was not there**: two administrators rename a tenant, and both read it before either
writes. -/
theorem audit_trail_stale :
    ∃ world, (auditMachine twoTenants).Reach Machine.free world ∧ ¬AuditExact twoTenants world := by
  have hrun := Machine.reach_after (m := auditMachine twoTenants) (G := Machine.free)
    [.call administrator (.update "t_a" (some "B") none), .call administrator (.update "t_a" (some "C") none),
      .read 0, .read 1, .write 0 "" "" 1, .audit 0 "1" 1, .write 1 "" "" 2, .audit 1 "2" 2] (by decide +kernel)
  refine ⟨_, hrun, fun h => ?_⟩
  -- The second call replaced the name that the first one stored.
  have hmem := h.trail.mem_iff (a := ("admin", "tenant.update", "t_a", .updated ("B", .active) ("C", .active)))
  exact absurd (hmem.mpr (by decide +kernel)) (by decide +kernel)

end Statistics
