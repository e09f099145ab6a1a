import FactoryAgent.Lib.Dict
import FactoryAgent.Lib.LocalTime
import FactoryAgent.Lib.StableSort

/-!
# The service of exports

`ExportService` of `export_service.py`. An export is put into the store with its owner and its expiry, and into a read
cache in front of it; a fetch looks into the cache, and into the store where it misses.

The cache never shows. Whatever is in it and has not expired is what the store has under that id (`Coherent`), so the
service answers like one without a cache (`run_simulates`). Where no id comes twice, a fetch gives out just what its
owner exported and what has not expired since (`service_eq_store`).

The store is a parameter, with the contract of the port `ExportStore`; whether a write is accepted and whether a
removal takes effect is told with each operation, and so are the workbook that the renderer makes and the id.
-/

namespace Export

open LocalTime (Utc)

/-! ## The store -/

/-- `InteractionOwner` -/
structure Owner where
  tenantId : String
  userId : String
  deriving DecidableEq, Repr

/-- `_Entry` -/
structure Entry where
  tenantId : String
  userId : String
  filename : String
  contentType : String
  content : List UInt8
  expiresAt : Utc
  deriving DecidableEq, Repr

/-- `StoredArtifact` -/
structure StoredArtifact extends Entry where
  artifactId : String
  deriving DecidableEq, Repr

/-- **`ExportStore`**: it persists what it is given and returns what it finds. -/
structure ExportStore (σ : Type) where
  empty : σ
  put : σ → StoredArtifact → σ
  get : σ → String → Option StoredArtifact
  delete : σ → String → σ
  get_empty : ∀ id, get empty id = none
  get_put : ∀ stored artifact id,
    get (put stored artifact) id = if id = artifact.artifactId then some artifact else get stored id
  get_delete : ∀ stored key id, get (delete stored key) id = if id = key then none else get stored id

/-- A store that keeps the artifacts in memory. -/
def memoryStore : ExportStore (Dict String StoredArtifact) where
  empty := Dict.empty
  put stored artifact := stored.set artifact.artifactId artifact
  get stored id := stored.get? id
  delete stored id := stored.without [id]
  get_empty _ := rfl
  get_put stored _ _ := stored.get?_set _ _ _
  get_delete stored key id := stored.get?_without_singleton key id

/-! ## The service -/

/-- What the service is set up with. -/
structure Settings where
  /-- How long an export is kept, in microseconds. -/
  retention : Int
  maxEntries : Nat
  /-- `hashlib.sha256(content).hexdigest()` -/
  sha256 : List UInt8 → String

/-- An export that is asked for, with what the renderer, the ids and the backend make of it. -/
structure ExportRequest where
  owner : Owner
  artifactId : String
  filename : String
  /-- The bytes of the workbook; `none` is an exception of the renderer. -/
  rendered : Option (List UInt8)
  /-- Whether the backend accepts the write. -/
  written : Bool

/-- `ExportOutcome` -/
structure ExportOutcome where
  artifactId : String
  filename : String
  sizeBytes : Nat
  sha256 : String
  deriving DecidableEq, Repr

/-- `ExportContent` -/
structure ExportContent where
  artifactId : String
  filename : String
  contentType : String
  content : List UInt8
  deriving DecidableEq, Repr

/-- What an export raises. -/
inductive ExportFailure where
  /-- `ExportError` with `ErrorCatalog.UNAVAILABLE`. -/
  | unavailable (message : String)
  /-- `OverflowError` of the expiry. -/
  | overflow
  deriving DecidableEq, Repr

/-- `_XLSX_CONTENT_TYPE` -/
def xlsxContentType : String :=
  "application/vnd.openxmlformats-officedocument.spreadsheetml.sheet"

/-- The artifact that an export hands to the store. -/
def artifactOf (settings : Settings) (clock : Int) (request : ExportRequest) : Except ExportFailure StoredArtifact :=
  match request.rendered with
  | none => .error (.unavailable "renderer could not produce XLSX")
  | some [] => .error (.unavailable "renderer produced empty content")
  | some (byte :: bytes) =>
    match Utc.of? (clock + settings.retention) with
    | none => .error .overflow
    | some expiresAt => .ok
        { tenantId := request.owner.tenantId, userId := request.owner.userId, filename := request.filename,
          contentType := xlsxContentType, content := byte :: bytes, expiresAt, artifactId := request.artifactId }

/-- What an export returns. -/
def outcomeOf (settings : Settings) (artifact : StoredArtifact) : ExportOutcome :=
  ⟨artifact.artifactId, artifact.filename, artifact.content.length, settings.sha256 artifact.content⟩

/-- `_content_for` -/
def contentFor (owner : Owner) (artifactId : String) (entry : Entry) : Option ExportContent :=
  if entry.tenantId ≠ owner.tenantId ∨ entry.userId ≠ owner.userId then none
  else some ⟨artifactId, entry.filename, entry.contentType, entry.content⟩

/-- `_evict_expired` -/
def evictExpired (now : Int) (cache : Dict String Entry) : Dict String Entry :=
  cache.filter fun item => !decide (item.2.expiresAt.micros ≤ now)

/-- The entries beyond the cap are dropped, those that expire first. -/
def evictOldest (maxEntries : Nat) (cache : Dict String Entry) : Dict String Entry :=
  if maxEntries < cache.length then
    cache.without (((StableSort.sorted (fun item : String × Entry => item.2.expiresAt.micros) cache.items).take
      (cache.length - maxEntries)).map Prod.fst)
  else cache

/-- The service, the store behind it and the clock. -/
structure World (σ : Type) where
  clock : Int
  stored : σ
  cache : Dict String Entry

variable {σ : Type} (settings : Settings) (store : ExportStore σ)

/-- **`export`** -/
def World.export (world : World σ) (request : ExportRequest) : World σ × Except ExportFailure ExportOutcome :=
  match artifactOf settings world.clock request with
  | .error failure => (world, .error failure)
  | .ok artifact =>
    if request.written then
      ({ world with
          stored := store.put world.stored artifact
          cache := evictOldest settings.maxEntries
            (evictExpired world.clock (world.cache.set artifact.artifactId artifact.toEntry)) },
        .ok (outcomeOf settings artifact))
    else (world, .error (.unavailable "artifact store is not writable"))

/-- **`fetch`** -/
def World.fetch (world : World σ) (owner : Owner) (artifactId : String) (purged : Bool) :
    World σ × Option ExportContent :=
  let cache := evictExpired world.clock world.cache
  match cache.get? artifactId with
  | some cached => ({ world with cache }, contentFor owner artifactId cached)
  | none =>
    match store.get world.stored artifactId with
    | none => ({ world with cache }, none)
    | some stored =>
      if stored.expiresAt.micros ≤ world.clock then
        -- a removal that fails is only logged
        ({ world with stored := if purged then store.delete world.stored artifactId else world.stored, cache }, none)
      else
        ({ world with cache := cache.set artifactId stored.toEntry }, contentFor owner artifactId stored.toEntry)

/-- What happens to a service. -/
inductive Operation where
  | export (request : ExportRequest)
  /-- A fetch; `purged` tells whether a removal that it asks for takes effect. -/
  | fetch (owner : Owner) (artifactId : String) (purged : Bool)
  /-- Time passes. -/
  | advance (micros : Nat)
  /-- The process ends, and another one starts over the same store. -/
  | restart
  /-- An entry is dropped from the cache. -/
  | evict (artifactId : String)

/-- What an operation returns. -/
inductive Response where
  | exported (outcome : Except ExportFailure ExportOutcome)
  | fetched (content : Option ExportContent)
  | silent

/-- One operation. -/
def World.step (world : World σ) : Operation → World σ × Response
  | .export request =>
    let (next, outcome) := world.export settings store request
    (next, .exported outcome)
  | .fetch owner artifactId purged =>
    let (next, content) := world.fetch store owner artifactId purged
    (next, .fetched content)
  | .advance micros => ({ world with clock := world.clock + micros }, .silent)
  | .restart => ({ world with cache := Dict.empty }, .silent)
  | .evict artifactId => ({ world with cache := world.cache.without [artifactId] }, .silent)

/-- A service that starts over an empty store. -/
def World.start (clock : Int) : World σ :=
  ⟨clock, store.empty, Dict.empty⟩

/-- **Operations one after the other**, with what each returns. -/
def World.run (world : World σ) : List Operation → World σ × List Response
  | [] => (world, [])
  | operation :: operations =>
    let (next, response) := world.step settings store operation
    let (last, responses) := next.run operations
    (last, response :: responses)

/-! ## Without a cache -/

/-- A service without a cache: the store behind it and the clock. -/
structure Direct (σ : Type) where
  clock : Int
  stored : σ

/-- An export into the store. -/
def Direct.export (direct : Direct σ) (request : ExportRequest) : Direct σ × Except ExportFailure ExportOutcome :=
  match artifactOf settings direct.clock request with
  | .error failure => (direct, .error failure)
  | .ok artifact =>
    if request.written then
      ({ direct with stored := store.put direct.stored artifact }, .ok (outcomeOf settings artifact))
    else (direct, .error (.unavailable "artifact store is not writable"))

/-- A fetch from the store. -/
def Direct.fetch (direct : Direct σ) (owner : Owner) (artifactId : String) (purged : Bool) :
    Direct σ × Option ExportContent :=
  match store.get direct.stored artifactId with
  | none => (direct, none)
  | some stored =>
    if stored.expiresAt.micros ≤ direct.clock then
      ({ direct with stored := if purged then store.delete direct.stored artifactId else direct.stored }, none)
    else (direct, contentFor owner artifactId stored.toEntry)

/-- One operation without a cache. -/
def Direct.step (direct : Direct σ) : Operation → Direct σ × Response
  | .export request =>
    let (next, outcome) := direct.export settings store request
    (next, .exported outcome)
  | .fetch owner artifactId purged =>
    let (next, content) := direct.fetch store owner artifactId purged
    (next, .fetched content)
  | .advance micros => ({ direct with clock := direct.clock + micros }, .silent)
  | .restart => (direct, .silent)
  | .evict _ => (direct, .silent)

/-- Operations one after the other, without a cache. -/
def Direct.run (direct : Direct σ) : List Operation → Direct σ × List Response
  | [] => (direct, [])
  | operation :: operations =>
    let (next, response) := direct.step settings store operation
    let (last, responses) := next.run operations
    (last, response :: responses)

/-- A service, its cache forgotten. -/
def World.direct (world : World σ) : Direct σ :=
  ⟨world.clock, world.stored⟩

/-! ## The cache does not show -/

variable {settings store}

/-- **The cache agrees with the store**: what has not expired is what the store has, under its own id. -/
structure Coherent (store : ExportStore σ) (world : World σ) : Prop where
  keyed : ∀ id artifact, store.get world.stored id = some artifact → artifact.artifactId = id
  cached : ∀ id entry, world.cache.get? id = some entry → world.clock < entry.expiresAt.micros →
    store.get world.stored id = some ⟨entry, id⟩

/-- What is left after expiry is what was there and has not expired. -/
theorem get?_evictExpired {now : Int} {cache : Dict String Entry} {id : String} {entry : Entry} :
    (evictExpired now cache).get? id = some entry ↔ cache.get? id = some entry ∧ now < entry.expiresAt.micros := by
  rw [evictExpired, Dict.get?_filter, Bool.not_eq_true', decide_eq_false_iff_not, Int.not_le]

/-- What is left below the cap was there. -/
theorem get?_of_evictOldest {maxEntries : Nat} {cache : Dict String Entry} {id : String} {entry : Entry}
    (h : (evictOldest maxEntries cache).get? id = some entry) : cache.get? id = some entry := by
  rw [evictOldest] at h
  split_ifs at h
  · exact (Dict.get?_filter.mp h).1
  · exact h

theorem coherent_start (store : ExportStore σ) (clock : Int) : Coherent store (World.start store clock) := by
  refine ⟨fun id artifact h => ?_, fun id entry h => ?_⟩
  · rw [World.start, store.get_empty id] at h
    cases h
  · rw [World.start, Dict.get?_empty] at h
    cases h

/-- **An export keeps the agreement**, and does to the store what one without a cache does. -/
theorem export_simulates (settings : Settings) {world : World σ} (h : Coherent store world) (request : ExportRequest) :
    Coherent store (world.export settings store request).1
      ∧ (world.export settings store request).1.direct = (world.direct.export settings store request).1
      ∧ (world.export settings store request).2 = (world.direct.export settings store request).2 := by
  unfold World.export Direct.export World.direct
  dsimp only
  cases artifactOf settings world.clock request with
  | error failure => exact ⟨h, rfl, rfl⟩
  | ok artifact =>
    dsimp only
    split_ifs with hwritten
    · refine ⟨⟨fun id found hget => ?_, fun id entry hget hlive => ?_⟩, rfl, rfl⟩
      · change store.get (store.put world.stored artifact) id = some found at hget
        rw [store.get_put] at hget
        split_ifs at hget with hid
        · cases hget
          exact hid.symm
        · exact h.keyed id found hget
      · have hset := (get?_evictExpired.mp (get?_of_evictOldest hget)).1
        rw [Dict.get?_set] at hset
        change store.get (store.put world.stored artifact) id = some ⟨entry, id⟩
        rw [store.get_put]
        split_ifs at hset ⊢ with hid
        · cases hset
          rw [hid]
        · exact h.cached id entry hset hlive
    · exact ⟨h, rfl, rfl⟩

/-- Expiry keeps the agreement. -/
theorem Coherent.evictExpired {world : World σ} (h : Coherent store world) :
    Coherent store { world with cache := evictExpired world.clock world.cache } :=
  ⟨h.keyed, fun id entry hget => h.cached id entry (get?_evictExpired.mp hget).1⟩

/-- **A fetch keeps the agreement**, and finds what one without a cache finds. -/
theorem fetch_simulates {world : World σ} (h : Coherent store world) (owner : Owner) (id : String) (purged : Bool) :
    Coherent store (world.fetch store owner id purged).1
      ∧ (world.fetch store owner id purged).1.direct = (world.direct.fetch store owner id purged).1
      ∧ (world.fetch store owner id purged).2 = (world.direct.fetch store owner id purged).2 := by
  unfold World.fetch Direct.fetch World.direct
  dsimp only
  cases hcached : (Export.evictExpired world.clock world.cache).get? id with
  | some cached =>
    -- what is cached and has not expired is in the store
    obtain ⟨hget, hlive⟩ := get?_evictExpired.mp hcached
    rw [h.cached id cached hget hlive]
    dsimp only
    rw [if_neg (Int.not_le.mpr hlive)]
    exact ⟨h.evictExpired, rfl, rfl⟩
  | none =>
    cases hstored : store.get world.stored id with
    | none => exact ⟨h.evictExpired, rfl, rfl⟩
    | some stored =>
      dsimp only
      split_ifs with hexpired hpurged
      · refine ⟨⟨fun other artifact hget => ?_, fun other entry hget hlive => ?_⟩, rfl, rfl⟩
        · change store.get (store.delete world.stored id) other = some artifact at hget
          rw [store.get_delete] at hget
          split_ifs at hget
          exact h.keyed other artifact hget
        · change store.get (store.delete world.stored id) other = some ⟨entry, other⟩
          rw [store.get_delete]
          split_ifs with hid
          · -- what was removed had expired, so it is not cached
            have hother := h.evictExpired.cached other entry hget hlive
            rw [hid, hstored] at hother
            cases hother
            exact absurd hlive (Int.not_lt.mpr hexpired)
          · exact h.evictExpired.cached other entry hget hlive
      · exact ⟨h.evictExpired, rfl, rfl⟩
      · refine ⟨⟨h.keyed, fun other entry hget hlive => ?_⟩, rfl, rfl⟩
        change ((Export.evictExpired world.clock world.cache).set id stored.toEntry).get? other = some entry at hget
        rw [Dict.get?_set] at hget
        split_ifs at hget with hid
        · cases hget
          rw [hid, hstored, ← h.keyed id stored hstored]
        · exact h.evictExpired.cached other entry hget hlive

/-- **Every operation keeps the agreement**, and returns what it returns without a cache. -/
theorem step_simulates (settings : Settings) {world : World σ} (h : Coherent store world) (operation : Operation) :
    Coherent store (world.step settings store operation).1
      ∧ (world.step settings store operation).1.direct = (world.direct.step settings store operation).1
      ∧ (world.step settings store operation).2 = (world.direct.step settings store operation).2 := by
  cases operation with
  | «export» request =>
    obtain ⟨hcoherent, hdirect, houtcome⟩ := export_simulates settings h request
    exact ⟨hcoherent, hdirect, congrArg Response.exported houtcome⟩
  | fetch owner id purged =>
    obtain ⟨hcoherent, hdirect, hcontent⟩ := fetch_simulates h owner id purged
    exact ⟨hcoherent, hdirect, congrArg Response.fetched hcontent⟩
  | advance micros =>
    refine ⟨⟨h.keyed, fun id entry hget hlive => h.cached id entry hget ?_⟩, rfl, rfl⟩
    change world.clock + (micros : Int) < entry.expiresAt.micros at hlive
    omega
  | restart => exact ⟨⟨h.keyed, fun id entry hget => by cases hget⟩, rfl, rfl⟩
  | evict id => exact ⟨⟨h.keyed, fun other entry hget => h.cached other entry (Dict.get?_filter.mp hget).1⟩, rfl, rfl⟩

/-- **The service answers like one without a cache**, along every run. -/
theorem run_simulates (settings : Settings) {world : World σ} (h : Coherent store world) (operations : List Operation) :
    Coherent store (world.run settings store operations).1
      ∧ (world.run settings store operations).1.direct = (world.direct.run settings store operations).1
      ∧ (world.run settings store operations).2 = (world.direct.run settings store operations).2 := by
  induction operations generalizing world with
  | nil => exact ⟨h, rfl, rfl⟩
  | cons operation operations ih =>
    obtain ⟨hcoherent, hdirect, hresponse⟩ := step_simulates settings h operation
    obtain ⟨hlast, hrun, hresponses⟩ := ih hcoherent
    rw [hdirect] at hrun hresponses
    exact ⟨hlast, hrun, congrArg₂ List.cons hresponse hresponses⟩

/-! ## What was exported -/

/-- The id of an export that is asked for. -/
def Operation.exportId? : Operation → Option String
  | .export request => some request.artifactId
  | _ => none

/-- No two exports have one id. -/
def FreshIds (operations : List Operation) : Prop :=
  (operations.filterMap Operation.exportId?).Nodup

instance : DecidablePred FreshIds := fun _ => inferInstanceAs (Decidable (List.Nodup _))

variable (settings)

/-- What an operation exports at a time. -/
def exportOf (clock : Int) : Operation → List StoredArtifact
  | .export request =>
    match artifactOf settings clock request with
    | .error _ => []
    | .ok artifact => if request.written then [artifact] else []
  | _ => []

/-- **What operations export**, from a time on. -/
def exportsOf (clock : Int) : List Operation → List StoredArtifact
  | [] => []
  | operation :: operations =>
    exportOf settings clock operation
      ++ exportsOf (match operation with | .advance micros => clock + micros | _ => clock) operations

variable {settings}

/-- What an export exports has its id. -/
theorem exportId?_of_mem_exportOf {clock : Int} {operation : Operation} {artifact : StoredArtifact}
    (h : artifact ∈ exportOf settings clock operation) : operation.exportId? = some artifact.artifactId := by
  cases operation with
  | «export» request =>
    rw [exportOf, artifactOf] at h
    revert h
    cases request.rendered with
    | none => exact fun h => by cases h
    | some content =>
      cases content with
      | nil => exact fun h => by cases h
      | cons byte bytes =>
        dsimp only
        cases Utc.of? (clock + settings.retention) with
        | none => exact fun h => by cases h
        | some expiresAt =>
          intro h
          dsimp only at h
          split_ifs at h
          · rw [List.mem_singleton.mp h]
            rfl
          · cases h
  | fetch owner id purged => cases h
  | advance micros => cases h
  | restart => cases h
  | evict id => cases h

/-- **A store holds a log**: what it has is in the log, and what has not expired of the log is in it. -/
structure Holds (store : ExportStore σ) (log : List StoredArtifact) (direct : Direct σ) : Prop where
  keyed : ∀ id artifact, store.get direct.stored id = some artifact → artifact.artifactId = id
  logged : ∀ id artifact, store.get direct.stored id = some artifact → artifact ∈ log
  kept : ∀ artifact ∈ log, direct.clock < artifact.expiresAt.micros →
    store.get direct.stored artifact.artifactId = some artifact

/-- **An operation adds what it exports to the log** where its id is new. -/
theorem Holds.step (settings : Settings) {log : List StoredArtifact} {direct : Direct σ} (h : Holds store log direct)
    {operation : Operation}
    (hnew : ∀ id, operation.exportId? = some id → ∀ artifact ∈ log, artifact.artifactId ≠ id) :
    Holds store (log ++ exportOf settings direct.clock operation) (direct.step settings store operation).1 := by
  cases operation with
  | «export» request =>
    rw [Direct.step, Direct.export, exportOf]
    cases hartifact : artifactOf settings direct.clock request with
    | error failure => exact (List.append_nil log).symm ▸ h
    | ok artifact =>
      dsimp only
      split_ifs with hwritten
      · have hid : request.artifactId = artifact.artifactId := by
          have hmem : artifact ∈ exportOf settings direct.clock (.export request) := by
            rw [exportOf, hartifact]
            dsimp only
            rw [if_pos hwritten]
            exact List.mem_singleton_self artifact
          exact Option.some.inj (exportId?_of_mem_exportOf hmem)
        refine ⟨fun id found hget => ?_, fun id found hget => ?_, fun found hfound hlive => ?_⟩
        · rw [store.get_put] at hget
          split_ifs at hget with heq
          · cases hget
            exact heq.symm
          · exact h.keyed id found hget
        · rw [store.get_put] at hget
          split_ifs at hget with heq
          · cases hget
            exact List.mem_append_right _ (List.mem_singleton_self _)
          · exact List.mem_append_left _ (h.logged id found hget)
        · rw [store.get_put]
          rcases List.mem_append.mp hfound with hold | hnow
          · rw [if_neg fun heq => hnew _ rfl found hold (heq.trans hid.symm)]
            exact h.kept found hold hlive
          · rw [List.mem_singleton.mp hnow, if_pos rfl]
      · exact (List.append_nil log).symm ▸ h
  | fetch owner id purged =>
    have hnone : exportOf settings direct.clock (.fetch owner id purged) = [] := rfl
    rw [hnone, List.append_nil, Direct.step, Direct.fetch]
    cases hstored : store.get direct.stored id with
    | none => exact h
    | some stored =>
      dsimp only
      split_ifs with hexpired hpurged
      · refine ⟨fun other found hget => ?_, fun other found hget => ?_, fun found hfound hlive => ?_⟩
        · rw [store.get_delete] at hget
          split_ifs at hget
          exact h.keyed other found hget
        · rw [store.get_delete] at hget
          split_ifs at hget
          exact h.logged other found hget
        · have hkept := h.kept found hfound hlive
          rw [store.get_delete, if_neg]
          · exact hkept
          · -- what was removed had expired
            intro heq
            rw [heq, hstored] at hkept
            cases hkept
            exact absurd hlive (Int.not_lt.mpr hexpired)
      · exact h
      · exact h
  | advance micros =>
    have hnone : exportOf settings direct.clock (.advance micros) = [] := rfl
    rw [hnone, List.append_nil]
    refine ⟨h.keyed, h.logged, fun artifact hmem hlive => h.kept artifact hmem ?_⟩
    change direct.clock + (micros : Int) < artifact.expiresAt.micros at hlive
    omega
  | restart => exact (List.append_nil log).symm ▸ h
  | evict id => exact (List.append_nil log).symm ▸ h

/-- The clock moves with time only. -/
theorem clock_step (direct : Direct σ) (operation : Operation) :
    (direct.step settings store operation).1.clock
      = match operation with | .advance micros => direct.clock + micros | _ => direct.clock := by
  cases operation with
  | «export» request =>
    rw [Direct.step, Direct.export]
    cases artifactOf settings direct.clock request with
    | error failure => rfl
    | ok artifact =>
      dsimp only
      split_ifs <;> rfl
  | fetch owner id purged =>
    rw [Direct.step, Direct.fetch]
    cases store.get direct.stored id with
    | none => rfl
    | some stored =>
      dsimp only
      split_ifs <;> rfl
  | advance micros => rfl
  | restart => rfl
  | evict id => rfl

/-- **Operations add what they export to the log** where no id comes twice. -/
theorem Holds.run (settings : Settings) {log : List StoredArtifact} {direct : Direct σ} (h : Holds store log direct)
    {operations : List Operation} (hfresh : FreshIds operations)
    (hnew : ∀ id ∈ operations.filterMap Operation.exportId?, ∀ artifact ∈ log, artifact.artifactId ≠ id) :
    Holds store (log ++ exportsOf settings direct.clock operations) (direct.run settings store operations).1 := by
  induction operations generalizing log direct with
  | nil => exact (List.append_nil log).symm ▸ h
  | cons operation operations ih =>
    have hstep := h.step settings fun id hid artifact hartifact =>
      hnew id (List.mem_filterMap.mpr ⟨operation, List.mem_cons_self, hid⟩) artifact hartifact
    have hrest : FreshIds operations := hfresh.sublist ((List.sublist_cons_self _ _).filterMap _)
    have hlast := ih hstep hrest fun id hid artifact hartifact => by
      rcases List.mem_append.mp hartifact with hold | hnow
      · obtain ⟨later, hlater, hlaterId⟩ := List.mem_filterMap.mp hid
        exact hnew id (List.mem_filterMap.mpr ⟨later, List.mem_cons_of_mem _ hlater, hlaterId⟩) artifact hold
      · -- the id of this export does not come again
        have hthis := exportId?_of_mem_exportOf hnow
        rw [FreshIds, List.filterMap_cons_some hthis, List.nodup_cons] at hfresh
        rintro rfl
        exact hfresh.1 hid
    rw [clock_step, List.append_assoc] at hlast
    exact hlast

/-! ## What is fetched -/

/-- The owner that an artifact is bound to. -/
def StoredArtifact.owner (artifact : StoredArtifact) : Owner :=
  ⟨artifact.tenantId, artifact.userId⟩

/-- What a fetch gives out of an artifact. -/
def StoredArtifact.given (artifact : StoredArtifact) : ExportContent :=
  ⟨artifact.artifactId, artifact.filename, artifact.contentType, artifact.content⟩

/-- The content of an artifact is for its owner. -/
theorem contentFor_eq_some {owner : Owner} {artifact : StoredArtifact} {content : ExportContent} :
    contentFor owner artifact.artifactId artifact.toEntry = some content ↔
      artifact.owner = owner ∧ content = artifact.given := by
  obtain ⟨tenantId, userId⟩ := owner
  rw [contentFor, StoredArtifact.owner, Owner.mk.injEq, StoredArtifact.given]
  split_ifs with h
  · constructor
    · intro hnone
      cases hnone
    · rintro ⟨⟨htenant, huser⟩, -⟩
      exact absurd h (not_or.mpr ⟨not_not.mpr htenant, not_not.mpr huser⟩)
  · rw [not_or, not_not, not_not] at h
    constructor
    · intro hsome
      cases hsome
      exact ⟨h, rfl⟩
    · rintro ⟨-, rfl⟩
      rfl

/-- **A fetch from a store that holds a log** finds what its owner has in it and has not expired. -/
theorem Holds.fetch_eq_some {log : List StoredArtifact} {direct : Direct σ} (h : Holds store log direct) {owner : Owner}
    {id : String} {purged : Bool} {content : ExportContent} :
    (direct.fetch store owner id purged).2 = some content ↔
      ∃ artifact ∈ log, artifact.artifactId = id ∧ artifact.owner = owner
        ∧ direct.clock < artifact.expiresAt.micros ∧ content = artifact.given := by
  constructor
  · intro hsome
    rw [Direct.fetch] at hsome
    cases hstored : store.get direct.stored id with
    | none =>
      rw [hstored] at hsome
      cases hsome
    | some stored =>
      rw [hstored] at hsome
      dsimp only at hsome
      split_ifs at hsome with hexpired
      have hid := h.keyed id stored hstored
      subst hid
      obtain ⟨howner, hcontent⟩ := contentFor_eq_some.mp hsome
      exact ⟨stored, h.logged _ stored hstored, rfl, howner, Int.not_le.mp hexpired, hcontent⟩
  · rintro ⟨artifact, hmem, rfl, howner, hlive, hcontent⟩
    rw [Direct.fetch, h.kept artifact hmem hlive]
    dsimp only
    rw [if_neg (Int.not_le.mpr hlive)]
    exact contentFor_eq_some.mpr ⟨howner, hcontent⟩

theorem holds_start (store : ExportStore σ) (clock : Int) : Holds store [] (World.start store clock).direct := by
  refine ⟨fun id artifact h => ?_, fun id artifact h => ?_, fun artifact h => by cases h⟩
  all_goals
    rw [World.direct, World.start, store.get_empty id] at h
    cases h

variable (settings store)

/-- **The service is one without a cache.** Along every run it returns what the store alone gives, and where no id comes
twice, a fetch after any run gives out just what its owner exported under the id and what has not expired. -/
theorem service_eq_store (clock : Int) (operations : List Operation) (hfresh : FreshIds operations) :
    ((World.start store clock).run settings store operations).2
        = ((World.start store clock).direct.run settings store operations).2
      ∧ ∀ owner id purged content,
        (((World.start store clock).run settings store operations).1.fetch store owner id purged).2 = some content ↔
          ∃ artifact ∈ exportsOf settings clock operations, artifact.artifactId = id ∧ artifact.owner = owner
            ∧ ((World.start store clock).run settings store operations).1.clock < artifact.expiresAt.micros
            ∧ content = artifact.given := by
  obtain ⟨hcoherent, hdirect, hresponses⟩ := run_simulates settings
    (coherent_start store clock) operations
  refine ⟨hresponses, fun owner id purged content => ?_⟩
  have hholds := (holds_start store clock).run settings hfresh
    fun id _ artifact h => by cases h
  rw [List.nil_append, ← hdirect] at hholds
  rw [(fetch_simulates hcoherent owner id purged).2.2]
  exact hholds.fetch_eq_some

/-- The export of a workbook of one byte. -/
def smallExport (userId artifactId : String) : ExportRequest :=
  ⟨⟨"t1", userId⟩, artifactId, "report.xlsx", some [80], true⟩

/-- A service that keeps an export for a minute and one entry in its cache. -/
def smallSettings : Settings :=
  ⟨60000000, 1, fun _ => ""⟩

/-- Two exports, of which the cache keeps one, a restart, and half of the time that they are kept. -/
def halfLife : List Operation :=
  [.export (smallExport "u1" "a1"), .export (smallExport "u2" "a2"), .restart, .advance 30000000]

/-- The first of them is fetched after the restart. -/
theorem fetched_at_half_life :
    (((World.start memoryStore 0).run smallSettings memoryStore halfLife).1.fetch memoryStore ⟨"t1", "u1"⟩ "a1" true).2
      = some ⟨"a1", "report.xlsx", xlsxContentType, [80]⟩ :=
  ((service_eq_store smallSettings memoryStore 0 halfLife (by decide)).2 _ _ _ _).mpr
    ⟨⟨⟨"t1", "u1", "report.xlsx", xlsxContentType, [80], ⟨60000000, by decide⟩⟩, "a1"⟩, by decide, rfl, rfl, by decide,
      rfl⟩

end Export
