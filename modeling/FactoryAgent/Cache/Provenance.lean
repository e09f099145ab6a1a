import FactoryAgent.Cache.Serving

/-!
# Where answers come from

What an answer of `ResultCacheExecutor` should be (`Honest`), and the invariant that gives it: the store has what was
published and nothing else (`Stored`), and what is known of a call at each of its stages (`Sound`). Both only speak of
what was published so far, so that what is known of one call stays known when the others go on (`Sound.mono`). What the
store has for a call is what was published for its tenant and parameters (`Stored.sourced`): a snapshot carries its
operation, its window and its parameters and is checked against them, and the tenant is in the key.
-/

namespace Serving

variable {Key Lock : Type}

/-! ## What an answer should be -/

section Spec

variable (config : Config Key Lock)

namespace Publication

variable {config} (publication : Publication config.cache.policy)

/-- The key that it was written under. -/
def key : Key :=
  config.cache.buildKey publication.tenant (keyParams publication.operation publication.params publication.window)

/-- The value that was written. -/
def value? : Option ResultSet :=
  writeResultSet config.cache.context config.cache.close publication.operation publication.rows publication.footer
    publication.params publication.window publication.generatedAt publication.source

/-- The second it expires in. -/
def expiresAt : Nat :=
  publication.writtenAt + config.cache.ttlSeconds publication.today publication.window

/-- **What is written here is whole**: all that an owner fetched, or all that a caller fetched who is an owner and asked
for everything. -/
def Whole : Prop :=
  match publication.origin with
  | .owner fetched => config.mode.writes = true ∧ fetched.complete = true ∧ publication.rows = fetched.rows
    ∧ publication.footer = fetched.footer
  | .caller request fetched => config.mode.writes = true ∧ request.role = some .owner ∧ Unnarrowed request.filters
    ∧ groupbyFields request.params = .ok []
    ∧ publication.tenant = request.filters.tenantId ∧ publication.params = request.params ∧ fetched.complete = true
    ∧ publication.rows = Request.datedRows publication.operation publication.params publication.window fetched.rows
  | .elsewhere => True

end Publication

/-- **Where a hit comes from**: it is what was published for the same tenant and parameters, over a window that covers
the question, and has not expired when it is read; or what an owner fetched for this very call. -/
inductive Sourced (world : World config) (call : Call) (operation : Operation) (window : String × String)
    (hit : CacheHit operation) : Prop
  | stored (publication : Publication config.cache.policy) (detail : List Row)
      (mem : publication ∈ world.published) (tenant : publication.tenant = call.tenant)
      (operation_eq : publication.operation = operation)
      (params : keyParams operation publication.params publication.window
        = keyParams operation call.request.params publication.window)
      (covers : Covers publication.window window)
      (fresh : publication.writtenAt ≤ call.readAt ∧ call.readAt < publication.expiresAt)
      (derived : detailRows publication.rows operation = .ok detail)
      (rows : hit.rows = detail.map (Row.restored (columnsOf detail)))
      (footer : hit.footer.getD ∅ = publication.footer.getD ∅)
      (named : hit.generatedAt = publication.generatedAt ∧ hit.source = publication.source
        ∧ hit.window = publication.window)
      (free : hit.sourceCallCount = 0)
  | fetched (snapshot : Fetched) (mem : call.snapshot = some snapshot) (complete : snapshot.complete = true)
      (rows : detailRows snapshot.rows operation = .ok hit.rows) (footer : hit.footer = snapshot.footer)
      (window_eq : hit.window = window) (charged : hit.sourceCallCount = snapshot.callCount)

/-- **A result that was served**: the view that the caller has of such a hit, with all that the caller needs. -/
def Served (world : World config) (call : Call) (result : ResourceFetchResult) : Prop :=
  ∃ operation window, ∃ hit : CacheHit operation, cacheableGrain call.request.operationId = some operation
    ∧ call.request.window? config.zone = some window ∧ Sourced config world call operation window hit
    ∧ hit.serve config.cache.context (call.view window) = .ok result
    ∧ call.request.validates result = some true

/-- **An answer that comes from the cache was served**, and in shadow mode the MES was asked as well. -/
def Answer.Sourced (world : World config) (call : Call) : Answer → Prop
  | .served result none => config.mode.reads = true ∧ config.mode.verifies = false ∧ Served config world call result
  | .served result (some shadow) => config.mode.verifies = true ∧ ∃ served, Served config world call served
    ∧ result = { served with sourceCallCount := served.sourceCallCount + shadow.callCount }
  | .realtime _ => True

/-- **An honest answer**: it says how often the MES was asked; what comes from the cache was served; and a caller who
groups nothing is shown only what it may see, of an operation that is cached. -/
structure Honest (world : World config) (call : Call) (answer : Answer) : Prop where
  counted : answer.callCount = call.made
  sourced : answer.Sourced config world call
  shown : call.request.Cached → ∀ rows ∈ answer.tables, call.request.Shown rows

/-! ## The invariant -/

/-- **The store has what was published**, and only whole fetches were. -/
structure Stored (world : World config) : Prop where
  entries : ∀ key entry, world.store key = some entry → ∃ publication ∈ world.published,
    publication.key = key ∧ publication.value? = some entry.value ∧ entry.expiresAt = publication.expiresAt
  past : ∀ publication ∈ world.published, publication.writtenAt ≤ world.now
  whole : ∀ publication ∈ world.published, publication.Whole

/-- **A fetch is the first one**, or groups were not enough. -/
def Fetching.Due (request : Request) (operation : Operation) (fetching : Fetching) : Prop :=
  fetching = request.firstFetch operation
    ∨ ∃ groups, request.lacksDetail groups = true ∧ fetching = request.detailFetch operation groups

/-- **What is known of a call** that asks the cache. -/
def Phase.Sound (world : World config) (call : Call) (operation : Operation) (window : String × String) :
    Phase → Prop
  | .probing _ left => call.made = 0 ∧ ∀ candidate ∈ left, Covers candidate window
  | .waiting => call.made = 0
  | .snapshotting => call.made = 0
  | .publishing fetched _ => call.made = fetched.callCount ∧ call.snapshot = some fetched ∧ fetched.complete = true
    ∧ config.mode.writes = true
  | .evicting _ spent => call.made = spent
  | .verifying served _ fetching => config.mode.verifies = true ∧ Served config world call served
    ∧ call.made = served.sourceCallCount + fetching.spent.getD 0 ∧ fetching.Due call.request operation
  | .falling spent fetching => call.made = spent + fetching.spent.getD 0
    ∧ fetching.Due call.request operation
  | .storing spent result _ => call.made = spent + result.callCount
    ∧ call.request.writeReason config.mode result = none ∧ ∃ fetched, call.last = some fetched
    ∧ fetched.complete = true
    ∧ result.rows = Request.datedRows operation call.request.params window fetched.rows
    ∧ call.request.Shown result.rows

/-- **A call that asks the cache**, about an operation that is cached and a window. -/
structure Asks (call : Call) (operation : Operation) (window : String × String) : Prop where
  reads : config.mode.reads = true
  grain : cacheableGrain call.request.operationId = some operation
  window : call.request.window? config.zone = some window

/-- **What is known of a call.** -/
def Sound (world : World config) (call : Call) : Prop :=
  match call.stage with
  | .arrived => call.made = 0
  | .direct => call.made = 0 ∧ ¬call.request.Cached
  | .live operation fetching => call.made = fetching.spent.getD 0 ∧ fetching.Due call.request operation
  | .asking operation window phase => Asks config call operation window
    ∧ phase.Sound config world call operation window
  | .ended answer => Honest config world call answer
  | .raised => True
  | .abandoned => True

/-- **A later world**: more was published. -/
def Grows (world world' : World config) : Prop :=
  ∀ publication ∈ world.published, publication ∈ world'.published

end Spec

variable {config : Config Key Lock} {world world' : World config} {call call' : Call} {operation : Operation}
  {window : String × String}

theorem Sourced.mono {hit : CacheHit operation} (h : Sourced config world call operation window hit)
    (hgrows : Grows config world world') : Sourced config world' call operation window hit := by
  cases h with
  | stored publication detail mem tenant operation_eq params covers fresh derived rows footer named free =>
    exact .stored publication detail (hgrows _ mem) tenant operation_eq params covers fresh derived rows footer named
      free
  | fetched snapshot mem complete rows footer window_eq charged =>
    exact .fetched snapshot mem complete rows footer window_eq charged

theorem Served.mono {result : ResourceFetchResult} (h : Served config world call result)
    (hgrows : Grows config world world') : Served config world' call result := by
  obtain ⟨operation, window, hit, hgrain, hwindow, hsourced, hserve⟩ := h
  exact ⟨operation, window, hit, hgrain, hwindow, hsourced.mono hgrows, hserve⟩

/-- What was served does not depend on where the call is. -/
theorem Served.congr {result : ResourceFetchResult} (h : Served config world call result)
    (hrequest : call'.request = call.request) (hsnapshot : call'.snapshot = call.snapshot)
    (hreadAt : call'.readAt = call.readAt) : Served config world call' result := by
  obtain ⟨operation, window, hit, hgrain, hwindow, hsourced, hserve, hvalid⟩ := h
  unfold Served Call.view
  rw [hrequest]
  refine ⟨operation, window, hit, hgrain, hwindow, ?_, hserve, hvalid⟩
  cases hsourced with
  | stored publication detail mem tenant operation_eq params covers fresh derived rows footer named free =>
    refine .stored publication detail mem ?_ operation_eq ?_ covers ?_ derived rows footer named free
    · rw [Call.tenant, hrequest]
      exact tenant
    · rw [hrequest]
      exact params
    · rw [hreadAt]
      exact fresh
  | fetched snapshot mem complete rows footer window_eq charged =>
    exact .fetched snapshot (hsnapshot.trans mem) complete rows footer window_eq charged

theorem Honest.mono {answer : Answer} (h : Honest config world call answer) (hgrows : Grows config world world') :
    Honest config world' call answer := by
  refine ⟨h.counted, ?_, h.shown⟩
  have hsourced := h.sourced
  unfold Answer.Sourced at hsourced ⊢
  split at hsourced
  · exact ⟨hsourced.1, hsourced.2.1, hsourced.2.2.mono hgrows⟩
  · obtain ⟨hverifies, served, hserved, hresult⟩ := hsourced
    exact ⟨hverifies, served, hserved.mono hgrows, hresult⟩
  · trivial

/-- **What is served shows its caller nothing else.** -/
theorem Served.shown {result : ResourceFetchResult} (h : Served config world call result) :
    call.request.Shown result.rows := by
  obtain ⟨operation, window, hit, -, -, -, hserve, -⟩ := h
  obtain ⟨rows, hrows, hresult⟩ := Except.bind_eq_ok.mp hserve
  have hsame : result.rows = rows := by rw [← Except.ok.inj hresult]
  rw [hsame]
  exact Request.shown_of_projectRows hrows

/-- **What is known of a call stays known.** -/
theorem Sound.mono (h : Sound config world call) (hgrows : Grows config world world') :
    Sound config world' call := by
  unfold Sound at h ⊢
  cases hstage : call.stage with
  | ended answer =>
    rw [hstage] at h
    exact Honest.mono h hgrows
  | asking operation window phase =>
    rw [hstage] at h
    refine ⟨h.1, ?_⟩
    cases phase with
    | verifying served hitWindow fetching => exact ⟨h.2.1, h.2.2.1.mono hgrows, h.2.2.2⟩
    | _ => exact h.2
  | _ =>
    rw [hstage] at h
    exact h

/-! ## Fetches from the MES -/

/-- A fetch costs what it says, however its rows are cut. -/
theorem callCount_received {native : Bool} {settings : Settings} {fetched result : Fetched} {request : Request}
    (h : request.received settings operation native fetched = .result result) :
    result.callCount = fetched.callCount := by
  unfold Request.received at h
  split_ifs at h
  · split at h
    · cases h
    · cases h
      unfold Request.narrowed
      split_ifs <;> rfl
  · split at h
    · cases h
    · cases h
      unfold Request.projected
      split
      · rfl
      · simp only
        split_ifs <;> rfl

theorem callCount_charged {fetched : Fetched} {spent : Nat} :
    (fetched.charged spent).callCount = spent + fetched.callCount := rfl

theorem callCount_finished {fetching : Fetching} {result : Fetched} :
    (fetching.finished result).callCount = fetching.spent.getD 0 + result.callCount := by
  unfold Fetching.finished
  cases fetching.spent with
  | none => exact (Nat.zero_add _).symm
  | some spent => rfl

/-- The answer of the MES says what was spent before it. -/
theorem callCount_charge {spent : Nat} {result : Fetched} :
    (Call.charge spent result).callCount = spent + result.callCount := by
  unfold Call.charge
  split_ifs with h
  · rw [h, Nat.zero_add]
    rfl
  · rfl

/-- **Groups are enough** for a question that groups nothing and asks for no bed. -/
theorem lacksDetail_of_writeReason {request : Request} {mode : ResultCacheMode} {result groups : Fetched}
    (h : request.writeReason mode result = none) : request.lacksDetail groups = false := by
  obtain ⟨-, -, -, hfilters, hgroupby⟩ := Request.writeReason_eq_none h
  have hbeds : request.filters.bedCodes = none := by
    rw [hfilters]
    rfl
  have hmentions : mentions request.params["groupbyFields"]? "dh" = false := by
    cases hvalue : request.params["groupbyFields"]? with
    | none => rfl
    | some value =>
      rw [hvalue, Option.any_some] at hgroupby
      cases value with
      | sequence fields =>
        have hnil : fields = [] := by simpa [ParamValue.truthy] using hgroupby
        rw [hnil]
        rfl
      | text value =>
        have hempty : value = "" := by simpa [ParamValue.truthy] using hgroupby
        rw [hempty]
        decide
  simp [Request.lacksDetail, hbeds, hmentions]

/-! ## The store -/

theorem Grows.refl (world : World config) : Grows config world world :=
  fun _ h => h

/-- The store, the clock and what was published are what the invariant of the store is about. -/
theorem Stored.congr (h : Stored config world) (hstore : world'.store = world.store) (hnow : world'.now = world.now)
    (hpublished : world'.published = world.published) : Stored config world' where
  entries := by
    rw [hstore, hpublished]
    exact h.entries
  past := by
    rw [hnow, hpublished]
    exact h.past
  whole := by
    rw [hpublished]
    exact h.whole

theorem Stored.wait (h : Stored config world) (seconds : Nat) :
    Stored config { world with now := world.now + seconds } where
  entries := h.entries
  past publication hmem := (h.past publication hmem).trans (Nat.le_add_right _ _)
  whole := h.whole

/-- **The keys of distinct tenants are distinct.** -/
def Config.TenantsApart (config : Config Key Lock) : Prop :=
  ∀ tenant params tenant' params', config.cache.buildKey tenant params = config.cache.buildKey tenant' params' →
    tenant = tenant'

theorem operation_of_id {other : Operation} (h : other.id = operation.id) : other = operation := by
  cases other <;> cases operation <;> first | rfl | exact absurd h (by decide)

/-- **What the store has is what was published** for the tenant and the parameters of the call. -/
theorem Stored.sourced (h : Stored config world) (hkeys : config.TenantsApart) {candidate : String × String}
    (hcovers : Covers candidate window) {hit : CacheHit operation}
    (hhit : (world.store.get world.now (call.key config operation candidate)).bind
      (fun stored => stored.read operation call.request.params candidate) = some hit)
    (hread : call.readAt = world.now) :
    Sourced config world call operation window hit ∧ hit.sourceCallCount = 0 := by
  obtain ⟨stored, hstored, hrest⟩ := Option.bind_eq_some_iff.mp hhit
  obtain ⟨entry, hentry, rfl⟩ := Option.map_eq_some_iff.mp hstored
  obtain ⟨hentry, hlive⟩ := Option.filter_eq_some_iff.mp hentry
  obtain ⟨publication, hmem, hkey, hvalue, hexpires⟩ := h.entries _ _ hentry
  unfold ResultSet.read at hrest
  split_ifs at hrest with hchecks
  simp only [Bool.and_eq_true, Bool.not_eq_true', ResultSet.rejected, Bool.or_eq_false_iff, decide_eq_false_iff_not,
    not_not] at hchecks
  obtain ⟨⟨-, ⟨⟨⟨hapi, hfilters⟩, hgroupby⟩, hwindow⟩, -⟩, -⟩ := hchecks
  obtain ⟨detail, hdetail, -, hencoded, hrows, -⟩ := read_of_writeResultSet hvalue rfl
  have hoperation : publication.operation = operation := by
    rw [hencoded] at hapi
    exact operation_of_id hapi
  have hsame : publication.window = candidate := by
    rw [hencoded] at hwindow
    exact hwindow
  obtain rfl := Option.some.inj hrest
  refine ⟨.stored publication detail hmem (hkeys _ _ _ _ hkey) hoperation ?_ (hsame ▸ hcovers) ⟨?_, ?_⟩
    (hoperation ▸ hdetail) hrows ?_ ⟨?_, ?_, hsame.symm⟩ rfl, rfl⟩
  · have hparams : keyParams publication.operation publication.params publication.window
        = keyParams operation call.request.params candidate := by
      rw [hencoded] at hfilters
      exact hfilters
    rw [hoperation, hsame] at hparams
    rw [hsame, hparams]
  · rw [hread]
    exact h.past publication hmem
  · rw [hread, ← hexpires]
    exact of_decide_eq_true hlive
  · rw [entry.value.getD_footer_hit, hencoded]
    rfl
  · rw [ResultSet.hit, hencoded]
    rfl
  · rw [ResultSet.hit, hencoded]
    rfl

section Writing

variable [DecidableEq Key]

@[simp] theorem World.published_evict {hitWindow : String × String} {landed : Bool} :
    (world.evict call operation hitWindow landed).published = world.published := by
  unfold World.evict
  split <;> rfl

@[simp] theorem World.locked_evict {hitWindow : String × String} {landed : Bool} :
    (world.evict call operation hitWindow landed).locked = world.locked := by
  unfold World.evict
  split <;> rfl

@[simp] theorem World.calls_evict {hitWindow : String × String} {landed : Bool} :
    (world.evict call operation hitWindow landed).calls = world.calls := by
  unfold World.evict
  split <;> rfl

theorem Stored.remove (h : Stored config world) (key : Key) : Stored config (world.remove key) where
  entries other entry hentry := by
    simp only [World.remove] at hentry
    split_ifs at hentry
    exact h.entries other entry hentry
  past := h.past
  whole := h.whole

theorem Stored.evict (h : Stored config world) {hitWindow : String × String} {landed : Bool} :
    Stored config (world.evict call operation hitWindow landed) := by
  unfold World.evict
  split
  · exact h.remove _
  · exact h

/-- A write that is refused stores nothing. -/
theorem write_eq_false {cache : V2ResultCache String Key} {store store' : ResultStore Key}
    {today : Today cache.policy} {now : Nat} {tenant : String} {rows : List Row} {footer : Option Footer}
    {params : Params} {generatedAt source : String} {taken : Bool}
    (h : cache.write store today now tenant operation rows footer params window generatedAt source taken
      = (false, store')) : store' = store := by
  unfold V2ResultCache.write at h
  split at h
  · exact (Prod.mk.inj h).2.symm
  · split at h
    · cases h
    · exact (Prod.mk.inj h).2.symm

/-- **A write that lands adds what is published**, and a refused one nothing. -/
theorem Stored.publish (h : Stored config world) (publication : Publication config.cache.policy)
    (hwhole : publication.Whole) : Stored config (world.publish publication).2
      ∧ Grows config world (world.publish publication).2 := by
  rcases hwritten : config.cache.write world.store publication.today world.now publication.tenant
    publication.operation publication.rows publication.footer publication.params publication.window
    publication.generatedAt publication.source true with ⟨landed, store⟩
  unfold World.publish
  rw [hwritten]
  cases landed with
  | false =>
    obtain rfl := write_eq_false hwritten
    exact ⟨h.congr rfl rfl rfl, .refl world⟩
  | true =>
    obtain ⟨value, hvalue, rfl⟩ := V2ResultCache.write_eq_true hwritten
    refine ⟨⟨fun key entry hentry => ?_, fun other hother => ?_, fun other hother => ?_⟩,
      fun other hother => List.mem_append_left _ hother⟩
    · simp only [ResultStore.put] at hentry
      split_ifs at hentry with hkey
      · cases hentry
        exact ⟨_, List.mem_append_right _ (List.mem_singleton_self _), hkey.symm, hvalue, rfl⟩
      · obtain ⟨other, hmem, hrest⟩ := h.entries key entry hentry
        exact ⟨other, List.mem_append_left _ hmem, hrest⟩
    · rcases List.mem_append.mp hother with hold | hnew
      · exact h.past other hold
      · rw [List.mem_singleton.mp hnew]
    · rcases List.mem_append.mp hother with hold | hnew
      · exact h.whole other hold
      · rw [List.mem_singleton.mp hnew]
        exact hwhole

end Writing

/-! ## Releasing a lock -/

section Releasing

variable [DecidableEq Lock]

@[simp] theorem World.published_releaseIf {locked : Bool} :
    (world.releaseIf call operation window locked).published = world.published := by
  unfold World.releaseIf
  split <;> rfl

@[simp] theorem World.calls_releaseIf {locked : Bool} :
    (world.releaseIf call operation window locked).calls = world.calls := by
  unfold World.releaseIf
  split <;> rfl

theorem Stored.releaseIf (h : Stored config world) {locked : Bool} :
    Stored config (world.releaseIf call operation window locked) := by
  unfold World.releaseIf
  split
  · exact h.congr rfl rfl rfl
  · exact h

end Releasing

/-! ## What is known of a call -/

/-- A hit costs what it says. -/
theorem sourceCallCount_serve {context : DecimalContext} {hit : CacheHit operation} {request : ViewRequest}
    {result : ResourceFetchResult} (h : hit.serve context request = .ok result) :
    result.sourceCallCount = hit.sourceCallCount := by
  obtain ⟨rows, -, h⟩ := Except.bind_eq_ok.mp h
  rw [← Except.ok.inj h]

theorem sound_falls (hasks : Asks config call operation window) {spent : Nat} (hmade : call.made = spent) :
    Sound config world (call.falls operation window spent) :=
  ⟨⟨hasks.reads, hasks.grain, hasks.window⟩, hmade, .inl rfl⟩

theorem sound_missed (hasks : Asks config call operation window) (hmade : call.made = 0) {locked : Bool} :
    Sound config world (call.missed config operation window locked) := by
  unfold Call.missed
  split_ifs
  · exact ⟨⟨hasks.reads, hasks.grain, hasks.window⟩, hmade⟩
  · exact ⟨⟨hasks.reads, hasks.grain, hasks.window⟩, hmade⟩
  · exact sound_falls hasks hmade

/-- **A hit is served as the view of its caller**, or not at all. -/
theorem sound_adopt (hasks : Asks config call operation window) {hit : CacheHit operation}
    (hsourced : Sourced config world call operation window hit) {spent : Nat} (hmade : call.made = spent)
    (hcount : hit.sourceCallCount = spent) : Sound config world (call.adopt config window hit spent) := by
  unfold Call.adopt
  cases hserve : hit.serve config.cache.context (call.view window) with
  | error _ => exact ⟨⟨hasks.reads, hasks.grain, hasks.window⟩, hmade⟩
  | ok served =>
    have hcost : call.made = served.sourceCallCount := by
      rw [sourceCallCount_serve hserve, hcount, hmade]
    simp only
    cases hvalid : call.request.validates served with
    | none => trivial
    | some accepted =>
      cases accepted with
      | false => exact ⟨⟨hasks.reads, hasks.grain, hasks.window⟩, hmade⟩
      | true =>
        have hserved : Served config world call served :=
          ⟨operation, window, hit, hasks.grain, hasks.window, hsourced, hserve, hvalid⟩
        simp only
        split_ifs with hverifies
        · exact ⟨⟨hasks.reads, hasks.grain, hasks.window⟩, hverifies, hserved.congr rfl rfl rfl, hcost, .inl rfl⟩
        · refine ⟨hcost.symm, ⟨hasks.reads, Bool.eq_false_iff.mpr hverifies, hserved.congr rfl rfl rfl⟩, ?_⟩
          rintro - rows (_ | ⟨_, hmem⟩)
          · exact hserved.shown
          · cases hmem

/-- The snapshot of an owner, as it is served at once. -/
theorem freshHit_eq_some {fetched : Fetched} {generatedAt : String} {hit : CacheHit operation}
    (h : Call.freshHit operation window fetched generatedAt = some hit) :
    detailRows fetched.rows operation = .ok hit.rows ∧ hit.footer = fetched.footer ∧ hit.window = window
      ∧ hit.sourceCallCount = fetched.callCount := by
  unfold Call.freshHit at h
  split at h
  · cases h
  · next detail hdetail =>
    obtain rfl := Option.some.inj h
    exact ⟨hdetail, rfl, rfl, rfl⟩

/-- **What a fetch of `_fetch_realtime` leads to**, in each of its cases. -/
theorem receives_cases {motive : Call → Prop} {fetching : Fetching} {fetched : Fetched} {again : Fetching → Stage}
    {done : Call → Fetched → Call}
    (hagain : call.request.received config.settings operation fetching.native fetched = .again →
      motive ((call.notes fetched).moves (again (call.request.detailFetch operation fetched))))
    (hraised : motive ((call.notes fetched).moves .raised))
    (hresult : ∀ result, call.request.received config.settings operation fetching.native fetched = .result result →
      motive (done (call.notes fetched) (fetching.finished result))) :
    motive (call.receives config operation fetching fetched again done) := by
  unfold Call.receives
  cases hreceived : call.request.received config.settings operation fetching.native fetched with
  | again => exact hagain hreceived
  | raised => exact hraised
  | result result => exact hresult result hreceived

/-- Groups are asked for again where they are not enough. -/
theorem lacksDetail_of_again {request : Request} {settings : Settings} {native : Bool} {fetched : Fetched}
    (h : request.received settings operation native fetched = .again) :
    native = true ∧ request.lacksDetail fetched = true := by
  unfold Request.received at h
  split_ifs at h with hnative hlacks
  · exact ⟨hnative, hlacks⟩
  · split at h <;> cases h
  · split at h <;> cases h

/-- The calls of a fetch add to those before it. -/
theorem made_finished {fetching : Fetching} {fetched result : Fetched} {spent : Nat}
    (hmade : call.made = spent + fetching.spent.getD 0)
    (hreceived : call.request.received config.settings operation fetching.native fetched = .result result) :
    (call.notes fetched).made = spent + (fetching.finished result).callCount := by
  rw [callCount_finished, callCount_received hreceived, ← Nat.add_assoc, ← hmade]
  rfl

/-- **Groups that are not enough come from the first fetch**, and count. -/
theorem made_again {fetching : Fetching} {fetched : Fetched} {spent : Nat}
    (hdue : fetching.Due call.request operation) (hmade : call.made = spent + fetching.spent.getD 0)
    (hreceived : call.request.received config.settings operation fetching.native fetched = .again) :
    (call.notes fetched).made = spent + (call.request.detailFetch operation fetched).spent.getD 0
      ∧ (call.request.detailFetch operation fetched).Due call.request operation := by
  obtain ⟨hnative, hlacks⟩ := lacksDetail_of_again hreceived
  refine ⟨?_, .inr ⟨fetched, hlacks, rfl⟩⟩
  rcases hdue with rfl | ⟨groups, -, rfl⟩
  · show call.made + fetched.callCount = spent + fetched.callCount
    rw [hmade]
    rfl
  · cases hnative

/-- Whether a result is kept does not depend on its costs. -/
theorem writeReason_finished {request : Request} {mode : ResultCacheMode} {fetching : Fetching} {result : Fetched} :
    request.writeReason mode (fetching.finished result) = request.writeReason mode result := by
  unfold Fetching.finished
  cases fetching.spent <;> rfl

theorem rows_finished {fetching : Fetching} {result : Fetched} :
    (fetching.finished result).rows = result.rows := by
  unfold Fetching.finished
  cases fetching.spent <;> rfl

/-- **An answer of the MES** with its costs is honest. -/
theorem honest_realtime (call : Call) {result : Fetched} (hcost : call.made = result.callCount)
    (hshown : call.request.Cached → call.request.Shown result.rows) :
    Honest config world call (.realtime result) := by
  refine ⟨hcost.symm, trivial, fun hcached rows hrows => ?_⟩
  rw [List.mem_singleton.mp hrows]
  exact hshown hcached

theorem sound_charge {spent : Nat} {result : Fetched} (hcost : call.made = spent + result.callCount)
    (hshown : call.request.Shown result.rows) :
    Sound config world (call.moves (.ended (Call.charge spent result))) := by
  unfold Call.charge
  split_ifs with hspent
  · exact honest_realtime (call.moves _) (hcost.trans (by rw [hspent, Nat.zero_add])) fun _ => hshown
  · exact honest_realtime (call.moves _) hcost fun _ => hshown

/-- **What is kept of a caller is whole.** -/
theorem sound_keeps (hasks : Asks config call operation window) {fetching : Fetching}
    (hdue : fetching.Due call.request operation) {fetched result : Fetched} {spent : Nat}
    (hmade : call.made = spent + fetching.spent.getD 0)
    (hreceived : call.request.received config.settings operation fetching.native fetched = .result result) :
    Sound config world ((call.notes fetched).keeps config operation window spent (fetching.finished result)) := by
  have hcost := made_finished hmade hreceived
  have hshown : call.request.Shown (fetching.finished result).rows := by
    rw [rows_finished]
    exact Request.shown_of_received hreceived
  unfold Call.keeps
  cases hreason : (call.notes fetched).request.writeReason config.mode (fetching.finished result) with
  | some reason => exact sound_charge hcost hshown
  | none =>
    have hkept : call.request.writeReason config.mode result = none := writeReason_finished.symm.trans hreason
    have hnative : fetching.native = call.request.nativeProgress operation false := by
      rcases hdue with rfl | ⟨groups, hlacks, -⟩
      · rfl
      · rw [lacksDetail_of_writeReason hkept] at hlacks
        cases hlacks
    rw [hnative] at hreceived
    have hwindow : call.request.window? config.settings.zone = some window := hasks.window
    obtain ⟨hcomplete, hrows⟩ := Request.rows_of_writeReason hkept hwindow hreceived
    exact ⟨⟨hasks.reads, hasks.grain, hasks.window⟩, hcost, hreason, fetched, rfl, hcomplete, rows_finished.trans hrows,
      hshown⟩

/-- **What is known of the world and of one call after a step of it.** -/
structure Kept (world world' : World config) (call' : Call) : Prop where
  stored : Stored config world'
  grows : Grows config world world'
  sound : Sound config world' call'

theorem kept_same (h : Stored config world) (hsound : Sound config world call') : Kept world world call' :=
  ⟨h, .refl world, hsound⟩

/-- The beginning of a call. -/
theorem sound_begin (hstage : call.stage = .arrived) (h : Sound config world call)
    (today : Today config.cache.policy) : Sound config world (call.begin config today) := by
  rw [Sound, hstage] at h
  unfold Call.begin
  split
  · trivial
  · split
    · trivial
    · split
      · next operation start hgrain hstart =>
        split
        · next hreads =>
          split
          · trivial
          · next window hwindow =>
            have hsome : call.request.window? config.zone = some window := by
              rw [Request.window?, hstart]
              exact hwindow
            exact ⟨⟨hreads, hgrain, hsome⟩, h, fun candidate hmem => covers_of_mem_candidateWindows hmem⟩
        · exact ⟨h, .inl rfl⟩
      · next hnone =>
        refine ⟨h, fun hcached => ?_⟩
        obtain ⟨operation, hgrain⟩ := Option.isSome_iff_exists.mp hcached.1
        obtain ⟨start, hstart⟩ := Option.isSome_iff_exists.mp hcached.2
        exact hnone operation start hgrain hstart

end Serving
