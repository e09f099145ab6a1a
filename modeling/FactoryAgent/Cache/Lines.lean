import FactoryAgent.Credentials.ScopeKeys

/-!
# Lines of the cache and their invalidation

`AuthAwareCache` of `application/cache.py`: lines are written under keys, kept for a time and evicted by prefixes of
their keys, for a scope, for one key or for all. A key is made of the versions of the cache and of the digests of the
line, so what an eviction takes away depends on where the parts of a key end. What a lookup returns after a run is told
from the history alone (`lookup_run`): the last value that was stored for the same domain, tenant, fingerprint and
parameters, unless its time is over or an eviction of its scope, of its line or of everything went through since. What
happens to other lines is no part of it.
-/

namespace CacheLines

open ScopeKeys (CacheVersions cacheDomains buildKey append_separator_inj)

/-! ## Keys -/

/-- **What a line of the cache is looked up by**; the parameters as their canonical text. -/
structure Line where
  domain : String
  tenantId : String
  fingerprint : String
  params : String
  deriving DecidableEq, Repr

/-- The keys and the times of a cache: how it digests texts, its versions and its policy. -/
structure AuthAwareCache where
  hash : String → String
  versions : CacheVersions
  policy : List (String × Nat)

/-- `DEFAULT_TTL_BY_DOMAIN` -/
def defaultTtlByDomain : List (String × Nat) :=
  [("identity_org", 86400), ("order_progress", 120), ("output", 60), ("payroll", 60), ("v2_result", 86400)]

/-- `SHARED_SCOPE_FINGERPRINT` -/
def sharedScopeFingerprint : String :=
  "shared"

variable {β : Type} (cache : AuthAwareCache)

/-- The key of a line; `none` is a raised `UnknownCacheDomainError`. -/
def AuthAwareCache.keyOf (line : Line) : Option String :=
  buildKey cache.hash cache.versions line.domain line.tenantId line.fingerprint line.params

/-- `ttl_seconds` of a known domain. -/
def AuthAwareCache.ttlSeconds (domain : String) : Nat :=
  (cache.policy.lookup domain).getD ((defaultTtlByDomain.lookup domain).getD 0)

/-- What the keys of the lines of a scope begin with. -/
def AuthAwareCache.scopePrefix (tenantId fingerprint : String) : String :=
  "fa:" ++ cache.versions.contract ++ ":" ++ cache.versions.metric ++ ":" ++ cache.versions.data ++ ":"
    ++ cache.hash tenantId ++ ":" ++ fingerprint ++ ":"

/-! ## The store -/

/-- `CacheStats`: the domains of the hits, and the domains of the misses with the reasons. -/
structure CacheStats where
  hits : List String
  misses : List (String × String)
  deriving DecidableEq, Repr

/-- `record_miss` -/
def CacheStats.recordMiss (stats : CacheStats) (domain reason : String) : CacheStats :=
  { stats with misses := stats.misses ++ [(domain, reason)] }

/-- `record_hit` -/
def CacheStats.recordHit (stats : CacheStats) (domain : String) : CacheStats :=
  { stats with hits := stats.hits ++ [domain] }

/-- **The store and its clock**: under each key a value and the second it expires in. -/
structure World (β : Type) where
  store : String → Option (β × Nat)
  now : Nat
  stats : CacheStats

/-- An empty store. -/
def World.empty : World β :=
  ⟨fun _ => none, 0, ⟨[], []⟩⟩

/-- `get` of the store: a value until it expires. -/
def World.read (world : World β) (key : String) : Option β :=
  ((world.store key).filter fun entry => world.now < entry.2).map Prod.fst

/-- `delete_prefix` of the store. -/
def World.deletePrefix (world : World β) (front : String) : World β :=
  { world with store := fun key => if front.toList <+: key.toList then none else world.store key }

/-- A failure of the store is counted as a miss. -/
def World.unavailable (world : World β) (domain : String) : World β :=
  { world with stats := world.stats.recordMiss domain "store_unavailable" }

/-- `CacheLookup` -/
structure CacheLookup (β : Type) where
  value : Option β
  reason : String
  deriving DecidableEq, Repr

/-- **`get`**; `reachable` says whether the store answers. -/
def AuthAwareCache.get (world : World β) (line : Line) (reachable : Bool) : Option (CacheLookup β × World β) :=
  (cache.keyOf line).map fun key =>
    if reachable then
      match world.read key with
      | none => (⟨none, "miss"⟩, { world with stats := world.stats.recordMiss line.domain "miss" })
      | some value => (⟨some value, "hit"⟩, { world with stats := world.stats.recordHit line.domain })
    else (⟨none, "store_unavailable"⟩, world.unavailable line.domain)

/-- The seconds that a line is kept, `ttl_seconds or self.ttl_seconds(domain)`. -/
def AuthAwareCache.actualTtl (domain : String) (ttlSeconds : Option Nat) : Nat :=
  (ttlSeconds.filter (· ≠ 0)).getD (cache.ttlSeconds domain)

/-- **`put`**: whether the value was stored. The store rejects a time of no seconds. -/
def AuthAwareCache.put (world : World β) (line : Line) (value : β) (ttlSeconds : Option Nat) (reachable : Bool) :
    Option (Bool × World β) :=
  (cache.keyOf line).map fun key =>
    if reachable ∧ 0 < cache.actualTtl line.domain ttlSeconds then
      (true, { world with
        store := Function.update world.store key (some (value, world.now + cache.actualTtl line.domain ttlSeconds)) })
    else (false, world.unavailable line.domain)

/-- **An eviction by prefix**: `invalidate_key`, `invalidate_scope` and `purge_all`. -/
def invalidate (world : World β) (front : String) (reachable : Bool) : World β :=
  if reachable then world.deletePrefix front else world.unavailable "identity_org"

/-! ## Runs -/

/-- **What happens to a cache.** -/
inductive Op (β : Type)
  | get (line : Line) (reachable : Bool)
  | put (line : Line) (value : β) (ttlSeconds : Option Nat) (reachable : Bool)
  | invalidateKey (line : Line) (reachable : Bool)
  | invalidateScope (tenantId fingerprint : String) (reachable : Bool)
  | purgeAll (reachable : Bool)
  | wait (seconds : Nat)

/-- `invalidate_base_data` -/
def Op.invalidateBaseData (tenantId : String) (reachable : Bool) : Op β :=
  .invalidateScope tenantId sharedScopeFingerprint reachable

/-- One step. What is raised for an unknown domain leaves the cache as it is. -/
def AuthAwareCache.step (world : World β) : Op β → World β
  | .get line reachable => ((cache.get world line reachable).map Prod.snd).getD world
  | .put line value ttlSeconds reachable => ((cache.put world line value ttlSeconds reachable).map Prod.snd).getD world
  | .invalidateKey line reachable => ((cache.keyOf line).map fun key => invalidate world key reachable).getD world
  | .invalidateScope tenantId fingerprint reachable =>
    invalidate world (cache.scopePrefix tenantId fingerprint) reachable
  | .purgeAll reachable => invalidate world "fa:" reachable
  | .wait seconds => { world with now := world.now + seconds }

/-- The cache after a history. -/
def AuthAwareCache.run (history : List (Op β)) : World β :=
  history.foldl cache.step World.empty

/-- An eviction that takes a line away. -/
def Op.evicts (line : Line) : Op β → Bool
  | .invalidateKey other reachable => reachable && decide (other = line)
  | .invalidateScope tenantId fingerprint reachable =>
    reachable && decide (line.tenantId = tenantId) && decide (line.fingerprint = fingerprint)
  | .purgeAll reachable => reachable
  | .get _ _ | .put _ _ _ _ | .wait _ => false

/-- What a step leaves of what is remembered of a line: its value, and the seconds that are left of its time. -/
def AuthAwareCache.remember (line : Line) (kept : Option (β × Nat)) : Op β → Option (β × Nat)
  | .put other value ttlSeconds reachable =>
    if other = line ∧ reachable ∧ 0 < cache.actualTtl line.domain ttlSeconds then
      some (value, cache.actualTtl line.domain ttlSeconds)
    else kept
  | .wait seconds => (kept.filter fun kept => seconds < kept.2).map fun kept => (kept.1, kept.2 - seconds)
  | op => if op.evicts line then none else kept

/-- **What is remembered of a line** after a history: what was stored for it last, until its time is over or it is
evicted. -/
def AuthAwareCache.recall (line : Line) (history : List (Op β)) : Option (β × Nat) :=
  history.foldl (cache.remember line) none

/-! ## What the parts of a key tell apart -/

/-- **Digests as a hash gives them**: of one length, without a colon, and apart for the texts that are digested. -/
structure Digests (hash : String → String) (texts : Set String) : Prop where
  apart : ∀ text ∈ texts, ∀ other ∈ texts, hash text = hash other → text = other
  length : ∀ text, (hash text).toList.length = 64
  colonFree : ∀ text, ':' ∉ (hash text).toList

/-- A line whose texts are among those that are digested; a fingerprint has no colon. -/
structure Line.Within (texts : Set String) (line : Line) : Prop where
  tenant : line.tenantId ∈ texts
  params : line.params ∈ texts
  fingerprint : ':' ∉ line.fingerprint.toList

/-- A step about such lines. -/
def Op.Within (texts : Set String) : Op β → Prop
  | .put line _ _ _ | .invalidateKey line _ => line.Within texts
  | .invalidateScope tenantId fingerprint _ => tenantId ∈ texts ∧ ':' ∉ fingerprint.toList
  | .get _ _ | .purgeAll _ | .wait _ => True

/-- What all keys of a cache begin with. -/
def AuthAwareCache.base : List Char :=
  ("fa:" ++ cache.versions.contract ++ ":" ++ cache.versions.metric ++ ":" ++ cache.versions.data ++ ":").toList

/-- The characters of the key of a line. -/
def AuthAwareCache.keyChars (line : Line) : List Char :=
  cache.base ++ ((cache.hash line.tenantId).toList ++ ':' :: (line.fingerprint.toList
    ++ ':' :: (line.domain.toList ++ ':' :: (cache.hash line.params).toList)))

theorem exists_keyOf {line : Line} (hdomain : line.domain ∈ cacheDomains) :
    ∃ key, cache.keyOf line = some key ∧ key.toList = cache.keyChars line := by
  refine ⟨_, by rw [AuthAwareCache.keyOf, buildKey, if_pos hdomain], ?_⟩
  simp only [AuthAwareCache.keyChars, AuthAwareCache.base, String.toList_append, List.append_assoc]
  rfl

variable {cache}

/-- An unknown domain has no key. -/
theorem keyOf_eq_none {line : Line} (hdomain : line.domain ∉ cacheDomains) : cache.keyOf line = none := by
  rw [AuthAwareCache.keyOf, buildKey, if_neg hdomain]

theorem toList_scopePrefix (tenantId fingerprint : String) : (cache.scopePrefix tenantId fingerprint).toList
    = cache.base ++ ((cache.hash tenantId).toList ++ ':' :: (fingerprint.toList ++ [':'])) := by
  simp only [AuthAwareCache.scopePrefix, AuthAwareCache.base, String.toList_append, List.append_assoc]
  rfl

/-- A known domain has no colon. -/
theorem colon_notMem_domain {domain : String} (h : domain ∈ cacheDomains) : ':' ∉ domain.toList := by
  have hall : cacheDomains.all (fun domain => !domain.toList.contains ':') = true := by decide
  have hone := List.all_eq_true.mp hall domain h
  simpa using hone

/-- Parts that end at a colon are at the front of a text exactly where they are its own parts. -/
theorem append_colon_prefix {part other rest back : List Char} (hpart : ':' ∉ part) (hother : ':' ∉ other) :
    part ++ ':' :: rest <+: other ++ ':' :: back ↔ part = other ∧ rest <+: back := by
  constructor
  · rintro ⟨more, heq⟩
    rw [List.append_assoc, List.cons_append] at heq
    obtain ⟨hparts, hrest⟩ := append_separator_inj hpart hother heq
    exact ⟨hparts, more, hrest⟩
  · rintro ⟨rfl, more, rfl⟩
    exact ⟨more, by rw [List.append_assoc, List.cons_append]⟩

variable {texts : Set String}

/-- **The prefix of a scope is at the front of the keys of its own lines.** -/
theorem scopePrefix_prefix_iff (hdigests : Digests cache.hash texts) {tenantId fingerprint : String}
    (htenant : tenantId ∈ texts) (hfingerprint : ':' ∉ fingerprint.toList) {line : Line} (hline : line.Within texts) :
    (cache.scopePrefix tenantId fingerprint).toList <+: cache.keyChars line
      ↔ line.tenantId = tenantId ∧ line.fingerprint = fingerprint := by
  rw [toList_scopePrefix, AuthAwareCache.keyChars, List.prefix_append_right_inj,
    append_colon_prefix (hdigests.colonFree _) (hdigests.colonFree _), append_colon_prefix hfingerprint
      hline.fingerprint, String.toList_inj, String.toList_inj]
  constructor
  · rintro ⟨htenants, hfingerprints, -⟩
    exact ⟨(hdigests.apart _ htenant _ hline.tenant htenants).symm, hfingerprints.symm⟩
  · rintro ⟨rfl, rfl⟩
    exact ⟨rfl, rfl, List.nil_prefix⟩

/-- **A key is at the front of no other key.** -/
theorem keyChars_prefix_iff (hdigests : Digests cache.hash texts) {line other : Line} (hline : line.Within texts)
    (hother : other.Within texts) (hdomain : line.domain ∈ cacheDomains) (hdomain' : other.domain ∈ cacheDomains) :
    cache.keyChars other <+: cache.keyChars line ↔ other = line := by
  constructor
  · intro h
    rw [AuthAwareCache.keyChars, AuthAwareCache.keyChars, List.prefix_append_right_inj,
      append_colon_prefix (hdigests.colonFree _) (hdigests.colonFree _),
      append_colon_prefix hother.fingerprint hline.fingerprint,
      append_colon_prefix (colon_notMem_domain hdomain') (colon_notMem_domain hdomain), String.toList_inj,
      String.toList_inj, String.toList_inj] at h
    obtain ⟨htenant, hfingerprint, hdomains, hparams⟩ := h
    have hdigest : (cache.hash other.params).toList = (cache.hash line.params).toList :=
      hparams.eq_of_length (by rw [hdigests.length, hdigests.length])
    have htenants := hdigests.apart _ hother.tenant _ hline.tenant htenant
    have hparams' := hdigests.apart _ hother.params _ hline.params (String.toList_inj.mp hdigest)
    obtain ⟨domain, tenantId, fingerprint, params⟩ := line
    obtain ⟨domain', tenantId', fingerprint', params'⟩ := other
    dsimp only at htenants hfingerprint hdomains hparams'
    rw [htenants, hfingerprint, hdomains, hparams']
  · rintro rfl
    exact List.prefix_rfl

/-- All keys begin alike. -/
theorem fa_prefix_keyChars (line : Line) : "fa:".toList <+: cache.keyChars line := by
  rw [AuthAwareCache.keyChars, AuthAwareCache.base]
  simp only [String.toList_append, List.append_assoc]
  exact List.prefix_append _ _

/-! ## What is kept -/

/-- What a store keeps under a key: the value, and the seconds that are left. -/
def World.kept (world : World β) (key : String) : Option (β × Nat) :=
  ((world.store key).filter fun entry => world.now < entry.2).map fun entry => (entry.1, entry.2 - world.now)

theorem World.read_eq_kept (world : World β) (key : String) : world.read key = (world.kept key).map Prod.fst := by
  rw [World.read, World.kept, Option.map_map]
  rfl

/-- An eviction takes away what begins with its prefix. -/
theorem World.kept_invalidate (world : World β) {front key : String} {reachable : Bool} {evicted : Bool}
    (hevicted : reachable = true ∧ front.toList <+: key.toList ↔ evicted = true) :
    (invalidate world front reachable).kept key = if evicted then none else world.kept key := by
  cases reachable with
  | false =>
    have hnot : evicted = false := Bool.eq_false_iff.mpr fun h => Bool.false_ne_true (hevicted.mpr h).1
    rw [hnot]
    rfl
  | true =>
    by_cases hfront : front.toList <+: key.toList
    · rw [hevicted.mp ⟨rfl, hfront⟩]
      simp [invalidate, World.kept, World.deletePrefix, hfront]
    · have hnot : evicted = false := Bool.eq_false_iff.mpr fun h => hfront (hevicted.mpr h).2
      rw [hnot]
      simp [invalidate, World.kept, World.deletePrefix, hfront]

/-- With time, the seconds that are left grow less. -/
theorem World.kept_wait (world : World β) (seconds : Nat) (key : String) :
    ({ world with now := world.now + seconds } : World β).kept key
      = ((world.kept key).filter fun kept => seconds < kept.2).map fun kept => (kept.1, kept.2 - seconds) := by
  simp only [World.kept]
  cases world.store key with
  | none => rfl
  | some entry =>
    by_cases hlive : world.now < entry.2
    · by_cases hleft : world.now + seconds < entry.2
      · have hstill : seconds < entry.2 - world.now := by omega
        simp [Option.filter, hlive, hleft, hstill, Nat.sub_sub]
      · have hover : ¬ seconds < entry.2 - world.now := by omega
        simp [Option.filter, hlive, hleft, hover]
    · have hdead : ¬ world.now + seconds < entry.2 := by omega
      simp [Option.filter, hlive, hdead]

/-- A lookup changes nothing that is kept. -/
theorem kept_get (world : World β) (line : Line) (reachable : Bool) (key : String) :
    (cache.step world (.get line reachable)).kept key = world.kept key := by
  rw [AuthAwareCache.step, AuthAwareCache.get]
  cases cache.keyOf line with
  | none => rfl
  | some own =>
    cases reachable with
    | false => rfl
    | true =>
      simp only [Option.map_some, Option.getD_some, if_true]
      cases world.read own <;> rfl

/-- **A write keeps its own line**, for the time that it is given. -/
theorem kept_put (hdigests : Digests cache.hash texts) (world : World β) {line other : Line} (value : β)
    (ttlSeconds : Option Nat) (reachable : Bool) (hline : line.Within texts) (hother : other.Within texts)
    (hdomain : line.domain ∈ cacheDomains) {key : String} (hkey : cache.keyOf line = some key) :
    (cache.step world (.put other value ttlSeconds reachable)).kept key
      = if other = line ∧ reachable ∧ 0 < cache.actualTtl line.domain ttlSeconds then
          some (value, cache.actualTtl line.domain ttlSeconds)
        else world.kept key := by
  obtain ⟨_, hsome, hchars⟩ := exists_keyOf cache hdomain
  rw [hkey, Option.some_inj] at hsome
  subst hsome
  rw [AuthAwareCache.step, AuthAwareCache.put]
  by_cases hdomain' : other.domain ∈ cacheDomains
  · obtain ⟨key', hkey', hchars'⟩ := exists_keyOf cache hdomain'
    rw [hkey', Option.map_some, Option.map_some, Option.getD_some]
    by_cases hsame : other = line
    · subst hsame
      rw [hkey, Option.some_inj] at hkey'
      subst hkey'
      by_cases htaken : reachable = true ∧ 0 < cache.actualTtl other.domain ttlSeconds
      · rw [if_pos htaken, if_pos ⟨rfl, htaken⟩]
        have hlive : world.now < world.now + cache.actualTtl other.domain ttlSeconds := by omega
        simp [World.kept, Function.update_self, Option.filter, hlive]
      · rw [if_neg htaken, if_neg fun h => htaken h.2]
        rfl
    · have hkeys : key ≠ key' := by
        rintro rfl
        refine hsame ((keyChars_prefix_iff hdigests hline hother hdomain hdomain').mp ?_)
        rw [← hchars, ← hchars']
      rw [if_neg fun h : other = line ∧ _ => hsame h.1]
      split_ifs
      · simp only [World.kept, Function.update_of_ne hkeys]
      · rfl
  · rw [keyOf_eq_none hdomain', if_neg]
    · rfl
    · rintro ⟨rfl, -⟩
      exact hdomain' hdomain

/-- **A step keeps what is remembered.** -/
theorem kept_step (hdigests : Digests cache.hash texts) (world : World β) {line : Line} (hline : line.Within texts)
    (hdomain : line.domain ∈ cacheDomains) {key : String} (hkey : cache.keyOf line = some key) {op : Op β}
    (hop : op.Within texts) : (cache.step world op).kept key = cache.remember line (world.kept key) op := by
  obtain ⟨_, hsome, hchars⟩ := exists_keyOf cache hdomain
  rw [hkey, Option.some_inj] at hsome
  subst hsome
  cases op with
  | get other reachable => exact kept_get world other reachable key
  | put other value ttlSeconds reachable =>
    exact kept_put hdigests world value ttlSeconds reachable hline hop hdomain hkey
  | invalidateKey other reachable =>
    by_cases hdomain' : other.domain ∈ cacheDomains
    · obtain ⟨key', hkey', hchars'⟩ := exists_keyOf cache hdomain'
      rw [AuthAwareCache.step, hkey', Option.map_some, Option.getD_some]
      refine World.kept_invalidate world ?_
      rw [hchars, hchars', keyChars_prefix_iff hdigests hline hop hdomain hdomain', Op.evicts, Bool.and_eq_true,
        decide_eq_true_eq]
    · have hother : other ≠ line := fun h => hdomain' (h ▸ hdomain)
      have hworld : cache.step world (.invalidateKey other reachable) = world := by
        rw [AuthAwareCache.step, keyOf_eq_none hdomain']
        rfl
      rw [hworld]
      show _ = if (reachable && decide (other = line)) = true then none else world.kept key
      rw [decide_eq_false hother, Bool.and_false, if_neg Bool.false_ne_true]
  | invalidateScope tenantId fingerprint reachable =>
    refine World.kept_invalidate world ?_
    rw [hchars, scopePrefix_prefix_iff hdigests hop.1 hop.2 hline, Op.evicts, Bool.and_eq_true, Bool.and_eq_true,
      decide_eq_true_eq, decide_eq_true_eq, and_assoc]
  | purgeAll reachable =>
    refine World.kept_invalidate world ?_
    rw [hchars, Op.evicts]
    exact and_iff_left (fa_prefix_keyChars line)
  | wait seconds => exact world.kept_wait seconds key

theorem run_concat (history : List (Op β)) (op : Op β) :
    cache.run (history ++ [op]) = cache.step (cache.run history) op := by
  rw [AuthAwareCache.run, List.foldl_append]
  rfl

/-- **What is kept after a run is what is remembered.** -/
theorem kept_run (hdigests : Digests cache.hash texts) {history : List (Op β)}
    (hhistory : ∀ op ∈ history, op.Within texts) {line : Line} (hline : line.Within texts)
    (hdomain : line.domain ∈ cacheDomains) {key : String} (hkey : cache.keyOf line = some key) :
    (cache.run history).kept key = cache.recall line history := by
  induction history using List.reverseRecOn with
  | nil => rfl
  | append_singleton history op ih =>
    rw [run_concat, kept_step hdigests _ hline hdomain hkey (hhistory op (by simp)),
      ih fun other hother => hhistory other (List.mem_append_left _ hother), AuthAwareCache.recall,
      AuthAwareCache.recall, List.foldl_append]
    rfl

/-- **A lookup after a run** returns what was stored for the line last and is remembered, and nothing else. -/
theorem lookup_run (hdigests : Digests cache.hash texts) {history : List (Op β)}
    (hhistory : ∀ op ∈ history, op.Within texts) {line : Line} (hline : line.Within texts)
    (hdomain : line.domain ∈ cacheDomains) :
    (cache.get (cache.run history) line true).map Prod.fst
      = some (match cache.recall line history with
        | some kept => ⟨some kept.1, "hit"⟩
        | none => ⟨none, "miss"⟩) := by
  obtain ⟨key, hkey, -⟩ := exists_keyOf cache hdomain
  rw [AuthAwareCache.get, hkey, Option.map_some, Option.map_some, if_pos rfl, World.read_eq_kept,
    kept_run hdigests hhistory hline hdomain hkey]
  cases cache.recall line history <;> rfl

/-- A digest of the first characters of a text. -/
def firstCharacters (text : String) : String :=
  String.ofList ((text.toList.map (fun c => if c = ':' then '.' else c) ++ List.replicate 64 '0').take 64)

/-- A cache with that digest. -/
def smallCache : AuthAwareCache :=
  ⟨firstCharacters, ⟨"v1", "v1", "v1"⟩, []⟩

/-- The line of a roster. -/
def rosterLine (tenantId : String) : Line :=
  ⟨"identity_org", tenantId, sharedScopeFingerprint, "employees"⟩

theorem digests_firstCharacters : Digests firstCharacters {"t1", "t2", "employees"} where
  apart := by
    rintro text (rfl | rfl | rfl) other (rfl | rfl | rfl) h
    all_goals first | rfl | exact absurd h (by decide)
  length text := by
    rw [firstCharacters, String.toList_ofList, List.length_take, List.length_append, List.length_replicate]
    omega
  colonFree text h := by
    rw [firstCharacters, String.toList_ofList] at h
    rcases List.mem_append.mp (List.mem_of_mem_take h) with hmap | hzero
    · obtain ⟨c, -, hc⟩ := List.mem_map.mp hmap
      split_ifs at hc with hcolon
      · exact absurd hc (by decide)
      · exact hcolon hc
    · exact absurd (List.eq_of_mem_replicate hzero) (by decide)

theorem within_rosterLine {tenantId : String} (h : tenantId ∈ ({"t1", "t2", "employees"} : Set String)) :
    (rosterLine tenantId).Within {"t1", "t2", "employees"} :=
  ⟨h, .inr (.inr rfl), show ':' ∉ sharedScopeFingerprint.toList by decide⟩

/-- A roster outlives the base data of another tenant. -/
theorem lookup_run_roster : (smallCache.get (smallCache.run [.put (rosterLine "t1") 7 none true,
      .put (rosterLine "t2") 8 none true, .invalidateBaseData "t2" true, .wait 3600]) (rosterLine "t1") true).map
        Prod.fst = some ⟨some 7, "hit"⟩ := by
  refine (lookup_run digests_firstCharacters (fun op hop => ?_) (within_rosterLine (.inl rfl)) (by decide)).trans rfl
  simp only [List.mem_cons, List.not_mem_nil, or_false] at hop
  rcases hop with rfl | rfl | rfl | rfl
  · exact within_rosterLine (.inl rfl)
  · exact within_rosterLine (.inr (.inl rfl))
  · exact ⟨.inr (.inl rfl), by decide⟩
  · exact trivial

end CacheLines
