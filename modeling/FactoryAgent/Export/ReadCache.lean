import FactoryAgent.Export.Service
import FactoryAgent.Lib.Machine

/-!
# The size of the read cache

An export drops the entries beyond the cap, so it leaves at most `max_entries` of them. A fetch that misses the cache
and finds the artifact in the store puts it into the cache and drops only what has expired. So the cache stays within
its cap as long as each such fetch finds room in it (`cache_bounded`), and a fetch that finds none takes it past the
cap (`length_step_le_iff`): after a restart, the fetches of one more artifact than the cap do (`cache_exceeded`).
-/

namespace Export

variable {σ : Type} (settings : Settings) (store : ExportStore σ)

/-- The service as a machine that starts over an empty store. -/
def machine (clock : Int) : Machine (World σ) Operation where
  init := World.start store clock
  step world operation := some (world.step settings store operation).1

/-- A fetch fills the cache from the store: it misses the cache, and the store has an artifact that has not expired. -/
def World.fills (world : World σ) (artifactId : String) : Bool :=
  ((evictExpired world.clock world.cache).get? artifactId).isNone
    && (store.get world.stored artifactId).any fun stored => world.clock < stored.expiresAt.micros

/-- **A fetch that fills the cache finds room in it**, after what has expired is dropped. -/
def Roomy (world : World σ) : Operation → Prop
  | .fetch _ artifactId _ =>
    world.fills store artifactId = true → (evictExpired world.clock world.cache).length < settings.maxEntries
  | _ => True

instance (world : World σ) (operation : Operation) : Decidable (Roomy settings store world operation) :=
  match operation with
  | .fetch _ _ _ => inferInstanceAs (Decidable (_ → _))
  | .export _ => isTrue trivial
  | .advance _ => isTrue trivial
  | .restart => isTrue trivial
  | .evict _ => isTrue trivial

variable {settings store}

/-- **Below the cap** after the oldest are dropped. -/
theorem length_evictOldest_le (maxEntries : Nat) (cache : Dict String Entry) :
    (evictOldest maxEntries cache).length ≤ maxEntries := by
  rw [evictOldest]
  split_ifs with h
  · have hsplit := StableSort.sorted_perm (fun item : String × Entry => item.2.expiresAt.micros) cache.items
    have hperm : cache.items.Perm
        ((StableSort.sorted (fun item : String × Entry => item.2.expiresAt.micros) cache.items).take
            (cache.length - maxEntries)
          ++ (StableSort.sorted (fun item : String × Entry => item.2.expiresAt.micros) cache.items).drop
            (cache.length - maxEntries)) := by
      rw [List.take_append_drop]
      exact hsplit.symm
    have hlength := (Dict.items_without_perm hperm).length_eq
    rw [List.length_drop, hsplit.length_eq] at hlength
    rw [Dict.length, hlength]
    rw [Dict.length] at h ⊢
    omega
  · omega

/-- An export keeps the cache within its cap. -/
theorem length_export_le {world : World σ} (h : world.cache.length ≤ settings.maxEntries) (request : ExportRequest) :
    (world.export settings store request).1.cache.length ≤ settings.maxEntries := by
  rw [World.export]
  cases artifactOf settings world.clock request with
  | error failure => exact h
  | ok artifact =>
    dsimp only
    split_ifs
    · exact length_evictOldest_le _ _
    · exact h

/-- **A fetch adds an entry where it fills the cache**, and none elsewhere. -/
theorem length_fetch (world : World σ) (owner : Owner) (id : String) (purged : Bool) :
    (world.fetch store owner id purged).1.cache.length
      = (evictExpired world.clock world.cache).length + if world.fills store id then 1 else 0 := by
  rw [World.fetch]
  cases hcached : (evictExpired world.clock world.cache).get? id with
  | some cached =>
    have hhit : world.fills store id = false := by rw [World.fills, hcached]; rfl
    rw [hhit]
    rfl
  | none =>
    cases hstored : store.get world.stored id with
    | none =>
      have habsent : world.fills store id = false := by rw [World.fills, hcached, hstored]; rfl
      rw [habsent]
      rfl
    | some stored =>
      have hfills : world.fills store id = decide (world.clock < stored.expiresAt.micros) := by
        rw [World.fills, hcached, hstored]
        rfl
      rw [hfills]
      dsimp only
      by_cases hexpired : stored.expiresAt.micros ≤ world.clock
      · rw [if_pos hexpired, if_neg fun hlive => Int.not_lt.mpr hexpired (of_decide_eq_true hlive)]
        rfl
      · rw [if_neg hexpired, if_pos (decide_eq_true (Int.not_le.mp hexpired))]
        exact Dict.length_set_of_none hcached _

/-- **Whether an operation keeps the cache within its cap**: unless it is a fetch that fills the cache and finds no
room. -/
theorem length_step_le_iff {world : World σ} (h : world.cache.length ≤ settings.maxEntries) (operation : Operation) :
    (world.step settings store operation).1.cache.length ≤ settings.maxEntries
      ↔ Roomy settings store world operation := by
  cases operation with
  | «export» request => exact iff_of_true (length_export_le h request) trivial
  | fetch owner id purged =>
    show (world.fetch store owner id purged).1.cache.length ≤ _ ↔ (_ → _)
    have hle : (evictExpired world.clock world.cache).length ≤ world.cache.length := Dict.length_filter_le _ _
    rw [length_fetch]
    cases hfills : world.fills store id with
    | true =>
      rw [if_pos rfl]
      exact ⟨fun hlt _ => hlt, fun hlt => hlt rfl⟩
    | false =>
      rw [if_neg Bool.false_ne_true]
      exact iff_of_true (le_trans hle h) fun hfalse => absurd hfalse Bool.false_ne_true
  | advance micros => exact iff_of_true h trivial
  | restart => exact iff_of_true (Nat.zero_le _) trivial
  | evict id => exact iff_of_true (le_trans (Dict.length_filter_le _ _) h) trivial

/-- **The cache stays within its cap** in every run whose fetches find room for what they fill it with. In each of its
states, an operation keeps to the cap just where it does. -/
theorem cache_bounded {clock : Int} {world : World σ}
    (h : (machine settings store clock).Reach (Roomy settings store) world) :
    world.cache.length ≤ settings.maxEntries
      ∧ ∀ operation, (world.step settings store operation).1.cache.length ≤ settings.maxEntries
          ↔ Roomy settings store world operation := by
  have hbound : world.cache.length ≤ settings.maxEntries := by
    refine h.invariant (I := fun world => world.cache.length ≤ settings.maxEntries) (Nat.zero_le _) ?_
    intro world next operation hle hroomy hstep
    cases hstep
    exact (length_step_le_iff hle operation).mpr hroomy
  exact ⟨hbound, fun operation => length_step_le_iff hbound operation⟩

/-- Both exports are fetched after the restart. -/
def refetched : List Operation :=
  halfLife ++ [.fetch ⟨"t1", "u1"⟩ "a1" true, .fetch ⟨"t1", "u2"⟩ "a2" true]

/-- Until the second of them, the cache has room. -/
theorem cache_bounded_half_life :
    ((machine smallSettings memoryStore 0).after halfLife).cache.length ≤ smallSettings.maxEntries :=
  (cache_bounded (Machine.reach_after halfLife (by decide))).1

/-- **Two fetches after a restart fill a cache for one entry with two.** -/
theorem cache_exceeded : ∃ world, (machine smallSettings memoryStore 0).Reach Machine.free world
    ∧ smallSettings.maxEntries < world.cache.length :=
  ⟨(machine smallSettings memoryStore 0).after refetched, Machine.reach_after refetched (by decide), by decide⟩

end Export
