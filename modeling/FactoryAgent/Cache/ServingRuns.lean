import FactoryAgent.Cache.Provenance
import FactoryAgent.Lib.Exclusion

/-!
# Runs of many callers

Each event of a call keeps what is known (`kept_act`), and takes a free lock, lets go of its own or does neither
(`move_act`). So the invariant holds in every run, whatever the order of the events, and every answer in it is honest
(`serving_run`).
-/

namespace Serving

open Exclusion (Move Agrees)

variable {Key Lock : Type} {config : Config Key Lock} {world world' : World config} {call call' : Call}
  {operation : Operation} {window : String × String}

/-! ## What happens to a call -/

section Keeping

variable [DecidableEq Key] [DecidableEq Lock]

omit [DecidableEq Key] in
theorem kept_releaseIf (h : Stored config world) {asker : Call} {locked : Bool} (hsound : Sound config world call') :
    Kept world (world.releaseIf asker operation window locked) call' where
  stored := h.releaseIf
  grows publication hmem := by
    rw [World.published_releaseIf]
    exact hmem
  sound := hsound.mono fun publication hmem => by
    rw [World.published_releaseIf]
    exact hmem

omit [DecidableEq Key] in
/-- A lookup. -/
theorem kept_look (hstored : Stored config world) (hkeys : config.TenantsApart) (hsound : Sound config world call)
    {lookup : Lookup} (h : look config world call lookup = some (world', call')) : Kept world world' call' := by
  unfold look at h
  split at h
  · next operation window locked candidate left hstage =>
    rw [Sound, hstage] at hsound
    obtain ⟨hasks, hmade, hcovers⟩ := hsound
    have hnext (h : (if left = [] then (world, call.missed config operation window locked)
        else (world, call.moves (.asking operation window (.probing locked left)))) = (world', call')) :
        Kept world world' call' := by
      split_ifs at h
      · cases h
        exact kept_same hstored (sound_missed hasks hmade)
      · cases h
        exact kept_same hstored
          ⟨⟨hasks.reads, hasks.grain, hasks.window⟩, hmade, fun other hmem => hcovers other (.tail _ hmem)⟩
    cases lookup with
    | failed =>
      cases h
      exact kept_same hstored (sound_missed hasks hmade)
    | unavailable => exact hnext (Option.some.inj h)
    | answered =>
      simp only at h
      split at h
      · exact hnext (Option.some.inj h)
      · next hit hhit =>
        cases h
        have hread : Asks config { call with readAt := world.now } operation window :=
          ⟨hasks.reads, hasks.grain, hasks.window⟩
        have hsourced : Sourced config world { call with readAt := world.now } operation window hit
            ∧ hit.sourceCallCount = 0 := hstored.sourced hkeys (hcovers candidate (.head _)) hhit rfl
        exact kept_releaseIf hstored (sound_adopt hread hsourced.1 hmade hsourced.2)
  · cases h

omit [DecidableEq Key] in
/-- The lock is taken. -/
theorem kept_acquire (hstored : Stored config world) (hsound : Sound config world call)
    {today : Today config.cache.policy} (h : acquire config world call today = some (world', call')) :
    Kept world world' call' := by
  unfold acquire at h
  split at h
  · next operation window hstage =>
    rw [Sound, hstage] at hsound
    obtain ⟨hasks, hmade⟩ := hsound
    split_ifs at h
    cases h
    exact ⟨hstored.congr rfl rfl rfl, .refl world, ⟨hasks.reads, hasks.grain, hasks.window⟩, hmade,
      fun candidate hmem => covers_of_mem_candidateWindows hmem⟩
  · cases h

omit [DecidableEq Key] in
/-- What an owner fetched is served at once. -/
theorem kept_serveFresh (hstored : Stored config world) (hasks : Asks config call operation window)
    {fetched : Fetched} (hsnapshot : call.snapshot = some fetched) (hcomplete : fetched.complete = true)
    (hmade : call.made = fetched.callCount) {generatedAt : String}
    (h : serveFresh config world call operation window fetched generatedAt = (world', call')) :
    Kept world world' call' := by
  unfold serveFresh at h
  cases h
  refine kept_releaseIf hstored ?_
  cases hfresh : Call.freshHit operation window fetched generatedAt with
  | none => exact sound_falls hasks hmade
  | some hit =>
    obtain ⟨hrows, hfooter, hwindow, hcount⟩ := freshHit_eq_some hfresh
    exact sound_adopt hasks (.fetched fetched hsnapshot hcomplete hrows hfooter hwindow hcount) hmade hcount

omit [DecidableEq Key] in
/-- The fetch of an owner. -/
theorem kept_snapshotted (hstored : Stored config world) (hsound : Sound config world call)
    {result : Option Fetched} {generatedAt : String}
    (h : snapshotted config world call result generatedAt = some (world', call')) : Kept world world' call' := by
  unfold snapshotted at h
  split at h
  · next operation window hstage =>
    rw [Sound, hstage] at hsound
    obtain ⟨hasks, hmade⟩ := hsound
    cases result with
    | none =>
      cases h
      exact kept_releaseIf hstored (sound_falls hasks hmade)
    | some fetched =>
      have hcalled : Asks config { call with made := call.made + fetched.callCount, snapshot := some fetched }
        operation window := ⟨hasks.reads, hasks.grain, hasks.window⟩
      have hcost : call.made + fetched.callCount = fetched.callCount := by
        rw [show call.made = 0 from hmade, Nat.zero_add]
      simp only at h
      split_ifs at h with hcomplete hwrites hfooter
      · cases h
        exact kept_releaseIf hstored (sound_falls hcalled hcost)
      · cases h
        exact kept_same hstored
          ⟨⟨hasks.reads, hasks.grain, hasks.window⟩, hcost, rfl, by simpa using hcomplete, hwrites⟩
      · cases h
        exact kept_releaseIf hstored (sound_falls hcalled hcost)
      · exact kept_serveFresh hstored hcalled rfl (by simpa using hcomplete) hcost (Option.some.inj h)
  · cases h

omit [DecidableEq Lock] in
/-- **A write lands.** What an owner fetched, or what may be kept of a caller, is whole. -/
theorem kept_put (hstored : Stored config world) (hsound : Sound config world call)
    {today : Today config.cache.policy} {generatedAt : String}
    (h : put config world call today generatedAt = some (world', call')) : Kept world world' call' := by
  unfold put at h
  split at h
  · next operation window fetched hstage =>
    rw [Sound, hstage] at hsound
    obtain ⟨hasks, hmade, hsnapshot, hcomplete, hwrites⟩ := hsound
    cases h
    obtain ⟨hstored', hgrows⟩ := hstored.publish ⟨call.tenant, operation, fetched.rows, fetched.footer,
      detailParams call.request.params, window, "query", generatedAt, today, world.now, .owner fetched⟩
      ⟨hwrites, hcomplete, rfl, rfl⟩
    exact ⟨hstored', hgrows, ⟨hasks.reads, hasks.grain, hasks.window⟩, hmade, hsnapshot, hcomplete, hwrites⟩
  · next operation window spent result hstage =>
    rw [Sound, hstage] at hsound
    obtain ⟨hasks, hmade, hreason, fetched, hlast, hcomplete, hrows, hshown⟩ := hsound
    rw [hlast, Option.map_some] at h
    cases h
    obtain ⟨hwrites, -, hrole, hfilters, hgroupby⟩ := Request.writeReason_eq_none hreason
    obtain ⟨hstored', hgrows⟩ := hstored.publish ⟨call.tenant, operation, result.rows, result.footer,
      call.request.params, window, "query", generatedAt, today, world.now, .caller call.request fetched⟩
      ⟨hwrites, hrole, hfilters, Request.groupbyFields_of_truthy hgroupby, rfl, rfl, hcomplete, hrows⟩
    exact ⟨hstored', hgrows, ⟨hasks.reads, hasks.grain, hasks.window⟩, hmade, hreason, fetched, hlast, hcomplete, hrows,
      hshown⟩
  · cases h

omit [DecidableEq Key] in
/-- The store has answered a write. -/
theorem kept_reported (hstored : Stored config world) (hsound : Sound config world call) {confirmed : Bool}
    {generatedAt : String} (h : reported config world call confirmed generatedAt = some (world', call')) :
    Kept world world' call' := by
  unfold reported at h
  split at h
  · next operation window fetched landed hstage =>
    rw [Sound, hstage] at hsound
    obtain ⟨hasks, hmade, hsnapshot, hcomplete, hwrites⟩ := hsound
    split_ifs at h
    · exact kept_serveFresh hstored hasks hsnapshot hcomplete hmade (Option.some.inj h)
    · cases h
      exact kept_releaseIf hstored (sound_falls hasks hmade)
  · next operation window spent result landed hstage =>
    rw [Sound, hstage] at hsound
    obtain ⟨-, hmade, -, fetched, -, -, -, hshown⟩ := hsound
    cases h
    exact kept_same hstored (sound_charge hmade hshown)
  · cases h

omit [DecidableEq Lock] in
/-- What could not be served was evicted. -/
theorem kept_evicted (hstored : Stored config world) (hsound : Sound config world call) {landed : Bool}
    (h : evicted config world call landed = some (world', call')) : Kept world world' call' := by
  unfold evicted at h
  split at h
  · next operation window hitWindow spent hstage =>
    rw [Sound, hstage] at hsound
    obtain ⟨hasks, hmade⟩ := hsound
    cases h
    refine ⟨hstored.evict, fun publication hmem => ?_, sound_falls hasks hmade⟩
    rw [World.published_evict]
    exact hmem
  · cases h

omit [DecidableEq Key] [DecidableEq Lock] in
/-- **A fetch from the MES ends**, with an answer, or with something more to ask for. -/
theorem sound_fetched (hsound : Sound config world call) {result : Option Fetched}
    (h : fetched config call result = some call') : Sound config world call' := by
  unfold fetched at h
  split at h
  · cases h
    trivial
  · cases h
    trivial
  · cases h
    trivial
  · cases h
    trivial
  · next fetched hstage =>
    rw [Sound, hstage] at hsound
    obtain ⟨hmade, huncached⟩ := hsound
    cases h
    refine honest_realtime ((call.notes fetched).moves _) ?_ fun hcached => absurd hcached huncached
    show call.made + fetched.callCount = fetched.callCount
    rw [hmade, Nat.zero_add]
  · next operation fetching fetched hstage =>
    rw [Sound, hstage] at hsound
    obtain ⟨hspent, hdue⟩ := hsound
    have hmade : call.made = 0 + fetching.spent.getD 0 := hspent.trans (Nat.zero_add _).symm
    cases h
    refine receives_cases (fun hagain => ?_) trivial (fun result hreceived => ?_)
    · obtain ⟨hcost, hdue'⟩ := made_again hdue hmade hagain
      exact ⟨hcost.trans (Nat.zero_add _), hdue'⟩
    · have hcost := (made_finished hmade hreceived).trans (Nat.zero_add _)
      refine honest_realtime ((call.notes fetched).moves _) hcost fun _ => ?_
      rw [rows_finished]
      exact Request.shown_of_received hreceived
  · next operation window served hitWindow fetching fetched hstage =>
    rw [Sound, hstage] at hsound
    obtain ⟨hasks, hverifies, hserved, hmade, hdue⟩ := hsound
    cases h
    refine receives_cases (fun hagain => ?_) trivial (fun result hreceived => ?_)
    · obtain ⟨hcost, hdue'⟩ := made_again hdue hmade hagain
      exact ⟨⟨hasks.reads, hasks.grain, hasks.window⟩, hverifies, hserved.congr rfl rfl rfl, hcost, hdue'⟩
    · refine ⟨(made_finished hmade hreceived).symm, ⟨hverifies, served, hserved.congr rfl rfl rfl, rfl⟩, ?_⟩
      rintro - rows (_ | ⟨_, hmem⟩)
      · exact hserved.shown
      · rw [List.mem_singleton.mp hmem, rows_finished]
        exact Request.shown_of_received hreceived
  · next operation window spent fetching fetched hstage =>
    rw [Sound, hstage] at hsound
    obtain ⟨hasks, hmade, hdue⟩ := hsound
    cases h
    refine receives_cases (fun hagain => ?_) trivial (fun result hreceived => ?_)
    · obtain ⟨hcost, hdue'⟩ := made_again hdue hmade hagain
      exact ⟨⟨hasks.reads, hasks.grain, hasks.window⟩, hcost, hdue'⟩
    · exact sound_keeps hasks hdue hmade hreceived
  · cases h

omit [DecidableEq Lock] in
/-- What was served stays served, whether the kernel agrees or not. -/
theorem kept_judged (hstored : Stored config world) (hsound : Sound config world call) {agrees landed : Bool}
    (h : judged config world call agrees landed = some (world', call')) : Kept world world' call' := by
  unfold judged at h
  split at h
  · next answer operation hitWindow hstage hgrain hremembered =>
    rw [Sound, hstage] at hsound
    have hanswer : Sound config world { call with remembered := none } := by
      rw [Sound, show ({ call with remembered := none } : Call).stage = .ended answer from hstage]
      refine ⟨hsound.counted, ?_, hsound.shown⟩
      have hsourced := hsound.sourced
      unfold Answer.Sourced at hsourced ⊢
      split at hsourced
      · exact ⟨hsourced.1, hsourced.2.1, hsourced.2.2.congr rfl rfl rfl⟩
      · obtain ⟨hverifies, served, hserved, hresult⟩ := hsourced
        exact ⟨hverifies, served, hserved.congr rfl rfl rfl, hresult⟩
      · trivial
    cases h
    split_ifs
    · exact kept_same hstored hanswer
    · have hgrows : Grows config world (world.evict call operation hitWindow landed) := fun publication hmem => by
        rw [World.published_evict]
        exact hmem
      exact ⟨hstored.evict, hgrows, hanswer.mono hgrows⟩
  · cases h

omit [DecidableEq Key] in
/-- Nothing is known of a call that is abandoned. -/
theorem kept_abandoned (hstored : Stored config world) (h : abandoned config world call = some (world', call')) :
    Kept world world' call' := by
  unfold abandoned at h
  split at h
  · cases h
  · cases h
  · cases h
  · cases h
    split
    · exact ⟨hstored.congr rfl rfl rfl, .refl world, trivial⟩
    · exact kept_same hstored trivial

/-- **What happens to a call keeps what is known.** -/
theorem kept_act (hstored : Stored config world) (hkeys : config.TenantsApart) (hsound : Sound config world call)
    {event : CallEvent config.cache.policy} (h : act config world call event = some (world', call')) :
    Kept world world' call' := by
  cases event with
  | begin today =>
    simp only [act] at h
    split at h
    · next hstage =>
      cases h
      exact kept_same hstored (sound_begin hstage hsound today)
    · cases h
  | looked lookup => exact kept_look hstored hkeys hsound h
  | acquired today => exact kept_acquire hstored hsound h
  | snapshotted result generatedAt => exact kept_snapshotted hstored hsound h
  | put today generatedAt => exact kept_put hstored hsound h
  | reported confirmed generatedAt => exact kept_reported hstored hsound h
  | evicted landed => exact kept_evicted hstored hsound h
  | fetched result =>
    obtain ⟨called, hcalled, hpair⟩ := Option.map_eq_some_iff.mp h
    cases hpair
    exact kept_same hstored (sound_fetched hsound hcalled)
  | judged agrees landed => exact kept_judged hstored hsound h
  | abandoned => exact kept_abandoned hstored h

end Keeping

/-! ## Which lock a call holds -/

theorem held_falls {spent : Nat} : (call.falls operation window spent).held config = none := rfl

theorem held_missed {locked : Bool} : (call.missed config operation window locked).held config
    = if locked then some (call.lock config operation window) else none := by
  unfold Call.missed
  split_ifs <;> rfl

theorem held_probing {locked : Bool} {left : List (String × String)} :
    (call.moves (.asking operation window (.probing locked left))).held config
      = if locked then some (call.lock config operation window) else none := by
  cases locked <;> rfl

/-- **A call that has its hit holds no lock.** -/
theorem held_adopt {hit : CacheHit operation} {spent : Nat} :
    (call.adopt config window hit spent).held config = none := by
  unfold Call.adopt
  split
  · rfl
  · split
    · rfl
    · rfl
    · split_ifs <;> rfl

theorem held_begin (today : Today config.cache.policy) : (call.begin config today).held config = none := by
  unfold Call.begin
  split
  · rfl
  · split
    · rfl
    · split
      · split
        · split <;> rfl
        · rfl
      · rfl

theorem held_keeps {spent : Nat} {result : Fetched} :
    (call.keeps config operation window spent result).held config = none := by
  unfold Call.keeps
  split <;> rfl

theorem held_receives {fetching : Fetching} {fetched : Fetched} {again : Fetching → Stage}
    {done : Call → Fetched → Call} (hagain : ∀ called : Call, ∀ more, (called.moves (again more)).held config = none)
    (hdone : ∀ called result, (done called result).held config = none) :
    (call.receives config operation fetching fetched again done).held config = none :=
  receives_cases (motive := fun called => called.held config = none) (fun _ => hagain _ _) rfl
    fun _ _ => hdone _ _

/-- A fetch from the MES is awaited without a lock. -/
theorem held_fetched {result : Option Fetched} (h : fetched config call result = some call') :
    call.held config = none ∧ call'.held config = none := by
  unfold fetched at h
  split at h
  case h_9 => cases h
  all_goals
    next hstage =>
    cases h
    refine ⟨by rw [Call.held, hstage], ?_⟩
    first
      | rfl
      | exact held_receives (fun _ _ => rfl) fun _ _ => rfl
      | exact held_receives (fun _ _ => rfl) fun _ _ => held_keeps

section Locks

variable [DecidableEq Lock]

/-- **A lock that is released where it is held.** -/
theorem move_releaseIf {asker : Call} {locked : Bool}
    (hbefore : call.held config = if locked then some (asker.lock config operation window) else none)
    (hafter : call'.held config = none) :
    Move world.locked (world.releaseIf asker operation window locked).locked (call.held config)
      (call'.held config) := by
  cases locked with
  | true => exact .freed _ hbefore rfl hafter
  | false => exact .kept rfl (hafter.trans hbefore.symm)

variable [DecidableEq Key]

omit [DecidableEq Key] in
theorem move_look {lookup : Lookup} (h : look config world call lookup = some (world', call')) :
    Move world.locked world'.locked (call.held config) (call'.held config) := by
  unfold look at h
  split at h
  · next operation window locked candidate left hstage =>
    have hheld : call.held config = if locked then some (call.lock config operation window) else none := by
      rw [Call.held, hstage]
      cases locked <;> rfl
    have hnext (h : (if left = [] then (world, call.missed config operation window locked)
        else (world, call.moves (.asking operation window (.probing locked left)))) = (world', call')) :
        Move world.locked world'.locked (call.held config) (call'.held config) := by
      split_ifs at h
      · cases h
        exact .kept rfl (held_missed.trans hheld.symm)
      · cases h
        exact .kept rfl (held_probing.trans hheld.symm)
    cases lookup with
    | failed =>
      cases h
      exact .kept rfl (held_missed.trans hheld.symm)
    | unavailable => exact hnext (Option.some.inj h)
    | answered =>
      simp only at h
      split at h
      · exact hnext (Option.some.inj h)
      · cases h
        exact move_releaseIf hheld held_adopt
  · cases h

omit [DecidableEq Key] in
theorem move_acquire {today : Today config.cache.policy} (h : acquire config world call today = some (world', call')) :
    Move world.locked world'.locked (call.held config) (call'.held config) := by
  unfold acquire at h
  split at h
  · next hstage =>
    split_ifs at h with hfree
    cases h
    exact .taken _ (by rw [Call.held, hstage]) (Bool.eq_false_iff.mpr hfree) rfl rfl
  · cases h

omit [DecidableEq Key] in
theorem move_serveFresh {asker : Call} {fetched : Fetched} {generatedAt : String}
    (hbefore : call.held config = some (asker.lock config operation window))
    (h : serveFresh config world asker operation window fetched generatedAt = (world', call')) :
    Move world.locked world'.locked (call.held config) (call'.held config) := by
  unfold serveFresh at h
  cases h
  refine move_releaseIf hbefore ?_
  split
  · rfl
  · exact held_adopt

omit [DecidableEq Key] in
theorem move_snapshotted {result : Option Fetched} {generatedAt : String}
    (h : snapshotted config world call result generatedAt = some (world', call')) :
    Move world.locked world'.locked (call.held config) (call'.held config) := by
  unfold snapshotted at h
  split at h
  · next operation window hstage =>
    have hheld : call.held config = some (call.lock config operation window) := by
      rw [Call.held, hstage]
    cases result with
    | none =>
      cases h
      exact move_releaseIf hheld held_falls
    | some fetched =>
      simp only at h
      split_ifs at h
      · cases h
        exact move_releaseIf hheld held_falls
      · cases h
        exact .kept rfl hheld.symm
      · cases h
        exact move_releaseIf hheld held_falls
      · refine move_serveFresh ?_ (Option.some.inj h)
        exact hheld
  · cases h

theorem move_put {today : Today config.cache.policy} {generatedAt : String}
    (h : put config world call today generatedAt = some (world', call')) :
    Move world.locked world'.locked (call.held config) (call'.held config) := by
  unfold put at h
  split at h
  · next hstage =>
    cases h
    exact .kept rfl (by rw [Call.held, Call.held, hstage]; rfl)
  · next hstage =>
    obtain ⟨fetched, -, hpair⟩ := Option.map_eq_some_iff.mp h
    cases hpair
    exact .kept rfl (by rw [Call.held, Call.held, hstage]; rfl)
  · cases h

omit [DecidableEq Key] in
theorem move_reported {confirmed : Bool} {generatedAt : String}
    (h : reported config world call confirmed generatedAt = some (world', call')) :
    Move world.locked world'.locked (call.held config) (call'.held config) := by
  unfold reported at h
  split at h
  · next operation window fetched landed hstage =>
    have hheld : call.held config = some (call.lock config operation window) := by
      rw [Call.held, hstage]
    split_ifs at h
    · exact move_serveFresh hheld (Option.some.inj h)
    · cases h
      exact move_releaseIf hheld held_falls
  · next hstage =>
    cases h
    exact .kept rfl (by rw [Call.held, Call.held, hstage]; rfl)
  · cases h

theorem move_evicted {landed : Bool} (h : evicted config world call landed = some (world', call')) :
    Move world.locked world'.locked (call.held config) (call'.held config) := by
  unfold evicted at h
  split at h
  · next hstage =>
    cases h
    exact .kept World.locked_evict (by rw [Call.held, Call.held, hstage]; rfl)
  · cases h

theorem move_judged {agrees landed : Bool} (h : judged config world call agrees landed = some (world', call')) :
    Move world.locked world'.locked (call.held config) (call'.held config) := by
  unfold judged at h
  split at h
  · cases h
    refine .kept ?_ rfl
    split_ifs
    · rfl
    · exact World.locked_evict
  · cases h

omit [DecidableEq Key] in
theorem move_abandoned (h : abandoned config world call = some (world', call')) :
    Move world.locked world'.locked (call.held config) (call'.held config) := by
  unfold abandoned at h
  split at h
  · cases h
  · cases h
  · cases h
  · cases h
    cases hheld : call.held config with
    | some lock => exact .freed lock rfl rfl rfl
    | none => exact .kept rfl rfl

/-- **What happens to a call takes a free lock, lets go of its own, or neither.** -/
theorem move_act {event : CallEvent config.cache.policy} (h : act config world call event = some (world', call')) :
    Move world.locked world'.locked (call.held config) (call'.held config) := by
  cases event with
  | begin today =>
    simp only [act] at h
    split at h
    · next hstage =>
      cases h
      exact .kept rfl ((held_begin today).trans (by rw [Call.held, hstage]))
    · cases h
  | looked lookup => exact move_look h
  | acquired today => exact move_acquire h
  | snapshotted result generatedAt => exact move_snapshotted h
  | put today generatedAt => exact move_put h
  | reported confirmed generatedAt => exact move_reported h
  | evicted landed => exact move_evicted h
  | fetched result =>
    obtain ⟨called, hcalled, hpair⟩ := Option.map_eq_some_iff.mp h
    cases hpair
    obtain ⟨hbefore, hafter⟩ := held_fetched hcalled
    exact .kept rfl (hafter.trans hbefore.symm)
  | judged agrees landed => exact move_judged h
  | abandoned => exact move_abandoned h

end Locks

/-! ## The whole run -/

section Runs

variable [DecidableEq Key] [DecidableEq Lock]

/-- The lock that the call of an index holds. -/
def heldBy (world : World config) (index : Nat) : Option Lock :=
  world.calls[index]?.bind (Call.held config)

/-- **The invariant of the executor.** -/
structure Invariant (world : World config) : Prop where
  stored : Stored config world
  sound : ∀ (index : Nat) (call : Call), world.calls[index]? = some call → Sound config world call
  locks : Agrees world.locked (heldBy world)

omit [DecidableEq Key] [DecidableEq Lock] in
theorem invariant_start : Invariant (start config) where
  stored := ⟨fun _ _ h => absurd h (Option.some_ne_none _).symm, fun _ h => absurd h List.not_mem_nil,
    fun _ h => absurd h List.not_mem_nil⟩
  sound index call h := by
    rw [start, List.getElem?_nil] at h
    cases h
  locks := .free _ fun index => by rw [heldBy, start, List.getElem?_nil, Option.bind_none]

omit [DecidableEq Key] [DecidableEq Lock] in
/-- A world with the same calls and locks, and more that was published. -/
theorem Invariant.congr (h : Invariant world) (hstored : Stored config world') (hgrows : Grows config world world')
    (hcalls : world'.calls = world.calls) (hlocked : world'.locked = world.locked) : Invariant world' where
  stored := hstored
  sound index call hcall := by
    rw [hcalls] at hcall
    exact (h.sound index call hcall).mono hgrows
  locks := by
    have hheld : heldBy world' = heldBy world := funext fun index => by rw [heldBy, heldBy, hcalls]
    rw [hheld, hlocked]
    exact h.locks

/-- **A step keeps the invariant.** -/
theorem Invariant.step (h : Invariant world) (hkeys : config.TenantsApart) {event : Event Key config.cache.policy}
    (hstep : step config world event = some world') : Invariant world' := by
  cases event with
  | wait seconds =>
    cases hstep
    exact h.congr (h.stored.wait seconds) (fun _ hmem => hmem) rfl rfl
  | lose key =>
    cases hstep
    exact h.congr (h.stored.remove key) (fun _ hmem => hmem) rfl rfl
  | published publication =>
    cases hstep
    obtain ⟨hstored, hgrows⟩ := h.stored.publish { publication with origin := .elsewhere } trivial
    exact h.congr hstored hgrows rfl rfl
  | arrive request =>
    cases hstep
    refine ⟨h.stored.congr rfl rfl rfl, fun index call hcall => ?_, ?_⟩
    · rw [List.getElem?_append] at hcall
      split_ifs at hcall
      · exact (h.sound index call hcall).mono fun _ hmem => hmem
      · obtain rfl := List.mem_singleton.mp (List.mem_of_getElem? hcall)
        exact (rfl : (0 : Nat) = 0)
    · have hheld : heldBy { world with calls := world.calls ++ [{ request }] } = heldBy world := by
        funext index
        simp only [heldBy, List.getElem?_append]
        split_ifs with hlt
        · rfl
        · rw [List.getElem?_eq_none (Nat.le_of_not_lt hlt), Option.bind_none]
          refine Option.bind_eq_none_iff.mpr fun call hcall => ?_
          obtain rfl := List.mem_singleton.mp (List.mem_of_getElem? hcall)
          rfl
      rw [hheld]
      exact h.locks
  | act index event =>
    obtain ⟨call, hcall, hafter⟩ := Option.bind_eq_some_iff.mp hstep
    obtain ⟨⟨after, called⟩, hact, rfl⟩ := Option.map_eq_some_iff.mp hafter
    obtain ⟨hstored, hgrows, hsound⟩ := kept_act h.stored hkeys (h.sound index call hcall) hact
    have hlt := (List.getElem?_eq_some_iff.mp hcall).1
    refine ⟨hstored.congr rfl rfl rfl, fun other found hfound => ?_, ?_⟩
    · rw [List.getElem?_set] at hfound
      split_ifs at hfound with hsame
      · cases hfound
        exact hsound.mono fun _ hmem => hmem
      · exact (h.sound other found hfound).mono hgrows
    · refine h.locks.move index ?_ fun other hother => ?_
      · have hbefore : heldBy world index = call.held config := by rw [heldBy, hcall, Option.bind_some]
        have hafter : (world.calls.set index called)[index]?.bind (Call.held config) = called.held config := by
          rw [List.getElem?_set_self hlt, Option.bind_some]
        rw [hbefore]
        show Move world.locked after.locked _ ((world.calls.set index called)[index]?.bind (Call.held config))
        rw [hafter]
        exact move_act hact
      · show (world.calls.set index called)[other]?.bind (Call.held config) = _
        rw [List.getElem?_set_ne hother.symm]
        rfl

/-- **The invariant holds in every run.** -/
theorem invariant_of_reach (hkeys : config.TenantsApart) (h : Machine.Reach (machine config) Machine.free world) :
    Invariant world :=
  h.invariant invariant_start fun hbefore _ hstep => hbefore.step hkeys hstep

omit [DecidableEq Key] [DecidableEq Lock] in
/-- The answer of a call is honest. -/
theorem Invariant.honest (h : Invariant world) (hmem : call ∈ world.calls) {answer : Answer}
    (hended : call.stage = .ended answer) : Honest config world call answer := by
  obtain ⟨index, hcall⟩ := List.mem_iff_getElem?.mp hmem
  have hsound := h.sound index call hcall
  rw [Sound, hended] at hsound
  exact hsound

/-- **Serving many callers.** In every run, each answer is honest: it says how often the MES was asked; what comes from
the cache is the view that its caller has of one fetch that was complete and narrowed to nobody, for its own tenant and
parameters, over a window that covers its question, and not yet expired when it was read; and a caller who groups
nothing is shown only what it may see. Only such fetches are ever kept, and no two calls have an owner fetch the
snapshot of one question at once. -/
theorem serving_run (hkeys : config.TenantsApart) (h : Machine.Reach (machine config) Machine.free world) :
    (∀ call ∈ world.calls, ∀ answer, call.stage = .ended answer → Honest config world call answer)
    ∧ (∀ publication ∈ world.published, publication.Whole)
    ∧ ∀ (i j : Nat) (first second : Call) operation window operation' window', world.calls[i]? = some first →
      world.calls[j]? = some second → first.stage = .asking operation window .snapshotting →
      second.stage = .asking operation' window' .snapshotting →
      first.lock config operation window = second.lock config operation' window' → i = j := by
  have hinvariant := invariant_of_reach hkeys h
  refine ⟨fun call hmem answer hended => hinvariant.honest hmem hended, hinvariant.stored.whole, ?_⟩
  intro i j first second operation window operation' window' hfirst hsecond hstage hstage' hlock
  refine hinvariant.locks.apart i j (first.lock config operation window) ?_ ?_
  · rw [heldBy, hfirst, Option.bind_some, Call.held, hstage]
  · rw [heldBy, hsecond, Option.bind_some, Call.held, hstage', hlock]

end Runs

/-! ## Calls for which no owner fetches -/

/-- Whether a call comes to a stage without an owner. -/
def Stage.unaided : Stage → Bool
  | .asking _ _ (.probing locked _) => !locked
  | .asking _ _ .waiting => false
  | .asking _ _ .snapshotting => false
  | .asking _ _ (.publishing _ _) => false
  | _ => true

/-- **A call of a request**, for which no owner fetches where the request refuses that. -/
structure Unaided (request : Request) (call : Call) : Prop where
  same : call.request = request
  snapshot : request.allowOwnerSnapshot = false → call.snapshot = none
  stage : request.allowOwnerSnapshot = false → call.stage.unaided = true

namespace Unaided

variable {request : Request}

theorem moves (h : Unaided request call) {stage : Stage}
    (hstage : request.allowOwnerSnapshot = false → stage.unaided = true) : Unaided request (call.moves stage) :=
  ⟨h.same, h.snapshot, hstage⟩

theorem notes (h : Unaided request call) (fetched : Fetched) : Unaided request (call.notes fetched) :=
  ⟨h.same, h.snapshot, h.stage⟩

theorem adopt (h : Unaided request call) {hit : CacheHit operation} {spent : Nat} :
    Unaided request (call.adopt config window hit spent) := by
  unfold Call.adopt
  split
  · exact h.moves fun _ => rfl
  · split
    · exact h.moves fun _ => rfl
    · exact h.moves fun _ => rfl
    · split_ifs <;> exact h.moves fun _ => rfl

/-- Where nothing is found, the MES is asked at once. -/
theorem missed (h : Unaided request call) {locked : Bool}
    (hlocked : request.allowOwnerSnapshot = false → locked = false) :
    Unaided request (call.missed config operation window locked) := by
  unfold Call.missed
  split_ifs with htrue hallowed
  -- an owner is only asked under the lock, and the lock is only waited for with leave to ask one
  · exact h.moves fun hrefused => by rw [hlocked hrefused] at htrue; cases htrue
  · refine h.moves fun hrefused => ?_
    rw [h.same, hrefused, Bool.and_false] at hallowed
    cases hallowed
  · exact h.moves fun _ => rfl

theorem begin (h : Unaided request call) (today : Today config.cache.policy) :
    Unaided request (call.begin config today) := by
  unfold Call.begin
  split
  · exact h.moves fun _ => rfl
  · split
    · exact h.moves fun _ => rfl
    · split
      · split
        · split <;> exact h.moves fun _ => rfl
        · exact h.moves fun _ => rfl
      · exact h.moves fun _ => rfl

theorem keeps (h : Unaided request call) {spent : Nat} {result : Fetched} :
    Unaided request (call.keeps config operation window spent result) := by
  unfold Call.keeps
  split <;> exact h.moves fun _ => rfl

theorem receives (h : Unaided request call) {fetching : Fetching} {fetched : Fetched} {again : Fetching → Stage}
    {done : Call → Fetched → Call} (hagain : ∀ more, (again more).unaided = true)
    (hdone : ∀ called result, Unaided request called → Unaided request (done called result)) :
    Unaided request (call.receives config operation fetching fetched again done) :=
  receives_cases (motive := Unaided request) (fun _ => (h.notes fetched).moves fun _ => hagain _)
    ((h.notes fetched).moves fun _ => rfl) fun _ _ => hdone _ _ (h.notes fetched)

theorem fetched (h : Unaided request call) {result : Option Fetched}
    (hfetched : fetched config call result = some call') : Unaided request call' := by
  unfold Serving.fetched at hfetched
  split at hfetched
  case h_9 => cases hfetched
  all_goals
    cases hfetched
    first
      | exact h.moves fun _ => rfl
      | exact (h.notes _).moves fun _ => rfl
      | exact h.receives (fun _ => rfl) fun _ _ hcalled => hcalled.moves fun _ => rfl
      | exact h.receives (fun _ => rfl) fun _ _ hcalled => ⟨hcalled.same, hcalled.snapshot, fun _ => rfl⟩
      | exact h.receives (fun _ => rfl) fun _ _ hcalled => hcalled.keeps

/-- A stage that a call only comes to with an owner. -/
theorem allowed (h : Unaided request call) (hstage : call.stage.unaided = false) :
    ¬request.allowOwnerSnapshot = false := fun hrefused => by
  rw [h.stage hrefused] at hstage
  cases hstage

variable [DecidableEq Key] [DecidableEq Lock]

omit [DecidableEq Key] in
theorem look (h : Unaided request call) {lookup : Lookup}
    (hlook : look config world call lookup = some (world', call')) : Unaided request call' := by
  unfold Serving.look at hlook
  split at hlook
  · next operation window locked candidate left hstage =>
    have hlocked : request.allowOwnerSnapshot = false → locked = false := fun hrefused => by
      have hunaided := h.stage hrefused
      rw [hstage] at hunaided
      simpa [Stage.unaided] using hunaided
    have hnext (hpair : (if left = [] then (world, call.missed config operation window locked)
        else (world, call.moves (.asking operation window (.probing locked left)))) = (world', call')) :
        Unaided request call' := by
      split_ifs at hpair
      · cases hpair
        exact h.missed hlocked
      · cases hpair
        exact h.moves fun hrefused => by rw [hlocked hrefused]; rfl
    cases lookup with
    | failed =>
      cases hlook
      exact h.missed hlocked
    | unavailable => exact hnext (Option.some.inj hlook)
    | answered =>
      simp only at hlook
      split at hlook
      · exact hnext (Option.some.inj hlook)
      · cases hlook
        have hread : Unaided request { call with readAt := world.now } := ⟨h.same, h.snapshot, h.stage⟩
        exact hread.adopt
  · cases hlook

omit [DecidableEq Key] in
theorem serveFresh {asker : Call} (h : Unaided request asker) {fetched : Fetched} {generatedAt : String}
    (hserve : serveFresh config world asker operation window fetched generatedAt = (world', call')) :
    Unaided request call' := by
  unfold Serving.serveFresh at hserve
  cases hserve
  split
  · exact h.moves fun _ => rfl
  · exact h.adopt

omit [DecidableEq Key] in
theorem snapshotted (h : Unaided request call) {result : Option Fetched} {generatedAt : String}
    (hsnapshotted : snapshotted config world call result generatedAt = some (world', call')) :
    Unaided request call' := by
  unfold Serving.snapshotted at hsnapshotted
  split at hsnapshotted
  · next hstage =>
    have hallowed := h.allowed (by rw [hstage]; rfl)
    cases result with
    | none =>
      cases hsnapshotted
      exact h.moves fun _ => rfl
    | some fetched =>
      have hcalled : Unaided request { call with made := call.made + fetched.callCount, snapshot := some fetched } :=
        ⟨h.same, fun hrefused => absurd hrefused hallowed, h.stage⟩
      simp only at hsnapshotted
      split_ifs at hsnapshotted
      · cases hsnapshotted
        exact hcalled.moves fun _ => rfl
      · cases hsnapshotted
        exact hcalled.moves fun hrefused => absurd hrefused hallowed
      · cases hsnapshotted
        exact hcalled.moves fun _ => rfl
      · exact hcalled.serveFresh (Option.some.inj hsnapshotted)
  · cases hsnapshotted

/-- **What happens to a call** leaves it what it is. -/
theorem act (h : Unaided request call) {event : CallEvent config.cache.policy}
    (hact : act config world call event = some (world', call')) : Unaided request call' := by
  cases event with
  | begin today =>
    simp only [Serving.act] at hact
    split at hact
    · cases hact
      exact h.begin today
    · cases hact
  | looked lookup => exact h.look hact
  | acquired today =>
    simp only [Serving.act, acquire] at hact
    split at hact
    · next hstage =>
      have hallowed := h.allowed (by rw [hstage]; rfl)
      split_ifs at hact
      cases hact
      exact h.moves fun hrefused => absurd hrefused hallowed
    · cases hact
  | snapshotted result generatedAt => exact h.snapshotted hact
  | put today generatedAt =>
    simp only [Serving.act, put] at hact
    split at hact
    · next hstage =>
      have hallowed := h.allowed (by rw [hstage]; rfl)
      cases hact
      exact h.moves fun hrefused => absurd hrefused hallowed
    · obtain ⟨fetched, -, hpair⟩ := Option.map_eq_some_iff.mp hact
      cases hpair
      exact h.moves fun _ => rfl
    · cases hact
  | reported confirmed generatedAt =>
    simp only [Serving.act, reported] at hact
    split at hact
    · split_ifs at hact
      · exact h.serveFresh (Option.some.inj hact)
      · cases hact
        exact h.moves fun _ => rfl
    · cases hact
      exact h.moves fun _ => rfl
    · cases hact
  | evicted landed =>
    simp only [Serving.act, evicted] at hact
    split at hact
    · cases hact
      exact h.moves fun _ => rfl
    · cases hact
  | fetched result =>
    obtain ⟨called, hcalled, hpair⟩ := Option.map_eq_some_iff.mp hact
    cases hpair
    exact h.fetched hcalled
  | judged agrees landed =>
    simp only [Serving.act, judged] at hact
    split at hact
    · cases hact
      exact ⟨h.same, h.snapshot, h.stage⟩
    · cases hact
  | abandoned =>
    simp only [Serving.act, abandoned] at hact
    split at hact
    · cases hact
    · cases hact
    · cases hact
    · cases hact
      exact h.moves fun _ => rfl

end Unaided

section Requests

variable [DecidableEq Key] [DecidableEq Lock]

/-- **What holds of every call**: of those that arrive, and of a call that something happens to. -/
theorem calls_step {P : Call → Prop} {event : Event Key config.cache.policy}
    (harrive : ∀ request, event = .arrive request → P { request })
    (hact : ∀ call event world' call', P call → act config world call event = some (world', call') → P call')
    (hcalls : ∀ call ∈ world.calls, P call) (hstep : step config world event = some world') :
    ∀ call ∈ world'.calls, P call := by
  cases event with
  | wait seconds =>
    cases hstep
    exact hcalls
  | lose key =>
    cases hstep
    exact hcalls
  | published publication =>
    cases hstep
    exact hcalls
  | arrive request =>
    cases hstep
    intro call hmem
    rcases List.mem_append.mp hmem with hmem | hmem
    · exact hcalls call hmem
    · obtain rfl := List.mem_singleton.mp hmem
      exact harrive request rfl
  | act index event =>
    obtain ⟨call, hcall, hafter⟩ := Option.bind_eq_some_iff.mp hstep
    obtain ⟨⟨world', call'⟩, hacted, rfl⟩ := Option.map_eq_some_iff.mp hafter
    intro other hmem
    rcases List.mem_or_eq_of_mem_set hmem with hmem | rfl
    · exact hcalls other hmem
    · exact hact call event world' other (hcalls call (List.mem_of_getElem? hcall)) hacted

theorem unaided_act {event : CallEvent config.cache.policy} (h : Unaided call.request call)
    (hact : act config world call event = some (world', call')) : Unaided call'.request call' := by
  have hcalled := h.act hact
  rw [hcalled.same]
  exact hcalled

/-- **A call that refuses an owner has none**, in every run. -/
theorem unaided_of_reach (h : Machine.Reach (machine config) Machine.free world) :
    ∀ call ∈ world.calls, Unaided call.request call :=
  h.invariant (I := fun world => ∀ call ∈ world.calls, Unaided call.request call)
    (fun _ hmem => absurd hmem List.not_mem_nil) fun hbefore _ hstep =>
      calls_step (fun _ _ => ⟨rfl, fun _ => rfl, fun _ => rfl⟩)
        (fun _ _ _ _ hcall hact => unaided_act hcall hact) hbefore hstep

/-- **A call is of a request that arrived.** -/
theorem arrived_of_run {events : List (Event Key config.cache.policy)}
    (h : (machine config).run Machine.free (machine config).init events = some world) :
    ∀ call ∈ world.calls, Event.arrive call.request ∈ events := by
  suffices hall : ∀ call ∈ world.calls, Unaided call.request call ∧ Event.arrive call.request ∈ events from
    fun call hmem => (hall call hmem).2
  refine Machine.run_history
    (I := fun events world => ∀ call ∈ world.calls, Unaided call.request call ∧ Event.arrive call.request ∈ events)
    (fun _ hmem => absurd hmem List.not_mem_nil) (fun {events before after event} hbefore hstep => ?_) h
  refine calls_step (P := fun call => Unaided call.request call ∧ Event.arrive call.request ∈ events ++ [event])
    ?_ ?_ (fun call hmem => (hbefore call hmem).imp_right (List.mem_append_left _)) hstep
  · rintro request rfl
    exact ⟨⟨rfl, fun _ => rfl, fun _ => rfl⟩, List.mem_append_right _ List.mem_cons_self⟩
  · rintro call event' world' call' ⟨hcall, harrived⟩ hact
    refine ⟨unaided_act hcall hact, ?_⟩
    rw [(hcall.act hact).same]
    exact harrived

end Requests

/-! ## A call that waits for another -/

/-- A cache with the default policy and tolerance. -/
def smallConfig : Config (String × Params) (String × Operation × Params) where
  cache := .ofDefaults
  mode := .readwrite
  zone := .fixed 0
  validateStep _ := true
  snapshotProvider := true
  lockKey tenant operation params := (tenant, operation, params)
  defaultClose _ _ := true

/-- A question for the wages of a day, of an employee of a tenant. -/
def wagesOf (employeeId : String) : Request where
  filters := { NarrowedFilters.ofTenant "t" with employeeIds := some [employeeId] }
  role := some .employee
  operationId := "GongziClQuery"
  start := some (.inZone (LocalTime.midnight ⟨2025, 9, 1, by decide⟩))
  stop := .inZone (LocalTime.midnight ⟨2025, 9, 2, by decide⟩)
  params := ∅

/-- The wages of the tenant. -/
def wagesOfDay : Fetched where
  rows := [Row.ofTexts [("inputdate", "2025-09-01"), ("uid", "u1"), ("je", "12")],
    Row.ofTexts [("inputdate", "2025-09-01"), ("uid", "u2"), ("je", "30")]]
  total := 2
  pagesFetched := 1
  complete := true

/-- Two employees ask at once; the second waits for the snapshot of the first. -/
def twoEmployees : List (Event (String × Params) smallConfig.cache.policy) :=
  let today := V2ResultCache.askedOn
  [.arrive (wagesOf "u1"), .arrive (wagesOf "u2"), .act 0 (.begin today), .act 1 (.begin today),
    .act 0 (.looked .answered), .act 0 (.looked .answered), .act 0 (.looked .answered),
    .act 1 (.looked .answered), .act 1 (.looked .answered), .act 1 (.looked .answered),
    .act 0 (.acquired today), .act 0 (.looked .answered), .act 0 (.looked .answered), .act 0 (.looked .answered),
    .act 0 (.snapshotted (some wagesOfDay) ""), .act 0 (.put today ""), .act 0 (.reported true ""),
    .act 1 (.acquired today), .act 1 (.looked .answered), .act 1 (.looked .answered), .act 1 (.looked .answered)]

/-- Both answers say how often the MES was asked: once, and not at all. -/
theorem serving_run_twoEmployees :
    (∀ call ∈ ((machine smallConfig).after twoEmployees).calls, ∀ answer, call.stage = .ended answer →
      answer.callCount = call.made)
    ∧ ((machine smallConfig).after twoEmployees).calls.map Call.made = [1, 0] := by
  have hkeys : smallConfig.TenantsApart := fun _ _ _ _ h => congrArg Prod.fst h
  have hreach := Machine.reach_after (m := machine smallConfig) (G := Machine.free) twoEmployees (by decide +kernel)
  refine ⟨fun call hmem answer hended => ?_, by decide +kernel⟩
  exact ((serving_run hkeys hreach).1 call hmem answer hended).counted

end Serving
