import FactoryAgent.Lib.Machine
import Mathlib.Logic.Function.Basic

/-!
# Sharing the fetch of a directory

`_ensure_family` of `data_api/knowledge_directory.py`, as it is run by any number of tasks. The first call for a key
enters a future and runs `_load_family` itself; a later one waits on the future, shielded. A future is named after the
call that entered it, and a call runs on its own up to an await, so an action here is what happens between two awaits.

A waiting call may be cancelled and no other notices. But the call that runs the fetch takes its future with it, and so
what is waiting on it is cancelled too (`foreign_cancellation`). As long as that does not happen, the calls for a key get
what its one fetch came to (`isolated_of_reach`).
-/

namespace DirectorySharing

/-- The families of `_OPERATION_BY_FAMILY`. -/
inductive Family
  | styleDirectory
  | productionTypes
  | processes
  | styleProcesses
  | styleForm
  | billProcesses
  | hangingLines
  deriving DecidableEq

/-- A key of `_inflight`. -/
structure DirectoryKey where
  tenantId : String
  family : Family
  entity : String
  deriving DecidableEq

variable {Snapshot Error : Type}

/-- **What a source is made with**, as far as its awaits depend on it. -/
structure Settings (Snapshot : Type) where
  cached : Bool
  maxPages : Nat
  complete : Snapshot → Bool

/-! ## The fetch -/

/-- What `_load_family` awaits: an answer of the cache, a response to a request, or that the cache stored a snapshot. -/
inductive Await (Snapshot : Type)
  | lookup
  | upstream (page : Nat)
  | store (snapshot : Snapshot)

/-- **What comes of an await.** A fetch that goes on to a request is refused where a check raises. -/
inductive Answer (Snapshot Error : Type)
  | found (snapshot : Snapshot)
  | missed (refused : Option Error)
  | projected (snapshot : Snapshot)
  | anotherPage (refused : Option Error)
  | stored
  | failed (error : Error)

/-- How far a fetch got: it awaits something, or it has ended. -/
inductive Progress (Snapshot Error : Type)
  | awaiting (point : Await Snapshot)
  | ended (result : Except Error Snapshot)

variable (settings : Settings Snapshot)

/-- A fetch goes on to a request, where no check raises. -/
def request (page : Nat) : Option Error → Progress Snapshot Error
  | some error => .ended (.error error)
  | none => .awaiting (.upstream page)

/-- `_load_family` up to its first await. -/
def load (refused : Option Error) : Progress Snapshot Error :=
  match refused with
  | some error => .ended (.error error)
  | none => if settings.cached then .awaiting .lookup else .awaiting (.upstream 1)

/-- **`_load_family` from one await to the next.** The pages of `_fetch_hanging_lines` are the only ones. -/
def resume (family : Family) : Await Snapshot → Answer Snapshot Error → Option (Progress Snapshot Error)
  | .lookup, .found snapshot => some (.ended (.ok snapshot))
  | .lookup, .missed refused => some (request 1 refused)
  | .upstream page, .anotherPage refused =>
    if family = .hangingLines ∧ page < settings.maxPages then some (request (page + 1) refused) else none
  | .upstream _, .projected snapshot =>
    if settings.complete snapshot && settings.cached then some (.awaiting (.store snapshot))
    else some (.ended (.ok snapshot))
  | .store snapshot, .stored => some (.ended (.ok snapshot))
  | _, .failed error => some (.ended (.error error))
  | _, _ => none

/-! ## The calls -/

/-- A future: pending, done with a result or an exception, or cancelled. -/
inductive Future (Snapshot Error : Type)
  | pending
  | done (result : Except Error Snapshot)
  | cancelled

/-- **How a call ends.** -/
inductive Outcome (Snapshot Error : Type)
  | received (result : Except Error Snapshot)
  | cancelled

/-- **A call of `_ensure_family`**: it runs the fetch, waits on the future of another call, or has ended; then its outcome
came from the fetch of some call. -/
inductive Call (Snapshot Error : Type)
  | leading (key : DirectoryKey) (point : Await Snapshot)
  | waiting (key : DirectoryKey) (leader : Nat)
  | ended (key : DirectoryKey) (leader : Nat) (outcome : Outcome Snapshot Error)

/-- **The source and its calls.** -/
structure Sharing (Snapshot Error : Type) where
  inflight : DirectoryKey → Option Nat
  futures : Nat → Future Snapshot Error
  calls : Nat → Option (Call Snapshot Error)
  /-- the calls that were cancelled themselves -/
  cancelled : Nat → Bool
  /-- what the fetches that a call ran to its end came to -/
  loads : Nat → Option (DirectoryKey × Except Error Snapshot)

/-- What happens next. -/
inductive Action (Snapshot Error : Type)
  | ensure (call : Nat) (key : DirectoryKey) (refused : Option Error)
  | answer (call : Nat) (answer : Answer Snapshot Error)
  | wake (call : Nat)
  | cancel (call : Nat)

namespace Sharing

variable (s : Sharing Snapshot Error) (call : Nat) (key : DirectoryKey)

/-- A call enters its future and begins to run the fetch. -/
def enter : Sharing Snapshot Error :=
  { s with
    inflight := Function.update s.inflight key (some call)
    futures := Function.update s.futures call .pending
    calls := Function.update s.calls call (some (.leading key .lookup)) }

/-- A call waits on the future of another one. -/
def join (leader : Nat) : Sharing Snapshot Error :=
  { s with calls := Function.update s.calls call (some (.waiting key leader)) }

/-- The fetch of a call has ended: the future is done, and the entry is removed. -/
def settle (result : Except Error Snapshot) : Sharing Snapshot Error :=
  { s with
    inflight := Function.update s.inflight key none
    futures := Function.update s.futures call (.done result)
    calls := Function.update s.calls call (some (.ended key call (.received result)))
    loads := Function.update s.loads call (some (key, result)) }

/-- The fetch of a call went on. -/
def advance : Progress Snapshot Error → Sharing Snapshot Error
  | .awaiting point => { s with calls := Function.update s.calls call (some (.leading key point)) }
  | .ended result => s.settle call key result

/-- A waiting call ends. -/
def leave (leader : Nat) (outcome : Outcome Snapshot Error) : Sharing Snapshot Error :=
  { s with calls := Function.update s.calls call (some (.ended key leader outcome)) }

/-- A call is cancelled while it runs the fetch: its future is cancelled, and the entry is removed. -/
def abandon : Sharing Snapshot Error :=
  { s with
    inflight := Function.update s.inflight key none
    futures := Function.update s.futures call .cancelled
    calls := Function.update s.calls call (some (.ended key call .cancelled)) }

/-- A call is noted as cancelled. -/
def mark : Sharing Snapshot Error :=
  { s with cancelled := Function.update s.cancelled call true }

end Sharing

/-- **What an action does.** -/
def step (s : Sharing Snapshot Error) : Action Snapshot Error → Option (Sharing Snapshot Error)
  | .ensure call key refused =>
    match s.calls call, s.inflight key with
    | some _, _ => none
    | none, some leader => some (s.join call key leader)
    | none, none => some ((s.enter call key).advance call key (load settings refused))
  | .answer call answer =>
    match s.calls call with
    | some (.leading key point) => (resume settings key.family point answer).map (s.advance call key)
    | _ => none
  | .wake call =>
    match s.calls call with
    | some (.waiting key leader) =>
      match s.futures leader with
      | .pending => none
      | .done result => some (s.leave call key leader (.received result))
      | .cancelled => some (s.leave call key leader .cancelled)
    | _ => none
  | .cancel call =>
    match s.calls call with
    | some (.leading key _) => some ((s.abandon call key).mark call)
    | some (.waiting key leader) => some ((s.leave call key leader .cancelled).mark call)
    | _ => none

/-- Nothing was called yet. -/
def idle : Sharing Snapshot Error :=
  ⟨fun _ => none, fun _ => .pending, fun _ => none, fun _ => false, fun _ => none⟩

/-- **The source as a machine.** -/
def machine : Machine (Sharing Snapshot Error) (Action Snapshot Error) :=
  ⟨idle, step settings⟩

/-! ## Isolation -/

/-- A call runs the fetch for a key. -/
def Leads (s : Sharing Snapshot Error) (key : DirectoryKey) (call : Nat) : Prop :=
  ∃ point, s.calls call = some (.leading key point)

/-- **The calls are isolated.** At most one call for a key has a request upstream. A call that has ended and was not
cancelled itself got what the fetch for its key came to, be it a snapshot or an error; a call that waits does so while
the fetch runs, and once it has ended gets what it came to. An entry stands for a fetch that runs. -/
structure Isolated (s : Sharing Snapshot Error) : Prop where
  oneRequest : ∀ {key call other page otherPage}, s.calls call = some (.leading key (.upstream page)) →
    s.calls other = some (.leading key (.upstream otherPage)) → call = other
  received : ∀ {call key leader outcome}, s.calls call = some (.ended key leader outcome) → s.cancelled call = false →
    ∃ result, s.loads leader = some (key, result) ∧ outcome = .received result
  waiting : ∀ {call key leader}, s.calls call = some (.waiting key leader) → Leads s key leader
    ∨ ∃ result, s.loads leader = some (key, result)
      ∧ step settings s (.wake call) = some (s.leave call key leader (.received result))
  removed : ∀ {key leader}, s.inflight key = some leader → Leads s key leader

/-- **Nobody waits on a fetch whose call is cancelled.** -/
def Undisturbed (s : Sharing Snapshot Error) (action : Action Snapshot Error) : Prop :=
  ∀ {call key}, action = .cancel call → Leads s key call → ∀ {other}, s.calls other ≠ some (.waiting key call)

/-- **What holds of the source and its calls**: a call that runs a fetch has the entry of its key and a pending future; a
fetch that has ended has left its result in the future. -/
structure Sound (s : Sharing Snapshot Error) : Prop where
  entry : ∀ {key leader}, s.inflight key = some leader → Leads s key leader
  leading : ∀ {call key point}, s.calls call = some (.leading key point) →
    s.inflight key = some call ∧ s.futures call = .pending
  settled : ∀ {leader key result}, s.loads leader = some (key, result) →
    s.futures leader = .done result ∧ ∃ outcome, s.calls leader = some (.ended key leader outcome)
  waiting : ∀ {call key leader}, s.calls call = some (.waiting key leader) →
    Leads s key leader ∨ ∃ result, s.loads leader = some (key, result)
  ended : ∀ {call key leader outcome}, s.calls call = some (.ended key leader outcome) → s.cancelled call = false →
    ∃ result, s.loads leader = some (key, result) ∧ outcome = .received result

namespace Sound

variable {s : Sharing Snapshot Error} {call : Nat} {key : DirectoryKey}

/-- A sound source isolates its calls. -/
theorem isolated (h : Sound s) : Isolated settings s where
  oneRequest hcall hother := by
    have hentry := (h.leading hcall).1
    rw [(h.leading hother).1] at hentry
    exact (Option.some.inj hentry).symm
  received := h.ended
  waiting hwaiting := by
    refine (h.waiting hwaiting).imp_right fun ⟨result, hload⟩ => ⟨result, hload, ?_⟩
    simp only [step, hwaiting, (h.settled hload).1]
  removed := h.entry

end Sound

/-- **Two states of the source that differ in what belongs to one call and to its key only.** -/
structure Touches (s t : Sharing Snapshot Error) (call : Nat) (key : DirectoryKey) : Prop where
  inflight : ∀ {other}, other ≠ key → t.inflight other = s.inflight other
  futures : ∀ {other}, other ≠ call → t.futures other = s.futures other
  calls : ∀ {other}, other ≠ call → t.calls other = s.calls other
  cancelled : ∀ {other}, other ≠ call → t.cancelled other = s.cancelled other
  loads : ∀ {other}, other ≠ call → t.loads other = s.loads other

namespace Touches

variable {s t u : Sharing Snapshot Error} {call : Nat} {key : DirectoryKey}

theorem trans (hst : Touches s t call key) (htu : Touches t u call key) : Touches s u call key where
  inflight h := (htu.inflight h).trans (hst.inflight h)
  futures h := (htu.futures h).trans (hst.futures h)
  calls h := (htu.calls h).trans (hst.calls h)
  cancelled h := (htu.cancelled h).trans (hst.cancelled h)
  loads h := (htu.loads h).trans (hst.loads h)

theorem leads (h : Touches s t call key) {other : Nat} (hne : other ≠ call) {otherKey : DirectoryKey} :
    Leads t otherKey other ↔ Leads s otherKey other := by
  rw [Leads, h.calls hne, Leads]

/-- **Soundness is about each call on its own**: where only one call is touched, it is kept when that call is as it
should be, and those that depend on it find what they did. -/
theorem sound (htouches : Touches s t call key) (h : Sound s) (hkey : ∀ {other}, Leads s other call → other = key)
    (hentry : ∀ {leader}, t.inflight key = some leader →
      leader = call ∧ Leads t key call ∨ leader ≠ call ∧ s.inflight key = some leader)
    (hothers : ∀ {other}, other ≠ call → s.inflight key = some other → t.inflight key = some other)
    (hleading : ∀ {other point}, t.calls call = some (.leading other point) →
      t.inflight other = some call ∧ t.futures call = .pending)
    (hsettled : ∀ {other result}, t.loads call = some (other, result) →
      t.futures call = .done result ∧ ∃ outcome, t.calls call = some (.ended other call outcome))
    (hwaiting : ∀ {other leader}, t.calls call = some (.waiting other leader) →
      Leads t other leader ∨ ∃ result, t.loads leader = some (other, result))
    (hended : ∀ {other leader outcome}, t.calls call = some (.ended other leader outcome) → t.cancelled call = false →
      ∃ result, t.loads leader = some (other, result) ∧ outcome = .received result)
    (hdependent : ∀ {other otherKey}, other ≠ call → s.calls other = some (.waiting otherKey call) →
      Leads t otherKey call ∨ ∃ result, t.loads call = some (otherKey, result))
    (hloads : ∀ {load}, s.loads call = some load → t.loads call = some load) : Sound t where
  entry := by
    intro otherKey leader hother
    by_cases hsame : otherKey = key
    · subst hsame
      obtain ⟨rfl, hleads⟩ | ⟨hne, hbefore⟩ := hentry hother
      · exact hleads
      · exact (htouches.leads hne).mpr (h.entry hbefore)
    · rw [htouches.inflight hsame] at hother
      have hleads := h.entry hother
      have hne : leader ≠ call := by
        rintro rfl
        exact hsame (hkey hleads)
      exact (htouches.leads hne).mpr hleads
  leading := by
    intro other otherKey point hother
    by_cases hsame : other = call
    · subst hsame
      exact hleading hother
    · rw [htouches.calls hsame] at hother
      obtain ⟨hinflight, hpending⟩ := h.leading hother
      refine ⟨?_, (htouches.futures hsame).trans hpending⟩
      by_cases hsameKey : otherKey = key
      · subst hsameKey
        exact hothers hsame hinflight
      · exact (htouches.inflight hsameKey).trans hinflight
  settled := by
    intro leader otherKey result hload
    by_cases hsame : leader = call
    · subst hsame
      exact hsettled hload
    · rw [htouches.loads hsame] at hload
      rw [htouches.futures hsame, htouches.calls hsame]
      exact h.settled hload
  waiting := by
    intro other otherKey leader hother
    by_cases hsame : other = call
    · subst hsame
      exact hwaiting hother
    · rw [htouches.calls hsame] at hother
      by_cases hleader : leader = call
      · subst hleader
        exact hdependent hsame hother
      · rw [htouches.leads hleader, htouches.loads hleader]
        exact h.waiting hother
  ended := by
    intro other otherKey leader outcome hother hcancelled
    by_cases hsame : other = call
    · subst hsame
      exact hended hother hcancelled
    · rw [htouches.calls hsame] at hother
      rw [htouches.cancelled hsame] at hcancelled
      obtain ⟨result, hload, houtcome⟩ := h.ended hother hcancelled
      refine ⟨result, ?_, houtcome⟩
      by_cases hleader : leader = call
      · subst hleader
        exact hloads hload
      · exact (htouches.loads hleader).trans hload

end Touches

/-! ## What an action keeps -/

section Keeps

variable {s : Sharing Snapshot Error} {call leader : Nat} {key : DirectoryKey}

theorem touches_enter : Touches s (s.enter call key) call key where
  inflight h := Function.update_of_ne h _ _
  futures h := Function.update_of_ne h _ _
  calls h := Function.update_of_ne h _ _
  cancelled _ := rfl
  loads _ := rfl

theorem touches_calls (entry : Option (Call Snapshot Error)) :
    Touches s { s with calls := Function.update s.calls call entry } call key where
  inflight _ := rfl
  futures _ := rfl
  calls h := Function.update_of_ne h _ _
  cancelled _ := rfl
  loads _ := rfl

theorem touches_settle (result : Except Error Snapshot) : Touches s (s.settle call key result) call key where
  inflight h := Function.update_of_ne h _ _
  futures h := Function.update_of_ne h _ _
  calls h := Function.update_of_ne h _ _
  cancelled _ := rfl
  loads h := Function.update_of_ne h _ _

theorem touches_abandon : Touches s (s.abandon call key) call key where
  inflight h := Function.update_of_ne h _ _
  futures h := Function.update_of_ne h _ _
  calls h := Function.update_of_ne h _ _
  cancelled _ := rfl
  loads _ := rfl

theorem touches_mark : Touches s (s.mark call) call key where
  inflight _ := rfl
  futures _ := rfl
  calls _ := rfl
  cancelled h := Function.update_of_ne h _ _
  loads _ := rfl

namespace Sound

/-- A call that has not begun, or waits, has run no fetch. -/
theorem loads_ne_some (h : Sound s) (hcall : ∀ outcome, s.calls call ≠ some (.ended key call outcome))
    {result : Except Error Snapshot} : s.loads call ≠ some (key, result) := by
  intro hload
  obtain ⟨-, outcome, hended⟩ := h.settled hload
  exact hcall outcome hended

/-- **A call runs the fetch** of a key that has no entry. -/
theorem enter (h : Sound s) (hcall : s.calls call = none) (hkey : s.inflight key = none) : Sound (s.enter call key) := by
  have hcalls : (s.enter call key).calls call = some (.leading key .lookup) := Function.update_self _ _ _
  have hinflight : (s.enter call key).inflight key = some call := Function.update_self _ _ _
  refine touches_enter.sound h ?_ ?_ ?_ ?_ ?_ ?_ ?_ ?_ id
  · rintro other ⟨point, hleads⟩
    rw [hcall] at hleads
    cases hleads
  · intro leader hleader
    rw [hinflight] at hleader
    exact .inl ⟨(Option.some.inj hleader).symm, .lookup, hcalls⟩
  · intro other _ hother
    rw [hkey] at hother
    cases hother
  · intro other point hleading
    rw [hcalls] at hleading
    cases hleading
    exact ⟨hinflight, Function.update_self _ _ _⟩
  · intro other result hload
    exact absurd hload (h.loads_ne_some fun outcome hended => by rw [hcall] at hended; cases hended)
  · intro other leader hwaiting
    rw [hcalls] at hwaiting
    cases hwaiting
  · intro other leader outcome hended
    rw [hcalls] at hended
    cases hended
  · intro other otherKey _ hother
    obtain ⟨point, hleads⟩ | ⟨result, hload⟩ := h.waiting hother
    · rw [hcall] at hleads
      cases hleads
    · exact absurd hload (h.loads_ne_some fun outcome hended => by rw [hcall] at hended; cases hended)

/-- **A call waits** on the one that has the entry of its key. -/
theorem join (h : Sound s) (hcall : s.calls call = none) (hkey : s.inflight key = some leader) :
    Sound (s.join call key leader) := by
  have hcalls : (s.join call key leader).calls call = some (.waiting key leader) := Function.update_self _ _ _
  have hne : leader ≠ call := by
    rintro rfl
    obtain ⟨point, hleads⟩ := h.entry hkey
    rw [hcall] at hleads
    cases hleads
  have htouches : Touches s (s.join call key leader) call key := touches_calls _
  refine htouches.sound h ?_ ?_ (fun _ => id) ?_ ?_ ?_ ?_ ?_ id
  · rintro other ⟨point, hleads⟩
    rw [hcall] at hleads
    cases hleads
  · intro other hother
    refine .inr ⟨?_, hother⟩
    rintro rfl
    exact hne (Option.some.inj (hkey.symm.trans hother))
  · intro other point hleading
    rw [hcalls] at hleading
    cases hleading
  · intro other result hload
    exact absurd hload (h.loads_ne_some fun outcome hended => by rw [hcall] at hended; cases hended)
  · intro other otherLeader hwaiting
    rw [hcalls] at hwaiting
    cases hwaiting
    exact .inl ((htouches.leads hne).mpr (h.entry hkey))
  · intro other otherLeader outcome hended
    rw [hcalls] at hended
    cases hended
  · intro other otherKey _ hother
    obtain ⟨point, hleads⟩ | ⟨result, hload⟩ := h.waiting hother
    · rw [hcall] at hleads
      cases hleads
    · exact absurd hload (h.loads_ne_some fun outcome hended => by rw [hcall] at hended; cases hended)

/-- A call runs one fetch only. -/
theorem eq_of_leads {other : DirectoryKey} (h : Leads s key call) (hother : Leads s other call) : other = key := by
  obtain ⟨point, hcall⟩ := h
  obtain ⟨otherPoint, hcall'⟩ := hother
  rw [hcall] at hcall'
  cases hcall'
  rfl

/-- A call that runs a fetch has not ended one. -/
theorem loads_ne_some_of_leads (h : Sound s) (hleads : Leads s key call) (load : DirectoryKey × Except Error Snapshot) :
    s.loads call ≠ some load := by
  obtain ⟨point, hcall⟩ := hleads
  refine h.loads_ne_some fun outcome hended => ?_
  rw [hcall] at hended
  cases hended

/-- What waits on a call that runs a fetch waits for its key. -/
theorem key_of_waiting (h : Sound s) (hleads : Leads s key call) {other : Nat} {otherKey : DirectoryKey}
    (hother : s.calls other = some (.waiting otherKey call)) : otherKey = key := by
  obtain hwaiting | ⟨result, hload⟩ := h.waiting hother
  · exact eq_of_leads hleads hwaiting
  · exact absurd hload (h.loads_ne_some_of_leads hleads _)

/-- **A fetch goes on to its next await.** -/
theorem await (h : Sound s) (hleads : Leads s key call) (point : Await Snapshot) :
    Sound (s.advance call key (.awaiting point)) := by
  have hcalls : (s.advance call key (.awaiting point)).calls call = some (.leading key point) :=
    Function.update_self _ _ _
  obtain ⟨before, hcall⟩ := id hleads
  have htouches : Touches s (s.advance call key (.awaiting point)) call key := touches_calls _
  refine htouches.sound h (eq_of_leads hleads) ?_ (fun _ => id) ?_ ?_ ?_ ?_ ?_ id
  · intro leader hleader
    exact .inl ⟨(Option.some.inj ((h.leading hcall).1.symm.trans hleader)).symm, point, hcalls⟩
  · intro other otherPoint hleading
    rw [hcalls] at hleading
    cases hleading
    exact h.leading hcall
  · intro other result hload
    exact absurd hload (h.loads_ne_some_of_leads hleads _)
  · intro other leader hwaiting
    rw [hcalls] at hwaiting
    cases hwaiting
  · intro other leader outcome hended
    rw [hcalls] at hended
    cases hended
  · intro other otherKey _ hother
    rw [h.key_of_waiting hleads hother]
    exact .inl ⟨point, hcalls⟩

/-- **A fetch ends**, and its call with it. -/
theorem settle (h : Sound s) (hleads : Leads s key call) (result : Except Error Snapshot) :
    Sound (s.settle call key result) := by
  have hcalls : (s.settle call key result).calls call = some (.ended key call (.received result)) :=
    Function.update_self _ _ _
  have hinflight : (s.settle call key result).inflight key = none := Function.update_self _ _ _
  have hload : (s.settle call key result).loads call = some (key, result) := Function.update_self _ _ _
  obtain ⟨before, hcall⟩ := id hleads
  refine (touches_settle result).sound h (eq_of_leads hleads) ?_ ?_ ?_ ?_ ?_ ?_ ?_ ?_
  · intro leader hleader
    rw [hinflight] at hleader
    cases hleader
  · intro other hne hother
    exact absurd (Option.some.inj (hother.symm.trans (h.leading hcall).1)) hne
  · intro other point hleading
    rw [hcalls] at hleading
    cases hleading
  · intro other otherResult hother
    rw [hload] at hother
    cases hother
    exact ⟨Function.update_self _ _ _, _, hcalls⟩
  · intro other leader hwaiting
    rw [hcalls] at hwaiting
    cases hwaiting
  · intro other leader outcome hended _
    rw [hcalls] at hended
    cases hended
    exact ⟨result, hload, rfl⟩
  · intro other otherKey _ hother
    rw [h.key_of_waiting hleads hother]
    exact .inr ⟨result, hload⟩
  · intro load hother
    exact absurd hother (h.loads_ne_some_of_leads hleads _)

theorem advance (h : Sound s) (hleads : Leads s key call) (progress : Progress Snapshot Error) :
    Sound (s.advance call key progress) := by
  cases progress with
  | awaiting point => exact h.await hleads point
  | ended result => exact h.settle hleads result

/-- **A waiting call ends**, with the result of the fetch it waited on, or cancelled. -/
theorem leave (h : Sound s) (hcall : s.calls call = some (.waiting key leader)) {t : Sharing Snapshot Error}
    {outcome : Outcome Snapshot Error} (htouches : Touches s t call key) (hinflight : t.inflight = s.inflight)
    (hcalls : t.calls call = some (.ended key leader outcome)) (hloads : t.loads = s.loads)
    (houtcome : t.cancelled call = false → ∃ result, s.loads leader = some (key, result) ∧ outcome = .received result) :
    Sound t := by
  have hunloaded : ∀ load, s.loads call ≠ some load := by
    intro load
    refine h.loads_ne_some fun outcome hended => ?_
    rw [hcall] at hended
    cases hended
  have hidle : ∀ {other}, ¬Leads s other call := by
    rintro other ⟨point, hleads⟩
    rw [hcall] at hleads
    cases hleads
  refine htouches.sound h (fun hleads => absurd hleads hidle) ?_ ?_ ?_ ?_ ?_ ?_ ?_ ?_
  · intro other hother
    rw [hinflight] at hother
    refine .inr ⟨?_, hother⟩
    rintro rfl
    exact hidle (h.entry hother)
  · intro other _ hother
    rwa [hinflight]
  · intro other point hleading
    rw [hcalls] at hleading
    cases hleading
  · intro other result hload
    rw [hloads] at hload
    exact absurd hload (hunloaded _)
  · intro other otherLeader hwaiting
    rw [hcalls] at hwaiting
    cases hwaiting
  · intro other otherLeader otherOutcome hended hcancelled
    rw [hcalls] at hended
    cases hended
    rw [hloads]
    exact houtcome hcancelled
  · intro other otherKey _ hother
    obtain hleads | ⟨result, hload⟩ := h.waiting hother
    · exact absurd hleads hidle
    · exact absurd hload (hunloaded _)
  · intro load hload
    exact absurd hload (hunloaded _)

/-- **A call is cancelled while it runs a fetch** that nobody waits on. -/
theorem abandon (h : Sound s) (hleads : Leads s key call)
    (halone : ∀ {other}, s.calls other ≠ some (.waiting key call)) : Sound ((s.abandon call key).mark call) := by
  have hcalls : ((s.abandon call key).mark call).calls call = some (.ended key call .cancelled) :=
    Function.update_self _ _ _
  have hinflight : ((s.abandon call key).mark call).inflight key = none := Function.update_self _ _ _
  have hcancelled : ((s.abandon call key).mark call).cancelled call = true := Function.update_self _ _ _
  obtain ⟨before, hcall⟩ := id hleads
  refine (touches_abandon.trans touches_mark).sound h (eq_of_leads hleads) ?_ ?_ ?_ ?_ ?_ ?_ ?_ id
  · intro leader hleader
    rw [hinflight] at hleader
    cases hleader
  · intro other hne hother
    exact absurd (Option.some.inj (hother.symm.trans (h.leading hcall).1)) hne
  · intro other point hleading
    rw [hcalls] at hleading
    cases hleading
  · intro other result hload
    exact absurd hload (h.loads_ne_some_of_leads hleads _)
  · intro other leader hwaiting
    rw [hcalls] at hwaiting
    cases hwaiting
  · intro other leader outcome _ huncancelled
    rw [hcancelled] at huncancelled
    cases huncancelled
  · intro other otherKey _ hother
    cases h.key_of_waiting hleads hother
    exact absurd hother halone

end Sound

end Keeps

/-- **Each undisturbed step keeps the source sound.** -/
theorem Sound.step {s t : Sharing Snapshot Error} {action : Action Snapshot Error} (h : Sound s)
    (hundisturbed : Undisturbed s action) (hstep : step settings s action = some t) : Sound t := by
  cases action with
  | ensure call key refused =>
    simp only [DirectorySharing.step] at hstep
    split at hstep
    · cases hstep
    · next leader hcall hkey =>
      cases hstep
      exact h.join hcall hkey
    · next hcall hkey =>
      cases hstep
      exact (h.enter hcall hkey).advance ⟨.lookup, Function.update_self _ _ _⟩ _
  | answer call answer =>
    simp only [DirectorySharing.step] at hstep
    split at hstep
    · next key point hcall =>
      obtain ⟨progress, -, rfl⟩ := Option.map_eq_some_iff.mp hstep
      exact h.advance ⟨point, hcall⟩ progress
    · cases hstep
  | wake call =>
    simp only [DirectorySharing.step] at hstep
    split at hstep
    · next key leader hcall =>
      split at hstep
      · cases hstep
      · next result hdone =>
        cases hstep
        refine h.leave hcall (touches_calls _) rfl (Function.update_self _ _ _) rfl fun _ => ⟨result, ?_, rfl⟩
        obtain ⟨point, hleads⟩ | ⟨loaded, hload⟩ := h.waiting hcall
        · cases (h.leading hleads).2.symm.trans hdone
        · cases (h.settled hload).1.symm.trans hdone
          exact hload
      · next hfuture =>
        obtain ⟨point, hleads⟩ | ⟨loaded, hload⟩ := h.waiting hcall
        · cases (h.leading hleads).2.symm.trans hfuture
        · cases (h.settled hload).1.symm.trans hfuture
    · cases hstep
  | cancel call =>
    simp only [DirectorySharing.step] at hstep
    split at hstep
    · next key point hcall =>
      cases hstep
      exact h.abandon ⟨point, hcall⟩ (hundisturbed rfl ⟨point, hcall⟩)
    · next key leader hcall =>
      cases hstep
      refine h.leave hcall ((touches_calls _).trans touches_mark) rfl (Function.update_self _ _ _) rfl fun hcancelled => ?_
      have hmarked : ((s.leave call key leader .cancelled).mark call).cancelled call = true := Function.update_self _ _ _
      rw [hmarked] at hcancelled
      cases hcancelled
    · cases hstep

/-- A source that nobody called is sound. -/
theorem sound_idle : Sound (idle : Sharing Snapshot Error) where
  entry h := by cases h
  leading h := by cases h
  settled h := by cases h
  waiting h := by cases h
  ended h := by cases h

/-- **The calls are isolated in every run in which no call is cancelled while another waits on its fetch.** -/
theorem isolated_of_reach {s : Sharing Snapshot Error} (h : (machine settings).Reach Undisturbed s) :
    Isolated settings s :=
  (h.invariant (I := Sound) sound_idle fun hsound hguard hstep => hsound.step settings hguard hstep).isolated settings

/-! ## Two calls -/

/-- A key of the processes of a tenant. -/
def processesKey : DirectoryKey :=
  ⟨"tenant-1", .processes, ""⟩

/-- A source with a cache; each snapshot is complete. -/
def cachedSource : Settings Nat :=
  ⟨true, 20, fun _ => true⟩

/-- Two calls for a key, one of which runs the fetch to its end. -/
def sharedRun : List (Action Nat String) :=
  [.ensure 0 processesKey none, .ensure 1 processesKey none, .answer 0 (.missed none), .answer 0 (.projected 7),
    .answer 0 .stored, .wake 1]

/-- One step more that is no cancellation. -/
theorem reach_undisturbed {settings : Settings Snapshot} {s t : Sharing Snapshot Error} {action : Action Snapshot Error}
    (h : (machine settings).Reach Undisturbed s) (hne : ∀ call, action ≠ .cancel call)
    (hstep : step settings s action = some t) : (machine settings).Reach Undisturbed t :=
  h.step (fun hcancel => absurd hcancel (hne _)) hstep

/-- Two calls are isolated, after the fetch of one of them. -/
theorem isolated_two_calls : Isolated cachedSource ((machine cachedSource).after sharedRun) := by
  have hne : ∀ action ∈ sharedRun, ∀ call, action ≠ .cancel call := by
    intro action haction call hcancel
    subst hcancel
    simp [sharedRun] at haction
  have h₁ := reach_undisturbed (@Machine.Reach.init _ _ (machine cachedSource) _) (hne (.ensure 0 processesKey none) (by simp [sharedRun])) rfl
  have h₂ := reach_undisturbed h₁ (hne (.ensure 1 processesKey none) (by simp [sharedRun])) rfl
  have h₃ := reach_undisturbed h₂ (hne (.answer 0 (.missed none)) (by simp [sharedRun])) rfl
  have h₄ := reach_undisturbed h₃ (hne (.answer 0 (.projected 7)) (by simp [sharedRun])) rfl
  have h₅ := reach_undisturbed h₄ (hne (.answer 0 .stored) (by simp [sharedRun])) rfl
  exact isolated_of_reach cachedSource (reach_undisturbed h₅ (hne (.wake 1) (by simp [sharedRun])) rfl)

/-- Two calls for a key, the one that runs the fetch is cancelled. -/
def cancelledRun : List (Action Nat String) :=
  [.ensure 0 processesKey none, .ensure 1 processesKey none, .cancel 0, .wake 1]

/-- **A call is ended by the cancellation of another.** -/
theorem foreign_cancellation :
    ¬∀ (settings : Settings Nat) (s : Sharing Nat String), (machine settings).Reach Machine.free s →
      Isolated settings s := by
  intro h
  have hisolated := h cachedSource _ (Machine.reach_after cancelledRun rfl)
  have hended : ((machine cachedSource).after cancelledRun).calls 1 = some (.ended processesKey 0 .cancelled) := rfl
  obtain ⟨result, -, houtcome⟩ := hisolated.received hended rfl
  cases houtcome

end DirectorySharing
