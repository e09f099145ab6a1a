import FactoryAgent.Domain.Session
import FactoryAgent.Lib.Machine
import Mathlib.Logic.Function.Basic

/-!
# The recency of a conversation

The conversation row of one session, under the transactions that write it: the lifecycle commits of its interactions,
which touch the row and create it where there was none to touch, and the calls that create a conversation. The
transactions are read-committed and interleave statement by statement. A touch sees the committed row, and waits for
another transaction that has written it; an insert waits for another that has inserted the row, and does nothing where
the row is there. The lock on the interaction's own row is left out: it orders the commits of one interaction, and so
only takes interleavings away.

The row is there after every commit and its recency never goes back. But a lifecycle commit that found no row to touch
leaves its own `updated_at` out of the row: it creates the row as of its `created_at`, or leaves the one that another
transaction has created meanwhile. The recency is that of all commits exactly where this is not earlier
(`conversation_recency`).
-/

namespace Conversations

/-! ## The row and its statements -/

/-- The conversation row, without its key. -/
structure Row where
  createdAt : Instant
  updatedAt : Instant
  deriving DecidableEq, Repr

/-- The row as `insert_conversation` writes it. -/
def Row.created (createdAt : Instant) : Row :=
  ⟨createdAt, createdAt⟩

/-- The row as `touch_conversation` writes it. -/
def Row.touched (row : Row) (now : Instant) : Row :=
  { row with updatedAt := if row.updatedAt > now then row.updatedAt else now }

/-- A transaction is a lifecycle commit of a record, or creates a conversation. -/
inductive Call where
  | lifecycle (createdAt updatedAt : Instant)
  | create (now : Instant)
  deriving DecidableEq, Repr

/-- The `created_at` that a transaction inserts the row with. -/
def Call.insertedAt : Call → Instant
  | .lifecycle createdAt _ => createdAt
  | .create now => now

/-- **How far a transaction is** with the conversation row. -/
inductive Phase where
  /-- no statement of the conversation row is behind it -/
  | begun
  /-- it has touched the row, and holds it -/
  | touched
  /-- its touch found no row -/
  | untouched
  /-- it has inserted the row, and holds it -/
  | inserted
  /-- its insert found the row -/
  | ignored
  deriving DecidableEq, Repr

/-- **The session**: the committed row, the version of it that an open transaction has written, the open transactions
by their numbers, and the `updated_at` of every lifecycle commit so far. -/
structure Session where
  row : Option Row
  pending : Option (Nat × Row)
  open? : Nat → Option (Call × Phase)
  commits : List Instant

/-- A transaction in another phase. -/
def Session.enter (s : Session) (tx : Nat) (call : Call) (phase : Phase) : Session :=
  { s with open? := Function.update s.open? tx (some (call, phase)) }

/-- A transaction that has ended. -/
def Session.leave (s : Session) (tx : Nat) : Session :=
  { s with open? := Function.update s.open? tx none }

/-- **`touch_conversation`**: it finds no row, or waits for the transaction that holds the row (`none`), or takes it. -/
def Session.touch (s : Session) (tx : Nat) (call : Call) (now : Instant) : Option Session :=
  match s.row, s.pending with
  | none, _ => some (s.enter tx call .untouched)
  | some _, some _ => none
  | some row, none => some { s.enter tx call .touched with pending := some (tx, row.touched now) }

/-- **`insert_conversation`**: it finds the row, or waits for the transaction that has inserted it (`none`), or inserts
it. -/
def Session.insert (s : Session) (tx : Nat) (call : Call) : Option Session :=
  match s.row, s.pending with
  | some _, _ => some (s.enter tx call .ignored)
  | none, some _ => none
  | none, none => some { s.enter tx call .inserted with pending := some (tx, Row.created call.insertedAt) }

/-! ## Transactions -/

/-- What happens. -/
inductive Action where
  | begin (tx : Nat) (call : Call)
  /-- the next statement of the conversation row -/
  | statement (tx : Nat)
  | commit (tx : Nat)
  | rollback (tx : Nat)
  deriving DecidableEq, Repr

/-- The lifecycle commits with that of a transaction. -/
def Call.record (call : Call) (commits : List Instant) : List Instant :=
  match call with
  | .lifecycle _ updatedAt => updatedAt :: commits
  | .create _ => commits

/-- The version that a transaction holds becomes the row. -/
def Session.publish (s : Session) (call : Call) : Session :=
  { s with row := s.pending.map (·.2), pending := none, commits := call.record s.commits }

/-- **The end of a transaction**, of `engine.begin()`. Its statements of the row are behind it. -/
def Session.commit (s : Session) (tx : Nat) (call : Call) : Phase → Option Session
  | .touched | .inserted => some ((s.leave tx).publish call)
  | .ignored => some { s.leave tx with commits := call.record s.commits }
  | .begun | .untouched => none

/-- A transaction that fails gives up what it holds. -/
def Session.rollback (s : Session) (tx : Nat) : Phase → Session
  | .touched | .inserted => { s.leave tx with pending := none }
  | .begun | .untouched | .ignored => s.leave tx

/-- **One step.** -/
def step (s : Session) : Action → Option Session
  | .begin tx call => if s.open? tx = none then some (s.enter tx call .begun) else none
  | .statement tx =>
    match s.open? tx with
    | some (.lifecycle createdAt updatedAt, .begun) => s.touch tx (.lifecycle createdAt updatedAt) updatedAt
    | some (.lifecycle createdAt updatedAt, .untouched) => s.insert tx (.lifecycle createdAt updatedAt)
    | some (.create now, .begun) => s.insert tx (.create now)
    | _ => none
  | .commit tx => (s.open? tx).bind fun (call, phase) => s.commit tx call phase
  | .rollback tx => (s.open? tx).map fun (_, phase) => s.rollback tx phase

/-- **The machine of a session**, which begins without a conversation. -/
def machine : Machine Session Action where
  init := ⟨none, none, fun _ => none, []⟩
  step := step

/-! ## What holds -/

/-- **The row is at least as recent as every lifecycle commit.** -/
def Recent (s : Session) : Prop :=
  ∀ updatedAt ∈ s.commits, ∃ row, s.row = some row ∧ updatedAt ≤ row.updatedAt

/-- **A commit that leaves nothing out**: a lifecycle commit that has created the row has an `updated_at` that is not
after its `created_at`, and one that found the row of another has one that is not after that of the row. -/
def LeavesNothingOut (s : Session) : Action → Prop
  | .commit tx =>
    match s.open? tx with
    | some (.lifecycle createdAt updatedAt, .inserted) => updatedAt ≤ createdAt
    | some (.lifecycle _ updatedAt, .ignored) => ∀ row ∈ s.row, updatedAt ≤ row.updatedAt
    | _ => True
  | _ => True

/-- What a transaction in a phase knows of the row. -/
def Holds (s : Session) (tx : Nat) (call : Call) : Phase → Prop
  | .touched => ∃ row version, s.row = some row ∧ s.pending = some (tx, version) ∧ row.updatedAt ≤ version.updatedAt ∧
      ∀ updatedAt ∈ call.record [], updatedAt ≤ version.updatedAt
  | .inserted => s.row = none ∧ s.pending = some (tx, Row.created call.insertedAt)
  | .ignored => s.row.isSome = true
  | .begun | .untouched => True

/-- **The invariant**: every open transaction knows what its phase says, whoever holds the row is open in a phase that
holds it, and no lifecycle commit was made without a row. -/
structure Inv (s : Session) : Prop where
  holds : ∀ tx call phase, s.open? tx = some (call, phase) → Holds s tx call phase
  holder : ∀ tx version, s.pending = some (tx, version) →
    ∃ call phase, s.open? tx = some (call, phase) ∧ (phase = .touched ∨ phase = .inserted)
  committed : s.commits ≠ [] → s.row.isSome = true

section Steps

variable {s s' : Session} {tx : Nat} {call : Call}

/-- **What a touch does**: it finds no row, or it takes a row that nobody holds. -/
theorem touch_cases {now : Instant} (h : s.touch tx call now = some s') :
    (s.row = none ∧ s' = s.enter tx call .untouched) ∨
    ∃ row, s.row = some row ∧ s.pending = none ∧
      s' = { s.enter tx call .touched with pending := some (tx, row.touched now) } := by
  unfold Session.touch at h
  split at h
  · next hrow => exact .inl ⟨hrow, (Option.some.inj h).symm⟩
  · cases h
  · next row hrow hpending => exact .inr ⟨row, hrow, hpending, (Option.some.inj h).symm⟩

/-- **What an insert does**: it finds the row, or it writes one where nobody else has. -/
theorem insert_cases (h : s.insert tx call = some s') :
    (s.row.isSome = true ∧ s' = s.enter tx call .ignored) ∨
    (s.row = none ∧ s.pending = none ∧
      s' = { s.enter tx call .inserted with pending := some (tx, Row.created call.insertedAt) }) := by
  unfold Session.insert at h
  split at h
  · next row hrow => exact .inl ⟨by rw [hrow]; rfl, (Option.some.inj h).symm⟩
  · cases h
  · next hrow hpending => exact .inr ⟨hrow, hpending, (Option.some.inj h).symm⟩

/-- **What a commit does**: it publishes what the transaction holds, or leaves the row. -/
theorem commit_cases {phase : Phase} (h : s.commit tx call phase = some s') :
    ((phase = .touched ∨ phase = .inserted) ∧ s' = (s.leave tx).publish call) ∨
    (phase = .ignored ∧ s' = { s.leave tx with commits := call.record s.commits }) := by
  cases phase with
  | touched => exact .inl ⟨.inl rfl, (Option.some.inj h).symm⟩
  | inserted => exact .inl ⟨.inr rfl, (Option.some.inj h).symm⟩
  | ignored => exact .inr ⟨rfl, (Option.some.inj h).symm⟩
  | begun => cases h
  | untouched => cases h

/-- A touched row is as recent as it was, and as the touch. -/
theorem Row.le_touched (row : Row) (now : Instant) :
    row.updatedAt ≤ (row.touched now).updatedAt ∧ now ≤ (row.touched now).updatedAt := by
  show row.updatedAt ≤ (if row.updatedAt > now then row.updatedAt else now)
    ∧ now ≤ (if row.updatedAt > now then row.updatedAt else now)
  split
  · next hlater => exact ⟨Int.le_refl _, Int.le_of_lt hlater⟩
  · next hlater => exact ⟨Int.not_lt.mp hlater, Int.le_refl _⟩

/-- A commit adds at most its own `updated_at`. -/
theorem mem_record {updatedAt : Instant} {commits : List Instant} :
    updatedAt ∈ call.record commits ↔ updatedAt ∈ call.record [] ∨ updatedAt ∈ commits := by
  cases call with
  | lifecycle createdAt own => simp [Call.record]
  | create now => simp [Call.record]

/-- The invariant of a state that differs in one transaction. -/
theorem Inv.change (h : Inv s) (tx : Nat) (hopen : ∀ other, other ≠ tx → s'.open? other = s.open? other)
    (hself : ∀ call phase, s'.open? tx = some (call, phase) → Holds s' tx call phase)
    (hother : ∀ other call phase, other ≠ tx → s.open? other = some (call, phase) → Holds s other call phase →
      Holds s' other call phase)
    (hpending : ∀ other version, s'.pending = some (other, version) →
      (other ≠ tx ∧ s.pending = some (other, version)) ∨
        ∃ call phase, s'.open? other = some (call, phase) ∧ (phase = .touched ∨ phase = .inserted))
    (hcommitted : s'.commits ≠ [] → s'.row.isSome = true) : Inv s' where
  holds other call phase hphase := by
    by_cases heq : other = tx
    · subst heq
      exact hself call phase hphase
    · rw [hopen other heq] at hphase
      exact hother other call phase heq hphase (h.holds other call phase hphase)
  holder other version hversion := by
    rcases hpending other version hversion with ⟨heq, hbefore⟩ | hopenPhase
    · rw [hopen other heq]
      exact h.holder other version hbefore
    · exact hopenPhase
  committed := hcommitted

/-- What a transaction knows of a row that nobody holds is that it is there, if anything. -/
theorem Holds.of_not_pending {phase : Phase} (h : Holds s tx call phase) (hpending : ∀ version, s.pending ≠ some (tx, version))
    (hrow : s.row.isSome = true → s'.row.isSome = true) : Holds s' tx call phase := by
  cases phase with
  | touched =>
    obtain ⟨row, version, -, hversion, -⟩ := h
    exact absurd hversion (hpending version)
  | inserted => exact absurd h.2 (hpending _)
  | ignored => exact hrow h
  | begun => trivial
  | untouched => trivial

/-- What a transaction knows does not change with the other transactions. -/
theorem Holds.of_eq {phase : Phase} (h : Holds s tx call phase) (hrow : s'.row = s.row) (hpending : s'.pending = s.pending) :
    Holds s' tx call phase := by
  unfold Holds at h ⊢
  rw [hrow, hpending]
  exact h

/-- The invariant, with a transaction in a phase that holds nothing. -/
theorem Inv.enter (h : Inv s) (tx : Nat) (call : Call) (phase : Phase) (hphase : Holds s tx call phase)
    (hfree : ∀ version, s.pending ≠ some (tx, version)) : Inv (s.enter tx call phase) := by
  refine h.change tx (fun other hne => Function.update_of_ne hne _ _) ?_ ?_ ?_ h.committed
  · intro call' phase' heq
    have hsame : some (call, phase) = some (call', phase') := (Function.update_self tx _ s.open?).symm.trans heq
    cases hsame
    exact hphase.of_eq rfl rfl
  · exact fun other call' phase' _ _ hholds => hholds.of_eq rfl rfl
  · intro other version hpending
    refine .inl ⟨?_, hpending⟩
    rintro rfl
    exact hfree version hpending

/-- The invariant, with a transaction that takes the row. -/
theorem Inv.take (h : Inv s) (tx : Nat) (call : Call) {phase : Phase} (version : Row) (hnone : s.pending = none)
    (hheld : phase = .touched ∨ phase = .inserted)
    (hphase : Holds { s.enter tx call phase with pending := some (tx, version) } tx call phase) :
    Inv { s.enter tx call phase with pending := some (tx, version) } := by
  refine h.change tx (fun other hne => Function.update_of_ne hne _ _) ?_ ?_ ?_ h.committed
  · intro call' phase' heq
    have hsame : some (call, phase) = some (call', phase') := (Function.update_self tx _ s.open?).symm.trans heq
    cases hsame
    exact hphase
  · exact fun other call' phase' _ _ hholds => hholds.of_not_pending (by simp [hnone]) id
  · intro other version' hpending
    cases hpending
    exact .inr ⟨call, phase, Function.update_self tx _ s.open?, hheld⟩

/-- The invariant, without a transaction that holds nothing. -/
theorem Inv.leave (h : Inv s) (tx : Nat) (commits : List Instant) (hfree : ∀ version, s.pending ≠ some (tx, version))
    (hcommitted : commits ≠ [] → s.row.isSome = true) : Inv { s.leave tx with commits := commits } := by
  refine h.change tx (fun other hne => Function.update_of_ne hne _ _) ?_ ?_ ?_ hcommitted
  · intro call' phase' heq
    have hsame : none = some (call', phase') := (Function.update_self tx _ s.open?).symm.trans heq
    cases hsame
  · exact fun other call' phase' _ _ hholds => hholds.of_eq rfl rfl
  · intro other version hpending
    refine .inl ⟨?_, hpending⟩
    rintro rfl
    exact hfree version hpending

/-- The invariant, without the transaction that held the row. -/
theorem Inv.release (h : Inv s) (tx : Nat) (row : Option Row) (commits : List Instant) {version : Row}
    (hheld : s.pending = some (tx, version)) (hrow : s.row.isSome = true → row.isSome = true)
    (hcommitted : commits ≠ [] → row.isSome = true) :
    Inv { s.leave tx with row := row, pending := none, commits := commits } := by
  refine h.change tx (fun other hne => Function.update_of_ne hne _ _) ?_ ?_ ?_ hcommitted
  · intro call' phase' heq
    have hsame : none = some (call', phase') := (Function.update_self tx _ s.open?).symm.trans heq
    cases hsame
  · intro other call' phase' hne _ hholds
    refine hholds.of_not_pending (fun version' hpending => ?_) hrow
    rw [hheld] at hpending
    exact hne (Prod.mk.inj (Option.some.inj hpending)).1.symm
  · intro other version' hpending
    cases hpending

/-- A transaction in a phase that holds nothing holds nothing. -/
theorem Inv.not_pending (h : Inv s) {phase : Phase} (hopen : s.open? tx = some (call, phase))
    (hphase : phase ≠ .touched ∧ phase ≠ .inserted) (version : Row) : s.pending ≠ some (tx, version) := by
  intro hpending
  obtain ⟨call', phase', hopen', hheld⟩ := h.holder tx version hpending
  rw [hopen] at hopen'
  cases hopen'
  rcases hheld with rfl | rfl
  · exact hphase.1 rfl
  · exact hphase.2 rfl

/-- A transaction in a phase that holds the row holds a version of it, at least as recent as the row. -/
theorem Inv.pending (h : Inv s) {phase : Phase} (hopen : s.open? tx = some (call, phase))
    (hphase : phase = .touched ∨ phase = .inserted) :
    ∃ version, s.pending = some (tx, version) ∧ ∀ row ∈ s.row, row.updatedAt ≤ version.updatedAt := by
  have hholds := h.holds tx call phase hopen
  rcases hphase with rfl | rfl
  · obtain ⟨row, version, hrow, hpending, hle, -⟩ := hholds
    refine ⟨version, hpending, fun row' hrow' => ?_⟩
    rw [hrow] at hrow'
    cases hrow'
    exact hle
  · refine ⟨_, hholds.2, fun row' hrow' => ?_⟩
    rw [hholds.1] at hrow'
    cases hrow'

end Steps

/-! ## Runs -/

/-- The invariant holds before the first transaction. -/
theorem inv_init : Inv machine.init where
  holds _ _ _ h := nomatch h
  holder _ _ h := nomatch h
  committed h := absurd rfl h

/-- **Every step keeps the invariant.** -/
theorem inv_step {s s' : Session} {action : Action} (h : Inv s) (hstep : step s action = some s') : Inv s' := by
  cases action with
  | begin tx call =>
    simp only [step] at hstep
    split at hstep
    · next hnone =>
      cases hstep
      refine h.enter tx call .begun trivial fun version hpending => ?_
      obtain ⟨call', phase', hopen, -⟩ := h.holder tx version hpending
      rw [hnone] at hopen
      cases hopen
    · cases hstep
  | statement tx =>
    simp only [step] at hstep
    split at hstep
    · next createdAt updatedAt hopen =>
      rcases touch_cases hstep with ⟨hrow, rfl⟩ | ⟨row, hrow, hpending, rfl⟩
      · exact h.enter tx _ _ trivial (h.not_pending hopen (by decide))
      · have hle := row.le_touched updatedAt
        refine h.take tx _ _ hpending (.inl rfl) ⟨row, row.touched updatedAt, hrow, rfl, hle.1, fun u hu => ?_⟩
        rw [Call.record, List.mem_singleton] at hu
        exact hu ▸ hle.2
    · next createdAt updatedAt hopen =>
      rcases insert_cases hstep with ⟨hrow, rfl⟩ | ⟨hrow, hpending, rfl⟩
      · exact h.enter tx _ _ hrow (h.not_pending hopen (by decide))
      · exact h.take tx _ _ hpending (.inr rfl) ⟨hrow, rfl⟩
    · next now hopen =>
      rcases insert_cases hstep with ⟨hrow, rfl⟩ | ⟨hrow, hpending, rfl⟩
      · exact h.enter tx _ _ hrow (h.not_pending hopen (by decide))
      · exact h.take tx _ _ hpending (.inr rfl) ⟨hrow, rfl⟩
    · cases hstep
  | commit tx =>
    obtain ⟨⟨call, phase⟩, hopen, hcommit⟩ := Option.bind_eq_some_iff.mp hstep
    rcases commit_cases hcommit with ⟨hheld, rfl⟩ | ⟨rfl, rfl⟩
    · obtain ⟨version, hpending, -⟩ := h.pending hopen hheld
      have hrow : (s.pending.map (·.2)).isSome = true := by rw [hpending]; rfl
      exact h.release tx _ _ hpending (fun _ => hrow) (fun _ => hrow)
    · exact h.leave tx _ (h.not_pending hopen (by decide)) (fun _ => h.holds tx call _ hopen)
  | rollback tx =>
    obtain ⟨⟨call, phase⟩, hopen, hrollback⟩ := Option.map_eq_some_iff.mp hstep
    subst hrollback
    cases phase with
    | touched =>
      obtain ⟨version, hpending, -⟩ := h.pending hopen (.inl rfl)
      exact h.release tx _ _ hpending id h.committed
    | inserted =>
      obtain ⟨version, hpending, -⟩ := h.pending hopen (.inr rfl)
      exact h.release tx _ _ hpending id h.committed
    | begun => exact h.leave tx _ (h.not_pending hopen (by decide)) h.committed
    | untouched => exact h.leave tx _ (h.not_pending hopen (by decide)) h.committed
    | ignored => exact h.leave tx _ (h.not_pending hopen (by decide)) h.committed

/-- **Only a commit changes the committed row**, or the lifecycle commits that were made. -/
theorem step_cases {s s' : Session} {action : Action} (hstep : step s action = some s') :
    (s'.row = s.row ∧ s'.commits = s.commits ∧ ∀ tx, action ≠ .commit tx) ∨
    ∃ tx call phase, action = .commit tx ∧ s.open? tx = some (call, phase) ∧ s.commit tx call phase = some s' := by
  cases action with
  | begin tx call =>
    simp only [step] at hstep
    split at hstep
    · cases hstep
      exact .inl ⟨rfl, rfl, fun _ h => nomatch h⟩
    · cases hstep
  | statement tx =>
    have htouch : ∀ call now, s.touch tx call now = some s' → s'.row = s.row ∧ s'.commits = s.commits := by
      intro call now h
      rcases touch_cases h with ⟨-, rfl⟩ | ⟨row, -, -, rfl⟩ <;> exact ⟨rfl, rfl⟩
    have hinsert : ∀ call, s.insert tx call = some s' → s'.row = s.row ∧ s'.commits = s.commits := by
      intro call h
      rcases insert_cases h with ⟨-, rfl⟩ | ⟨-, -, rfl⟩ <;> exact ⟨rfl, rfl⟩
    have hsame : s'.row = s.row ∧ s'.commits = s.commits := by
      simp only [step] at hstep
      split at hstep
      · exact htouch _ _ hstep
      · exact hinsert _ hstep
      · exact hinsert _ hstep
      · cases hstep
    exact .inl ⟨hsame.1, hsame.2, fun _ h => nomatch h⟩
  | commit tx =>
    obtain ⟨⟨call, phase⟩, hopen, hcommit⟩ := Option.bind_eq_some_iff.mp hstep
    exact .inr ⟨tx, call, phase, rfl, hopen, hcommit⟩
  | rollback tx =>
    obtain ⟨⟨call, phase⟩, hopen, hrollback⟩ := Option.map_eq_some_iff.mp hstep
    subst hrollback
    refine .inl ⟨?_, ?_, fun _ h => nomatch h⟩ <;> cases phase <;> rfl

/-- **The recency of the row never goes back**, and the row does not go away. -/
theorem row_step {s s' : Session} {action : Action} (h : Inv s) (hstep : step s action = some s') :
    ∀ row ∈ s.row, ∃ row' ∈ s'.row, row.updatedAt ≤ row'.updatedAt := by
  intro row hrow
  rcases step_cases hstep with ⟨hsame, -⟩ | ⟨tx, call, phase, -, hopen, hcommit⟩
  · exact ⟨row, hsame ▸ hrow, Int.le_refl _⟩
  · rcases commit_cases hcommit with ⟨hheld, rfl⟩ | ⟨-, rfl⟩
    · obtain ⟨version, hpending, hle⟩ := h.pending hopen hheld
      refine ⟨version, ?_, hle row hrow⟩
      show version ∈ s.pending.map (·.2)
      rw [hpending]
      rfl
    · exact ⟨row, hrow, Int.le_refl _⟩

/-- **After every commit there is a row.** -/
theorem isSome_of_commit {s s' : Session} {tx : Nat} (h : Inv s) (hstep : step s (.commit tx) = some s') :
    s'.row.isSome = true := by
  rcases step_cases hstep with ⟨-, -, hnot⟩ | ⟨tx, call, phase, -, hopen, hcommit⟩
  · exact absurd rfl (hnot tx)
  · rcases commit_cases hcommit with ⟨hheld, rfl⟩ | ⟨rfl, rfl⟩
    · obtain ⟨version, hpending, -⟩ := h.pending hopen hheld
      show (s.pending.map (·.2)).isSome = true
      rw [hpending]
      rfl
    · exact h.holds tx call _ hopen

/-- What a lifecycle commit leaves in the row. -/
theorem recent_commit {s s' : Session} {tx : Nat} {call : Call} {phase : Phase} (h : Inv s) (hrecent : Recent s)
    (hopen : s.open? tx = some (call, phase)) (hcommit : s.commit tx call phase = some s') :
    Recent s' ↔ ∀ updatedAt ∈ call.record [], ∃ row, s'.row = some row ∧ updatedAt ≤ row.updatedAt := by
  have hstep : step s (.commit tx) = some s' := Option.bind_eq_some_iff.mpr ⟨_, hopen, hcommit⟩
  have hcommits : s'.commits = call.record s.commits := by
    rcases commit_cases hcommit with ⟨-, rfl⟩ | ⟨-, rfl⟩ <;> rfl
  unfold Recent
  rw [hcommits]
  constructor
  · exact fun hall updatedAt hmem => hall updatedAt (mem_record.mpr (.inl hmem))
  · intro hown updatedAt hmem
    rcases mem_record.mp hmem with hnew | hold
    · exact hown updatedAt hnew
    · obtain ⟨row, hrow, hle⟩ := hrecent updatedAt hold
      obtain ⟨row', hrow', hle'⟩ := row_step h hstep row hrow
      exact ⟨row', hrow', Int.le_trans hle hle'⟩

/-- **A step keeps the row recent** exactly where it leaves nothing out. -/
theorem recent_step_iff {s s' : Session} {action : Action} (h : Inv s) (hrecent : Recent s)
    (hstep : step s action = some s') : Recent s' ↔ LeavesNothingOut s action := by
  rcases step_cases hstep with ⟨hrow, hcommits, hnot⟩ | ⟨tx, call, phase, rfl, hopen, hcommit⟩
  · have hguard : LeavesNothingOut s action := by
      cases action with
      | commit tx => exact absurd rfl (hnot tx)
      | begin | statement | rollback => trivial
    refine ⟨fun _ => hguard, fun _ => ?_⟩
    unfold Recent
    rw [hrow, hcommits]
    exact hrecent
  · rw [recent_commit h hrecent hopen hcommit]
    unfold LeavesNothingOut
    dsimp only
    rw [hopen]
    have hholds := h.holds tx call phase hopen
    cases call with
    | create now =>
      refine ⟨fun _ => ?_, fun _ updatedAt hmem => absurd hmem List.not_mem_nil⟩
      cases phase <;> trivial
    | lifecycle createdAt updatedAt =>
      simp only [Call.record, List.mem_singleton, forall_eq]
      cases phase with
      | begun => cases hcommit
      | untouched => cases hcommit
      | touched =>
        obtain ⟨row, version, hrow, hpending, -, hle⟩ := hholds
        cases hcommit
        refine ⟨fun _ => trivial, fun _ => ⟨version, ?_, hle updatedAt List.mem_cons_self⟩⟩
        show s.pending.map (·.2) = some version
        rw [hpending]
        rfl
      | inserted =>
        cases hcommit
        show (∃ row, s.pending.map (·.2) = some row ∧ _) ↔ _
        rw [hholds.2]
        constructor
        · rintro ⟨row, hrow, hle⟩
          cases hrow
          exact hle
        · exact fun hle => ⟨_, rfl, hle⟩
      | ignored =>
        obtain ⟨row, hrow⟩ := Option.isSome_iff_exists.mp hholds
        cases hcommit
        show (∃ row, s.row = some row ∧ _) ↔ ∀ row ∈ s.row, _
        rw [hrow]
        constructor
        · rintro ⟨row', hrow', hle⟩ row'' hrow''
          cases hrow'
          cases hrow''
          exact hle
        · exact fun hle => ⟨row, rfl, hle row rfl⟩

/-- Every reachable state has the invariant. -/
theorem inv_of_reach {G : Session → Action → Prop} {s : Session} (h : Machine.Reach machine G s) : Inv s :=
  h.invariant inv_init fun hinv _ hstep => inv_step hinv hstep

/-- **The recency of a conversation.** In every run there is a row after every commit, and its `updated_at` never
decreases. In every run whose commits leave nothing out it is at least the `updated_at` of every lifecycle commit made
so far, and the first commit that leaves its own out ends that. -/
theorem conversation_recency (s : Session) :
    (Machine.Reach machine Machine.free s → ∀ s' tx, step s (.commit tx) = some s' → s'.row.isSome = true) ∧
    (Machine.Reach machine Machine.free s → ∀ s', Machine.Steps machine Machine.free s s' →
      ∀ row ∈ s.row, ∃ row' ∈ s'.row, row.updatedAt ≤ row'.updatedAt) ∧
    (Machine.Reach machine LeavesNothingOut s → Recent s) ∧
    (Machine.Reach machine LeavesNothingOut s → ∀ s' action, step s action = some s' →
      (Recent s' ↔ LeavesNothingOut s action)) := by
  have hrecent : Machine.Reach machine LeavesNothingOut s → Recent s := by
    intro hreach
    induction hreach with
    | init => exact fun _ h => nomatch h
    | step hbefore hguard hstep ih => exact (recent_step_iff (inv_of_reach hbefore) ih hstep).mpr hguard
  refine ⟨?_, ?_, hrecent, ?_⟩
  · exact fun hreach s' tx hstep => isSome_of_commit (inv_of_reach hreach) hstep
  · intro hreach s' hsteps
    refine Machine.Steps.lift (I := Inv) (R := fun s s' => ∀ row ∈ s.row, ∃ row' ∈ s'.row, row.updatedAt ≤ row'.updatedAt)
      (fun s row hrow => ⟨row, hrow, Int.le_refl _⟩) ?_ (fun hinv _ hstep => inv_step hinv hstep)
      (fun hinv _ hstep => row_step hinv hstep) (inv_of_reach hreach) hsteps
    intro s t u hst htu row hrow
    obtain ⟨row', hrow', hle⟩ := hst row hrow
    obtain ⟨row'', hrow'', hle'⟩ := htu row' hrow'
    exact ⟨row'', hrow'', Int.le_trans hle hle'⟩
  · exact fun hreach s' action hstep => recent_step_iff (inv_of_reach hreach) (hrecent hreach) hstep

/-- Two first turns that race: both find no row to touch, and the later one leaves the row of the earlier. -/
def racingTurns : List Action :=
  [.begin 1 (.lifecycle 10 10), .begin 2 (.lifecycle 20 20), .statement 1, .statement 2, .statement 1, .commit 1,
    .statement 2, .commit 2]

/-- **Two first turns lose a recency update.** -/
theorem recency_lost : ∃ s, Machine.Reach machine Machine.free s ∧ ¬Recent s := by
  refine ⟨machine.after racingTurns, Machine.reach_after racingTurns (by decide), fun h => ?_⟩
  have hrow : (machine.after racingTurns).row = some ⟨10, 10⟩ := by decide
  obtain ⟨row, heq, hle⟩ := h 20 (by decide)
  rw [hrow] at heq
  cases heq
  exact absurd hle (by decide)

end Conversations
