import FactoryAgent.Metering.UsageEvent

/-!
# The metering context variables

`_usage_context_var` and `_mes_events_var` of `application/usage.py` as one task sees them. The
adapter records a call into the open buffer, a commit drains it, and closing the context throws away
whatever is still in it. The tasks of a fan-out share the list object of the task that awaits them, so
they record into the same buffer.
-/

/-- **The two context variables**: the active usage context and the buffer of MES call events. -/
structure UsageVars where
  context : Option UsageContext
  mesEvents : Option (List UsageEvent)
  deriving DecidableEq, Repr

namespace UsageVars

/-- Outside any metered interaction. -/
def unset : UsageVars := ⟨none, none⟩

/-- `set_usage_context`: a buffer that is open stays as it is. -/
def setUsageContext (vars : UsageVars) : Option UsageContext → UsageVars
  | none => ⟨none, none⟩
  | some context => ⟨some context, some (vars.mesEvents.getD [])⟩

/-- What `drain_mes_events` would take. -/
def pending (vars : UsageVars) : List UsageEvent := vars.mesEvents.getD []

/-- The variables after `drain_mes_events`: the buffer stays open. -/
def drained (vars : UsageVars) : UsageVars :=
  { vars with mesEvents := vars.mesEvents.map (fun _ => []) }

/-- `record_mes_call`: dropped outside a metered interaction. -/
def recordMesCall (vars : UsageVars) (eventId : Nat) (now : Instant) (call : MesCallRecord) :
    UsageVars :=
  match vars.context, vars.mesEvents with
  | some context, some events =>
    { vars with mesEvents := some (events ++ [mesCallCompletedEvent context eventId now call]) }
  | _, _ => vars

/-- Whether an interaction is metered: the context is set and the buffer open. -/
def isOpen (vars : UsageVars) : Bool := vars.context.isSome && vars.mesEvents.isSome

@[simp] theorem pending_unset : unset.pending = [] := rfl

@[simp] theorem pending_drained (vars : UsageVars) : vars.drained.pending = [] := by
  unfold drained pending
  cases vars.mesEvents <;> rfl

@[simp] theorem pending_close (vars : UsageVars) : (vars.setUsageContext none).pending = [] := rfl

/-- Opening a context leaves the buffer as it is. -/
@[simp] theorem pending_open (vars : UsageVars) (context : UsageContext) :
    (vars.setUsageContext (some context)).pending = vars.pending := rfl

/-- **A call recorded into an open buffer is pending.** -/
theorem pending_recordMesCall {vars : UsageVars} {context : UsageContext}
    (hcontext : vars.context = some context) (hopen : vars.mesEvents.isSome = true)
    (eventId : Nat) (now : Instant) (call : MesCallRecord) :
    (vars.recordMesCall eventId now call).pending
      = vars.pending ++ [mesCallCompletedEvent context eventId now call] := by
  obtain ⟨events, hevents⟩ := Option.isSome_iff_exists.mp hopen
  simp [recordMesCall, pending, hcontext, hevents]

end UsageVars
