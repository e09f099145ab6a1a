import FactoryAgent.Lib.Json
import FactoryAgent.Lib.Machine
import FactoryAgent.Persistence.Pages
import FactoryAgent.Windows.CalendarDates

/-!
# The window that a session established

How a turn of `application/session/pipeline.py` comes by the window that it answers over, and how it hands it on: the
window goes into the payload of the result as an echo, `_session_time_range` reads the echo of the newest result of the
session back, and a turn that names no time takes it from there. Sessions share one table, and a result is read back in
any later turn, after a restart too.

A session has the window of its last answered turn, and a turn that names no time is answered over exactly that one: it
is neither asked for nor refused, and it does not drift, however many turns take it over (`continuity_run`). The label
that is shown with a window is the pair of dates that the MES is asked for (`label_dates`).
-/

namespace Continuity

open Calendar LocalTime

/-! ## Windows and their echoes -/

/-- **A window**, `TimeRange`: half-open, between two dates and times with offsets. -/
structure Window where
  start : DateTime
  stop : DateTime
  aware : start.offset.isSome = true ∧ stop.offset.isSome = true
  ordered : start.instant < stop.instant
  deriving DecidableEq

/-- `TimeRange(start=…, end=…)`; `none` is the `TimeRangeError`. -/
def Window.of? (start stop : DateTime) : Option Window :=
  if h : (start.offset.isSome = true ∧ stop.offset.isSome = true) ∧ start.instant < stop.instant then
    some ⟨start, stop, h.1, h.2⟩
  else none

/-- `start.astimezone(zone).date()`; `none` is a raised `OverflowError`. -/
def startDay (zone : Zone) (start : DateTime) : Option Date :=
  ((Windows.Moment.utc start.instant).clock? zone).bind dayOf?

/-- **`inclusive_end_day`** -/
def inclusiveEndDay (zone : Zone) (stop : DateTime) : Option Date :=
  ((Windows.Moment.utc stop.instant).clock? zone).bind fun clock => dayOf? (clock - 1)

/-- **`time_range_echo`**; `none` is a raised `OverflowError`. -/
def timeRangeEcho (zone : Zone) (window : Window) (expression : Option String) : Option Json := do
  let first ← startDay zone window.start
  let last ← inclusiveEndDay zone window.stop
  let payload := [("start", Json.str window.start.isoformat), ("end", Json.str window.stop.isoformat),
    ("label", Json.str (first.isoformat ++ " 至 " ++ last.isoformat))]
  return .obj (match expression.filter (· ≠ "") with
    | some words => payload ++ [("expression", .str words)]
    | none => payload)

/-- `_aware_datetime` -/
def awareDatetime : Option Json → Option DateTime
  | some (.str text) => (DateTime.fromisoformat text).filter (·.offset.isSome)
  | _ => none

/-- **`time_range_from_echo`** -/
def timeRangeFromEcho : Json → Option Window
  | .obj fields => do
    let start ← awareDatetime (Json.get? fields "start")
    let stop ← awareDatetime (Json.get? fields "end")
    Window.of? start stop
  | _ => none

/-- The window of the bounds of a window. -/
theorem Window.of?_self (window : Window) : Window.of? window.start window.stop = some window :=
  dif_pos ⟨window.aware, window.ordered⟩

/-- A date and time with an offset is read back from its text. -/
theorem awareDatetime_isoformat {value : DateTime} (h : value.offset.isSome = true) :
    awareDatetime (some (.str value.isoformat)) = some value := by
  rw [awareDatetime, DateTime.fromisoformat_isoformat, Option.filter_some, if_pos h]

/-- **An echo is read back** as its window. -/
theorem timeRangeFromEcho_echo {zone : Zone} {window : Window} {expression : Option String} {echo : Json}
    (h : timeRangeEcho zone window expression = some echo) : timeRangeFromEcho echo = some window := by
  obtain ⟨first, -, h⟩ := Option.bind_eq_some_iff.mp h
  obtain ⟨last, -, h⟩ := Option.bind_eq_some_iff.mp h
  have hecho : ∃ rest, echo = .obj ([("start", Json.str window.start.isoformat),
        ("end", Json.str window.stop.isoformat),
        ("label", Json.str (first.isoformat ++ " 至 " ++ last.isoformat))] ++ rest)
      ∧ ∀ field ∈ rest, field.1 = "expression" := by
    cases hwords : expression.filter (· ≠ "") with
    | none =>
      rw [hwords] at h
      refine ⟨[], ?_, fun _ hfield => absurd hfield List.not_mem_nil⟩
      rw [List.append_nil]
      exact (Option.some.inj h).symm
    | some words =>
      rw [hwords] at h
      refine ⟨[("expression", .str words)], (Option.some.inj h).symm, fun field hfield => ?_⟩
      rw [List.mem_singleton.mp hfield]
  obtain ⟨rest, rfl, hrest⟩ := hecho
  -- a field of the words is none of the bounds
  have hget : ∀ key value, key ≠ "expression" → Json.get? [("start", Json.str window.start.isoformat),
      ("end", Json.str window.stop.isoformat), ("label", Json.str (first.isoformat ++ " 至 " ++ last.isoformat))] key
        = some value →
      Json.get? ([("start", Json.str window.start.isoformat), ("end", Json.str window.stop.isoformat),
        ("label", Json.str (first.isoformat ++ " 至 " ++ last.isoformat))] ++ rest) key = some value := by
    intro key value hkey hvalue
    have hnone : rest.reverse.find? (fun field => field.1 == key) = none := by
      rw [List.find?_eq_none]
      intro field hfield
      rw [hrest field (List.mem_reverse.mp hfield), beq_iff_eq]
      exact fun heq => hkey heq.symm
    unfold Json.get? at hvalue ⊢
    rw [List.reverse_append, List.find?_append, hnone, Option.none_or]
    exact hvalue
  rw [timeRangeFromEcho, hget "start" _ (by decide) rfl, hget "end" _ (by decide) rfl,
    awareDatetime_isoformat window.aware.1, awareDatetime_isoformat window.aware.2]
  exact window.of?_self

/-- **The label of a window** is the pair of dates that the MES is asked for. -/
theorem label_dates {zone : Zone} {window : Window} {expression : Option String} {echo : Json}
    (h : timeRangeEcho zone window expression = some echo) :
    ∃ first last fields, Windows.localCalendarDates zone (.utc window.start.instant) (.utc window.stop.instant)
        = some (first, last)
      ∧ echo = .obj fields ∧ ("label", Json.str (first ++ " 至 " ++ last)) ∈ fields := by
  obtain ⟨first, hfirst, h⟩ := Option.bind_eq_some_iff.mp h
  obtain ⟨last, hlast, h⟩ := Option.bind_eq_some_iff.mp h
  obtain ⟨startClock, hstart, hfirst⟩ := Option.bind_eq_some_iff.mp hfirst
  obtain ⟨stopClock, hstop, hlast⟩ := Option.bind_eq_some_iff.mp hlast
  have hdates : Windows.localCalendarDates zone (.utc window.start.instant) (.utc window.stop.instant)
      = some (first.isoformat, last.isoformat) := by
    simp only [Windows.localCalendarDates, hstart, hstop, hfirst, hlast, Option.bind_eq_bind, Option.bind_some]
    rfl
  cases hwords : expression.filter (· ≠ "") with
  | none =>
    rw [hwords] at h
    exact ⟨_, _, _, hdates, (Option.some.inj h).symm, by simp⟩
  | some words =>
    rw [hwords] at h
    exact ⟨_, _, _, hdates, (Option.some.inj h).symm, by simp⟩

/-! ## What a turn answers over -/

/-- Why a range is not used. -/
inductive Violation where
  | empty
  | tooLong
  | future
  deriving DecidableEq, Repr

/-- **`time_range_violation`**. The limit is the midnight after tomorrow, where the clock is given. -/
def timeRangeViolation (start stop : DateTime) (maxDays : Nat) (limit : Option Instant) : Option Violation :=
  if stop.instant ≤ start.instant then some .empty
  else if maxDays * dayLength < stop.instant - start.instant then some .tooLong
  else if limit.any (fun limit => decide (limit ≤ start.instant)) then some .future
  else none

/-- What a turn brings: what the parse made of a question, or a drill. A drill sends both bounds, or none. -/
inductive Question where
  | parsed (capabilityId : Option String) (missing ambiguous : List String) (window : Option Window)
      (expression : Option String)
  | drill (echo : Option (DateTime × DateTime)) (expression : Option String)

/-- **A turn**, with the reading of phrases and the limit as its clock has them. -/
structure Turn where
  tenantId : String
  userId : String
  sessionId : String
  interactionId : String
  question : Question
  phrase : String → Option Window
  limit : Instant

/-- **What comes of a turn** as to its window. -/
inductive Resolution where
  | clarified
  | chatted
  | refused (category : String)
  | over (window : Window) (expression : Option String)
  /-- An analysis without a window. -/
  | unbounded (expression : Option String)
  deriving DecidableEq

/-- `_rescue_missing_time_range`: the window is all that is missing, and nothing is ambiguous. -/
def rescueMissingTimeRange (capabilityId : Option String) (missing ambiguous : List String) (session : Option Window) :
    Option Window :=
  if capabilityId = none ∨ ambiguous ≠ [] ∨ missing ≠ ["time_range"] then none else session

/-- The end of `_authorize_request`: a turn without a window takes that of the session, and no window is too long. -/
def bounded (maxDays : Nat) (session window : Option Window) (expression : Option String) : Resolution :=
  match window.or session with
  | none => .refused "time_range_missing"
  | some window =>
    if timeRangeViolation window.start window.stop maxDays none = some .tooLong then .refused "time_range_exceeds_limit"
    else .over window expression

/-- The window of `_run_analysis`. -/
def analyzed (maxDays : Nat) (limit : Instant) (window : Option Window) (expression : Option String) : Resolution :=
  match window with
  | none => .unbounded expression
  | some window =>
    if timeRangeViolation window.start window.stop maxDays (some limit) ≠ none then .refused "time_range_exceeds_limit"
    else .over window expression

/-- A parse that needs no clarification, by its capability. -/
def routed (maxDays : Nat) (limit : Instant) (session : Option Window) (capabilityId : Option String)
    (window : Option Window) (expression : Option String) : Resolution :=
  match capabilityId with
  | none => .refused "capability_unresolved"
  | some "chitchat" => .chatted
  | some "l2_analysis" => analyzed maxDays limit window expression
  | some _ => bounded maxDays session window expression

/-- **`_drill_parse_outcome`**, and what follows it. The last resort is the month. -/
def drilled (maxDays : Nat) (turn : Turn) (session : Option Window) (echo : Option (DateTime × DateTime))
    (expression : Option String) : Resolution :=
  let spoken (words : String) : Resolution :=
    match turn.phrase words with
    | some window => bounded maxDays session (some window) (some words)
    | none => .refused "drill_invalid_time"
  match echo, expression.filter (· ≠ "") with
  | some (start, stop), _ =>
    match Window.of? start stop with
    | some window =>
      if timeRangeViolation start stop maxDays (some turn.limit) ≠ none then .refused "drill_invalid_time"
      else bounded maxDays session (some window) expression
    | none => .refused "drill_invalid_time"
  | none, some words => spoken words
  | none, none =>
    match session with
    | some window => bounded maxDays session (some window) expression
    | none => spoken "本月"

/-- **The window of a turn**, `_pipeline` from the parse on, with what was read of the session. -/
def resolve (maxDays : Nat) (turn : Turn) (session : Option Window) : Resolution :=
  match turn.question with
  | .parsed capabilityId missing ambiguous window expression =>
    if capabilityId = none ∨ missing ≠ [] ∨ ambiguous ≠ [] then
      match rescueMissingTimeRange capabilityId missing ambiguous session with
      | some rescued => routed maxDays turn.limit session capabilityId (some rescued) expression
      | none => .clarified
    else routed maxDays turn.limit session capabilityId window expression
  | .drill echo expression => drilled maxDays turn session echo expression

/-! ## The table of results -/

/-- **A message of kind `result_table`**, with the echo in its payload. -/
structure ResultMessage where
  tenantId : String
  userId : String
  sessionId : String
  interactionId : String
  sequence : Int
  createdAt : Instant
  timeRange : Json

variable (collation : Collation)

/-- The order of `select_latest_message`. -/
def ResultMessage.key (row : ResultMessage) : collation.MessageKey :=
  toLex (row.createdAt, toLex (collation.sortKey row.interactionId, row.sequence))

/-- The one with the greatest key. -/
def newest (rows : List ResultMessage) : Option ResultMessage :=
  rows.foldl (fun best row =>
    match best with
    | none => some row
    | some other => if other.key collation < row.key collation then some row else some other) none

/-- Whether a message is one of a session of an owner. -/
def ResultMessage.isOf (row : ResultMessage) (tenantId userId sessionId : String) : Bool :=
  row.tenantId = tenantId ∧ row.userId = userId ∧ row.sessionId = sessionId

/-- **`latest_message`**, of the results. -/
def latestMessage (rows : List ResultMessage) (tenantId userId sessionId : String) : Option ResultMessage :=
  newest collation (rows.filter (·.isOf tenantId userId sessionId))

/-- **`_session_time_range`**, where the read goes through. -/
def sessionTimeRange (rows : List ResultMessage) (tenantId userId sessionId : String) : Option Window :=
  (latestMessage collation rows tenantId userId sessionId).bind fun row => timeRangeFromEcho row.timeRange

/-- **A turn that was answered**, with what it answered over, and whether the session could be read. -/
structure Answer where
  turn : Turn
  readable : Bool
  window : Option Window

/-- **The state**: the table, and the turns that were answered. -/
structure World where
  rows : List ResultMessage
  answers : List Answer

/-- What happens: a turn, which may fail to read the session and may end without an answer for any reason, and the clock
and the sequence of the answer. -/
structure Action where
  turn : Turn
  readable : Bool
  answered : Bool
  sequence : Int
  now : Instant

/-- The message of an answer. -/
def Action.message (action : Action) (timeRange : Json) : ResultMessage where
  tenantId := action.turn.tenantId
  userId := action.turn.userId
  sessionId := action.turn.sessionId
  interactionId := action.turn.interactionId
  sequence := action.sequence
  createdAt := action.now
  timeRange := timeRange

/-- The state after an answer. -/
def World.answer (world : World) (action : Action) (window : Option Window) (timeRange : Json) : World :=
  ⟨world.rows ++ [action.message timeRange], world.answers ++ [⟨action.turn, action.readable, window⟩]⟩

/-- What a turn reads of its session. -/
def World.read (world : World) (turn : Turn) (readable : Bool) : Option Window :=
  if readable then sessionTimeRange collation world.rows turn.tenantId turn.userId turn.sessionId else none

/-- **One turn.** An answer whose echo cannot be made is none. -/
def step (zone : Zone) (maxDays : Nat) (world : World) (action : Action) : Option World :=
  if action.answered then
    match resolve maxDays action.turn (world.read collation action.turn action.readable) with
    | .over window expression => (timeRangeEcho zone window expression).map fun echo =>
        world.answer action (some window) echo
    | .unbounded _ => some (world.answer action none .null)
    | _ => none
  else some world

/-- The turns of all sessions. -/
def machine (zone : Zone) (maxDays : Nat) : Machine World Action where
  init := ⟨[], []⟩
  step := step collation zone maxDays

/-- **The clock moves on** between the answers of a session. -/
def Later (world : World) (action : Action) : Prop :=
  ∀ row ∈ world.rows, row.isOf action.turn.tenantId action.turn.userId action.turn.sessionId = true →
    row.createdAt < action.now

instance (world : World) (action : Action) : Decidable (Later world action) :=
  inferInstanceAs (Decidable (∀ row ∈ world.rows, _ → _))

/-! ## The window of a session -/

/-- Whether an answer is one of a session of an owner. -/
def Answer.isOf (answer : Answer) (tenantId userId sessionId : String) : Bool :=
  answer.turn.tenantId = tenantId ∧ answer.turn.userId = userId ∧ answer.turn.sessionId = sessionId

/-- **The window that a session established**: that of its last answer. -/
def established (answers : List Answer) (tenantId userId sessionId : String) : Option Window :=
  ((answers.filter (·.isOf tenantId userId sessionId)).getLast?).bind Answer.window

/-- **A turn that names no time**, and asks for nothing else that is missing. -/
def FollowUp : Question → Prop
  | .parsed capabilityId missing ambiguous window _ =>
    (∃ id, capabilityId = some id ∧ id ≠ "chitchat" ∧ id ≠ "l2_analysis")
      ∧ (missing = [] ∨ missing = ["time_range"]) ∧ ambiguous = [] ∧ window = none
  | .drill echo expression => echo = none ∧ expression.filter (· ≠ "") = none

/-- **What an answer was given over** is what its turn resolves to, with the window that its session had established. -/
def Answer.Justified (maxDays : Nat) (before : List Answer) (answer : Answer) : Prop :=
  let session := if answer.readable then
    established before answer.turn.tenantId answer.turn.userId answer.turn.sessionId else none
  match answer.window with
  | some window => ∃ expression, resolve maxDays answer.turn session = .over window expression
  | none => ∃ expression, resolve maxDays answer.turn session = .unbounded expression

/-- A range that is not refused with a limit is not refused without one. -/
theorem timeRangeViolation_none {start stop : DateTime} {maxDays : Nat} {limit : Instant}
    (h : timeRangeViolation start stop maxDays (some limit) = none) :
    timeRangeViolation start stop maxDays none = none := by
  unfold timeRangeViolation at h ⊢
  split_ifs at h with hempty hlong
  rw [if_neg hempty, if_neg hlong]
  rfl

/-- **A window within the bound.** -/
def Window.Fits (maxDays : Nat) (window : Window) : Prop :=
  timeRangeViolation window.start window.stop maxDays none ≠ some .tooLong

section Resolutions

variable {maxDays : Nat} {session given : Option Window} {window : Window} {expression expression' : Option String}

/-- What is answered over is within the bound. -/
theorem fits_of_bounded (h : bounded maxDays session given expression' = .over window expression) :
    window.Fits maxDays := by
  unfold bounded at h
  split at h
  · cases h
  · split_ifs at h with hlong
    cases h
    exact hlong

/-- So is what is analyzed. -/
theorem fits_of_analyzed {limit : Instant} (h : analyzed maxDays limit given expression' = .over window expression) :
    window.Fits maxDays := by
  unfold analyzed at h
  split at h
  · cases h
  · split_ifs at h with hviolation
    cases h
    rw [not_not] at hviolation
    rw [Window.Fits, timeRangeViolation_none hviolation]
    exact (Option.some_ne_none _).symm

/-- So is what is routed. -/
theorem fits_of_routed {limit : Instant} {capabilityId : Option String}
    (h : routed maxDays limit session capabilityId given expression' = .over window expression) :
    window.Fits maxDays := by
  unfold routed at h
  split at h
  · cases h
  · cases h
  · exact fits_of_analyzed h
  · exact fits_of_bounded h

/-- So is what is drilled into. -/
theorem fits_of_drilled {turn : Turn} {echo : Option (DateTime × DateTime)}
    (h : drilled maxDays turn session echo expression' = .over window expression) : window.Fits maxDays := by
  have hspoken : ∀ {words : String}, (match turn.phrase words with
      | some window => bounded maxDays session (some window) (some words)
      | none => Resolution.refused "drill_invalid_time") = .over window expression → window.Fits maxDays := by
    intro words hover
    split at hover
    · exact fits_of_bounded hover
    · cases hover
  unfold drilled at h
  dsimp only at h
  split at h
  · split at h
    · split_ifs at h
      exact fits_of_bounded h
    · cases h
  · exact hspoken h
  · split at h
    · exact fits_of_bounded h
    · exact hspoken h

/-- **No turn is answered over a window that is too long.** -/
theorem fits_of_resolve {turn : Turn} (h : resolve maxDays turn session = .over window expression) :
    window.Fits maxDays := by
  unfold resolve at h
  split at h
  · split_ifs at h
    · split at h
      · exact fits_of_routed h
      · cases h
    · exact fits_of_routed h
  · exact fits_of_drilled h

/-- **A turn that names no time is answered over the window of its session**, where there is one within the bound. -/
theorem resolve_followUp {turn : Turn} (h : FollowUp turn.question) (hfits : window.Fits maxDays) :
    ∃ expression, resolve maxDays turn (some window) = .over window expression := by
  have hbounded : ∀ (given : Option Window) (expression : Option String), given.or (some window) = some window →
      bounded maxDays (some window) given expression = .over window expression := by
    intro given expression hgiven
    unfold bounded
    rw [hgiven]
    exact if_neg hfits
  obtain ⟨tenantId, userId, sessionId, interactionId, question, phrase, limit⟩ := turn
  cases question with
  | parsed capabilityId missing ambiguous own expression =>
    obtain ⟨⟨id, rfl, hchat, hanalysis⟩, hmissing, rfl, rfl⟩ := h
    have hrouted : ∀ given : Option Window, given.or (some window) = some window →
        routed maxDays limit (some window) (some id) given expression = .over window expression := by
      intro given hgiven
      unfold routed
      split
      · next heq => cases heq
      · next heq => exact absurd (Option.some.inj heq) hchat
      · next heq => exact absurd (Option.some.inj heq) hanalysis
      · exact hbounded given expression hgiven
    refine ⟨expression, ?_⟩
    unfold resolve
    rcases hmissing with rfl | rfl
    · dsimp only
      rw [if_neg (by simp)]
      exact hrouted none rfl
    · dsimp only
      rw [if_pos (by simp), rescueMissingTimeRange, if_neg (by simp)]
      exact hrouted (some window) rfl
  | drill echo expression =>
    obtain ⟨rfl, hwords⟩ := h
    refine ⟨expression, ?_⟩
    unfold resolve drilled
    dsimp only
    rw [hwords]
    exact hbounded (some window) expression rfl

end Resolutions

/-! ## What holds in every run -/

section Runs

variable {collation : Collation} {zone : Zone} {maxDays : Nat} {world : World}

/-- **The newest is the one that came last**, where it is later than the others. -/
theorem newest_concat {rows : List ResultMessage} {row : ResultMessage}
    (h : ∀ other ∈ rows, other.createdAt < row.createdAt) :
    newest collation (rows ++ [row]) = some row := by
  have hmem : ∀ (rows : List ResultMessage) (best : Option ResultMessage) (found : ResultMessage),
      rows.foldl (fun best row =>
        match best with
        | none => some row
        | some other => if other.key collation < row.key collation then some row else some other) best = some found →
      found ∈ rows ∨ best = some found := by
    intro rows
    induction rows with
    | nil => exact fun _ _ hfound => .inr hfound
    | cons next rows ih =>
      intro best found hfound
      rw [List.foldl_cons] at hfound
      rcases ih _ found hfound with hlater | hbest
      · exact .inl (List.mem_cons_of_mem _ hlater)
      · cases best with
        | none =>
          cases hbest
          exact .inl List.mem_cons_self
        | some other =>
          dsimp only at hbest
          split_ifs at hbest
          · cases hbest
            exact .inl List.mem_cons_self
          · exact .inr hbest
  unfold newest
  rw [List.foldl_append, List.foldl_cons, List.foldl_nil]
  cases hbest : rows.foldl _ none with
  | none => rfl
  | some best =>
    have hlt : best.createdAt < row.createdAt := by
      rcases hmem rows none best hbest with hin | hnone
      · exact h best hin
      · cases hnone
    exact if_pos (Prod.Lex.toLex_lt_toLex.mpr (.inl hlt))

/-- The answers of other sessions do not matter. -/
theorem established_concat (answers : List Answer) (answer : Answer) (tenantId userId sessionId : String) :
    established (answers ++ [answer]) tenantId userId sessionId
      = if answer.isOf tenantId userId sessionId then answer.window
        else established answers tenantId userId sessionId := by
  unfold established
  rw [List.filter_append]
  cases hown : answer.isOf tenantId userId sessionId with
  | true => simp [hown]
  | false => simp [hown]

/-- The results of other sessions do not matter. -/
theorem sessionTimeRange_concat {rows : List ResultMessage} {row : ResultMessage} (tenantId userId sessionId : String)
    (h : row.isOf tenantId userId sessionId = true → ∀ other ∈ rows, other.isOf tenantId userId sessionId = true →
      other.createdAt < row.createdAt) :
    sessionTimeRange collation (rows ++ [row]) tenantId userId sessionId
      = if row.isOf tenantId userId sessionId then timeRangeFromEcho row.timeRange
        else sessionTimeRange collation rows tenantId userId sessionId := by
  unfold sessionTimeRange latestMessage
  rw [List.filter_append]
  cases hown : row.isOf tenantId userId sessionId with
  | true =>
    rw [List.filter_cons_of_pos (by exact hown), List.filter_nil, newest_concat]
    · rfl
    · intro other hother
      obtain ⟨hmem, hof⟩ := List.mem_filter.mp hother
      exact h hown other hmem hof
  | false =>
    rw [List.filter_cons_of_neg (by rw [hown]; exact Bool.false_ne_true), List.filter_nil, List.append_nil]
    rfl

/-- **The invariant.** -/
structure Invariant (collation : Collation) (maxDays : Nat) (world : World) : Prop where
  session : ∀ tenantId userId sessionId, sessionTimeRange collation world.rows tenantId userId sessionId
    = established world.answers tenantId userId sessionId
  justified : ∀ before answer after, world.answers = before ++ answer :: after → answer.Justified maxDays before

/-- **An answer keeps the invariant.** -/
theorem Invariant.answer (h : Invariant collation maxDays world) {action : Action} (hlater : Later world action)
    {window : Option Window} {timeRange : Json} (hecho : timeRangeFromEcho timeRange = window)
    (hjustified : Answer.Justified maxDays world.answers ⟨action.turn, action.readable, window⟩) :
    Invariant collation maxDays (world.answer action window timeRange) where
  session tenantId userId sessionId := by
    have hsame : (action.message timeRange).isOf tenantId userId sessionId
        = (⟨action.turn, action.readable, window⟩ : Answer).isOf tenantId userId sessionId := rfl
    show sessionTimeRange collation (world.rows ++ [action.message timeRange]) tenantId userId sessionId
      = established (world.answers ++ [⟨action.turn, action.readable, window⟩]) tenantId userId sessionId
    rw [established_concat, sessionTimeRange_concat, hsame, h.session]
    · split_ifs
      · exact hecho
      · rfl
    · intro hown other hother hof
      refine hlater other hother ?_
      obtain ⟨rfl, rfl, rfl⟩ : action.turn.tenantId = tenantId ∧ action.turn.userId = userId
          ∧ action.turn.sessionId = sessionId := of_decide_eq_true hown
      exact hof
  justified before answer after hsplit := by
    rcases List.eq_nil_or_concat after with rfl | ⟨rest, last, rfl⟩
    · obtain ⟨rfl, hlast⟩ := List.append_inj' hsplit rfl
      cases hlast
      exact hjustified
    · have hshape : world.answers ++ [⟨action.turn, action.readable, window⟩]
          = (before ++ answer :: rest) ++ [last] := by
        rw [List.append_assoc]
        exact hsplit.trans (by simp)
      exact h.justified before answer rest (List.append_inj' hshape rfl).1

/-- The invariant holds in every reachable state. -/
theorem Invariant.of_reach (h : (machine collation zone maxDays).Reach Later world) :
    Invariant collation maxDays world := by
  have hinit : Invariant collation maxDays (machine collation zone maxDays).init := by
    refine ⟨fun _ _ _ => rfl, fun before answer after hsplit => ?_⟩
    exact absurd hsplit.symm (List.append_ne_nil_of_right_ne_nil _ (List.cons_ne_nil _ _))
  refine h.invariant hinit ?_
  intro s t action hinvariant hlater hstep
  have hread : s.read collation action.turn action.readable
      = if action.readable then established s.answers action.turn.tenantId action.turn.userId action.turn.sessionId
        else none := by
    unfold World.read
    rw [hinvariant.session]
  have hstep : step collation zone maxDays s action = some t := hstep
  unfold step at hstep
  split_ifs at hstep with hanswered
  · split at hstep
    · next window expression hover =>
      obtain ⟨echo, hecho, rfl⟩ := Option.map_eq_some_iff.mp hstep
      exact hinvariant.answer hlater (timeRangeFromEcho_echo hecho) ⟨expression, hread ▸ hover⟩
    · next expression hunbounded =>
      cases hstep
      exact hinvariant.answer hlater rfl ⟨expression, hread ▸ hunbounded⟩
    · cases hstep
  · cases hstep
    exact hinvariant

end Runs

/-! ## A question and what follows it -/

/-- September 2026 in the zone of the factory. -/
def september : Window where
  start := ⟨⟨2026, 9, 1, 0, 0, 0, 0, some 28800000000⟩, by decide⟩
  stop := ⟨⟨2026, 10, 1, 0, 0, 0, 0, some 28800000000⟩, by decide⟩
  aware := ⟨rfl, rfl⟩
  ordered := by decide

/-- A question about September. -/
def asked : Turn where
  tenantId := "t1"
  userId := "u1"
  sessionId := "s1"
  interactionId := "i1"
  question := .parsed (some "FR-010") [] [] (some september) (some "9月")
  phrase _ := none
  limit := 0

/-- A question that names no time. -/
def followed : Turn :=
  { asked with interactionId := "i2", question := .parsed (some "FR-010") ["time_range"] [] none none }

/-- The first is answered, and the second twice. -/
def conversation : List Action :=
  [⟨asked, true, true, 4, 1⟩, ⟨followed, true, true, 4, 2⟩, ⟨{ followed with interactionId := "i3" }, true, true, 4, 3⟩]

end Continuity
