import FactoryAgent.Windows.NamedDays

/-!
# How a time expression fails

A phrase is resolved to a range, or refused with a `TimeExpressionError`, exactly where the days that it names are on
the calendar, with the day after them, and their midnights are instants in order (`resolve_declared_iff`). The callers
handle no other error. A phrase may leave the calendar at both of its ends: `9999年12月` has no month after it, and
the first midnight of the calendar is before it in a zone that is ahead of UTC.
-/

namespace Windows

open Calendar LocalTime

/-- **An outcome that the callers handle**: a range whose start is before its end, or a `TimeExpressionError`. -/
def Declared : Except TimeError TimeRange → Prop
  | .ok range => range.start.micros < range.stop.micros
  | .error error => ¬error.Undeclared

instance (outcome : Except TimeError TimeRange) : Decidable (Declared outcome) :=
  match outcome with
  | .ok range => inferInstanceAs (Decidable (range.start.micros < range.stop.micros))
  | .error error => inferInstanceAs (Decidable (¬error.Undeclared))

/-- **Days with midnights**: both ends of a span are on the calendar, their midnights are in the range of `datetime`
in UTC, and the first midnight comes before the other. -/
def Span.HasMidnights (zone : Zone) (span : Span) : Prop :=
  span.OnCalendar ∧ ∀ start stop, span.bounds? = some (start, stop) →
    (dayOf? (zone.toInstant (midnight start))).isSome = true ∧ (dayOf? (zone.toInstant (midnight stop))).isSome = true
      ∧ zone.toInstant (midnight start) < zone.toInstant (midnight stop)

/-- **A phrase that stays on the calendar**: it is empty, or the zone has a day now and the days that the phrase names
on it, if any, have midnights. -/
def StaysOnCalendar (expression : String) (now : Utc) (zone : Zone) : Prop :=
  Text.strip expression = "" ∨ ∃ today, dayOf? (zone.toLocal now.micros) = some today ∧
    ∀ span, span? (Text.strip expression) today = some span → span.HasMidnights zone

/-- An outcome that the callers handle is one whose midnights do. -/
theorem declared_midnights {zone : Zone} {start stop : Date} :
    Declared (toUtc zone start >>= fun a => toUtc zone stop >>= fun b => TimeRange.of a b)
      ↔ (dayOf? (zone.toInstant (midnight start))).isSome = true ∧ (dayOf? (zone.toInstant (midnight stop))).isSome = true
        ∧ zone.toInstant (midnight start) < zone.toInstant (midnight stop) := by
  unfold toUtc Utc.of?
  by_cases hstart : (dayOf? (zone.toInstant (midnight start))).isSome = true
  · by_cases hstop : (dayOf? (zone.toInstant (midnight stop))).isSome = true
    · rw [dif_pos hstart, dif_pos hstop]
      show Declared (TimeRange.of _ _) ↔ _
      unfold TimeRange.of
      split
      · next hlt => exact ⟨fun _ => ⟨hstart, hstop, hlt⟩, fun _ => hlt⟩
      · next hge => exact ⟨fun h => absurd trivial h, fun h => absurd h.2.2 hge⟩
    · rw [dif_pos hstart, dif_neg hstop]
      exact ⟨fun h => absurd trivial h, fun h => absurd h.2.1 hstop⟩
  · rw [dif_neg hstart]
    exact ⟨fun h => absurd trivial h, fun h => absurd h.1 hstart⟩

/-- The days of a phrase, resolved to a range that the callers handle. -/
theorem declared_span {phrase : String} {today : Date} {zone : Zone} {span : Span} (h : span? phrase today = some span) :
    Declared (resolveBounds phrase today >>= fun bounds =>
        toUtc zone bounds.1 >>= fun a => toUtc zone bounds.2 >>= fun b => TimeRange.of a b)
      ↔ span.HasMidnights zone := by
  obtain ⟨hok, herror⟩ := resolveBounds_of_span h
  have hcalendar := @Span.bounds?_isSome span
  unfold Span.HasMidnights
  cases hbounds : span.bounds? with
  | none =>
    obtain ⟨error, heq, hundeclared⟩ := herror hbounds
    rw [hbounds] at hcalendar
    rw [heq]
    exact ⟨fun h => absurd hundeclared h, fun h => nomatch hcalendar.mpr h.1⟩
  | some bounds =>
    rw [hbounds] at hcalendar
    rw [hok bounds hbounds]
    show Declared (toUtc zone bounds.1 >>= _) ↔ _
    rw [declared_midnights]
    constructor
    · intro hmidnights
      refine ⟨hcalendar.mp rfl, fun start stop heq => ?_⟩
      cases heq
      exact hmidnights
    · exact fun hmidnights => hmidnights.2 bounds.1 bounds.2 rfl

/-- **A time expression fails only as declared** exactly where it stays on the calendar. -/
theorem resolve_declared_iff (expression : String) (now : Utc) (zone : Zone) :
    Declared (resolveTimeExpression expression now zone) ↔ StaysOnCalendar expression now zone := by
  unfold resolveTimeExpression StaysOnCalendar
  by_cases hempty : Text.strip expression = ""
  · rw [if_pos hempty]
    exact ⟨fun _ => .inl hempty, fun _ h => h⟩
  · rw [if_neg hempty]
    show Declared (localDate zone now >>= _) ↔ _
    unfold localDate
    cases htoday : dayOf? (zone.toLocal now.micros) with
    | none =>
      refine ⟨fun h => absurd trivial h, ?_⟩
      rintro (h | ⟨today, h, -⟩)
      · exact absurd h hempty
      · cases h
    | some today =>
      show Declared (resolveBounds (Text.strip expression) today >>= fun bounds =>
        toUtc zone bounds.1 >>= fun a => toUtc zone bounds.2 >>= fun b => TimeRange.of a b) ↔ _
      cases hspan : span? (Text.strip expression) today with
      | none =>
        obtain ⟨message, heq⟩ := resolveBounds_of_none hspan
        rw [heq]
        refine ⟨fun _ => .inr ⟨today, rfl, fun span h => ?_⟩, fun _ h => h⟩
        rw [hspan] at h
        cases h
      | some span =>
        rw [declared_span hspan]
        constructor
        · refine fun hmidnights => .inr ⟨today, rfl, fun span' h => ?_⟩
          rw [hspan] at h
          cases h
          exact hmidnights
        · rintro (h | ⟨today', htoday', h⟩)
          · exact absurd h hempty
          · cases htoday'
            exact h span hspan

/-- December 9999 has no month after it, and the callers do not handle what is raised. -/
theorem resolve_undeclared : ¬∀ expression now zone, Declared (resolveTimeExpression expression now zone) := by
  intro h
  exact absurd (h "9999年12月" ⟨1787500800000000, by decide⟩ (Zone.fixed 28800000000)) (by decide +kernel)

end Windows
