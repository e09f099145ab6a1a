import FactoryAgent.Lib.DecimalText
import FactoryAgent.Lib.IsoDate
import Mathlib.Algebra.GroupWithZero.Nat

/-!
# ISO dates and times

Python's `datetime`: the fields of a date and time with its offset from UTC, the text that
`datetime.isoformat` writes and the texts that `datetime.fromisoformat` reads. A date is a calendar date or a
week date, in the extended or the basic format; a time has hours at least. What was written is read back
field by field (`DateTime.fromisoformat_isoformat`), so the instant is the same.
-/

/-- The fields of a date and time. -/
structure DateTime.Fields where
  year : Nat
  month : Nat
  day : Nat
  hour : Nat
  minute : Nat
  second : Nat
  microsecond : Nat
  /-- The offset from UTC in microseconds; a naive date and time has none. -/
  offset : Option Int
  deriving DecidableEq, Repr

/-- The microseconds of a day. -/
def DateTime.dayLength : Nat := 86400000000

/-- **Whether these are the fields of a date and time.** An offset is less than a day. -/
def DateTime.Fields.Valid (fields : DateTime.Fields) : Prop :=
  (1 ≤ fields.year ∧ fields.year ≤ 9999) ∧ (1 ≤ fields.month ∧ fields.month ≤ 12)
    ∧ (1 ≤ fields.day ∧ fields.day ≤ IsoDate.daysInMonth fields.year fields.month)
    ∧ fields.hour < 24 ∧ fields.minute < 60 ∧ fields.second < 60 ∧ fields.microsecond < 1000000
    ∧ ∀ offset ∈ fields.offset, offset.natAbs < DateTime.dayLength

instance (fields : DateTime.Fields) : Decidable fields.Valid :=
  inferInstanceAs (Decidable (_ ∧ _))

/-- **A date and time**, with or without an offset from UTC. -/
structure DateTime extends DateTime.Fields where
  valid : toFields.Valid
  deriving DecidableEq, Repr

namespace DateTime

/-- The ordinal of the calendar day. -/
def ordinal (d : DateTime) : Nat :=
  IsoDate.daysBeforeYear d.year + ((IsoDate.monthLengths d.year).take (d.month - 1)).sum + d.day

/-- **The instant of a date and time**, in microseconds since the beginning of 1970 in UTC; a naive one is
taken to be in UTC. -/
def instant (d : DateTime) : Int :=
  ((d.ordinal : Int) - 719163) * dayLength
    + (((d.hour * 60 + d.minute) * 60 + d.second) * 1000000 + d.microsecond : Nat) - d.offset.getD 0

/-! ## Writing -/

open IsoDate (padded)

/-- Hours and minutes. -/
def minuteChars (hour minute : Nat) : List Char :=
  padded 2 hour ++ ':' :: padded 2 minute

/-- Seconds, with their fraction where there is one. -/
def secondChars (second microsecond : Nat) : List Char :=
  ':' :: padded 2 second ++ (if microsecond = 0 then [] else '.' :: padded 6 microsecond)

/-- An offset from UTC, with its seconds where there are any. -/
def offsetChars : Option Int → List Char
  | none => []
  | some offset =>
    let seconds := offset.natAbs / 1000000
    let microsecond := offset.natAbs % 1000000
    (if offset < 0 then '-' else '+') :: (minuteChars (seconds / 3600) (seconds / 60 % 60)
      ++ if seconds % 60 = 0 ∧ microsecond = 0 then [] else secondChars (seconds % 60) microsecond)

/-- **`datetime.isoformat`** -/
def isoformat (d : DateTime) : String :=
  String.ofList (padded 4 d.year ++ '-' :: padded 2 d.month ++ '-' :: padded 2 d.day ++ 'T'
    :: (minuteChars d.hour d.minute ++ secondChars d.second d.microsecond ++ offsetChars d.offset))

/-! ## Reading -/

open IsoDate (digits?)

/-- A number of two digits, and what follows it. -/
def two? : List Char → Option (Nat × List Char)
  | a :: b :: rest => (digits? [a, b]).map fun n => (n, rest)
  | _ => none

/-- The microseconds of a fraction; digits after the sixth are not read. -/
def fraction? : List Char → Option Nat
  | [] => some 0
  | c :: cs =>
    if (c = '.' ∨ c = ',') ∧ (digits? cs).isSome then
      (digits? (cs.take 6)).map fun n => n * 10 ^ (6 - cs.length)
    else none

/-- **Hours, minutes, seconds and microseconds**: all fields that are there are separated by colons, or
none is. -/
def clock? (cs : List Char) : Option (Nat × Nat × Nat × Nat) :=
  (two? cs).bind fun (hour, rest) =>
    if rest = [] then some (hour, 0, 0, 0)
    else if rest.head? = some ':' then
      (two? rest.tail).bind fun (minute, rest) =>
        if rest = [] then some (hour, minute, 0, 0)
        else if rest.head? = some ':' then
          (two? rest.tail).bind fun (second, rest) =>
            (fraction? rest).map fun microsecond => (hour, minute, second, microsecond)
        else none
    else
      (two? rest).bind fun (minute, rest) =>
        if rest = [] then some (hour, minute, 0, 0)
        else
          (two? rest).bind fun (second, rest) =>
            (fraction? rest).map fun microsecond => (hour, minute, second, microsecond)

/-- An offset from UTC, or none. -/
def offset? : List Char → Option (Option Int)
  | [] => some none
  | c :: cs =>
    if c = 'Z' then if cs = [] then some (some 0) else none
    else
      (clock? cs).map fun (hour, minute, second, microsecond) =>
        let offset : Int := (((hour * 60 + minute) * 60 + second) * 1000000 + microsecond : Nat)
        some (if c = '-' then -offset else offset)

/-- The length of the date at the beginning of a text: seven to ten characters. -/
def dateLength? (cs : List Char) : Option Nat :=
  if cs.length = 7 then some 7
  else if cs[4]? = some '-' then
    if cs[5]? = some 'W' then
      if cs.length < 8 ∨ (cs[8]? = some '-' ∧ cs.length = 9) then none
      -- `YYYY-Www-##` is a week date without its day, and a time
      else if cs[8]? = some '-' ∧ ¬(cs[10]?.any Char.isDigit) then some 10
      else some 8
    else some 10
  else if cs[4]? = some 'W' then
    -- the digits after the week tell whether there is a day
    let index := 7 + ((cs.drop 7).takeWhile Char.isDigit).length
    if index < 9 then some index else if index % 2 = 0 then some 7 else some 8
  else some 8

/-- The year, the month and the day of a calendar date `YYYY-MM-DD` or `YYYYMMDD`. -/
def calendarDate? (separated : Bool) (year : Nat) (cs : List Char) : Option (Nat × Nat × Nat) :=
  (two? cs).bind fun (month, rest) =>
    if separated && rest.head? ≠ some '-' then none
    else
      (two? (if separated then rest.tail else rest)).bind fun (day, rest) =>
        if rest = [] then some (year, month, day) else none

/-- The year, the month and the day of a week date, after its `W`: of the first day of the week where there
is no day. -/
def weekDate? (separated : Bool) (year : Nat) (cs : List Char) : Option (Nat × Nat × Nat) :=
  (two? cs).bind fun (week, rest) =>
    let weekday :=
      if rest = [] then some 1
      else if separated && rest.head? ≠ some '-' then none
      else digits? ((if separated then rest.tail else rest).take 1)
    (weekday.bind (IsoDate.ofWeek year week)).bind fun text =>
      (digits? (text.toList.take 4)).bind fun year => calendarDate? true year (text.toList.drop 5)

/-- The year, the month and the day of a date. -/
def date? (cs : List Char) : Option (Nat × Nat × Nat) :=
  (digits? (cs.take 4)).bind fun year =>
    let separated := cs[4]? = some '-'
    let rest := if separated then cs.drop 5 else cs.drop 4
    if rest.head? = some 'W' then weekDate? separated year rest.tail
    else calendarDate? separated year rest

/-- The time after a date and its separator; nothing is midnight. -/
def time? (cs : List Char) : Option ((Nat × Nat × Nat × Nat) × Option Int) :=
  if cs = [] then some ((0, 0, 0, 0), none)
  else
    (clock? (cs.takeWhile fun c => !IsoDate.beginsOffset c)).bind fun clock =>
      (offset? (cs.dropWhile fun c => !IsoDate.beginsOffset c)).map fun offset => (clock, offset)

/-- The fields of a text. -/
def fields? (cs : List Char) : Option Fields :=
  if cs.length < 7 then none
  else
    (dateLength? cs).bind fun length =>
      (date? (cs.take length)).bind fun (year, month, day) =>
        (time? (cs.drop (length + 1))).map fun ((hour, minute, second, microsecond), offset) =>
          { year, month, day, hour, minute, second, microsecond, offset }

/-- **`datetime.fromisoformat`**; `none` is a raised `ValueError`. -/
def fromisoformat (text : String) : Option DateTime :=
  (fields? text.toList).bind fun fields => if h : fields.Valid then some ⟨fields, h⟩ else none

/-! ## Fields that were written -/

/-- A padded number is as wide as its field. -/
theorem length_padded {width n : Nat} (hwidth : 0 < width) (h : n < 10 ^ width) :
    (padded width n).length = width := by
  have hlength : (Nat.repr n).toList.length ≤ width := by
    rw [Nat.toList_repr]
    exact (Nat.length_toDigits_le_iff (by decide) hwidth).mpr h
  rw [padded, List.length_append, List.length_replicate]
  omega

/-- A padded number is made of digits. -/
theorem isDigit_of_mem_padded {width n : Nat} {c : Char} (h : c ∈ padded width n) :
    c.isDigit = true := by
  rcases List.mem_append.mp h with h | h
  · rw [List.eq_of_mem_replicate h]
    rfl
  · exact Decimal.isDigit_of_mem_repr h

/-- **A padded number is read back.** -/
theorem digits?_padded (width n : Nat) : digits? (padded width n) = some n := by
  have hne : padded width n ≠ [] := fun h => Decimal.repr_ne_nil n (List.append_eq_nil_iff.mp h).2
  have hvalue : Decimal.digitsValue (padded width n) = n := by
    rw [padded, Decimal.digitsValue_zeros, Decimal.digitsValue_repr]
  have hall : (padded width n).all Char.isDigit = true :=
    List.all_eq_true.mpr fun c hc => isDigit_of_mem_padded hc
  rw [digits?, if_pos (by rw [hall, decide_eq_true hne]; rfl)]
  exact congrArg some hvalue

/-- A field of two digits is two characters. -/
theorem padded_two {n : Nat} (h : n < 100) : ∃ a b, padded 2 n = [a, b] := by
  have hlength : (padded 2 n).length = 2 := length_padded (by decide) h
  obtain ⟨a, rest, hrest⟩ := List.exists_cons_of_length_eq_add_one hlength
  rw [hrest, List.length_cons, Nat.add_right_cancel_iff, List.length_eq_one_iff] at hlength
  obtain ⟨b, hb⟩ := hlength
  exact ⟨a, b, by rw [hrest, hb]⟩

/-- A field of two digits is read back. -/
theorem two?_padded {n : Nat} (h : n < 100) (rest : List Char) :
    two? (padded 2 n ++ rest) = some (n, rest) := by
  obtain ⟨a, b, hab⟩ := padded_two h
  have hread := digits?_padded 2 n
  rw [hab] at hread ⊢
  show (digits? [a, b]).map _ = _
  rw [hread]
  rfl

/-- A fraction is read back. -/
theorem fraction?_padded {n : Nat} (h : n < 1000000) : fraction? ('.' :: padded 6 n) = some n := by
  have hlength : (padded 6 n).length = 6 := length_padded (by decide) h
  have htake : (padded 6 n).take 6 = padded 6 n := by
    rw [List.take_of_length_le (Nat.le_of_eq hlength)]
  rw [fraction?, htake, digits?_padded, if_pos ⟨Or.inl rfl, rfl⟩, hlength]
  exact congrArg some (Nat.mul_one n)

/-- Hours and minutes are read back. -/
theorem clock?_minuteChars {hour minute : Nat} (hhour : hour < 100) (hminute : minute < 100) :
    clock? (minuteChars hour minute) = some (hour, minute, 0, 0) := by
  have hread := two?_padded hminute []
  rw [List.append_nil] at hread
  rw [clock?, minuteChars, two?_padded hhour, Option.bind_some]
  dsimp only
  rw [if_neg (List.cons_ne_nil _ _), if_pos (List.head?_cons ..), List.tail_cons, hread, Option.bind_some]
  exact if_pos rfl

/-- **A time is read back.** -/
theorem clock?_secondChars {hour minute second microsecond : Nat} (hhour : hour < 100)
    (hminute : minute < 100) (hsecond : second < 100) (hmicrosecond : microsecond < 1000000) :
    clock? (minuteChars hour minute ++ secondChars second microsecond)
      = some (hour, minute, second, microsecond) := by
  have hfraction : fraction? (if microsecond = 0 then [] else '.' :: padded 6 microsecond)
      = some microsecond := by
    by_cases hzero : microsecond = 0
    · rw [if_pos hzero, hzero]
      rfl
    · rw [if_neg hzero, fraction?_padded hmicrosecond]
  rw [clock?, minuteChars, List.append_assoc, two?_padded hhour, Option.bind_some]
  dsimp only
  rw [List.cons_append, if_neg (List.cons_ne_nil _ _), if_pos (List.head?_cons ..), List.tail_cons,
    two?_padded hminute, Option.bind_some]
  dsimp only
  rw [secondChars, List.cons_append, if_neg (List.cons_ne_nil _ _), if_pos (List.head?_cons ..),
    List.tail_cons, two?_padded hsecond, Option.bind_some]
  dsimp only
  rw [hfraction]
  rfl

/-- An offset is a sign and a time. -/
theorem offset?_cons {sign : Char} {cs : List Char} {hour minute second microsecond : Nat}
    (hsign : sign ≠ 'Z') (hclock : clock? cs = some (hour, minute, second, microsecond)) :
    offset? (sign :: cs) = some (some
      (if sign = '-' then -((((hour * 60 + minute) * 60 + second) * 1000000 + microsecond : Nat) : Int)
      else ((((hour * 60 + minute) * 60 + second) * 1000000 + microsecond : Nat) : Int))) := by
  rw [offset?, if_neg hsign, hclock]
  rfl

/-- An offset is read back. -/
theorem offset?_offsetChars {offset : Option Int}
    (h : ∀ value ∈ offset, value.natAbs < dayLength) : offset? (offsetChars offset) = some offset := by
  cases offset with
  | none => rfl
  | some value =>
    have hvalue : value.natAbs < 86400000000 := h value rfl
    have hclock : clock? (minuteChars (value.natAbs / 1000000 / 3600)
        (value.natAbs / 1000000 / 60 % 60)
        ++ (if value.natAbs / 1000000 % 60 = 0 ∧ value.natAbs % 1000000 = 0 then []
          else secondChars (value.natAbs / 1000000 % 60) (value.natAbs % 1000000)))
        = some (value.natAbs / 1000000 / 3600, value.natAbs / 1000000 / 60 % 60,
          value.natAbs / 1000000 % 60, value.natAbs % 1000000) := by
      by_cases hzero : value.natAbs / 1000000 % 60 = 0 ∧ value.natAbs % 1000000 = 0
      · rw [if_pos hzero, List.append_nil, clock?_minuteChars (by omega) (by omega), hzero.1, hzero.2]
      · rw [if_neg hzero, clock?_secondChars (by omega) (by omega) (by omega) (by omega)]
    have hmagnitude : ((value.natAbs / 1000000 / 3600 * 60 + value.natAbs / 1000000 / 60 % 60) * 60
        + value.natAbs / 1000000 % 60) * 1000000 + value.natAbs % 1000000 = value.natAbs := by omega
    rw [offsetChars, offset?_cons (by split <;> decide) hclock, hmagnitude]
    refine congrArg (fun n => some (some n)) ?_
    by_cases hneg : value < 0
    · rw [if_pos hneg, if_pos rfl]
      omega
    · rw [if_neg hneg, if_neg (by decide)]
      omega

/-! ## Texts that were written -/

/-- A digit begins no offset. -/
theorem beginsOffset_of_isDigit {c : Char} (h : c.isDigit = true) : IsoDate.beginsOffset c = false := by
  have hne : ∀ d : Char, d.isDigit = false → c ≠ d := by
    rintro d hd rfl
    rw [h] at hd
    cases hd
  rw [IsoDate.beginsOffset, decide_eq_false (hne '+' rfl), decide_eq_false (hne '-' rfl),
    decide_eq_false (hne 'Z' rfl)]
  rfl

/-- Nothing in a time begins an offset. -/
theorem beginsOffset_of_mem_clock {hour minute second microsecond : Nat} {c : Char}
    (h : c ∈ minuteChars hour minute ++ secondChars second microsecond) :
    (!IsoDate.beginsOffset c) = true := by
  have hdigits : ∀ width n, c ∈ padded width n → (!IsoDate.beginsOffset c) = true := fun width n h => by
    rw [beginsOffset_of_isDigit (isDigit_of_mem_padded h)]
    rfl
  simp only [minuteChars, secondChars, List.mem_append, List.mem_cons] at h
  rcases h with (h | rfl | h) | ((rfl | h) | h)
  · exact hdigits 2 hour h
  · rfl
  · exact hdigits 2 minute h
  · rfl
  · exact hdigits 2 second h
  · split at h
    · cases h
    · rcases List.mem_cons.mp h with rfl | h
      · rfl
      · exact hdigits 6 microsecond h

/-- A written offset begins with its sign. -/
theorem beginsOffset_head (offset : Option Int) :
    ∀ c ∈ (offsetChars offset).head?, (!IsoDate.beginsOffset c) = false := by
  intro c hc
  cases offset with
  | none => cases hc
  | some value =>
    by_cases hneg : value < 0
    · rw [offsetChars, if_pos hneg] at hc
      cases hc
      rfl
    · rw [offsetChars, if_neg hneg] at hc
      cases hc
      rfl

/-- **A time with its offset is read back.** -/
theorem time?_chars (d : DateTime) :
    time? (minuteChars d.hour d.minute ++ secondChars d.second d.microsecond ++ offsetChars d.offset)
      = some ((d.hour, d.minute, d.second, d.microsecond), d.offset) := by
  obtain ⟨-, -, -, hhour, hminute, hsecond, hmicrosecond, hoffset⟩ := d.valid
  have hnone : (offsetChars d.offset).takeWhile (fun c => !IsoDate.beginsOffset c) = []
      ∧ (offsetChars d.offset).dropWhile (fun c => !IsoDate.beginsOffset c) = offsetChars d.offset := by
    have hhead := beginsOffset_head d.offset
    cases hchars : offsetChars d.offset with
    | nil => exact ⟨rfl, rfl⟩
    | cons c cs =>
      rw [hchars] at hhead
      rw [List.takeWhile_cons, List.dropWhile_cons, hhead c rfl]
      exact ⟨rfl, rfl⟩
  have hall : ∀ c ∈ minuteChars d.hour d.minute ++ secondChars d.second d.microsecond,
      (!IsoDate.beginsOffset c) = true := fun c hc => beginsOffset_of_mem_clock hc
  have hne : minuteChars d.hour d.minute ++ secondChars d.second d.microsecond
      ++ offsetChars d.offset ≠ [] := by
    intro hnil
    have hminutes := (List.append_eq_nil_iff.mp (List.append_eq_nil_iff.mp hnil).1).1
    exact List.cons_ne_nil _ _ (List.append_eq_nil_iff.mp hminutes).2
  rw [time?, if_neg hne, List.takeWhile_append_of_pos hall, List.dropWhile_append_of_pos hall, hnone.1,
    hnone.2, List.append_nil, clock?_secondChars (by omega) (by omega) (by omega) hmicrosecond,
    Option.bind_some, offset?_offsetChars hoffset]
  rfl

/-- A field of four digits is four characters. -/
theorem padded_four {n : Nat} (h : n < 10000) : ∃ a b c d, padded 4 n = [a, b, c, d] := by
  have hlength : (padded 4 n).length = 4 := length_padded (by decide) h
  obtain ⟨a, as, hchars⟩ := List.exists_cons_of_length_eq_add_one hlength
  rw [hchars] at hlength ⊢
  obtain ⟨b, bs, rfl⟩ := List.exists_cons_of_length_eq_add_one (Nat.succ.inj hlength)
  obtain ⟨c, cs, rfl⟩ := List.exists_cons_of_length_eq_add_one (Nat.succ.inj (Nat.succ.inj hlength))
  obtain ⟨d, rfl⟩ := List.length_eq_one_iff.mp (Nat.succ.inj (Nat.succ.inj (Nat.succ.inj hlength)))
  exact ⟨a, b, c, d, rfl⟩

/-- A date in the extended format has ten characters, unless it is a week date. -/
theorem dateLength?_eq_ten {a b c d m₁ m₂ d₁ d₂ : Char} (hweek : m₁ ≠ 'W') (rest : List Char) :
    dateLength? (a :: b :: c :: d :: '-' :: m₁ :: m₂ :: '-' :: d₁ :: d₂ :: rest) = some 10 := by
  have hlength : (a :: b :: c :: d :: '-' :: m₁ :: m₂ :: '-' :: d₁ :: d₂ :: rest).length ≠ 7 := by
    simp only [List.length_cons]
    omega
  rw [dateLength?, if_neg hlength, if_pos (by rfl), if_neg]
  exact fun h => hweek (Option.some.inj h)

/-- A calendar date in the extended format. -/
theorem date?_extended {a b c d m₁ m₂ d₁ d₂ : Char} {year month day : Nat} (hweek : m₁ ≠ 'W')
    (hyear : digits? [a, b, c, d] = some year) (hmonth : digits? [m₁, m₂] = some month)
    (hday : digits? [d₁, d₂] = some day) :
    date? [a, b, c, d, '-', m₁, m₂, '-', d₁, d₂] = some (year, month, day) := by
  show (digits? [a, b, c, d]).bind _ = _
  rw [hyear, Option.bind_some]
  show (if some m₁ = some 'W' then _ else calendarDate? true year [m₁, m₂, '-', d₁, d₂]) = _
  rw [if_neg (fun h => hweek (Option.some.inj h))]
  show ((digits? [m₁, m₂]).map _).bind _ = _
  rw [hmonth, Option.map_some, Option.bind_some]
  show ((digits? [d₁, d₂]).map _).bind _ = _
  rw [hday]
  rfl

/-- No month has more than 31 days. -/
theorem daysInMonth_le (year month : Nat) : IsoDate.daysInMonth year month ≤ 31 := by
  have hall : ∀ days ∈ IsoDate.monthLengths year, days ≤ 31 := by
    intro days hdays
    have hfebruary : (if IsoDate.isLeap year = true then 29 else 28) ≤ 31 := by split <;> decide
    simp only [IsoDate.monthLengths, List.mem_cons, List.not_mem_nil, or_false] at hdays
    omega
  rw [IsoDate.daysInMonth, List.getD_eq_getElem?_getD]
  cases hget : (IsoDate.monthLengths year)[month - 1]? with
  | none => exact Nat.zero_le 31
  | some days => exact hall days (List.mem_of_getElem? hget)

/-- The characters of a date and time. -/
theorem toList_isoformat (d : DateTime) :
    ∃ y₁ y₂ y₃ y₄ m₁ m₂ d₁ d₂,
      d.isoformat.toList = y₁ :: y₂ :: y₃ :: y₄ :: '-' :: m₁ :: m₂ :: '-' :: d₁ :: d₂ :: 'T'
        :: (minuteChars d.hour d.minute ++ secondChars d.second d.microsecond ++ offsetChars d.offset)
      ∧ digits? [y₁, y₂, y₃, y₄] = some d.year ∧ digits? [m₁, m₂] = some d.month
      ∧ digits? [d₁, d₂] = some d.day ∧ m₁ ≠ 'W' := by
  obtain ⟨⟨-, hyear⟩, ⟨-, hmonth⟩, ⟨-, hday⟩, -⟩ := d.valid
  have hday : d.day ≤ 31 := Nat.le_trans hday (daysInMonth_le d.year d.month)
  obtain ⟨y₁, y₂, y₃, y₄, hy⟩ := padded_four (Nat.lt_succ_of_le hyear)
  obtain ⟨m₁, m₂, hm⟩ := padded_two (Nat.lt_of_le_of_lt hmonth (by decide))
  obtain ⟨d₁, d₂, hd⟩ := padded_two (Nat.lt_of_le_of_lt hday (by decide))
  refine ⟨y₁, y₂, y₃, y₄, m₁, m₂, d₁, d₂, ?_, hy ▸ digits?_padded 4 d.year, hm ▸ digits?_padded 2 d.month,
    hd ▸ digits?_padded 2 d.day, ?_⟩
  · rw [isoformat, String.toList_ofList, hy, hm, hd]
    rfl
  · rintro rfl
    exact absurd (isDigit_of_mem_padded (hm ▸ List.mem_cons_self)) (by decide)

/-- **What was written is read back.** -/
theorem fromisoformat_isoformat (d : DateTime) : fromisoformat d.isoformat = some d := by
  obtain ⟨y₁, y₂, y₃, y₄, m₁, m₂, d₁, d₂, hchars, hyear, hmonth, hday, hweek⟩ := toList_isoformat d
  have hfields : fields? d.isoformat.toList = some d.toFields := by
    rw [hchars, fields?, if_neg (by simp only [List.length_cons]; omega), dateLength?_eq_ten hweek,
      Option.bind_some]
    show (date? [y₁, y₂, y₃, y₄, '-', m₁, m₂, '-', d₁, d₂]).bind _ = _
    rw [date?_extended hweek hyear hmonth hday, Option.bind_some]
    show (time? (minuteChars d.hour d.minute ++ secondChars d.second d.microsecond
      ++ offsetChars d.offset)).map _ = _
    rw [time?_chars]
    rfl
  rw [fromisoformat, hfields, Option.bind_some, dif_pos d.valid]

end DateTime
