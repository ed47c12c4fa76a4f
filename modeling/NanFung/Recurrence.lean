import NanFung.Registry

/-!
# Recurrences and catch-up

`ingestion/jobs.py`: the three schedule kinds, their construction from a persisted rule, and
`materialize_due_slots`. A time zone is a pair of conversions between UTC and wall time; wall time is
microseconds since the local `0001-01-01`, so its day number is a quotient. Interval arithmetic is on
integers, where the source divides floats.
-/

namespace NanFung

open Calendar

/-- `ZoneInfo`: both conversions fail only outside the range of `datetime`. -/
structure Zone where
  /-- `astimezone(zone)` of an instant, as wall time. -/
  toLocal : Time → Option Nat
  /-- The instant of a wall time with `fold=0`. -/
  toUtc : Nat → Option Time

/-- A schedule that `recurrence_from_rule` accepts. -/
inductive Recurrence where
  /-- `IntervalSchedule`; the interval in microseconds. -/
  | interval (anchorAt : Time) (period : Nat) (positive : 0 < period)
  /-- `CalendarSchedule`. -/
  | calendar (hour minute : Nat) (weekdays : List Nat) (zone : Zone)
  /-- `MonthlySchedule` on a day of the month. -/
  | monthDay (hour minute day : Nat) (months : List Nat) (zone : Zone)
  /-- `MonthlySchedule` on an occurrence of a weekday. -/
  | monthWeekday (hour minute weekday week : Nat) (months : List Nat) (zone : Zone)

namespace Recurrence

/-! ## Slots -/

/-- Wall time of an hour and a minute on a day. -/
def wallTime (day hour minute : Nat) : Nat := day * dayMicros + (hour * 60 + minute) * 60000000

/-- The slot of a wall time, unless the clock skips it: a skipped time changes on a round trip. -/
def wallSlot (zone : Zone) (wall : Nat) : Except StoreError (Option Time) := do
  let t ← orThrow (zone.toUtc wall) .overflow
  let back ← orThrow (zone.toLocal t) .overflow
  .ok (if back = wall then some t else none)

/-- One past the last day of `date`. -/
def dayLimit : Nat := 3652059

/-- `CalendarSchedule._slot_for`; `date.weekday` of day 0 is Monday. -/
def calendarSlot (hour minute : Nat) (weekdays : List Nat) (zone : Zone) (day : Nat) :
    Except StoreError (Option Time) := do
  require (day < dayLimit) .overflow
  if day % 7 ∈ weekdays then wallSlot zone (wallTime day hour minute) else .ok none

/-- The search of `CalendarSchedule.next_after` over the next `fuel` days. -/
def calendarNext (hour minute : Nat) (weekdays : List Nat) (zone : Zone) (now : Time) :
    Nat → Nat → Except StoreError Time
  | 0, _ => .error (.job "could not materialize calendar slot")
  | fuel + 1, day => do
    match ← calendarSlot hour minute weekdays zone day with
    | some t =>
      if now < t then .ok t else calendarNext hour minute weekdays zone now fuel (day + 1)
    | none => calendarNext hour minute weekdays zone now fuel (day + 1)

/-- Days of a month; `y` is the zero-based year. -/
def daysInMonth (y m : Nat) : Nat := daysBeforeMonth (isLeap y) (m + 1) - daysBeforeMonth (isLeap y) m

/-- Day number of the first day of a month. -/
def monthStart (y m : Nat) : Nat := daysBeforeYear y + daysBeforeMonth (isLeap y) m

/-- `_local_day` for a day of the month. -/
def localDayOfMonth (day : Nat) (y m : Nat) : Option Nat :=
  if day ≤ daysInMonth y m then some (monthStart y m + (day - 1)) else none

/-- `_local_day` for the `week`-th occurrence of a weekday. -/
def localDayOfWeekday (weekday week : Nat) (y m : Nat) : Option Nat :=
  let offset := (weekday + 7 - monthStart y m % 7) % 7 + (week - 1) * 7
  if offset + 1 ≤ daysInMonth y m then some (monthStart y m + offset) else none

/-- `MonthlySchedule._slot_for`. -/
def monthSlot (localDay : Nat → Nat → Option Nat) (hour minute : Nat) (months : List Nat)
    (zone : Zone) (y m : Nat) : Except StoreError (Option Time) :=
  if m ∉ months then .ok none
  else match localDay y m with
    | none => .ok none
    | some day => do
      require (day < dayLimit) (.value "year 10000 is out of range")
      wallSlot zone (wallTime day hour minute)

/-- The search of `MonthlySchedule.next_after` over the next `fuel` months. -/
def monthNext (localDay : Nat → Nat → Option Nat) (hour minute : Nat) (months : List Nat)
    (zone : Zone) (now : Time) : Nat → Nat → Nat → Except StoreError Time
  | 0, _, _ => .error (.job "could not materialize monthly slot")
  | fuel + 1, y, m => do
    let (y', m') := if m = 12 then (y + 1, 1) else (y, m + 1)
    match ← monthSlot localDay hour minute months zone y m with
    | some t =>
      if now < t then .ok t else monthNext localDay hour minute months zone now fuel y' m'
    | none => monthNext localDay hour minute months zone now fuel y' m'

/-- The month search from an instant's own local month. -/
def monthlyNextAfter (localDay : Nat → Nat → Option Nat) (hour minute : Nat) (months : List Nat)
    (zone : Zone) (now : Time) : Except StoreError Time := do
  let wall ← orThrow (zone.toLocal now) .overflow
  let day := wall / dayMicros
  monthNext localDay hour minute months zone now 1200 (yearOf day) (monthOf day)

/-- `next_after`. -/
def nextAfter (r : Recurrence) (now : Time) : Except StoreError Time :=
  match r with
  | .interval anchorAt period _ =>
    if now < anchorAt then .ok anchorAt
    else orThrow (anchorAt.add? (period * ((now.val - anchorAt.val) / period + 1))) .overflow
  | .calendar hour minute weekdays zone => do
    let wall ← orThrow (zone.toLocal now) .overflow
    calendarNext hour minute weekdays zone now 4000 (wall / dayMicros)
  | .monthDay hour minute day months zone =>
    monthlyNextAfter (localDayOfMonth day) hour minute months zone now
  | .monthWeekday hour minute weekday week months zone =>
    monthlyNextAfter (localDayOfWeekday weekday week) hour minute months zone now

/-- A slot of the recurrence: an instant that `next_after` returns. -/
def IsSlot (r : Recurrence) (t : Time) : Prop := ∃ v, r.nextAfter v = .ok t

theorem lt_of_calendarNext {hour minute : Nat} {weekdays : List Nat} {zone : Zone} {now t : Time}
    {fuel day : Nat} (h : calendarNext hour minute weekdays zone now fuel day = .ok t) : now < t := by
  induction fuel generalizing day with
  | zero => exact nomatch h
  | succ fuel ih =>
    simp only [calendarNext, bind_ok] at h
    obtain ⟨o, -, h⟩ := h
    cases o with
    | none => exact ih h
    | some u =>
      simp only at h
      split at h
      · next hlt => exact Except.ok.inj h ▸ hlt
      · exact ih h

theorem lt_of_monthNext {localDay : Nat → Nat → Option Nat} {hour minute : Nat} {months : List Nat}
    {zone : Zone} {now t : Time} {fuel y m : Nat}
    (h : monthNext localDay hour minute months zone now fuel y m = .ok t) : now < t := by
  induction fuel generalizing y m with
  | zero => exact nomatch h
  | succ fuel ih =>
    simp only [monthNext, bind_ok] at h
    obtain ⟨o, -, h⟩ := h
    cases o with
    | none => exact ih h
    | some u =>
      simp only at h
      split at h
      · next hlt => exact Except.ok.inj h ▸ hlt
      · exact ih h

/-- `next_after` moves strictly forward. -/
theorem lt_of_nextAfter {r : Recurrence} {now t : Time} (h : r.nextAfter now = .ok t) : now < t := by
  cases r with
  | interval anchorAt period positive =>
    simp only [nextAfter] at h
    split at h
    · next hlt => exact Except.ok.inj h ▸ hlt
    · next hge =>
      simp only [orThrow_ok, Time.add?, Option.dite_none_right_eq_some, Option.some.injEq] at h
      obtain ⟨-, rfl⟩ := h
      have := Nat.lt_mul_div_succ (now.val - anchorAt.val) positive
      have hle : anchorAt.val ≤ now.val := not_lt.mp hge
      show now.val < _
      simp only
      omega
  | calendar hour minute weekdays zone =>
    simp only [nextAfter, bind_ok] at h
    obtain ⟨_, -, h⟩ := h
    exact lt_of_calendarNext h
  | monthDay hour minute day months zone =>
    simp only [nextAfter, monthlyNextAfter, bind_ok] at h
    obtain ⟨_, -, h⟩ := h
    exact lt_of_monthNext h
  | monthWeekday hour minute weekday week months zone =>
    simp only [nextAfter, monthlyNextAfter, bind_ok] at h
    obtain ⟨_, -, h⟩ := h
    exact lt_of_monthNext h

end Recurrence

/-! ## Rules -/

section Rules

/-- An integer member of a rule. -/
def ruleInt (rule : Json) (key message : String) : Except StoreError Int :=
  orThrow ((rule.get? key).bind Json.asInt?) (.job message)

/-- A member of a rule that may be missing but must not be anything other than an integer. -/
def ruleOptInt (rule : Json) (key message : String) : Except StoreError (Option Int) :=
  match rule.get? key with
  | none | some .null => .ok none
  | some v => do
    let i ← orThrow v.asInt? (.job message)
    .ok (some i)

/-- The integers of a JSON array. -/
def intItems (items : List Json) (message : String) : Except StoreError (List Int) :=
  items.mapM fun v => orThrow v.asInt? (.job message)

/-- An hour and a minute of the day. -/
def checkedTime (hour minute : Int) (message : String) : Except StoreError (Nat × Nat) := do
  require (0 ≤ hour ∧ hour ≤ 23 ∧ 0 ≤ minute ∧ minute ≤ 59) (.job message)
  .ok (hour.toNat, minute.toNat)

/-- The time zone of a schedule. -/
def checkedZone (zoneInfo : String → Option Zone) (P : Platform) (timezone : String) :
    Except StoreError Zone :=
  orThrow (zoneInfo timezone) (.job ("unknown timezone: " ++ P.pyRepr timezone))

variable (P : Platform) (zoneInfo : String → Option Zone)

/-- The `weekdays` of a weekly rule, by default its one `weekday`. -/
def ruleWeekdays (rule : Json) : Except StoreError (List Int) :=
  let message := "weekly schedule weekdays must be integers"
  match rule.get? "weekdays" with
  | none => intItems [(rule.get? "weekday").getD .null] message
  | some (.arr items) => intItems items message
  | some _ => .error (.job "weekly schedule weekdays must be a sequence")

/-- `CalendarSchedule(...)`. -/
def calendarSchedule (hour minute : Int) (weekdays : List Int) (timezone : String) :
    Except StoreError Recurrence := do
  let (hour, minute) ← checkedTime hour minute "invalid calendar schedule time"
  require (weekdays ≠ [] ∧ ∀ d ∈ weekdays, 0 ≤ d ∧ d < 7)
    (.job "weekdays must contain ISO weekday indexes 0..6")
  let zone ← checkedZone zoneInfo P timezone
  .ok (.calendar hour minute (weekdays.map Int.toNat) zone)

/-- `MonthlySchedule(...)`. -/
def monthlySchedule (hour minute : Int) (day weekday week : Option Int) (months : List Int)
    (timezone : String) : Except StoreError Recurrence := do
  let (hour, minute) ← checkedTime hour minute "invalid monthly schedule time"
  require (day.isNone ≠ weekday.isNone)
    (.job "monthly schedule requires exactly one of day or weekday")
  require (∀ d ∈ day, 1 ≤ d ∧ d ≤ 31) (.job "monthly day must be in [1, 31]")
  require (∀ d ∈ weekday, 0 ≤ d ∧ d < 7)
    (.job "monthly weekday must be an ISO weekday index 0..6")
  require (weekday.isSome → ∃ w ∈ week, 1 ≤ w ∧ w ≤ 5)
    (.job "monthly weekday schedule requires week in [1, 5]")
  require (months ≠ [] ∧ ∀ m ∈ months, 1 ≤ m ∧ m ≤ 12)
    (.job "monthly schedule months must contain values 1..12")
  let zone ← checkedZone zoneInfo P timezone
  match day, weekday with
  | some d, _ => .ok (.monthDay hour minute d.toNat (months.map Int.toNat) zone)
  | none, wd => .ok (.monthWeekday hour minute (wd.getD 0).toNat (week.getD 0).toNat
      (months.map Int.toNat) zone)

/-- The `months` of a monthly rule, by default all of them. -/
def ruleMonths (rule : Json) : Except StoreError (List Int) :=
  match rule.get? "months" with
  | none => .ok [1, 2, 3, 4, 5, 6, 7, 8, 9, 10, 11, 12]
  | some (.arr items) => intItems items "monthly schedule months must be integers"
  | some _ => .error (.job "monthly schedule months must be a sequence")

/-- `recurrence_from_rule`. -/
def recurrenceFromRule (rule : Json) (timezone : String) (anchorAt : Time) :
    Except StoreError Recurrence :=
  match rule.get? "kind" with
  | some (.str "interval") => do
    let seconds ← ruleInt rule "seconds" "interval schedule requires integer seconds"
    -- the range of `timedelta`
    require (-86399999913600 ≤ seconds ∧ seconds < 86400000000000) .overflow
    if h : 0 < seconds.toNat * Time.second then .ok (.interval anchorAt _ h)
    else .error (.job "interval must be positive")
  | some (.str "daily") => do
    let message := "calendar schedule requires integer hour and minute"
    let hour ← ruleInt rule "hour" message
    let minute ← ruleInt rule "minute" message
    calendarSchedule P zoneInfo hour minute [0, 1, 2, 3, 4, 5, 6] timezone
  | some (.str "weekly") => do
    let message := "calendar schedule requires integer hour and minute"
    let hour ← ruleInt rule "hour" message
    let minute ← ruleInt rule "minute" message
    let weekdays ← ruleWeekdays rule
    calendarSchedule P zoneInfo hour minute weekdays timezone
  | some (.str "monthly") => do
    let message := "monthly schedule requires integer hour and minute"
    let hour ← ruleInt rule "hour" message
    let minute ← ruleInt rule "minute" message
    let months ← ruleMonths rule
    let day ← ruleOptInt rule "day" "monthly schedule day must be an integer"
    let weekday ← ruleOptInt rule "weekday" "monthly schedule weekday must be an integer"
    let week ← ruleOptInt rule "week" "monthly schedule week must be an integer"
    monthlySchedule P zoneInfo hour minute day weekday week months timezone
  | some (.str kind) => .error (.job ("unsupported schedule rule kind: " ++ P.pyRepr kind))
  | kind => .error (.job ("unsupported schedule rule kind: " ++ P.pyStr (kind.getD .null)))

end Rules

/-! ## Catch-up -/

/-- `ScheduleMaterialization`. -/
structure ScheduleMaterialization where
  slots : List Time
  nextCursorAt : Option Time
  skippedSlots : Nat := 0

/-- The loop of `materialize_due_slots`: the slots from `candidate` up to `now`, at most `fuel`. -/
def dueSlots (r : Recurrence) (now : Time) : Nat → Time → Except StoreError (List Time)
  | fuel, candidate =>
    if now < candidate then .ok []
    else match fuel with
      | 0 => .error (.job "schedule materialization exceeded safety limit")
      | fuel + 1 => do
        let next ← r.nextAfter candidate
        let rest ← dueSlots r now fuel next
        .ok (candidate :: rest)

/-- `max(cursor, now - horizon)`; subtraction below the first instant is an `OverflowError`. -/
def horizonCursor (cursor now : Time) : Option Nat → Except StoreError Time
  | none => .ok cursor
  | some horizon =>
    if horizon ≤ now.val then
      .ok (max cursor ⟨now.val - horizon, le_trans (Nat.sub_le _ _) now.property⟩)
    else .error .overflow

/-- `materialize_due_slots` with a cursor, which is how the scheduler calls it. -/
def materializeDueSlots (r : Recurrence) (cursorAt now : Time) (policy : CatchupPolicy)
    (maxCatchupJobs : Nat) (maxCatchupHorizon : Option Nat) :
    Except StoreError ScheduleMaterialization := do
  require (1 ≤ maxCatchupJobs) (.job "max_catchup_jobs must be positive")
  if policy = .manual then .ok ⟨[], some cursorAt, 0⟩
  else
    let cursor ← horizonCursor cursorAt now maxCatchupHorizon
    let first ← r.nextAfter cursor
    let slots ← dueSlots r now 100000 first
    match slots.getLast? with
    | none => .ok ⟨[], some cursorAt, 0⟩
    | some last =>
      match policy with
      | .latestOnly => .ok ⟨[last], some last, slots.length - 1⟩
      | .allSlots => .ok ⟨slots, some last, 0⟩
      | _ =>
        let selected := slots.take maxCatchupJobs
        .ok ⟨selected, selected.getLast?, slots.length - selected.length⟩

end NanFung
