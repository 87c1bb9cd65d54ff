import AgentOdometer.Lib.CivilDate
import AgentOdometer.Lib.GroupBy
import Mathlib.Algebra.Group.Prod
import Mathlib.Algebra.Order.Ring.Int

/-!
# Calendar days

The days of a range in a time zone and their recorded activity (`calendarActivity.ts:3–64`). A
`Date` is its time value in milliseconds, or none when it is invalid; a zone is any offset with the
resolution of local times which ECMAScript prescribes for it.
-/

namespace AgentOdometer.Calendar

/-- The milliseconds of a day. -/
def msPerDay : Int :=
  86400000

/-- The rules of a time zone. A local time which occurs more than once is its first occurrence; one
which is skipped is read with the offset before the skip. -/
structure ZoneRules where
  offset : Int → Int
  fromLocal : Int → Int
  offset_lt : ∀ t, -msPerDay < offset t ∧ offset t < msPerDay
  fromLocal_first : ∀ u, fromLocal (u + offset u) + offset (fromLocal (u + offset u)) =
    u + offset u ∧
    fromLocal (u + offset u) ≤ u
  fromLocal_skipped : ∀ t, (∀ u, u + offset u ≠ t) → ∃ u, u + offset u < t ∧
    (∀ v, v + offset v < t → v + offset v ≤ u + offset u) ∧
    (∀ v, v + offset v = u + offset u → v ≤ u) ∧ fromLocal t = t - offset u

/-- The zone without an offset. -/
def ZoneRules.utc : ZoneRules where
  offset := fun _ ↦ 0
  fromLocal := id
  offset_lt := fun _ ↦ by decide
  fromLocal_first := fun _ ↦ by simp
  fromLocal_skipped := fun t h ↦ absurd (Int.add_zero t) (h t)

namespace ZoneRules

/-- `LocalTime`. -/
def localTime (z : ZoneRules) (t : Int) : Int :=
  t + z.offset t

/-- `Day` of the local time. -/
def dayNumber (z : ZoneRules) (t : Int) : Int :=
  z.localTime t / msPerDay

/-- The local date. -/
def date (z : ZoneRules) (t : Int) : CivilDate :=
  CivilDate.ofDays (z.dayNumber t)

end ZoneRules

/-- `TimeClip`. -/
def timeClip (t : Int) : Option Int :=
  if -8640000000000000 ≤ t ∧ t ≤ 8640000000000000 then some t else none

/-- `setHours(0, 0, 0, 0)`. -/
def midnight (z : ZoneRules) (t : Int) : Option Int :=
  timeClip (z.fromLocal (z.dayNumber t * msPerDay))

/-- `setDate(getDate() + days)`. -/
def advance (z : ZoneRules) (t days : Int) : Option Int :=
  timeClip (z.fromLocal (z.localTime t + days * msPerDay))

/-- Follows `calendarActivity.ts:3`. -/
inductive CalendarZone where
  | host
  | utc
deriving Repr, DecidableEq

/-- The rules which a zone selects, given those of the host. Follows `calendarActivity.ts:25–27`. -/
def CalendarZone.rules (host : ZoneRules) : CalendarZone → ZoneRules
  | .host => host
  | .utc => .utc

/-- A day of the range. The instants are in milliseconds; the source writes them as ISO texts.
Follows `calendarActivity.ts:5–12`. -/
structure CalendarDay where
  date : String
  month : String
  day : Nat
  weekday : Int
  fromMs : Int
  toMs : Int
deriving Repr, DecidableEq

/-- The day of a cursor. Follows `calendarActivity.ts:37–42`. -/
def calendarDay (z : ZoneRules) (start stop cursor next : Int) : CalendarDay where
  date := (z.date cursor).text
  month := (z.date cursor).monthText
  day := (z.date cursor).day
  weekday := (z.dayNumber cursor + 4) % 7
  fromMs := max cursor start
  toMs := min (next - 1) stop

def invalidRange : String :=
  "Choose a valid date range with the start before the end."

def rangeTooLong : String :=
  "Choose a date range of at most 366 calendar days."

def invalidTimeValue : String :=
  "Invalid time value"

/-- The loop, with the number of days which may still be added. Follows
`calendarActivity.ts:34–44`. -/
def daysFrom (z : ZoneRules) (start stop : Int) :
    Nat → Option Int → Except String (List CalendarDay)
  | _, none => .ok []
  | remaining, some cursor =>
      if stop < cursor then .ok []
      else
        match remaining with
        | 0 => .error rangeTooLong
        | remaining + 1 =>
            match advance z cursor 1 with
            | none => .error invalidTimeValue
            | some next =>
                match daysFrom z start stop remaining (some next) with
                | .error e => .error e
                | .ok days => .ok (calendarDay z start stop cursor next :: days)

/-- `calendarDays`, `calendarActivity.ts:22–47`, from the time values of its dates. -/
def calendarDays (host : ZoneRules) (start stop : Option (Option Int)) (zone : CalendarZone)
    (now : Int) : Except String (List CalendarDay) :=
  let z := zone.rules host
  let stop := stop.getD (some now)
  let start :=
    match start with
    | some start => start
    | none => ((stop.bind (midnight z)).bind fun t ↦ advance z t (-89))
  match start, stop with
  | some start, some stop =>
      if stop < start then .error invalidRange
      else daysFrom z start stop 366 (midnight z start)
  | _, _ => .error invalidRange

/-! ### Activity -/

/-- The usage of a session in a range: the fields which `activityDays` reads. -/
structure ActivityTotals where
  totalTokens : Nat
  calls : Nat
deriving Repr, DecidableEq

/-- Follows `calendarActivity.ts:13–18`. -/
structure ActivityDay extends CalendarDay where
  tokens : Nat
  toolCalls : Nat
  sessionIds : List String
  tokenSessionIds : List String
  toolCallSessionIds : List String
deriving Repr, DecidableEq

/-- The activity of one day. Follows `calendarActivity.ts:53–62`. -/
def activityDay (day : CalendarDay) (records : List (String × ActivityTotals)) : ActivityDay where
  toCalendarDay := day
  tokens := (records.map fun record ↦ record.2.totalTokens).sum
  toolCalls := (records.map fun record ↦ record.2.calls).sum
  sessionIds := (records.filter fun record ↦
    record.2.totalTokens > 0 || record.2.calls > 0).map Prod.fst
  tokenSessionIds := (records.filter fun record ↦ record.2.totalTokens > 0).map Prod.fst
  toolCallSessionIds := (records.filter fun record ↦ record.2.calls > 0).map Prod.fst

/-- `activityDays`, `calendarActivity.ts:51–64`. -/
def activityDays (days : List CalendarDay) (ranges : List (List (String × ActivityTotals))) :
    Except String (List ActivityDay) :=
  if days.length ≠ ranges.length then
    .error "Activity response is incomplete. Retry the range."
  else .ok (List.zipWith activityDay days ranges)

/-- A recorded use of a session. -/
structure UsageEvent where
  session : String
  time : Int
  tokens : Nat
  calls : Nat
deriving Repr, DecidableEq

/-- The recorded usage of each session between two instants, both included. -/
def rangeRecords (events : List UsageEvent) (fromMs toMs : Int) :
    List (String × ActivityTotals) :=
  ((GroupBy.groupSum ((events.filter fun e : UsageEvent ↦
    decide (fromMs ≤ e.time) && decide (e.time ≤ toMs)).map fun e ↦
      (e.session, ((e.tokens, e.calls) : Nat × Nat)))).toList).map
        fun record ↦ (record.1, ⟨record.2.1, record.2.2⟩)

end AgentOdometer.Calendar
