import Mathlib.Algebra.Order.Ring.Int
import Mathlib.Data.Prod.Lex

/-!
# Instants and durations

`chrono::DateTime<Utc>` as a bounded nanosecond count from the Unix epoch, without leap
seconds, the stored form with leap seconds, and `chrono::Duration`. Arithmetic which panics in
chrono returns `none`.
-/

namespace AgentOdometer

/-- Nanoseconds of `DateTime::<Utc>::MIN_UTC`, the start of year −262143. -/
def minUtcNanos : Int :=
  -8334601228800 * 10 ^ 9

/-- Nanoseconds of `DateTime::<Utc>::MAX_UTC`, the end of year 262142. -/
def maxUtcNanos : Int :=
  8210266876800 * 10 ^ 9 - 1

/-- An instant in chrono's range which lies in no leap second. -/
structure DateTime where
  nanos : Int
  lower : minUtcNanos ≤ nanos
  upper : nanos ≤ maxUtcNanos
deriving DecidableEq

/-- A signed span of nanoseconds. -/
structure Duration where
  nanos : Int
deriving Repr, DecidableEq

namespace DateTime

instance : Repr DateTime :=
  ⟨fun t prec ↦ reprPrec t.nanos prec⟩

@[ext]
theorem ext {s t : DateTime} (h : s.nanos = t.nanos) : s = t := by
  cases s
  cases t
  simpa using h

theorem nanos_injective : Function.Injective nanos :=
  fun _ _ ↦ ext

/-- Instants are ordered by their nanoseconds. -/
instance : LinearOrder DateTime :=
  LinearOrder.lift' nanos nanos_injective

theorem le_iff {s t : DateTime} : s ≤ t ↔ s.nanos ≤ t.nanos :=
  Iff.rfl

theorem lt_iff {s t : DateTime} : s < t ↔ s.nanos < t.nanos :=
  Iff.rfl

instance : Std.LawfulEqOrd DateTime where
  compare_self := by
    intro t
    exact compare_eq_iff_eq.mpr rfl
  eq_of_compare := by
    intro s t h
    exact compare_eq_iff_eq.mp h

/-- An instant from nanoseconds, when chrono can represent it. -/
def ofNanos? (n : Int) : Option DateTime :=
  if h : minUtcNanos ≤ n ∧ n ≤ maxUtcNanos then some ⟨n, h.1, h.2⟩ else none

/-- The Unix epoch, chrono's default instant. -/
def epoch : DateTime :=
  ⟨0, by decide, by decide⟩

instance : Inhabited DateTime :=
  ⟨epoch⟩

/-- `timestamp_millis`: whole milliseconds, rounded towards the past. -/
def timestampMillis (t : DateTime) : Int :=
  t.nanos / 1000000

/-- `timestamp_micros`: whole microseconds, rounded towards the past. -/
def timestampMicros (t : DateTime) : Int :=
  t.nanos / 1000

/-- `timestamp_millis` never reverses the order of two instants. -/
theorem timestampMillis_mono {s t : DateTime} (h : s ≤ t) :
    s.timestampMillis ≤ t.timestampMillis :=
  Int.ediv_le_ediv (by decide) (le_iff.mp h)

/-- `timestamp_millis_opt(ms).single()`. -/
def ofMillis? (ms : Int) : Option DateTime :=
  ofNanos? (ms * 1000000)

/-- The whole milliseconds of an instant are representable. -/
theorem ofMillis?_timestampMillis (t : DateTime) :
    ∃ u, ofMillis? t.timestampMillis = some u ∧ u.timestampMillis = t.timestampMillis := by
  have hlower := t.lower
  have hupper := t.upper
  have hrange : minUtcNanos ≤ t.timestampMillis * 1000000 ∧
      t.timestampMillis * 1000000 ≤ maxUtcNanos := by
    unfold timestampMillis minUtcNanos maxUtcNanos at *
    omega
  refine ⟨⟨t.timestampMillis * 1000000, hrange.1, hrange.2⟩, ?_, ?_⟩
  · unfold ofMillis? ofNanos?
    rw [dif_pos hrange]
  · exact Int.mul_ediv_cancel _ (by decide)

/-- `self + duration`, which panics outside chrono's range. -/
def add? (t : DateTime) (d : Duration) : Option DateTime :=
  ofNanos? (t.nanos + d.nanos)

/-- `self - duration`, which panics outside chrono's range. -/
def sub? (t : DateTime) (d : Duration) : Option DateTime :=
  ofNanos? (t.nanos - d.nanos)

/-- The span from `s` to `t`. -/
def signedDurationSince (t s : DateTime) : Duration :=
  ⟨t.nanos - s.nanos⟩

end DateTime

/-! ### Leap seconds -/

/-- What a scan over events reads of their instants: the order, and the whole milliseconds, which
`timestamp_millis_opt` takes back. -/
class Timestamp (τ : Type) extends LinearOrder τ where
  timestampMillis : τ → Int
  exists_ofMillis? : ∀ t, ∃ u, DateTime.ofMillis? (timestampMillis t) = some u ∧
    u.timestampMillis = timestampMillis t

instance : Timestamp DateTime where
  timestampMillis := DateTime.timestampMillis
  exists_ofMillis? := DateTime.ofMillis?_timestampMillis

@[simp]
theorem timestampMillis_dateTime (t : DateTime) :
    Timestamp.timestampMillis t = t.timestampMillis :=
  rfl

/-- `chrono::DateTime<Utc>` as chrono stores it: a second, and nanoseconds from its start. Those
of a leap second, `23:59:60` and the like, are one second and more from the start of the last
second of the minute. -/
structure LeapDateTime where
  timestamp : Int
  subsecNanos : Nat
  subsec : subsecNanos < 2000000000
  leap : 1000000000 ≤ subsecNanos → timestamp % 60 = 59
  lower : minUtcNanos ≤ timestamp * 1000000000
  upper : timestamp * 1000000000 + subsecNanos ≤ maxUtcNanos
deriving DecidableEq

namespace LeapDateTime

/-- The stored pair. -/
def key (t : LeapDateTime) : Int ×ₗ Nat :=
  toLex (t.timestamp, t.subsecNanos)

theorem key_injective : Function.Injective key := by
  intro s t h
  cases s
  cases t
  simpa [key] using h

/-- Instants are ordered by second, then by nanosecond. -/
instance : LinearOrder LeapDateTime :=
  LinearOrder.lift' key key_injective

/-- `timestamp_millis`: the milliseconds of the second and those from its start. -/
def timestampMillis (t : LeapDateTime) : Int :=
  t.timestamp * 1000 + t.subsecNanos / 1000000

theorem exists_ofMillis? (t : LeapDateTime) :
    ∃ u, DateTime.ofMillis? t.timestampMillis = some u ∧
      u.timestampMillis = t.timestampMillis := by
  have hlower := t.lower
  have hupper := t.upper
  have hrange : minUtcNanos ≤ t.timestampMillis * 1000000 ∧
      t.timestampMillis * 1000000 ≤ maxUtcNanos := by
    unfold timestampMillis
    omega
  refine ⟨⟨t.timestampMillis * 1000000, hrange.1, hrange.2⟩, ?_, ?_⟩
  · unfold DateTime.ofMillis? DateTime.ofNanos?
    rw [dif_pos hrange]
  · exact Int.mul_ediv_cancel _ (by decide)

instance : Timestamp LeapDateTime where
  timestampMillis := timestampMillis
  exists_ofMillis? := exists_ofMillis?

/-- Without leap seconds, `timestamp_millis` never reverses the order of two instants. -/
theorem timestampMillis_mono {s t : LeapDateTime} (hs : s.subsecNanos < 1000000000)
    (h : s ≤ t) : s.timestampMillis ≤ t.timestampMillis := by
  have hle : s.timestamp < t.timestamp ∨
      s.timestamp = t.timestamp ∧ s.subsecNanos ≤ t.subsecNanos := Prod.Lex.toLex_le_toLex.mp h
  unfold timestampMillis
  omega

end LeapDateTime

namespace Duration

theorem nanos_injective : Function.Injective nanos := by
  intro d e h
  cases d
  cases e
  simpa using h

instance : LinearOrder Duration :=
  LinearOrder.lift' nanos nanos_injective

/-- Largest span chrono can represent, `i64::MAX` milliseconds. -/
def maxNanos : Int :=
  (2 ^ 63 - 1) * 1000000

/-- A span from nanoseconds, when chrono can represent it. -/
def ofNanos? (n : Int) : Option Duration :=
  if -maxNanos ≤ n ∧ n ≤ maxNanos then some ⟨n⟩ else none

/-- `Duration::milliseconds`. -/
def milliseconds? (n : Int) : Option Duration :=
  ofNanos? (n * 1000000)

/-- `Duration::minutes`. -/
def minutes? (n : Int) : Option Duration :=
  ofNanos? (n * 60000000000)

/-- `Duration::days`. -/
def days? (n : Int) : Option Duration :=
  ofNanos? (n * 86400000000000)

/-- `num_milliseconds`: whole milliseconds, rounded towards zero. -/
def numMilliseconds (d : Duration) : Int :=
  d.nanos.tdiv 1000000

/-- `num_seconds`: whole seconds, rounded towards zero. -/
def numSeconds (d : Duration) : Int :=
  d.nanos.tdiv 1000000000

end Duration

end AgentOdometer
