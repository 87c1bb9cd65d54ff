import AgentOdometer.Base.Float64
import AgentOdometer.Base.Machine
import AgentOdometer.Model.Session

/-!
# Quota snapshots

`build_quota_snapshot` and its window builders (`quota.rs:93–637`). Functions which can
panic on chrono's range return `none` there.
-/

namespace AgentOdometer.Quota

/-- `MAX_POINTS_PER_PROVIDER`, `quota.rs:37`. -/
def maxPointsPerProvider : Nat :=
  2000

/-- `RETAINED_POINTS_PER_PROVIDER`, `quota.rs:61`. -/
def retainedPointsPerProvider : Nat :=
  4 * maxPointsPerProvider

/-- Kind of a window. Follows `quota.rs:93–102`. -/
inductive QuotaWindowKind where
  | burst
  | daily
  | weekly
  | monthly
  | creditBalance
  | other
deriving Repr, DecidableEq

/-- Within `tolerance` of `target`, in wrapping `i64` arithmetic. -/
def isNear (minutes target tolerance : Int) : Bool :=
  absI64 (wrapI64 (minutes - target)) ≤ tolerance

/-- `classify_window_kind`, `quota.rs:116–130`. -/
def classifyWindowKind (windowMinutes : Option Nat) : QuotaWindowKind :=
  match windowMinutes with
  | none => .other
  | some minutes =>
      let minutes := wrapI64 minutes
      if isNear minutes 10080 30 then .weekly
      else if isNear minutes 43200 120 then .monthly
      else if isNear minutes 1440 15 then .daily
      else .burst

/-- Unit of a window. Follows `quota.rs:133–137`. -/
inductive QuotaUnit where
  | percent
  | credits
deriving Repr, DecidableEq

/-- Source of a snapshot. Follows `quota.rs:144–148`. -/
inductive QuotaProvenance where
  | transcriptDerived
  | liveProvider
deriving Repr, DecidableEq

/-- Confidence in a window. Follows `quota.rs:152–156`. -/
inductive QuotaConfidence where
  | high
  | medium
  | low
deriving Repr, DecidableEq

/-- The inner `rank` of `downgrade`. Follows `quota.rs:159–165`. -/
def QuotaConfidence.rank : QuotaConfidence → Nat
  | .high => 2
  | .medium => 1
  | .low => 0

/-- `downgrade`, `quota.rs:158–171`. -/
def downgrade (current cap : QuotaConfidence) : QuotaConfidence :=
  if cap.rank < current.rank then cap else current

/-- Reasons which the transcript path produces. Follows `quota.rs:182–204`. -/
inductive QuotaUnavailableReason where
  | noQuotaSource
  | noObservation
  | clockSkew
deriving Repr, DecidableEq

/-- A linear projection. Follows `quota.rs:206–223`. -/
structure QuotaForecast where
  pacePerHour : Float
  projectedExhaustionAt : Option DateTime
  reserveDeficitPercent : Float
  evidencePoints : Nat
deriving DecidableEq

/-- Evidence for a forecast anchor. Follows `quota.rs:225–233`. -/
inductive QuotaWindowStartBasis where
  | unknown
  | counterDecrease
  | resetScheduleEstimate
deriving Repr, DecidableEq

/-- One quota window. Follows `quota.rs:235–266`. -/
structure QuotaWindow where
  kind : QuotaWindowKind
  unit : QuotaUnit
  windowMinutes : Option Nat
  used : Option Float
  remaining : Option Float
  limit : Option Float
  unlimited : Bool
  resetsAt : Option DateTime
  windowStartedAt : Option DateTime
  windowStartedAtEstimated : Bool
  windowStartBasis : QuotaWindowStartBasis
  observedAt : DateTime
  confidence : QuotaConfidence
  stale : Bool
  unavailable : Option QuotaUnavailableReason
  forecast : Option QuotaForecast
deriving DecidableEq

/-- The windows of one provider. Follows `quota.rs:268–279`. -/
structure QuotaSnapshot where
  provider : ProviderId
  provenance : QuotaProvenance
  windows : List QuotaWindow
  unavailable : Option QuotaUnavailableReason
deriving DecidableEq

/-- Credit information of an account. Follows `quota.rs:281–286`. -/
structure QuotaAccountInfo where
  creditsUnlimited : Option Bool
  creditsBalance : Option Float
  observedAt : Option DateTime
deriving DecidableEq

/-- The derived `Default`. -/
def QuotaAccountInfo.empty : QuotaAccountInfo :=
  ⟨none, none, none⟩

/-- One window reading of a collapsed point. Follows `quota.rs:300–306`. -/
structure WindowObservation where
  runStartedAt : DateTime
  timestamp : DateTime
  window : RateLimitWindow
  observationCount : Nat
deriving DecidableEq

/-- `window_series`, `quota.rs:308–323`. -/
def windowSeries (points : List RateLimitSnapshotPoint)
    (pick : RateLimitSnapshotPoint → Option RateLimitWindow) : List WindowObservation :=
  points.filterMap fun p ↦ (pick p).map fun window ↦
    ⟨p.runStartedAt.getD p.timestamp, p.timestamp, window, p.observationCount⟩

/-- `detect_counter_decrease`, `quota.rs:325–339`: the last consecutive pair whose usage drops
by at least `ROLLOVER_DROP_THRESHOLD_PERCENT`. -/
def detectCounterDecrease (series : List WindowObservation) : Option DateTime :=
  ((series.zip series.tail).reverse.find? fun (prev, cur) ↦
    (15.0 : Float) ≤ prev.window.usedPercent - cur.window.usedPercent).map (·.2.runStartedAt)

/-- When usage reaches 100 percent at the given pace, unless the window resets first.
Follows `quota.rs:396–407`. -/
def projectedExhaustion (last : WindowObservation) (pacePerHour : Float)
    (resetsAt : Option DateTime) (now : DateTime) : Option (Option DateTime) :=
  if (0.0 : Float) < pacePerHour then do
    let remaining := Float64.max (100.0 - last.window.usedPercent) 0.0
    let hoursToExhaustion := remaining / pacePerHour
    let span ← Duration.milliseconds? (Float64.roundAsI64 (hoursToExhaustion * 3600000.0))
    let candidate ← now.add? span
    some (if resetsAt.any (· ≤ candidate) then none else some candidate)
  else some none

/-- `forecast_from_series`, `quota.rs:341–421`. The constants are `MIN_EVIDENCE_POINTS` and
`MIN_EVIDENCE_SPAN_FRACTION`. -/
def forecastFromSeries (series : List WindowObservation) (windowStartedAt : DateTime)
    (windowMinutes : Option Nat) (resetsAt : Option DateTime) (now : DateTime) :
    Option (Option QuotaForecast) :=
  match windowMinutes with
  | none => some none
  | some windowMinutes =>
    let minutes := Float.ofNat windowMinutes
    if minutes ≤ 0.0 then some none
    else
      let inWindow := series.filter fun p ↦ windowStartedAt ≤ p.timestamp && p.timestamp ≤ now
      let evidencePoints := (inWindow.map (·.observationCount)).sum
      if evidencePoints < 5 then some none
      else
        match inWindow.head?, inWindow.getLast? with
        | some first, some last =>
          let firstTs := max first.runStartedAt windowStartedAt
          let spanMinutes :=
            Float.ofInt (last.timestamp.signedDurationSince firstTs).numSeconds / 60.0
          if spanMinutes / minutes < 0.10 then some none
          else
            let elapsedHours := spanMinutes / 60.0
            if elapsedHours ≤ 0.0 then some none
            else
              let usedDelta := last.window.usedPercent - first.window.usedPercent
              if usedDelta < 0.0 then some none
              else do
                let pacePerHour := usedDelta / elapsedHours
                let projectedExhaustionAt ← projectedExhaustion last pacePerHour resetsAt now
                let elapsedFraction := Float64.clamp
                  (Float.ofInt (now.signedDurationSince windowStartedAt).numSeconds /
                    (minutes * 60.0)) 0.0 1.0
                some (some ⟨pacePerHour, projectedExhaustionAt,
                  last.window.usedPercent - elapsedFraction * 100.0, evidencePoints⟩)
        | _, _ => some none

/-- The window before its numbers are filled in. Follows `quota.rs:432–449`. -/
def emptyPercentWindow (latest : WindowObservation) : QuotaWindow :=
  { kind := classifyWindowKind latest.window.windowMinutes
    unit := .percent
    windowMinutes := latest.window.windowMinutes
    used := none
    remaining := none
    limit := some 100.0
    unlimited := false
    resetsAt := latest.window.resetsAt
    windowStartedAt := none
    windowStartedAtEstimated := false
    windowStartBasis := .unknown
    observedAt := latest.timestamp
    confidence := .high
    stale := false
    unavailable := none
    forecast := none }

/-- Choose the forecast anchor. Follows `quota.rs:466–476`. -/
def anchorWindow (series : List WindowObservation) (window : QuotaWindow) :
    Option QuotaWindow :=
  match detectCounterDecrease series with
  | some rolloverAt =>
      some { window with
        windowStartedAt := some rolloverAt
        windowStartedAtEstimated := true
        windowStartBasis := .counterDecrease
        confidence := downgrade window.confidence .medium }
  | none =>
      match window.resetsAt, window.windowMinutes with
      | some resetsAt, some minutes => do
          let span ← Duration.minutes? (wrapI64 minutes)
          let startedAt ← resetsAt.sub? span
          some { window with
            windowStartedAt := some startedAt
            windowStartedAtEstimated := true
            windowStartBasis := .resetScheduleEstimate
            confidence := downgrade window.confidence .medium }
      | _, _ => some window

/-- `build_percent_window`, `quota.rs:423–491`. -/
def buildPercentWindow (series : List WindowObservation) (now : DateTime)
    (maxCacheAge : Duration) : Option (Option QuotaWindow) :=
  match series.getLast? with
  | none => some none
  | some latest =>
    let window := emptyPercentWindow latest
    if now < latest.timestamp then
      some (some { window with unavailable := some .clockSkew, confidence := .low })
    else do
      let stale := maxCacheAge < now.signedDurationSince latest.timestamp ||
        window.resetsAt.any (· ≤ now)
      let window := { window with
        stale
        confidence := if stale then downgrade window.confidence .low else window.confidence
        used := some (Float64.clamp latest.window.usedPercent 0.0 100.0)
        remaining := some (Float64.clamp (100.0 - latest.window.usedPercent) 0.0 100.0) }
      let window ← anchorWindow series window
      match window.stale, window.windowStartedAt with
      | false, some startedAt =>
          let forecast ←
            forecastFromSeries series startedAt window.windowMinutes window.resetsAt now
          some (some { window with forecast })
      | _, _ => some (some window)

/-- `build_credit_window`, `quota.rs:493–540`. -/
def buildCreditWindow (account : QuotaAccountInfo) (now : DateTime) (maxCacheAge : Duration) :
    Option QuotaWindow :=
  let unlimited := account.creditsUnlimited.getD false
  if !unlimited && account.creditsBalance.isNone then none
  else
    let observedAt := account.observedAt.getD now
    let window : QuotaWindow :=
      { kind := .creditBalance
        unit := .credits
        windowMinutes := none
        used := none
        remaining := if unlimited then none else account.creditsBalance
        limit := none
        unlimited
        resetsAt := none
        windowStartedAt := none
        windowStartedAtEstimated := false
        windowStartBasis := .unknown
        observedAt
        confidence := .high
        stale := false
        unavailable := none
        forecast := none }
    if now < observedAt then
      some { window with
        remaining := none, unlimited := false, unavailable := some .clockSkew, confidence := .low }
    else
      let stale := decide (maxCacheAge < now.signedDurationSince observedAt)
      some { window with
        stale
        confidence := if stale then downgrade window.confidence .low else window.confidence }

/-- `build_quota_snapshot`, `quota.rs:594–637`. -/
def buildQuotaSnapshot (provider : ProviderId) (sourceSupported : Bool)
    (points : List RateLimitSnapshotPoint) (account : QuotaAccountInfo) (now : DateTime)
    (maxCacheAge : Duration) : Option QuotaSnapshot :=
  if !sourceSupported then
    some ⟨provider, .transcriptDerived, [], some .noQuotaSource⟩
  else do
    let primary ← buildPercentWindow (windowSeries points (·.primary)) now maxCacheAge
    let secondary ← buildPercentWindow (windowSeries points (·.secondary)) now maxCacheAge
    let windows := primary.toList ++ secondary.toList ++
      (buildCreditWindow account now maxCacheAge).toList
    some ⟨provider, .transcriptDerived, windows,
      if windows.isEmpty then some .noObservation else none⟩

/-- A provider without a quota source ignores every observation. -/
theorem buildQuotaSnapshot_unsupported (provider : ProviderId)
    (points : List RateLimitSnapshotPoint) (account : QuotaAccountInfo) (now : DateTime)
    (maxCacheAge : Duration) :
    buildQuotaSnapshot provider false points account now maxCacheAge =
      some ⟨provider, .transcriptDerived, [], some .noQuotaSource⟩ :=
  rfl

end AgentOdometer.Quota
