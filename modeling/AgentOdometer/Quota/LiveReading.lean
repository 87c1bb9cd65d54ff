import AgentOdometer.Quota.LiveAlerts

/-!
# Live readings

What a request to the installed CLI answers (`quota_live.rs:62–138`), and the snapshot of one of
its buckets (`quota.rs:542–586`).
-/

namespace AgentOdometer.Quota

/-- `DiscoveredQuotaAccount`, `quota_live.rs:62–67`. -/
structure DiscoveredQuotaAccount where
  accountId : String
  planType : Option String
deriving Repr, DecidableEq

/-- `LiveQuotaWindow`, `quota_live.rs:90–95`. -/
structure LiveQuotaWindow where
  usedPercent : Float
  windowMinutes : Option Nat
  resetsAt : Option DateTime
deriving DecidableEq

/-- `LiveQuotaCredits`, `quota_live.rs:97–103`. -/
structure LiveQuotaCredits where
  hasCredits : Bool
  unlimited : Bool
  balance : Option Float
deriving DecidableEq

/-- `LiveQuotaBucket`, `quota_live.rs:79–88`. -/
structure LiveQuotaBucket where
  limitId : String
  limitName : Option String
  spendControlReached : Option Bool
  primary : Option LiveQuotaWindow
  secondary : Option LiveQuotaWindow
  credits : Option LiveQuotaCredits
deriving DecidableEq

/-- `LiveQuotaReading`, `quota_live.rs:70–77`. -/
structure LiveQuotaReading where
  accountId : String
  ordinaryUsageAllowed : Option Bool
  observedAt : DateTime
  limitBuckets : List LiveQuotaBucket
deriving DecidableEq

/-- `LiveQuotaError`, `quota_live.rs:105–120`. -/
inductive LiveQuotaError where
  | offline
  | launchFailed
  | timeout
  | authExpired
  | rateLimited
  | providerOutage
  | unsupported
  | accountChanged
  | protocolMismatch
  | invalidResponse
  | noObservation
deriving Repr, DecidableEq

/-- `LiveQuotaError::code`, `quota_live.rs:122–138`. -/
def LiveQuotaError.code : LiveQuotaError → String
  | offline => "offline"
  | launchFailed => "launch_failed"
  | timeout => "timeout"
  | authExpired => "auth_expired"
  | rateLimited => "rate_limited"
  | providerOutage => "provider_outage"
  | unsupported => "unsupported"
  | accountChanged => "account_changed"
  | protocolMismatch => "protocol_mismatch"
  | invalidResponse => "invalid_response"
  | noObservation => "no_observation"

/-- The window of one value, whose start stays unknown. Follows `quota.rs:550–567`. -/
def livePercentWindow (observedAt now : DateTime) (value : LiveQuotaWindow) :
    Option (Option QuotaWindow) :=
  let observation : WindowObservation :=
    ⟨observedAt, observedAt, ⟨value.usedPercent, value.windowMinutes, value.resetsAt⟩, 1⟩
  (buildPercentWindow [observation] now tenMinutes).map fun window ↦ window.map fun window ↦
    { window with
      windowStartedAt := none
      windowStartedAtEstimated := false
      windowStartBasis := .unknown }

/-- The window of the credits. Follows `quota.rs:568–577`. -/
def liveCreditWindow (observedAt now : DateTime) (credits : LiveQuotaCredits) :
    Option QuotaWindow :=
  buildCreditWindow ⟨some credits.unlimited, credits.balance, some observedAt⟩ now tenMinutes

/-- `live_bucket_snapshot`, `quota.rs:544–586`. -/
def liveBucketSnapshot (bucket : LiveQuotaBucket) (observedAt now : DateTime) :
    Option QuotaSnapshot := do
  let percents ← ([bucket.primary, bucket.secondary].filterMap id).mapM
    (livePercentWindow observedAt now)
  let windows := percents.filterMap id ++
    (bucket.credits.bind (liveCreditWindow observedAt now)).toList
  return ⟨.codex, .liveProvider, windows, if windows.isEmpty then some .noObservation else none⟩

end AgentOdometer.Quota
