import AgentOdometer.Model.Session

/-!
# Runs of equal rate-limit observations

`RateLimitSnapshotPoint::record` and `collapse` (`model.rs:502–579`). Consecutive observations
which agree in everything but their instant are stored as one point.
-/

namespace AgentOdometer

/-- The derived `PartialEq` of a window, with `f64` equality. -/
def RateLimitWindow.same (a b : RateLimitWindow) : Bool :=
  a.usedPercent == b.usedPercent && decide (a.windowMinutes = b.windowMinutes) &&
    decide (a.resetsAt = b.resetsAt)

/-- `Option<RateLimitWindow>` equality. -/
def sameWindow : Option RateLimitWindow → Option RateLimitWindow → Bool
  | none, none => true
  | some a, some b => a.same b
  | _, _ => false

namespace RateLimitSnapshotPoint

/-- `run_started_at`, `model.rs:508–510`. -/
def startedAt (point : RateLimitSnapshotPoint) : DateTime :=
  point.runStartedAt.getD point.timestamp

/-- One raw observation. Follows `model.rs:549–557`. -/
def observation (timestamp : DateTime) (turnId limitId : Option String)
    (primary secondary : Option RateLimitWindow) : RateLimitSnapshotPoint :=
  { timestamp, turnId, limitId, primary, secondary, runStartedAt := none, observationCount := 1 }

/-- The point stands for observations of this turn and limit with these windows. Follows
`model.rs:537–540`. -/
def covers (point : RateLimitSnapshotPoint) (turnId limitId : Option String)
    (primary secondary : Option RateLimitWindow) : Bool :=
  decide (point.turnId = turnId) && decide (point.limitId = limitId) &&
    sameWindow point.primary primary && sameWindow point.secondary secondary

/-- The point with one more observation. Follows `model.rs:541–546`. -/
def extend (point : RateLimitSnapshotPoint) (timestamp : DateTime) : RateLimitSnapshotPoint :=
  { point with
    runStartedAt := some point.startedAt
    timestamp
    observationCount := point.observationCount + 1 }

/-- `RateLimitSnapshotPoint::record`, `model.rs:528–558`. -/
def record (history : List RateLimitSnapshotPoint) (timestamp : DateTime)
    (turnId limitId : Option String) (primary secondary : Option RateLimitWindow) :
    List RateLimitSnapshotPoint :=
  match history.getLast? with
  | some last =>
      if last.covers turnId limitId primary secondary then
        history.dropLast ++ [last.extend timestamp]
      else history ++ [observation timestamp turnId limitId primary secondary]
  | none => history ++ [observation timestamp turnId limitId primary secondary]

/-- `RateLimitSnapshotPoint::collapse`, `model.rs:565–578`. -/
def collapse (raw : List RateLimitSnapshotPoint) : List RateLimitSnapshotPoint :=
  raw.foldl (fun collapsed point ↦ record collapsed point.timestamp point.turnId point.limitId
    point.primary point.secondary) []

end RateLimitSnapshotPoint

end AgentOdometer
