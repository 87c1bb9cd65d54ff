import AgentOdometer.Base.Float64
import AgentOdometer.Model.Session

/-!
# Quota receipts of turns

`quota_receipt` and its formatting (`turn_receipts.rs:342–443`): the last rate-limit point of a
turn, compared with the last point before it which belongs to another turn.
-/

namespace AgentOdometer.Quota

/-- `str::trim_end_matches` with a character. -/
def trimEndMatches (s : String) (c : Char) : String :=
  String.ofList (s.toList.reverse.dropWhile (· = c)).reverse

/-- `f64::EPSILON`, 2⁻⁵². -/
def epsilon : Float :=
  Float.ofBits 0x3CB0000000000000

/-- `format_percent`, `turn_receipts.rs:432–442`. -/
def formatPercent (value : Float) : String :=
  let rendered := if value != 0.0 && decide (value.abs < 0.005) then Float64.formatFixed 4 value
    else Float64.formatFixed 2 value
  trimEndMatches (trimEndMatches rendered '0') '.'

/-- `quota_window_label`, `turn_receipts.rs:420–430`. -/
def quotaWindowLabel (window : RateLimitWindow) (primary : Bool) : String :=
  match window.windowMinutes with
  | some minutes =>
      if minutes = 300 then "5h"
      else if minutes = 10080 then "7d"
      else if minutes % 1440 = 0 then toString (minutes / 1440) ++ "d"
      else if minutes % 60 = 0 then toString (minutes / 60) ++ "h"
      else toString minutes ++ "m"
  | none => if primary then "Primary" else "Secondary"

/-- Both are known. Follows the `zip` of `turn_receipts.rs:383–390`. -/
def bothKnown {α : Type} (previous current : Option α) : Bool :=
  previous.isSome && current.isSome

/-- Both are known and the same. Follows the `zip` of `turn_receipts.rs:391–398`. -/
def bothSame {α : Type} [DecidableEq α] (previous current : Option α) : Bool :=
  bothKnown previous current && decide (previous = current)

/-- `append_quota_window`, `turn_receipts.rs:361–418`: what the point says of one of its
windows. -/
def quotaWindowPart (before : Option RateLimitSnapshotPoint) (after : RateLimitSnapshotPoint)
    (primary : Bool) : Option String :=
  let pick := fun point : RateLimitSnapshotPoint ↦
    if primary then point.primary else point.secondary
  (pick after).map fun current ↦
    let previous := before.bind pick
    let label := quotaWindowLabel current primary
    let currentPercent := formatPercent current.usedPercent
    let beforeLimit := before.bind (·.limitId)
    let previousReset := previous.bind (·.resetsAt)
    match previous with
    | some window =>
        if bothSame beforeLimit after.limitId && bothSame previousReset current.resetsAt &&
            decide (window.usedPercent ≤ current.usedPercent) then
          let delta := current.usedPercent - window.usedPercent
          if delta.abs < epsilon then
            label ++ " no measurable change (" ++ currentPercent ++ "% used)"
          else
            label ++ " +" ++ formatPercent delta ++ " pp observed (" ++ currentPercent ++ "% used)"
        else if bothKnown beforeLimit after.limitId && bothKnown previousReset current.resetsAt then
          label ++ " " ++ currentPercent ++ "% used · window changed"
        else label ++ " " ++ currentPercent ++ "% used · turn delta unavailable"
    | none => label ++ " " ++ currentPercent ++ "% used · turn delta unavailable"

/-- The newest point of the turn, with the newest point before it of another turn. Follows
`turn_receipts.rs:343–351`. -/
def quotaPoints (history : List RateLimitSnapshotPoint) (turnId : String) :
    Option (Option RateLimitSnapshotPoint × RateLimitSnapshotPoint) :=
  match history.reverse.dropWhile (·.turnId ≠ some turnId) with
  | [] => none
  | after :: earlier => some (earlier.find? (·.turnId ≠ some turnId), after)

/-- `quota_receipt`, `turn_receipts.rs:342–359`. -/
def quotaReceipt (session : Session) (turn : TurnInfo) : Option String :=
  (quotaPoints session.rateLimitsHistory turn.turnId).bind fun (before, after) ↦
    let parts := (quotaWindowPart before after true).toList ++
      (quotaWindowPart before after false).toList
    if parts.isEmpty then none else some (" · ".intercalate parts)

example : formatPercent 12.5 = "12.5" := by decide +kernel

end AgentOdometer.Quota
