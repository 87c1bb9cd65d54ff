import AgentOdometer.Model.Counters

/-!
# Usage of a session

Every parser keeps the usage of a session three times: as a running total, in a bucket for each
model, and as the deltas of a dated history.
-/

namespace AgentOdometer.Parser

open Std (ExtTreeMap)

/-- The three accumulators of a session: the total, the buckets, and the deltas of the history
with the model of each. -/
structure Usage where
  total : TokenTotals
  buckets : ExtTreeMap String TokenTotals
  deltas : List (Option String × TokenTotals)

namespace Usage

/-- Nothing has been counted. -/
def empty : Usage :=
  ⟨0, ∅, []⟩

/-- The accumulators of a session. -/
def ofSession (session : Session) : Usage where
  total := session.tokensTotal
  buckets := session.tokensByModel
  deltas := session.tokensHistory.map fun point ↦ (point.model, point.delta)

end Usage

end AgentOdometer.Parser
