import AgentOdometer.Base.StableHash
import AgentOdometer.Ledger.Identity
import AgentOdometer.Lib.Keys

/-!
# Attention signals

The signals which `attention.rs` rebuilds from a session on every observation
(`attention.rs:19–28` and `493–568`). `Display` and the derived `Debug` give their texts; the one
of `chrono` is a parameter.
-/

namespace AgentOdometer.Attention

/-- `EventKind`, `attention.rs:19–28`. -/
inductive EventKind where
  | turnStarted
  | inputRequested
  | toolCompleted
  | toolFailed
  | turnCompleted
  | turnInterrupted
deriving Repr, DecidableEq

namespace EventKind

/-- Position in the declaration, which the derived order compares. -/
def rank : EventKind → Nat
  | turnStarted => 0
  | inputRequested => 1
  | toolCompleted => 2
  | toolFailed => 3
  | turnCompleted => 4
  | turnInterrupted => 5

/-- The derived `Debug`. -/
def debug : EventKind → String
  | turnStarted => "TurnStarted"
  | inputRequested => "InputRequested"
  | toolCompleted => "ToolCompleted"
  | toolFailed => "ToolFailed"
  | turnCompleted => "TurnCompleted"
  | turnInterrupted => "TurnInterrupted"

end EventKind

/-- `AttentionState`, `attention.rs:90–98`. -/
inductive AttentionState where
  | working
  | waiting
  | idle
  | error
  | unknown
deriving Repr, DecidableEq

/-- What a signal is about. -/
inductive Subject where
  | turn (turnId : String)
  | call (callId : String)
deriving Repr, DecidableEq

/-- `Signal`, `attention.rs:128–135`, with the turn or the call which it is about. Its `at` is
`time`. -/
structure Signal where
  subject : Subject
  id : String
  time : DateTime
  category : EventKind
  state : AttentionState
  source : String
  toolKind : Option ToolKind
deriving Repr, DecidableEq

section Signals

variable (display : DateTime → String)

/-- The signal of a rolled-back turn. Follows `attention.rs:496–505`. -/
def rollbackSignal (session : Session) (turn : TurnInfo) : Signal where
  subject := .turn turn.turnId
  id := "turn:" ++ turn.turnId ++ ":rollback:" ++ display session.lastEventAt
  time := session.lastEventAt
  category := .turnInterrupted
  state := .unknown
  source := "retained rolled-back turn"
  toolKind := none

/-- The signal of a turn's start. Follows `attention.rs:507–516`. -/
def startedSignal (turn : TurnInfo) (time : DateTime) : Signal where
  subject := .turn turn.turnId
  id := "turn:" ++ turn.turnId ++ ":started:" ++ display time
  time
  category := .turnStarted
  state := .working
  source := "retained turn start"
  toolKind := none

/-- What the status of a turn says about its end. Follows `attention.rs:518–522`. -/
def endOf : TurnStatus → Option (EventKind × AttentionState)
  | .completed => some (.turnCompleted, .idle)
  | .aborted => some (.turnInterrupted, .unknown)
  | _ => none

/-- The signal of a turn's end. Follows `attention.rs:523–530`. -/
def endedSignal (turn : TurnInfo) (time : DateTime) (ending : EventKind × AttentionState) :
    Signal where
  subject := .turn turn.turnId
  id := "turn:" ++ turn.turnId ++ ":" ++ ending.1.debug ++ ":" ++ display time
  time
  category := ending.1
  state := ending.2
  source := "retained turn completion"
  toolKind := none

/-- The signals of a turn. Follows `attention.rs:495–532`. -/
def turnSignals (session : Session) (turn : TurnInfo) : List Signal :=
  if turn.status = .rolledBack then [rollbackSignal display session turn]
  else
    (turn.startedAt.map (startedSignal display turn)).toList ++
      (turn.completedAt.bind fun time ↦
        (endOf turn.status).map (endedSignal display turn time)).toList

/-- The names of the tools which ask the user. Follows `attention.rs:538–541`. -/
def asksUser (name : String) : Bool :=
  name == "request_user_input" || name == "functions.request_user_input" ||
    name == "AskUserQuestion"

/-- What the outcome of a tool call says. Follows `attention.rs:534–546`. -/
def outcomeOf (tool : ToolObservation) : Option (EventKind × AttentionState) :=
  match tool.outcome with
  | .failure => some (.toolFailed, .error)
  | .success => some (.toolCompleted, .working)
  | .pending => if asksUser tool.name then some (.inputRequested, .waiting) else none
  | .unknown => none

/-- When a tool call ended, as far as its duration is recorded. Follows `attention.rs:549–555`. -/
def endTime (tool : ToolObservation) : DateTime :=
  (tool.durationMs.bind fun duration ↦
    if duration < 2 ^ 63 then
      (Duration.milliseconds? duration).bind tool.timestamp.add?
    else none).getD tool.timestamp

/-- The signal of a tool call. Follows `attention.rs:533–564`. -/
def toolSignal (tool : ToolObservation) : Option Signal :=
  (outcomeOf tool).map fun (category, state) ↦
    let time := endTime tool
    { subject := .call tool.callId
      id := "tool:" ++ tool.callId ++ ":" ++ category.debug ++ ":" ++ display time
      time
      category
      state
      source := "retained tool observation"
      toolKind := some tool.kind }

/-- The order of signals by time and category. -/
def Signal.le (a b : Signal) : Bool :=
  a.time < b.time || (a.time == b.time && a.category.rank ≤ b.category.rank)

/-- `signals`, `attention.rs:493–568`. -/
def signals (session : Session) : List Signal :=
  ((session.turns.reverse.take 50).flatMap (turnSignals display session) ++
    (session.toolObservations.reverse.take 200).filterMap (toolSignal display)).mergeSort Signal.le

/-- Signals are compared by time, then by category. -/
theorem Signal.le_iff {a b : Signal} : a.le b = true ↔
    a.time < b.time ∨ a.time = b.time ∧ a.category.rank ≤ b.category.rank := by
  simp only [Signal.le, Bool.or_eq_true, decide_eq_true_eq, Bool.and_eq_true, beq_iff_eq]

theorem Signal.le_trans (a b c : Signal) (hab : a.le b = true) (hbc : b.le c = true) :
    a.le c = true := by
  rw [Signal.le_iff] at *
  rcases hab with hab | ⟨hab, hrank⟩
  · rcases hbc with hbc | ⟨hbc, -⟩
    · exact .inl (hab.trans hbc)
    · exact .inl (hbc ▸ hab)
  · rcases hbc with hbc | ⟨hbc, hrank'⟩
    · exact .inl (hab ▸ hbc)
    · exact .inr ⟨hab.trans hbc, hrank.trans hrank'⟩

theorem Signal.le_total (a b : Signal) : (a.le b || b.le a) = true := by
  rw [Bool.or_eq_true, Signal.le_iff, Signal.le_iff]
  rcases lt_trichotomy a.time b.time with h | h | h
  · exact .inl (.inl h)
  · rcases Nat.le_total a.category.rank b.category.rank with hrank | hrank
    · exact .inl (.inr ⟨h, hrank⟩)
    · exact .inr (.inr ⟨h.symm, hrank⟩)
  · exact .inr (.inl h)

/-- The signals come in the order of their times. -/
theorem signals_pairwise (session : Session) :
    (signals display session).Pairwise (·.time ≤ ·.time) := by
  refine (List.pairwise_mergeSort Signal.le_trans Signal.le_total _).imp ?_
  intro a b h
  obtain h | h := Signal.le_iff.mp h
  · exact h.le
  · exact h.1.le

end Signals

end AgentOdometer.Attention
