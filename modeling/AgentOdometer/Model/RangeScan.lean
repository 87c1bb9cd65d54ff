import AgentOdometer.Model.RangeTotals

/-!
# Range totals as a plain filter

What `Session::range_totals_multi` (`model.rs:985–1148`) is for: every event list filtered by
the window, and what is left added up. Slices of sorted lists do not show in the result unless a
leap second stands before the second after it.
-/

namespace AgentOdometer

open Std (ExtTreeMap)
open GroupBy Telemetry

variable {τ : Type}

namespace RangeTotals

section Windows

variable [Timestamp τ]

/-- The instant lies in the window, in whole milliseconds. -/
def Within (window : RangeWindow τ) (t : τ) : Prop :=
  (∀ start ∈ window.1, Timestamp.timestampMillis start ≤ Timestamp.timestampMillis t) ∧
    ∀ stop ∈ window.2, Timestamp.timestampMillis t ≤ Timestamp.timestampMillis stop

instance (window : RangeWindow τ) (t : τ) : Decidable (Within window t) :=
  inferInstanceAs (Decidable (_ ∧ _))

/-- A finding lies in the window; one without an instant lies in the unbounded window only. -/
def FindingWithin (window : RangeWindow τ) (finding : OptimizationFinding τ) : Prop :=
  (∀ t ∈ finding.timestamp, Within window t) ∧
    (finding.timestamp = none → window = (none, none))

instance (window : RangeWindow τ) (finding : OptimizationFinding τ) :
    Decidable (FindingWithin window finding) :=
  inferInstanceAs (Decidable (_ ∧ (_ → _)))

theorem inWindow_eq (window : RangeWindow τ) (t : τ) :
    inWindow window t = decide (Within window t) := by
  obtain ⟨start, stop⟩ := window
  unfold inWindow Within
  cases start <;> cases stop <;> simp

theorem findingInWindow_eq (window : RangeWindow τ) (finding : OptimizationFinding τ) :
    findingInWindow window finding = decide (FindingWithin window finding) := by
  obtain ⟨start, stop⟩ := window
  rw [Bool.eq_iff_iff, decide_eq_true_iff]
  unfold findingInWindow FindingWithin
  cases finding.timestamp with
  | some t => simp [inWindow_eq]
  | none => cases start <;> cases stop <;> simp

end Windows

/-- Sums over events which have been selected already. -/
def sums (events : List (TokenHistoryPoint τ)) (observations : List (ToolObservation τ))
    (findings : List (OptimizationFinding τ)) : RangeTotals where
  tokens := (events.map (·.delta)).sum
  buckets := (groupSum (modelEntries events)).toList.map ofEntry
  toolMetrics := metrics observations
  toolMetricsByModel := (metricsWithModels observations).2
  optimizationFindingsCount := findings.length
  optimizationSummary := .fromFindings findings
  toolDimensions := insertContextSources (nestSum ∅ (observations.flatMap dimensionEntries))
    (events.map (·.delta)).sum

/-- The accumulators of one window end at the sums of its events. -/
theorem ofEvents_eq_sums (events : List (TokenHistoryPoint τ))
    (observations : List (ToolObservation τ)) (findings : List (OptimizationFinding τ)) :
    ofEvents events observations findings = sums events observations findings := by
  unfold ofEvents sums
  dsimp only
  rw [tokens_eq, buckets_eq, dimensionTotals_eq, metricsWithModels_fst]

end RangeTotals

namespace Session

variable [Timestamp τ] {session : Session τ}

/-- `Session::range_totals`, `model.rs:985–994`. -/
def rangeTotals (session : Session τ) (start stop : Option τ) : Option RangeTotals :=
  (session.rangeTotalsMulti [(start, stop)]).getLast?

/-- Every event list filtered by the window, and added up. -/
def filteredTotals (session : Session τ) (window : RangeWindow τ) : RangeTotals :=
  .sums (session.tokensHistory.filter fun event ↦ RangeTotals.Within window event.timestamp)
    (session.toolObservations.filter fun item ↦ RangeTotals.Within window item.timestamp)
    (session.optimizationFindings.filter (RangeTotals.FindingWithin window ·))

/-- In neither of the sliced lists do the milliseconds go back while the instants do not. -/
structure MillisFollow (session : Session τ) : Prop where
  tokens : RangeTotals.MillisFollow TokenHistoryPoint.timestamp session.tokensHistory
  tools : RangeTotals.MillisFollow ToolObservation.timestamp session.toolObservations

theorem millisFollow_iff : session.MillisFollow ↔
    RangeTotals.MillisFollow TokenHistoryPoint.timestamp session.tokensHistory ∧
      RangeTotals.MillisFollow ToolObservation.timestamp session.toolObservations :=
  ⟨fun h ↦ ⟨h.tokens, h.tools⟩, fun h ↦ ⟨h.1, h.2⟩⟩

instance (session : Session τ) : Decidable session.MillisFollow :=
  decidable_of_iff _ millisFollow_iff.symm

omit [Timestamp τ] in
theorem millisFollow_dateTime (session : Session) : session.MillisFollow :=
  ⟨RangeTotals.millisFollow_dateTime _ _, RangeTotals.millisFollow_dateTime _ _⟩

omit [Timestamp τ] in
/-- The milliseconds follow the instants when none of them lies in a leap second. -/
theorem millisFollow_of_subsecNanos {session : Session LeapDateTime}
    (htokens : ∀ event ∈ session.tokensHistory, event.timestamp.subsecNanos < 1000000000)
    (htools : ∀ item ∈ session.toolObservations, item.timestamp.subsecNanos < 1000000000) :
    session.MillisFollow :=
  ⟨RangeTotals.millisFollow_of_subsecNanos htokens,
    RangeTotals.millisFollow_of_subsecNanos htools⟩

/-- The events counted in every window are those in it exactly when the milliseconds follow the
instants. -/
theorem select_eq_filter_iff_millisFollow (session : Session τ) :
    (∀ window,
      RangeTotals.select TokenHistoryPoint.timestamp window session.tokensHistory =
          session.tokensHistory.filter (fun event ↦ RangeTotals.Within window event.timestamp) ∧
        RangeTotals.select ToolObservation.timestamp window session.toolObservations =
          session.toolObservations.filter fun item ↦ RangeTotals.Within window item.timestamp) ↔
      session.MillisFollow := by
  simp only [forall_and, ← RangeTotals.inWindow_eq, millisFollow_iff,
    ← RangeTotals.select_eq_filter_iff]

/-- One window of a batch is its filter. -/
theorem ofEvents_select (h : session.MillisFollow) (window : RangeWindow τ) :
    RangeTotals.ofEvents
      (RangeTotals.select TokenHistoryPoint.timestamp window session.tokensHistory)
      (RangeTotals.select ToolObservation.timestamp window session.toolObservations)
      (RangeTotals.selectFindings window session.optimizationFindings) =
        session.filteredTotals window := by
  obtain ⟨htokens, htools⟩ := (select_eq_filter_iff_millisFollow session).mpr h window
  unfold filteredTotals RangeTotals.selectFindings
  rw [RangeTotals.ofEvents_eq_sums, htokens, htools]
  congr 1
  exact List.filter_congr fun finding _ ↦ RangeTotals.findingInWindow_eq window finding

theorem rangeTotalsMulti_batch (h : session.MillisFollow) (windows : List (RangeWindow τ)) :
    session.rangeTotalsMulti windows = windows.map session.filteredTotals :=
  List.map_congr_left fun window _ ↦ ofEvents_select h window

/-- A call for one window. -/
theorem rangeTotals_eq (h : session.MillisFollow) (start stop : Option τ) :
    session.rangeTotals start stop = some (session.filteredTotals (start, stop)) := by
  unfold rangeTotals
  rw [rangeTotalsMulti_batch h]
  rfl

/-- The instant `second` seconds after the last second of 2016 began, which a leap second ended. -/
def yearEnd (second : Fin 60) (subsecNanos : Fin 1000000000) : LeapDateTime where
  timestamp := 1483228799 + second
  subsecNanos := subsecNanos
  subsec := by omega
  leap := by omega
  lower := by
    unfold minUtcNanos
    omega
  upper := by
    unfold maxUtcNanos
    omega

/-- The middle of the leap second at the end of 2016. -/
def leapSecond : LeapDateTime :=
  ⟨1483228799, 1500000000, by decide, by decide, by decide, by decide⟩

/-- A session with one request of five input tokens at each of the instants. -/
def requestsAt (instants : List LeapDateTime) : Session LeapDateTime :=
  { Session.blank .codex "session" (yearEnd 0 0) with
    tokensHistory := instants.map fun t ↦ ⟨t, none, none, none, 5, ⟨5, 0, 0, 0, 0, 5⟩⟩ }

end Session

end AgentOdometer
