import AgentOdometer.Base.Time
import AgentOdometer.Lib.Along
import AgentOdometer.Lib.OrderedMap

/-!
# The lifecycle of workflow findings

The finding records of `workflow_lifecycle.rs:91–186`, and the two callers of
`history_workflow.rs:7–151` which read a record into a report and write the report's measurement.
-/

namespace AgentOdometer.Workflow

open Std (ExtTreeMap)

/-! ### Records -/

/-- `FindingState`, `workflow.rs:682–689`. -/
inductive FindingState where
  | new
  | persistent
  | improving
  | resolved
  | suppressed
  | notApplicable
deriving Repr, DecidableEq

/-- A row of `workflow_finding_lifecycle`, without its key. Follows
`workflow_lifecycle.rs:10–17`. -/
structure LifecycleRow where
  firstObservedMs : Int
  lastObservedMs : Int
  analyzerVersion : Nat
  comparisonVersion : Nat
  state : FindingState
  suppressed : Bool
  revision : Int
deriving Repr, DecidableEq

/-- Provider, project and rule. -/
abbrev FindingKey :=
  String × String × String

/-- The table. -/
abbrev LifecycleTable :=
  ExtTreeMap FindingKey LifecycleRow

/-- `FindingLifecycle`, `workflow_lifecycle.rs:23–31`. -/
structure FindingLifecycle where
  firstObservedAt : DateTime
  lastObservedAt : DateTime
  state : FindingState
  suppressed : Bool
  revision : Int
  analyzerChanged : Bool
deriving DecidableEq

/-- Whether a record was written with other versions. -/
def LifecycleRow.versionsDiffer (row : LifecycleRow) (analyzer comparison : Nat) : Bool :=
  row.analyzerVersion ≠ analyzer || row.comparisonVersion ≠ comparison

/-- The record as the interface shows it, unless an instant is out of range. -/
def LifecycleRow.toLifecycle (row : LifecycleRow) (analyzerChanged : Bool) :
    Except String FindingLifecycle :=
  match DateTime.ofMillis? row.firstObservedMs, DateTime.ofMillis? row.lastObservedMs with
  | some firstObservedAt, some lastObservedAt =>
      .ok { firstObservedAt, lastObservedAt, state := row.state, suppressed := row.suppressed
            revision := row.revision, analyzerChanged }
  | _, _ => .error "Invalid observation time"

/-- `read`, `workflow_lifecycle.rs:63–89`. -/
def read (table : LifecycleTable) (key : FindingKey) (analyzer comparison : Nat) :
    Except String (Option FindingLifecycle) :=
  match table[key]? with
  | none => .ok none
  | some row => (row.toLifecycle (row.versionsDiffer analyzer comparison)).map some

/-! ### Operations -/

/-- `Observation`, `workflow_lifecycle.rs:42–50`. -/
structure Observation where
  provider : String
  project : Option String
  rule : String
  measuredAtMs : Int
  analyzerVersion : Nat
  comparisonVersion : Nat
  state : FindingState
deriving Repr, DecidableEq

/-- The record which an observation is about. -/
def Observation.key (observation : Observation) : FindingKey :=
  (observation.provider, observation.project.getD "", observation.rule)

/-- The largest revision, 2^53 - 1. -/
def maxRevision : Int :=
  9007199254740991

/-- The record after an observation. Follows `workflow_lifecycle.rs:102–130`; on a conflict the
statement keeps the columns `first_observed_ms` and `suppressed`. -/
def observedRow (previous : Option LifecycleRow) (observation : Observation) :
    Except String LifecycleRow :=
  if previous.any fun previous ↦ decide (observation.measuredAtMs < previous.lastObservedMs) then
    .error "A newer workflow measurement already exists; refresh before recording."
  else
    let changed := previous.any fun previous ↦
      previous.versionsDiffer observation.analyzerVersion observation.comparisonVersion
    let suppressed := previous.any (·.suppressed)
    let revision := (previous.map fun previous ↦ previous.revision + 1).getD 1
    if 0 < revision ∧ revision ≤ maxRevision then
      .ok
        { firstObservedMs := (previous.map (·.firstObservedMs)).getD observation.measuredAtMs
          lastObservedMs := observation.measuredAtMs
          analyzerVersion := observation.analyzerVersion
          comparisonVersion := observation.comparisonVersion
          state :=
            if suppressed then .suppressed
            else if changed then .notApplicable
            else observation.state
          suppressed
          revision }
    else .error "Finding revision exhausted"

/-- `observe`, `workflow_lifecycle.rs:91–139`: the answer, and the table; an instant which is out of
range is noticed after the record was written. -/
def observe (table : LifecycleTable) (observation : Observation) :
    Except String FindingLifecycle × LifecycleTable :=
  match observedRow table[observation.key]? observation with
  | .error e => (.error e, table)
  | .ok row =>
      (row.toLifecycle (table[observation.key]?.any fun previous ↦
        previous.versionsDiffer observation.analyzerVersion observation.comparisonVersion),
        table.insert observation.key row)

/-- `FindingSuppressionEdit`, `workflow_lifecycle.rs:33–40`. -/
structure FindingSuppressionEdit where
  provider : String
  projectId : Option String
  ruleId : String
  expectedRevision : Int
  suppressed : Bool
deriving Repr, DecidableEq

/-- The record which an edit is about. -/
def FindingSuppressionEdit.key (edit : FindingSuppressionEdit) : FindingKey :=
  (edit.provider, edit.projectId.getD "", edit.ruleId)

/-- The scope check of `suppress`. Follows `workflow_lifecycle.rs:142–154`. -/
def FindingSuppressionEdit.invalidScope (edit : FindingSuppressionEdit) : Bool :=
  edit.provider.isEmpty || edit.expectedRevision < 1 || maxRevision ≤ edit.expectedRevision ||
    64 < edit.provider.utf8ByteSize || edit.ruleId.isEmpty || 128 < edit.ruleId.utf8ByteSize ||
    edit.projectId.any fun value ↦ value.isEmpty || 1024 < value.utf8ByteSize

/-- `suppress`, `workflow_lifecycle.rs:141–171`. -/
def suppress (table : LifecycleTable) (edit : FindingSuppressionEdit) :
    Except String LifecycleTable :=
  if edit.invalidScope then .error "Invalid finding scope."
  else
    match table[edit.key]? with
    | none => .error "Finding changed or is unavailable; refresh before editing suppression."
    | some row =>
        if row.revision = edit.expectedRevision then
          .ok (table.insert edit.key
            { row with
              suppressed := edit.suppressed
              state := if edit.suppressed then .suppressed else .notApplicable
              revision := row.revision + 1 })
        else .error "Finding changed or is unavailable; refresh before editing suppression."

/-- The record after an analyzer upgrade. -/
def invalidatedRow (analyzer comparison : Nat) (row : LifecycleRow) : LifecycleRow :=
  if row.versionsDiffer analyzer comparison ∧ row.state ≠ .notApplicable ∧
      row.state ≠ .suppressed then
    { row with
      state := if row.suppressed then .suppressed else .notApplicable
      revision := row.revision + 1 }
  else row

/-- `invalidate_older_analyzers`, `workflow_lifecycle.rs:174–186`. -/
def invalidateOlderAnalyzers (table : LifecycleTable) (analyzer comparison : Nat) :
    LifecycleTable :=
  table.map fun _ row ↦ invalidatedRow analyzer comparison row

/-! ### Reports -/

/-- What a report holds of a finding. Follows `workflow.rs:133–144`. -/
structure MeasuredFinding where
  provider : String
  projectId : Option String
  ruleId : String
  state : FindingState
deriving Repr, DecidableEq

/-- What a report holds for its measurement. Follows `workflow.rs:147–159`. -/
structure WorkflowReport where
  version : Nat
  generatedAtMs : Int
  analyzerVersion : Nat
  findings : List MeasuredFinding
deriving Repr, DecidableEq

/-- The record of a finding. -/
def MeasuredFinding.key (finding : MeasuredFinding) : FindingKey :=
  (finding.provider, finding.projectId.getD "", finding.ruleId)

/-- `load_workflow_lifecycle`, `history_workflow.rs:7–40`: the state of a finding is replaced by
what its record says. -/
def loadWorkflowLifecycle (table : LifecycleTable) (report : WorkflowReport) :
    Except String WorkflowReport :=
  (report.findings.mapM fun finding ↦
    (read table finding.key report.analyzerVersion report.version).map fun lifecycle ↦
      match lifecycle with
      | none => finding
      | some lifecycle =>
          if lifecycle.suppressed then { finding with state := .suppressed }
          else if lifecycle.analyzerChanged then { finding with state := .notApplicable }
          else finding).map fun findings ↦ { report with findings }

/-- The observation of a finding. Follows `history_workflow.rs:121–132`. -/
def WorkflowReport.observation (report : WorkflowReport) (finding : MeasuredFinding) :
    Observation where
  provider := finding.provider
  project := finding.projectId
  rule := finding.ruleId
  measuredAtMs := report.generatedAtMs
  analyzerVersion := report.analyzerVersion
  comparisonVersion := report.version
  state := finding.state

/-- Observe the findings one by one, stopping at the first error. -/
def observeAll (table : LifecycleTable) : List Observation → Except String LifecycleTable
  | [] => .ok table
  | observation :: rest =>
      match observe table observation with
      | (.error e, _) => .error e
      | (.ok _, table) => observeAll table rest

/-- `record_workflow_measurement`, `history_workflow.rs:90–151`: one transaction, which an error
rolls back. -/
def recordWorkflowMeasurement (table : LifecycleTable) (report : WorkflowReport) :
    Except String LifecycleTable :=
  if 1000 < report.findings.length then
    .error "Too many findings to record in one measurement."
  else if 1000 < table.size + (report.findings.filter fun finding ↦
      !table.contains finding.key).length then
    .error "Workflow lifecycle history is full; no measurement was recorded."
  else
    observeAll (invalidateOlderAnalyzers table report.analyzerVersion report.version)
      (report.findings.map report.observation)

end AgentOdometer.Workflow
