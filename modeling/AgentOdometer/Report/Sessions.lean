import AgentOdometer.Report.Projects
import Mathlib.Data.List.Sort

/-!
# The session report

`session_report` (`query.rs:1304–1420`): the usage of a window by session, heaviest first.
-/

namespace AgentOdometer.Report

open Std (ExtTreeMap ExtTreeSet)
open Ledger Pricing

/-- `SessionUsage`, `query.rs:1302–1314`. -/
structure SessionUsage where
  sessionKey : String
  lifecycle : SessionLifecycle
  sourceAvailability : SourceAvailability
  harness : String
  tokens : TokenTotals
  cost : Option Rat
  currency : String
  unpricedModels : List String
deriving Repr, DecidableEq

/-- `SessionReport`, `query.rs:1317–1332`. -/
structure SessionReport where
  schemaVersion : Nat
  window : RangeWindow
  sessions : List SessionUsage
  truncatedTo : Option Nat
  coverageComplete : Bool

/-- What `session_lifecycles` returns for each session. -/
abbrev Lifecycles := ExtTreeMap String (SessionLifecycle × SourceAvailability)

variable (rates : RateCard Rat) (harnessFor : String → String) (now : DateTime)
  (lifecycles : Lifecycles) (window : RangeWindow) (totals : ExtTreeMap String RangeTotals)

/-- The tokens and buckets a session is listed with, if it is. Follows `query.rs:1361–1371`. -/
def listedRange (key : String) : Option (TokenTotals × List TierBucket) :=
  match totals[key]? with
  | some range =>
      if (window.1.isSome || window.2.isSome) && !hasUsage range then none
      else some (range.tokens, range.buckets)
  | none => if window.1.isNone && window.2.isNone then some (0, []) else none

/-- The row of a session. Follows `query.rs:1372–1396`. -/
def sessionRow (key : String) : Except String (Option SessionUsage) :=
  match listedRange window totals key with
  | none => .ok none
  | some (tokens, buckets) =>
      let priced := reportPriceBuckets rates (harnessFor key) buckets now
      match lifecycles[key]? with
      | none => .error ("missing durable lifecycle for " ++ key)
      | some (lifecycle, sourceAvailability) =>
          .ok (some
            { sessionKey := key, lifecycle, sourceAvailability, harness := harnessFor key, tokens
              cost := priced.1, currency := harnessCurrency rates (harnessFor key)
              unpricedModels := priced.2 })

/-- The loop over the keys. -/
def addSessionRow (sessions : List SessionUsage) (key : String) :
    Except String (List SessionUsage) :=
  (sessionRow rates harnessFor now lifecycles window totals key).map fun usage ↦
    sessions ++ usage.toList

/-- More tokens first, then the smaller key. Follows `query.rs:1399–1406`. -/
def heavier (a b : SessionUsage) : Bool :=
  decide (b.tokens.totalTokens < a.tokens.totalTokens) ||
    a.tokens.totalTokens == b.tokens.totalTokens && decide (a.sessionKey ≤ b.sessionKey)

variable (store : ReportStore) (coverageComplete : Bool) (control : QueryControl)

/-- `session_report`, `query.rs:1340–1420`. -/
def sessionReport (limit : Option Nat) : Except String SessionReport :=
  match rangeTotals control store.tables store.sessionKeys window with
  | .error error => .error error.message
  | .ok totals =>
      (store.sessionKeys.foldlM
        (addSessionRow rates harnessFor now lifecycles window totals) []).map fun rows ↦
          let sessions := rows.insertionSort fun a b ↦ heavier a b = true
          let truncatedTo := limit.filter (· < sessions.length)
          { schemaVersion := 1
            window
            sessions := (truncatedTo.map sessions.take).getD sessions
            truncatedTo
            coverageComplete }

/-! ### What the rows add up to -/

variable {rates harnessFor now lifecycles window totals store coverageComplete control}

theorem foldlM_addSessionRow {μ : Type} [AddCommMonoid μ] (weight : SessionUsage → μ)
    (part : String → μ) {keys : List String} {start rows : List SessionUsage}
    (hpart : ∀ key ∈ keys, ∀ usage,
      sessionRow rates harnessFor now lifecycles window totals key = .ok usage →
        (usage.map weight).getD 0 = part key)
    (h : keys.foldlM (addSessionRow rates harnessFor now lifecycles window totals) start =
      .ok rows) : (rows.map weight).sum = (start.map weight).sum + (keys.map part).sum := by
  induction keys generalizing start with
  | nil =>
    obtain rfl := Except.ok.inj h
    exact (add_zero _).symm
  | cons key keys ih =>
    rw [List.forall_mem_cons] at hpart
    rw [List.foldlM_cons] at h
    cases husage : sessionRow rates harnessFor now lifecycles window totals key with
    | error e =>
      rw [addSessionRow, husage] at h
      cases h
    | ok usage =>
      rw [addSessionRow, husage] at h
      rw [ih hpart.2 h, List.map_cons, List.sum_cons, ← hpart.1 usage husage, List.map_append,
        List.sum_append, add_assoc]
      cases usage with
      | none => simp
      | some usage => simp

/-- An unlimited report lists the rows of all keys. -/
theorem sum_sessions_sessionReport {μ : Type} [AddCommMonoid μ] (weight : SessionUsage → μ)
    (part : String → μ)
    {report : SessionReport}
    (h : sessionReport rates harnessFor now lifecycles window store coverageComplete control none =
      .ok report)
    (hpart : ∀ totals, rangeTotals control store.tables store.sessionKeys window = .ok totals →
      ∀ key ∈ store.sessionKeys, ∀ usage,
        sessionRow rates harnessFor now lifecycles window totals key = .ok usage →
          (usage.map weight).getD 0 = part key) :
    (report.sessions.map weight).sum = (store.sessionKeys.map part).sum := by
  unfold sessionReport at h
  cases htotals : rangeTotals control store.tables store.sessionKeys window with
  | error e =>
    rw [htotals] at h
    cases h
  | ok totals =>
    rw [htotals] at h
    simp only at h
    cases hrows : store.sessionKeys.foldlM
        (addSessionRow rates harnessFor now lifecycles window totals) [] with
    | error e =>
      rw [hrows] at h
      cases h
    | ok rows =>
      rw [hrows] at h
      obtain rfl := Except.ok.inj h
      have hsum := foldlM_addSessionRow weight part (hpart totals htotals) hrows
      rw [List.map_nil, List.sum_nil, zero_add] at hsum
      rw [← hsum]
      exact ((List.perm_insertionSort _ rows).map weight).sum_eq

end AgentOdometer.Report
