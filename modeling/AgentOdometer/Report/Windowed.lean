import AgentOdometer.Ledger.RangeQuery
import AgentOdometer.Pricing.Agreement
import AgentOdometer.Projects.Overrides
import AgentOdometer.Report.PricingCoverage

/-!
# The range report

`range_report` (`query.rs:262–474`) over the range totals of one window, and what the other reports
of a window share with it. The checks of the ledger before the query only refuse.
-/

namespace AgentOdometer.Report

open Std (ExtTreeMap ExtTreeSet)
open GroupBy Ledger Pricing

/-! ### The ledger -/

/-- `SessionProjectRow`, `history_store.rs:226–233`. -/
structure SessionProjectRow where
  sessionKey : String
  projectKey : Option String
  label : Option String
  provenance : Option String
deriving Repr, DecidableEq

/-- What the reports read of the ledger: the rows of `durable_sessions`, its keys in the order of
the other query, the tables of each session and the two tables of overrides. -/
structure ReportStore where
  rows : List SessionProjectRow
  sessionKeys : List String
  tables : String → SessionTables
  overrides : Projects.ProjectOverrides
  sessionOverrides : ExtTreeMap String String
  nodup : (rows.map SessionProjectRow.sessionKey).Nodup
  keys_perm : sessionKeys.Perm (rows.map SessionProjectRow.sessionKey)

/-! ### Totals of a window -/

/-- The totals of one session in one window. -/
def sessionRange (tables : SessionTables) (window : RangeWindow) : RangeTotals :=
  let bounds := windowMillis window
  let plan := planWindow bounds.1 bounds.2
  computeRangeTotals bounds.1 bounds.2 plan (readRows tables [bounds] [plan])

/-- `range_totals_multi` of one window, of which the first totals are taken. Follows
`query.rs:391–394`. -/
def rangeTotals (control : QueryControl) (tables : String → SessionTables)
    (sessionKeys : List String) (window : RangeWindow) :
    Except QueryError (ExtTreeMap String RangeTotals) :=
  (rangeTotalsMultiOn control tables sessionKeys [window]).map fun perWindow ↦
    perWindow.head?.getD ∅

/-- The guard which every report of a window puts on a session. Follows `query.rs:409–411`. -/
def hasUsage (range : RangeTotals) : Bool :=
  !(range.tokens.totalTokens == 0 && range.buckets.isEmpty)

/-- The totals of a session which a report counts. -/
def countedRange (totals : ExtTreeMap String RangeTotals) (sessionKey : String) :
    Option RangeTotals :=
  totals[sessionKey]?.filter hasUsage

variable {control : QueryControl} {tables : String → SessionTables} {window : RangeWindow}

/-- The totals after one more session. -/
private def insertRange (tables : String → SessionTables) (window : RangeWindow) (key : String)
    (totals : ExtTreeMap String RangeTotals) : ExtTreeMap String RangeTotals :=
  if rangeHasData (sessionRange (tables key) window) then
    totals.insert key (sessionRange (tables key) window)
  else totals

private theorem querySession_eq_ok {key : String} {consumed : Nat}
    {start : ExtTreeMap String RangeTotals} {acc : Nat × List (ExtTreeMap String RangeTotals)}
    (h : querySession control tables [window] (consumed, [start]) key = .ok acc) :
    acc.2 = [insertRange tables window key start] := by
  unfold querySession at h
  dsimp only at h
  split at h
  · contradiction
  · obtain rfl := Except.ok.inj h
    rfl

private theorem getElem?_foldlM_querySession {sessionKeys : List String} {consumed : Nat}
    {start : ExtTreeMap String RangeTotals} {acc : Nat × List (ExtTreeMap String RangeTotals)}
    (h : sessionKeys.foldlM (querySession control tables [window]) (consumed, [start]) = .ok acc) :
    ∃ totals, acc.2 = [totals] ∧ ∀ key, totals[key]? =
      if key ∈ sessionKeys ∧ rangeHasData (sessionRange (tables key) window) = true then
        some (sessionRange (tables key) window)
      else start[key]? := by
  induction sessionKeys generalizing consumed start with
  | nil =>
    obtain rfl := Except.ok.inj h
    exact ⟨start, rfl, fun key ↦ by simp⟩
  | cons first rest ih =>
    rw [List.foldlM_cons] at h
    cases hfirst : querySession control tables [window] (consumed, [start]) first with
    | error e =>
      rw [hfirst] at h
      contradiction
    | ok next =>
      obtain ⟨consumed', maps⟩ := next
      have hmaps : maps = [insertRange tables window first start] := querySession_eq_ok hfirst
      rw [hfirst, hmaps] at h
      obtain ⟨totals, hacc, htotals⟩ := ih h
      refine ⟨totals, hacc, fun key ↦ ?_⟩
      rw [htotals]
      by_cases hrest : key ∈ rest ∧ rangeHasData (sessionRange (tables key) window) = true
      · rw [if_pos hrest, if_pos ⟨List.mem_cons_of_mem _ hrest.1, hrest.2⟩]
      · rw [if_neg hrest, insertRange]
        by_cases hdata : rangeHasData (sessionRange (tables first) window) = true
        · rw [if_pos hdata, ExtTreeMap.getElem?_insert]
          by_cases hkey : first = key
          · subst hkey
            simp [hdata]
          · have hne : ¬ key = first := fun h ↦ hkey h.symm
            simp only [Std.compare_eq_iff_eq, hkey, if_false, List.mem_cons, hne, false_or]
            rw [if_neg hrest]
        · rw [if_neg hdata]
          by_cases hkey : key = first
          · subst hkey
            rw [if_neg fun h ↦ hdata h.2]
          · simp only [List.mem_cons, hkey, false_or]
            rw [if_neg hrest]

/-- The totals list the sessions which have data in the window. -/
theorem getElem?_rangeTotals {sessionKeys : List String} {totals : ExtTreeMap String RangeTotals}
    (h : rangeTotals control tables sessionKeys window = .ok totals) (key : String) :
    totals[key]? =
      if key ∈ sessionKeys ∧ rangeHasData (sessionRange (tables key) window) = true then
        some (sessionRange (tables key) window)
      else none := by
  unfold rangeTotals rangeTotalsMultiOn at h
  split at h
  · contradiction
  split at h
  · contradiction
  split at h
  · contradiction
  split at h
  · contradiction
  · cases hfold : sessionKeys.foldlM (querySession control tables [window])
        (control.rows, [window].map fun _ ↦ ∅) with
    | error e =>
      rw [hfold] at h
      contradiction
    | ok acc =>
      rw [hfold] at h
      obtain ⟨totals', hacc, htotals⟩ := getElem?_foldlM_querySession hfold
      obtain rfl := Except.ok.inj h
      rw [hacc]
      exact (htotals key).trans (by simp)

/-- The totals of a session which counts in a window. -/
def usageIn (tables : String → SessionTables) (window : RangeWindow) (sessionKey : String) :
    Option RangeTotals :=
  (some (sessionRange (tables sessionKey) window)).filter fun range ↦
    rangeHasData range && hasUsage range

theorem countedRange_rangeTotals {sessionKeys : List String}
    {totals : ExtTreeMap String RangeTotals}
    (h : rangeTotals control tables sessionKeys window = .ok totals) {key : String}
    (hkey : key ∈ sessionKeys) : countedRange totals key = usageIn tables window key := by
  rw [countedRange, getElem?_rangeTotals h, usageIn]
  by_cases hdata : rangeHasData (sessionRange (tables key) window) = true
  · rw [if_pos ⟨hkey, hdata⟩]
    simp [Option.filter_some, hdata]
  · rw [if_neg fun h ↦ hdata h.2]
    simp [Option.filter_some, hdata]

/-- A session with tokens in the window counts. -/
theorem isSome_usageIn {sessionKey : String}
    (h : (sessionRange (tables sessionKey) window).tokens.totalTokens ≠ 0) :
    usageIn tables window sessionKey = some (sessionRange (tables sessionKey) window) := by
  simp [usageIn, rangeHasData, hasUsage, Option.filter_some, h]

/-! ### Prices -/

/-- `report_price_tokens`, `query.rs:330–350`. -/
def reportPriceTokens (rates : RateCard Rat) (harness : String) (bucket : TierBucket)
    (now : DateTime) : PricedAmount :=
  if (registeredProvider harness).isSome then
    rates.priceTokens harness bucket.model bucket.serviceTier bucket.tokens .plan now
  else ⟨none, .unavailable, bucket.model⟩

/-- `report_price_buckets`, `query.rs:352–371`. -/
def reportPriceBuckets (rates : RateCard Rat) (harness : String) (buckets : List TierBucket)
    (now : DateTime) : Option Rat × List String :=
  if (registeredProvider harness).isSome then rates.priceBuckets harness buckets .plan now
  else
    let missing : ExtTreeSet String :=
      buckets.foldl (fun missing bucket ↦ missing.insert bucket.model) ∅
    (none, missing.toList)

/-- The currency of a harness. Follows `query.rs:435–439`. -/
def harnessCurrency (rates : RateCard Rat) (harness : String) : String :=
  rates.currencies[harness]?.getD rates.currency

/-- `convert_totals`, `query.rs:1537–1542`. -/
def convertTotals (rates : RateCard Rat) (totals : ExtTreeMap String Rat) : List ConvertedTotal :=
  totals.toList.filterMap fun entry ↦ convertTotal rates entry.1 entry.2

/-! ### The report -/

/-- `ModelUsage`, `query.rs:273–285`. -/
structure ModelUsage where
  model : String
  harness : String
  tokens : TokenTotals
  cost : Option Rat
  currency : String
  basis : PricingBasis
deriving Repr, DecidableEq

/-- `RangeReport`, `query.rs:292–321`. -/
structure RangeReport where
  costSurface : String
  schemaVersion : Nat
  window : RangeWindow
  sessions : Nat
  sessionsWithoutUsage : Nat
  tokens : TokenTotals
  byModel : List ModelUsage
  costByCurrency : ExtTreeMap String Rat
  converted : List ConvertedTotal
  unpricedModels : List String

/-- A row of `by_model`. Follows `query.rs:400–401`. -/
structure ModelSum where
  tokens : TokenTotals
  amount : Option Rat
  basis : PricingBasis
deriving Repr, DecidableEq

/-- One bucket of a session. Follows `query.rs:415–428`. -/
def addModelBucket (rates : RateCard Rat) (now : DateTime) (harness : String)
    (byModel : ExtTreeMap (String × String) ModelSum) (bucket : TierBucket) :
    ExtTreeMap (String × String) ModelSum :=
  let priced := reportPriceTokens rates harness bucket now
  updateEntry byModel (harness, bucket.model) ⟨0, some 0, priced.basis⟩ fun entry ↦
    { tokens := entry.tokens + bucket.tokens
      amount := entry.amount.bind fun total ↦ priced.amount.map fun amount ↦ total + amount
      basis := leastConfidentBasis entry.basis priced.basis }

/-- What the loop over the sessions keeps. Follows `query.rs:396–402`. -/
structure RangeSums where
  tokens : TokenTotals
  byModel : ExtTreeMap (String × String) ModelSum
  sessionsWithUsage : Nat

/-- One session. Follows `query.rs:404–430`. -/
def addSessionUsage (rates : RateCard Rat) (harnessFor : String → String) (now : DateTime)
    (totals : ExtTreeMap String RangeTotals) (sums : RangeSums) (key : String) : RangeSums :=
  match totals[key]? with
  | none => sums
  | some range =>
      if !hasUsage range then sums
      else
        { tokens := sums.tokens + range.tokens
          byModel := range.buckets.foldl (addModelBucket rates now (harnessFor key)) sums.byModel
          sessionsWithUsage := sums.sessionsWithUsage + 1 }

/-- A row of the report. Follows `query.rs:435–459`. -/
def modelUsage (rates : RateCard Rat) (row : (String × String) × ModelSum) : ModelUsage where
  model := row.1.2
  harness := row.1.1
  tokens := row.2.tokens
  cost := row.2.amount
  currency := harnessCurrency rates row.1.1
  basis := row.2.basis

/-- `range_report`, `query.rs:383–474`. -/
def rangeReport (store : ReportStore) (rates : RateCard Rat) (harnessFor : String → String)
    (control : QueryControl) (window : RangeWindow) (now : DateTime) :
    Except QueryError RangeReport :=
  (rangeTotals control store.tables store.sessionKeys window).map fun totals ↦
    let sums := store.sessionKeys.foldl (addSessionUsage rates harnessFor now totals) ⟨0, ∅, 0⟩
    let models := sums.byModel.toList.map (modelUsage rates)
    let costByCurrency := models.foldl (fun costs usage ↦
      match usage.cost with
      | none => costs
      | some amount => updateEntry costs usage.currency 0 fun cost ↦ cost + amount) ∅
    let unpriced : ExtTreeSet String := models.foldl (fun unpriced usage ↦
      if usage.cost.isNone then unpriced.insert usage.model else unpriced) ∅
    { costSurface := "legacy_reference"
      schemaVersion := 1
      window
      sessions := sums.sessionsWithUsage
      sessionsWithoutUsage := store.sessionKeys.length - sums.sessionsWithUsage
      tokens := sums.tokens
      byModel := models
      costByCurrency
      converted := convertTotals rates costByCurrency
      unpricedModels := unpriced.toList }

end AgentOdometer.Report
