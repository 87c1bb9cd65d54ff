import AgentOdometer.Ledger.RangeQuery
import AgentOdometer.Report.PricingCoverage

/-!
# The statusline report

`token_totals_by_provider` (`history_store.rs:72–86,552–622`) and `statusline_report`
(`query_reports.rs:689–754`): the usage of a window by provider, with the part of it that no
model can be named for.
-/

namespace AgentOdometer.Report

open Std (ExtTreeMap)
open GroupBy Ledger Pricing

/-- The provider column, `CASE WHEN instr(session_key, ':') > 1 …`. Follows
`history_store.rs:84`. -/
def providerColumn (sessionKey : String) : String :=
  let label := sessionKey.toList.takeWhile (· ≠ ':')
  if 0 < label.length && label.length + 1 < sessionKey.toList.length then String.ofList label
  else "unknown"

/-- A usage row: provider, model and tier columns, and the tokens. -/
abbrev UsageRow :=
  (String × String × String) × TokenTotals

/-- The rows of one session in a plan's hours and edges. Follows `history_store.rs:72–83`. -/
def sessionUsage (plan : WindowPlan) (sessionKey : String) (tables : SessionTables) :
    List UsageRow :=
  let hours := tables.rollups.tokens.toList.filter fun row ↦
    plan.fullBuckets.any fun range ↦ between row.1.1 range
  let edges := (plan.edges.take 2).flatMap fun edge ↦
    tables.facts.tokens.filter fun fact ↦ between fact.timestampMs edge
  (hours.map fun row ↦ ((providerColumn sessionKey, row.1.2.1, row.1.2.2), row.2)) ++
    edges.map fun fact ↦
      ((providerColumn sessionKey, keySentinel fact.model, keySentinel fact.serviceTier),
        fact.delta)

/-- The `usage` table of the query. -/
def usageRows (sessions : List (String × SessionTables)) (plan : WindowPlan) : List UsageRow :=
  sessions.flatMap fun session ↦ sessionUsage plan session.1 session.2

/-- The two fields of `RangeTotals` which the query fills. -/
structure ProviderUsage where
  tokens : TokenTotals
  buckets : List TierBucket
deriving Repr, DecidableEq

/-- One row of the query. Follows `history_store.rs:596–618`. -/
def ProviderUsage.addRow (usage : ProviderUsage) (row : UsageRow) : ProviderUsage :=
  { tokens := usage.tokens + row.2
    buckets :=
      if row.1.2.1 = "" then usage.buckets
      else usage.buckets ++ [⟨row.1.2.1, sentinelToOption row.1.2.2, row.2⟩] }

/-- The usage by provider. -/
def usageByProvider (rows : List UsageRow) : ExtTreeMap String ProviderUsage :=
  groupFold (fun row ↦ some row.1.1) ⟨0, []⟩ ProviderUsage.addRow ∅ (groupSum rows).toList

/-- `token_totals_by_provider`, `history_store.rs:552–622`; the checks of the ledger before the
query only refuse. -/
def tokenTotalsByProvider (sessions : List (String × SessionTables)) (window : RangeWindow) :
    Except String (ExtTreeMap String ProviderUsage) :=
  if (window.1.bind fun start ↦ window.2.map fun stop ↦ decide (stop < start)).getD false then
    .error "query end precedes start"
  else
    let (fromMs, toMs) := windowMillis window
    .ok (usageByProvider (usageRows sessions (planWindow fromMs toMs)))

/-- `StatuslineProvider`, `query_reports.rs:622–632`. -/
structure StatuslineProvider where
  harness : Option ProviderId
  tokens : TokenTotals
  pricing : Option RangePricing
  currency : Option String
  unattributedTokens : TokenTotals
  pricingComplete : Bool
deriving DecidableEq

/-- `StatuslineReport`, `query_reports.rs:634–644`. -/
structure StatuslineReport where
  costSurface : String
  schemaVersion : Nat
  window : DateTime × DateTime
  tokens : TokenTotals
  costByCurrency : ExtTreeMap String Rat
  providers : List StatuslineProvider
  pricingComplete : Bool

/-- The row of one provider. Follows `query_reports.rs:713–735`. -/
def statuslineProvider (rates : RateCard Rat) (now : DateTime) (name : String)
    (usage : ProviderUsage) : StatuslineProvider :=
  let harness := registeredProvider name
  let pricing := harness.map fun id ↦ controlledSurfaces usage.buckets id.value rates now
  let coverage := pricingCoverage usage.tokens usage.buckets pricing
  { harness, tokens := usage.tokens, pricing, currency := harness.map (reportCurrency rates)
    unattributedTokens := coverage.1, pricingComplete := coverage.2 }

/-- `statusline_report` from the start of the caller's day, `query_reports.rs:689–754`. -/
def statuslineReport (sessions : List (String × SessionTables)) (rates : RateCard Rat)
    (dayStart now : DateTime) : Except String StatuslineReport :=
  (tokenTotalsByProvider sessions (some dayStart, some now)).map fun totals ↦
    let providers := totals.toList.map fun entry ↦ statuslineProvider rates now entry.1 entry.2
    { costSurface := "legacy_reference"
      schemaVersion := 1
      window := (dayStart, now)
      tokens := totals.toList.foldl (fun tokens entry ↦ tokens + entry.2.tokens) 0
      costByCurrency := providers.foldl (fun costs row ↦
        match row.pricing, row.currency with
        | some pricing, some currency =>
            updateEntry costs currency 0 fun cost ↦ cost + pricing.plan.total
        | _, _ => costs) ∅
      providers
      pricingComplete := providers.all (·.pricingComplete) }

/-! ### The usage of one provider -/

/-- A usage row as a piece of usage. -/
def pieceOf (row : UsageRow) : UsagePiece :=
  (if row.1.2.1 = "" then none else some (row.1.2.1, sentinelToOption row.1.2.2), row.2)

/-- The usage of one provider. -/
def usageOf (rows : List UsageRow) (name : String) : List UsagePiece :=
  (rows.filter fun row ↦ row.1.1 = name).map pieceOf

variable {rows : List UsageRow} {name : String} {usage start : ProviderUsage}

/-- The rows of a provider, as buckets where they name a model. -/
def namedBuckets (rows : List UsageRow) : List TierBucket :=
  (rows.filter fun row ↦ row.1.2.1 ≠ "").map fun row ↦
    ⟨row.1.2.1, sentinelToOption row.1.2.2, row.2⟩

theorem foldl_addRow : rows.foldl ProviderUsage.addRow start =
    ⟨start.tokens + (rows.map Prod.snd).sum, start.buckets ++ namedBuckets rows⟩ := by
  induction rows generalizing start with
  | nil => simp [namedBuckets]
  | cons row rest ih =>
    rw [List.foldl_cons, ih, List.map_cons, List.sum_cons]
    unfold ProviderUsage.addRow namedBuckets
    by_cases hmodel : row.1.2.1 = ""
    · simp [hmodel, add_assoc]
    · simp [hmodel, add_assoc]

/-- The groups of a provider. -/
def groupsOf (rows : List UsageRow) (name : String) : List UsageRow :=
  (groupSum rows).toList.filter fun row ↦ row.1.1 = name

theorem usageByProvider_eq_some (h : (usageByProvider rows)[name]? = some usage) :
    usage = ⟨((groupsOf rows name).map Prod.snd).sum, namedBuckets (groupsOf rows name)⟩ := by
  unfold usageByProvider at h
  rw [getElem?_groupFold] at h
  split at h
  · rw [← Option.some.inj h]
    simp only [Option.some.injEq, ExtTreeMap.getElem?_empty, Option.getD_none]
    rw [foldl_addRow, zero_add]
    rfl
  · simp at h

/-- Every row has a group. -/
theorem exists_group {row : UsageRow} (hrow : row ∈ rows) :
    ∃ tokens, (row.1, tokens) ∈ (groupSum rows).toList := by
  have hgroup := (isSome_getElem?_groupSum rows row.1).mpr ⟨row, hrow, rfl⟩
  obtain ⟨tokens, htokens⟩ := Option.isSome_iff_exists.mp hgroup
  exact ⟨tokens, ExtTreeMap.mem_toList_iff_getElem?_eq_some.mpr htokens⟩

/-- Every provider of a row has usage. -/
theorem isSome_usageByProvider {row : UsageRow} (hrow : row ∈ rows) :
    (usageByProvider rows)[row.1.1]?.isSome = true := by
  unfold usageByProvider
  rw [getElem?_groupFold]
  obtain ⟨tokens, hgroup⟩ := exists_group hrow
  rw [if_pos ⟨(row.1, tokens), hgroup, rfl⟩, Option.isSome_some]

/-- The tokens which name a model and those which do not are all tokens. -/
theorem attributed_namedBuckets_add :
    attributed (namedBuckets rows) + ((rows.filter fun row ↦ row.1.2.1 = "").map Prod.snd).sum =
      (rows.map Prod.snd).sum := by
  unfold attributed namedBuckets
  induction rows with
  | nil => rfl
  | cons row rest ih =>
    rw [List.map_cons, List.sum_cons, ← ih]
    by_cases hmodel : row.1.2.1 = ""
    · simp [hmodel, add_left_comm]
    · simp [hmodel, add_assoc]

theorem sum_usageOf :
    ((usageOf rows name).map Prod.snd).sum = ((groupsOf rows name).map Prod.snd).sum := by
  have hsum := sum_filter_toList_groupSum (fun key : String × String × String ↦
    decide (key.1 = name)) rows
  unfold usageOf groupsOf
  rw [List.map_map, hsum]
  rfl

theorem unnamed_usageOf : unnamed (usageOf rows name) =
    (((groupsOf rows name).filter fun row ↦ row.1.2.1 = "").map Prod.snd).sum := by
  have hsum := sum_filter_toList_groupSum (fun key : String × String × String ↦
    decide (key.2.1 = "") && decide (key.1 = name)) rows
  unfold unnamed usageOf groupsOf
  rw [List.filter_map, List.map_map, List.filter_filter, List.filter_filter, hsum]
  congr 2
  refine List.filter_congr fun row _ ↦ ?_
  simp only [Function.comp_apply, pieceOf]
  split <;> simp [*]

/-- The usage of a provider counts its rows. -/
theorem counts_usageByProvider (h : (usageByProvider rows)[name]? = some usage) :
    Counts usage.tokens usage.buckets (usageOf rows name) := by
  rw [usageByProvider_eq_some h]
  refine ⟨sum_usageOf.symm, ?_, ?_⟩
  · rw [unnamed_usageOf]
    exact attributed_namedBuckets_add
  · intro piece hpiece key hkey
    obtain ⟨row, hrow, rfl⟩ := List.mem_map.mp hpiece
    obtain ⟨hrow, hname⟩ := List.mem_filter.mp hrow
    simp only [pieceOf] at hkey
    split at hkey
    · simp at hkey
    next hmodel =>
    obtain ⟨tokens, hgroup⟩ := exists_group hrow
    have hmem : (row.1, tokens) ∈ groupsOf rows name := List.mem_filter.mpr ⟨hgroup, hname⟩
    exact ⟨_, List.mem_map_of_mem (List.mem_filter.mpr ⟨hmem, by simpa using hmodel⟩),
      Option.some.inj hkey⟩

/-- The providers hold all tokens. -/
theorem sum_tokens_usageByProvider :
    (usageByProvider rows).toList.foldl (fun tokens entry ↦ tokens + entry.2.tokens) 0 =
      (rows.map Prod.snd).sum := by
  have hfold (usages : ExtTreeMap String ProviderUsage) (groups : List UsageRow) :
      ((groupFold (fun row ↦ some row.1.1) ⟨0, []⟩ ProviderUsage.addRow usages
        groups).toList.map fun entry ↦ entry.2.tokens).sum =
        (usages.toList.map fun entry ↦ entry.2.tokens).sum + (groups.map Prod.snd).sum := by
    induction groups generalizing usages with
    | nil => simp
    | cons row rest ih =>
      have hstep := sum_map_toList_updateEntry (fun _ (usage : ProviderUsage) ↦ usage.tokens)
        (m := usages) (k := row.1.1) (d := ⟨0, []⟩) (f := fun usage ↦ usage.addRow row) row.2 rfl
        fun usage ↦ rfl
      rw [List.map_cons, List.sum_cons, ← add_assoc, ← hstep]
      exact ih _
  have hempty : (∅ : ExtTreeMap String ProviderUsage).toList = [] :=
    ExtTreeMap.toList_eq_nil_iff.mpr rfl
  rw [foldl_add_eq_sum (fun entry : String × ProviderUsage ↦ entry.2.tokens), zero_add]
  unfold usageByProvider
  rw [hfold, hempty, List.map_nil, List.sum_nil, zero_add]
  exact sum_map_toList_groupSum (fun _ tokens ↦ tokens) (fun _ ↦ rfl) (fun _ _ _ ↦ rfl) rows

/-! ### The report -/

variable {sessions : List (String × SessionTables)} {rates : RateCard Rat} {dayStart now : DateTime}
  {report : StatuslineReport}

/-- The usage rows of a report's window. -/
def reportRows (sessions : List (String × SessionTables)) (dayStart now : DateTime) :
    List UsageRow :=
  usageRows sessions
    (planWindow (windowMillis (some dayStart, some now)).1
      (windowMillis (some dayStart, some now)).2)

theorem providers_eq (h : statuslineReport sessions rates dayStart now = .ok report) :
    report.providers = (usageByProvider (reportRows sessions dayStart now)).toList.map
      fun entry ↦ statuslineProvider rates now entry.1 entry.2 := by
  unfold statuslineReport tokenTotalsByProvider at h
  split at h
  · cases h
  · injection h with h
    rw [← h]
    rfl

theorem pricingComplete_eq (h : statuslineReport sessions rates dayStart now = .ok report) :
    report.pricingComplete = report.providers.all (·.pricingComplete) := by
  unfold statuslineReport tokenTotalsByProvider at h
  split at h
  · cases h
  · injection h with h
    rw [← h]

theorem tokens_eq (h : statuslineReport sessions rates dayStart now = .ok report) :
    report.tokens = ((reportRows sessions dayStart now).map Prod.snd).sum := by
  unfold statuslineReport tokenTotalsByProvider at h
  split at h
  · cases h
  · injection h with h
    rw [← h]
    exact sum_tokens_usageByProvider

/-- A provider row is honest about the usage of its provider. -/
theorem honest_statuslineProvider (h : (usageByProvider rows)[name]? = some usage) :
    Honest rates now (usageOf rows name) (registeredProvider name) usage.tokens usage.buckets
      (statuslineProvider rates now name usage).unattributedTokens
      (statuslineProvider rates now name usage).pricingComplete :=
  (counts_usageByProvider h).honest

end AgentOdometer.Report
