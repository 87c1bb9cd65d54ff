import AgentOdometer.Lib.KeyedFold
import AgentOdometer.Model.RangeTotals
import AgentOdometer.Report.Statusline

/-!
# The category report

`category_totals` (`telemetry.rs:998–1027`) and `category_report` (`query_reports.rs:124–205`):
the turns of the sessions of a window by provider and task category.
-/

namespace AgentOdometer.Report

open Std (ExtTreeMap)
open GroupBy Pricing

/-! ### The totals of a session -/

/-- Count one turn. Follows `telemetry.rs:1001–1020`. -/
def addTurn (metric : CategoryMetric) (turn : TurnInfo) : CategoryMetric :=
  { turns := metric.turns + 1
    tokens := metric.tokens + turn.tokens
    toolCalls := metric.toolCalls + turn.toolMetrics.calls
    buckets :=
      match turn.model with
      | none => metric.buckets
      | some model =>
          RangeTotals.addToBucket model turn.serviceTier turn.tokens metric.buckets }

/-- No turns. -/
def noTurns : CategoryMetric :=
  ⟨0, 0, 0, []⟩

/-- `category_totals`, `telemetry.rs:998–1027`. -/
def categoryTotals (turns : List TurnInfo) : ExtTreeMap TaskCategory CategoryMetric :=
  (groupFold (fun turn ↦ some turn.classification.category) noTurns addTurn ∅ turns).map
    fun _ metric ↦ { metric with buckets := metric.buckets.insertionSort RangeTotals.bucketLe }

/-- `CategorySnapshot`, `history_store.rs:252–258`. -/
structure CategorySnapshot where
  harness : Option ProviderId
  sessionKey : String
  startedAt : DateTime
  lastEventAt : DateTime
  categoryTotals : ExtTreeMap TaskCategory CategoryMetric

/-- The provider before the first colon of a key. Follows `history_store.rs:472–475`. -/
def snapshotHarness (sessionKey : String) : Option ProviderId :=
  let label := sessionKey.toList.takeWhile (· ≠ ':')
  if label.length + 1 < sessionKey.toList.length then
    (ProviderId.new (String.ofList label)).toOption
  else none

/-- The snapshot of a stored session, whose totals are those of its turns (`telemetry.rs:1065`). -/
def snapshotOf (stored : String × Session) : CategorySnapshot where
  harness := snapshotHarness stored.1
  sessionKey := stored.1
  startedAt := stored.2.startedAt
  lastEventAt := stored.2.lastEventAt
  categoryTotals := categoryTotals stored.2.turns

/-! ### The report -/

/-- `CategoryAccumulator`, `query_reports.rs:117–122`. -/
structure CategoryAccumulator where
  sessions : Nat
  metric : CategoryMetric
  buckets : ExtTreeMap (String × Option String) TokenTotals

namespace CategoryAccumulator

/-- The derived default. -/
def empty : CategoryAccumulator :=
  ⟨0, noTurns, ∅⟩

/-- A bucket as an entry of the accumulator. -/
def bucketEntry (bucket : TierBucket) : (String × Option String) × TokenTotals :=
  ((bucket.model, bucket.serviceTier), bucket.tokens)

/-- Add the totals of a session. Follows `query_reports.rs:152–162`. -/
def addMetric (entry : CategoryAccumulator) (metric : CategoryMetric) : CategoryAccumulator where
  sessions := entry.sessions + 1
  metric :=
    { entry.metric with
      turns := entry.metric.turns + metric.turns
      tokens := entry.metric.tokens + metric.tokens
      toolCalls := entry.metric.toolCalls + metric.toolCalls }
  buckets := addEntries entry.buckets (metric.buckets.map bucketEntry)

/-- The buckets of the report row. Follows `query_reports.rs:176–183`. -/
def rows (entry : CategoryAccumulator) : List TierBucket :=
  entry.buckets.toList.map RangeTotals.ofEntry

end CategoryAccumulator

/-- Key of a report row. -/
abbrev CategoryKey :=
  Option ProviderId × TaskCategory

/-- The registered provider of a snapshot. Follows `query_reports.rs:147–150`. -/
def snapshotProvider (snapshot : CategorySnapshot) : Option ProviderId :=
  snapshot.harness.bind fun id ↦ registeredProvider id.value

/-- Add one snapshot. Follows `query_reports.rs:147–164`. -/
def addSnapshot (grouped : ExtTreeMap CategoryKey CategoryAccumulator)
    (snapshot : CategorySnapshot) : ExtTreeMap CategoryKey CategoryAccumulator :=
  snapshot.categoryTotals.toList.foldl (fun grouped entry ↦
    updateEntry grouped (snapshotProvider snapshot, entry.1) .empty fun acc ↦
      acc.addMetric entry.2) grouped

/-- Whether a session overlaps the window; the selection of the query by `julianday`
(`history_store.rs:443–449`) keeps every such session. Follows `query_reports.rs:140–144`. -/
def overlaps (start stop : Option DateTime) (snapshot : CategorySnapshot) : Bool :=
  !(start.any fun bound ↦ decide (snapshot.lastEventAt < bound)) &&
    !(stop.any fun bound ↦ decide (bound < snapshot.startedAt))

/-- `CategoryUsage`, `query_reports.rs:91–104`. -/
structure CategoryUsage where
  harness : Option ProviderId
  category : TaskCategory
  sessions : Nat
  turns : Nat
  tokens : TokenTotals
  toolCalls : Nat
  pricing : Option RangePricing
  currency : Option String
  unattributedTokens : TokenTotals
  pricingComplete : Bool
deriving DecidableEq

/-- `CategoryReport`, `query_reports.rs:106–115`. -/
structure CategoryReport where
  schemaVersion : Nat
  window : Option DateTime × Option DateTime
  scope : String
  sessions : Nat
  categories : List CategoryUsage
deriving DecidableEq

/-- The row of one provider and category. Follows `query_reports.rs:169–199`. -/
def categoryUsage (rates : RateCard Rat) (now : DateTime) (key : CategoryKey)
    (accumulated : CategoryAccumulator) : CategoryUsage :=
  let buckets := accumulated.rows
  let pricing := key.1.map fun provider ↦ controlledSurfaces buckets provider.value rates now
  let coverage := pricingCoverage accumulated.metric.tokens buckets pricing
  { harness := key.1, category := key.2, sessions := accumulated.sessions
    turns := accumulated.metric.turns, tokens := accumulated.metric.tokens
    toolCalls := accumulated.metric.toolCalls, pricing
    currency := key.1.map (reportCurrency rates)
    unattributedTokens := coverage.1, pricingComplete := coverage.2 }

/-- `category_report`, `query_reports.rs:124–205`; the checks of the ledger and of the row limit
only refuse. -/
def categoryReport (snapshots : List CategorySnapshot) (rates : RateCard Rat)
    (start stop : Option DateTime) (now : DateTime) : Except String CategoryReport :=
  if (start.bind fun start ↦ stop.map fun stop ↦ decide (stop < start)).getD false then
    .error "from must not be later than to"
  else
    let selected := snapshots.filter (overlaps start stop)
    let grouped := selected.foldl addSnapshot ∅
    .ok
      { schemaVersion := 1
        window := (start, stop)
        scope := "whole_sessions_overlapping_window"
        sessions := selected.length
        categories := grouped.toList.map fun entry ↦ categoryUsage rates now entry.1 entry.2 }

/-! ### The totals count the turns -/

/-- A turn as a piece of usage. -/
def turnPiece (turn : TurnInfo) : UsagePiece :=
  (turn.model.map fun model ↦ (model, turn.serviceTier), turn.tokens)

/-- The usage of the turns of one category. -/
def turnUsage (turns : List TurnInfo) (category : TaskCategory) : List UsagePiece :=
  (turns.filter fun turn ↦ turn.classification.category = category).map turnPiece

section Totals

variable {metric : CategoryMetric} {usage : List UsagePiece} {turns : List TurnInfo}
  {category : TaskCategory}

theorem attributed_addToBucket {model : String} {serviceTier : Option String}
    {delta : TokenTotals} {buckets : List TierBucket} :
    attributed (RangeTotals.addToBucket model serviceTier delta buckets) =
      attributed buckets + delta := by
  unfold attributed
  induction buckets with
  | nil => simp [RangeTotals.addToBucket]
  | cons bucket rest ih =>
    unfold RangeTotals.addToBucket
    split
    · rw [List.map_cons, List.map_cons, List.sum_cons, List.sum_cons, add_right_comm]
    · rw [List.map_cons, List.map_cons, List.sum_cons, List.sum_cons, ih, add_assoc]

theorem exists_key_addToBucket {model : String} {serviceTier : Option String}
    {delta : TokenTotals} {buckets : List TierBucket} {key : String × Option String} :
    (∃ bucket ∈ RangeTotals.addToBucket model serviceTier delta buckets,
      (bucket.model, bucket.serviceTier) = key) ↔
      (∃ bucket ∈ buckets, (bucket.model, bucket.serviceTier) = key) ∨
        (model, serviceTier) = key := by
  induction buckets with
  | nil => simp [RangeTotals.addToBucket]
  | cons bucket rest ih =>
    unfold RangeTotals.addToBucket
    split
    · next hmatch =>
      obtain ⟨rfl, rfl⟩ := hmatch
      simp only [List.mem_cons, exists_eq_or_imp]
      exact ⟨.inl, fun h ↦ h.elim id .inl⟩
    · simp only [List.mem_cons, exists_eq_or_imp, ih, or_assoc]

/-- Counting one more turn. -/
theorem Counts.addTurn (h : Counts metric.tokens metric.buckets usage) (turn : TurnInfo) :
    Counts (addTurn metric turn).tokens (addTurn metric turn).buckets
      (usage ++ [turnPiece turn]) := by
  have htotal : metric.tokens + turn.tokens =
      ((usage ++ [turnPiece turn]).map Prod.snd).sum := by
    rw [List.map_append, List.sum_append, ← h.total]
    simp [turnPiece]
  unfold Report.addTurn
  cases hmodel : turn.model with
  | none =>
    refine ⟨htotal, ?_, fun piece hpiece key hkey ↦ ?_⟩
    · have hunnamed : unnamed (usage ++ [turnPiece turn]) = unnamed usage + turn.tokens := by
        simp [unnamed, turnPiece, hmodel]
      rw [hunnamed, ← add_assoc, h.split]
    · rcases List.mem_append.mp hpiece with hold | hnew
      · exact h.bucket piece hold key hkey
      · rw [List.mem_singleton.mp hnew, turnPiece, hmodel] at hkey
        cases hkey
  | some model =>
    refine ⟨htotal, ?_, fun piece hpiece key hkey ↦ ?_⟩
    · have hunnamed : unnamed (usage ++ [turnPiece turn]) = unnamed usage := by
        simp [unnamed, turnPiece, hmodel]
      rw [hunnamed, attributed_addToBucket, add_right_comm, h.split]
    · rw [exists_key_addToBucket]
      rcases List.mem_append.mp hpiece with hold | hnew
      · exact .inl (h.bucket piece hold key hkey)
      · rw [List.mem_singleton.mp hnew, turnPiece, hmodel] at hkey
        exact .inr (Option.some.inj hkey)

theorem Counts.foldl_addTurn (h : Counts metric.tokens metric.buckets usage) :
    Counts (turns.foldl Report.addTurn metric).tokens (turns.foldl Report.addTurn metric).buckets
      (usage ++ turns.map turnPiece) := by
  induction turns generalizing metric usage with
  | nil => simpa using h
  | cons turn rest ih =>
    have hrest := ih (h.addTurn turn)
    rwa [List.append_assoc, List.singleton_append] at hrest

/-- The order of the buckets does not matter. -/
theorem Counts.perm {tokens : TokenTotals} {buckets buckets' : List TierBucket}
    (h : Counts tokens buckets usage) (hperm : buckets.Perm buckets') :
    Counts tokens buckets' usage := by
  refine ⟨h.total, ?_, fun piece hpiece key hkey ↦ ?_⟩
  · rw [← h.split]
    exact congrArg (· + unnamed usage) (hperm.symm.map _).sum_eq
  · obtain ⟨bucket, hbucket, hbucketKey⟩ := h.bucket piece hpiece key hkey
    exact ⟨bucket, hperm.mem_iff.mp hbucket, hbucketKey⟩

theorem counts_noTurns : Counts noTurns.tokens noTurns.buckets [] :=
  ⟨rfl, rfl, fun _ h ↦ absurd h List.not_mem_nil⟩

/-- The totals of a category count its turns. -/
theorem counts_categoryTotals (h : (categoryTotals turns)[category]? = some metric) :
    Counts metric.tokens metric.buckets (turnUsage turns category) := by
  unfold categoryTotals at h
  rw [ExtTreeMap.getElem?_map, getElem?_groupFold] at h
  split at h
  · rw [← Option.some.inj h]
    refine Counts.perm ?_ (List.perm_insertionSort _ _).symm
    simp only [ExtTreeMap.getElem?_empty, Option.getD_none, Option.some.injEq]
    exact counts_noTurns.foldl_addTurn
  · simp at h

theorem turnUsage_eq_nil (h : (categoryTotals turns)[category]? = none) :
    turnUsage turns category = [] := by
  unfold categoryTotals at h
  rw [ExtTreeMap.getElem?_map, getElem?_groupFold] at h
  split at h
  · simp at h
  · next hnone =>
    unfold turnUsage
    rw [List.filter_eq_nil_iff.mpr, List.map_nil]
    intro turn hturn hcategory
    exact hnone ⟨turn, hturn, congrArg some (of_decide_eq_true hcategory)⟩

end Totals

/-! ### The rows count the turns of the window -/

section Rows

variable {acc : CategoryAccumulator} {metric : CategoryMetric} {usage added : List UsagePiece}
  {stored : String × Session} {sessions : List (String × Session)} {category : TaskCategory}
  {harness : Option ProviderId}

/-- The usage of the turns of one provider and category. -/
def categoryTurns (sessions : List (String × Session)) (harness : Option ProviderId)
    (category : TaskCategory) : List UsagePiece :=
  sessions.flatMap fun stored ↦
    if snapshotProvider (snapshotOf stored) = harness then turnUsage stored.2.turns category
    else []

theorem attributed_rows : attributed acc.rows = (acc.buckets.toList.map Prod.snd).sum := by
  unfold attributed CategoryAccumulator.rows
  rw [List.map_map]
  rfl

theorem exists_key_rows {key : String × Option String} :
    (∃ bucket ∈ acc.rows, (bucket.model, bucket.serviceTier) = key) ↔
      acc.buckets[key]?.isSome = true := by
  rw [Option.isSome_iff_exists]
  constructor
  · rintro ⟨bucket, hbucket, hkey⟩
    obtain ⟨⟨key', tokens⟩, hentry, rfl⟩ := List.mem_map.mp hbucket
    obtain rfl : key' = key := hkey
    exact ⟨tokens, ExtTreeMap.mem_toList_iff_getElem?_eq_some.mp hentry⟩
  · rintro ⟨tokens, hentry⟩
    exact ⟨RangeTotals.ofEntry (key, tokens),
      List.mem_map_of_mem (ExtTreeMap.mem_toList_iff_getElem?_eq_some.mpr hentry), rfl⟩

/-- Adding the totals of a session counts its usage. -/
theorem Counts.addMetric (h : Counts acc.metric.tokens acc.rows usage)
    (hmetric : Counts metric.tokens metric.buckets added) :
    Counts (acc.addMetric metric).metric.tokens (acc.addMetric metric).rows (usage ++ added) := by
  have hunnamed : unnamed (usage ++ added) = unnamed usage + unnamed added := by
    unfold unnamed
    rw [List.filter_append, List.map_append, List.sum_append]
  have hentries : ((metric.buckets.map CategoryAccumulator.bucketEntry).map Prod.snd).sum =
      attributed metric.buckets := by
    rw [List.map_map]
    rfl
  refine ⟨?_, ?_, fun piece hpiece key hkey ↦ ?_⟩
  · rw [List.map_append, List.sum_append, ← h.total, ← hmetric.total]
    rfl
  · have hsum : attributed (acc.addMetric metric).rows =
        attributed acc.rows + attributed metric.buckets := by
      rw [attributed_rows, attributed_rows, ← hentries]
      exact sum_toList_addEntries _ _
    rw [hsum, hunnamed, add_add_add_comm, h.split, hmetric.split]
    rfl
  · rw [exists_key_rows]
    unfold CategoryAccumulator.addMetric
    rw [getElem?_addEntries]
    rcases List.mem_append.mp hpiece with hold | hnew
    · have hentry := exists_key_rows.mp (h.bucket piece hold key hkey)
      split
      · rfl
      · exact hentry
    · obtain ⟨bucket, hbucket, hbucketKey⟩ := hmetric.bucket piece hnew key hkey
      rw [if_pos ⟨CategoryAccumulator.bucketEntry bucket, List.mem_map_of_mem hbucket, hbucketKey⟩,
        Option.isSome_some]

/-- The accumulator of a key. -/
def accumulated (grouped : ExtTreeMap CategoryKey CategoryAccumulator) (key : CategoryKey) :
    CategoryAccumulator :=
  grouped[key]?.getD .empty

/-- A snapshot adds its totals of a category to the accumulator of its provider. -/
theorem accumulated_addSnapshot {grouped : ExtTreeMap CategoryKey CategoryAccumulator}
    {snapshot : CategorySnapshot} :
    accumulated (addSnapshot grouped snapshot) (harness, category) =
      if snapshotProvider snapshot = harness then
        (snapshot.categoryTotals[category]?.map fun metric ↦
          (accumulated grouped (harness, category)).addMetric metric).getD
            (accumulated grouped (harness, category))
      else accumulated grouped (harness, category) := by
  -- what the step of one category does to the observed accumulator
  let step (grouped : ExtTreeMap CategoryKey CategoryAccumulator)
      (entry : TaskCategory × CategoryMetric) : ExtTreeMap CategoryKey CategoryAccumulator :=
    updateEntry grouped (snapshotProvider snapshot, entry.1) .empty fun acc ↦ acc.addMetric entry.2
  have hstep (grouped : ExtTreeMap CategoryKey CategoryAccumulator)
      (entry : TaskCategory × CategoryMetric) :
      accumulated (step grouped entry) (harness, category) =
        if (snapshotProvider snapshot, entry.1) = (harness, category) then
          (accumulated grouped (harness, category)).addMetric entry.2
        else accumulated grouped (harness, category) := by
    unfold step accumulated
    rw [getElem?_updateEntry]
    split
    · next hkey => rw [hkey, Option.getD_some]
    · rfl
  have hlocal : ∀ s t (entry : TaskCategory × CategoryMetric), entry.1 = category →
      accumulated s (harness, category) = accumulated t (harness, category) →
      accumulated (step s entry) (harness, category) =
        accumulated (step t entry) (harness, category) := by
    intro s t entry _ heq
    rw [hstep, hstep, heq]
  have hframe : ∀ s (entry : TaskCategory × CategoryMetric), entry.1 ≠ category →
      accumulated (step s entry) (harness, category) = accumulated s (harness, category) := by
    intro s entry hne
    rw [hstep, if_neg fun heq ↦ hne (congrArg Prod.snd heq)]
  have hfold := KeyedFold.foldl_toList hframe hlocal snapshot.categoryTotals grouped
  refine hfold.trans ?_
  simp only [hstep, Prod.mk.injEq, and_true]
  split
  · rfl
  · cases snapshot.categoryTotals[category]? <;> rfl

/-- Adding a stored session counts its turns. -/
theorem Counts.addSnapshot {grouped : ExtTreeMap CategoryKey CategoryAccumulator}
    (h : Counts (accumulated grouped (harness, category)).metric.tokens
      (accumulated grouped (harness, category)).rows usage) :
    Counts (accumulated (addSnapshot grouped (snapshotOf stored)) (harness, category)).metric.tokens
      (accumulated (addSnapshot grouped (snapshotOf stored)) (harness, category)).rows
      (usage ++ categoryTurns [stored] harness category) := by
  have hturns : categoryTurns [stored] harness category =
      if snapshotProvider (snapshotOf stored) = harness then turnUsage stored.2.turns category
      else [] := List.append_nil _
  rw [accumulated_addSnapshot, hturns]
  split
  · cases htotals : (snapshotOf stored).categoryTotals[category]? with
    | none =>
      rw [turnUsage_eq_nil htotals, List.append_nil]
      exact h
    | some metric => exact h.addMetric (counts_categoryTotals htotals)
  · rwa [List.append_nil]

theorem Counts.foldl_addSnapshot {grouped : ExtTreeMap CategoryKey CategoryAccumulator}
    (h : Counts (accumulated grouped (harness, category)).metric.tokens
      (accumulated grouped (harness, category)).rows usage) :
    Counts
      (accumulated ((sessions.map snapshotOf).foldl Report.addSnapshot grouped)
        (harness, category)).metric.tokens
      (accumulated ((sessions.map snapshotOf).foldl Report.addSnapshot grouped)
        (harness, category)).rows
      (usage ++ categoryTurns sessions harness category) := by
  induction sessions generalizing grouped usage with
  | nil => simpa [categoryTurns] using h
  | cons stored rest ih =>
    have hnext : Counts
        (accumulated (Report.addSnapshot grouped (snapshotOf stored))
          (harness, category)).metric.tokens
        _ _ := Counts.addSnapshot h
    have hrest := ih hnext
    rw [List.append_assoc] at hrest
    unfold categoryTurns at hrest ⊢
    rw [List.flatMap_cons]
    rwa [List.flatMap_cons, List.flatMap_nil, List.append_nil] at hrest

theorem counts_empty : Counts CategoryAccumulator.empty.metric.tokens
    CategoryAccumulator.empty.rows [] := by
  have hempty : (∅ : ExtTreeMap (String × Option String) TokenTotals).toList = [] :=
    ExtTreeMap.toList_eq_nil_iff.mpr rfl
  have hrows : CategoryAccumulator.empty.rows = [] := by
    unfold CategoryAccumulator.rows CategoryAccumulator.empty
    rw [hempty, List.map_nil]
  rw [hrows]
  exact counts_noTurns

/-- The sessions which a window selects. -/
def selectedSessions (sessions : List (String × Session)) (start stop : Option DateTime) :
    List (String × Session) :=
  sessions.filter fun stored ↦ overlaps start stop (snapshotOf stored)

variable {rates : RateCard Rat} {start stop : Option DateTime} {now : DateTime}
  {report : CategoryReport}

/-- A row is made from an accumulator which counts the turns of its provider and category. -/
theorem exists_accumulator
    (h : categoryReport (sessions.map snapshotOf) rates start stop now = .ok report)
    {row : CategoryUsage} (hrow : row ∈ report.categories) :
    ∃ acc, row = categoryUsage rates now (row.harness, row.category) acc ∧
      Counts acc.metric.tokens acc.rows
        (categoryTurns (selectedSessions sessions start stop) row.harness row.category) := by
  unfold categoryReport at h
  split at h
  · cases h
  injection h with h
  rw [← h] at hrow
  obtain ⟨⟨⟨harness, category⟩, acc⟩, hentry, rfl⟩ := List.mem_map.mp hrow
  refine ⟨acc, rfl, ?_⟩
  have hselected : (sessions.map snapshotOf).filter (overlaps start stop) =
      (selectedSessions sessions start stop).map snapshotOf := by
    rw [List.filter_map]
    rfl
  have hstart : Counts (accumulated ∅ (harness, category)).metric.tokens
      (accumulated ∅ (harness, category)).rows [] := by
    rw [accumulated, ExtTreeMap.getElem?_empty]
    exact counts_empty
  have hcounts : Counts _ _ ([] ++ categoryTurns (selectedSessions sessions start stop) harness
      category) := Counts.foldl_addSnapshot hstart
  rw [hselected, ExtTreeMap.mem_toList_iff_getElem?_eq_some] at hentry
  rw [accumulated, hentry, Option.getD_some, List.nil_append] at hcounts
  exact hcounts

end Rows

/-! ### Both reports -/

/-- In both reports each row is honest about its usage, with the buckets its pricing was made from;
a complete statusline has a priced bucket for all usage of the window. -/
theorem reports_honest (tables : List (String × Ledger.SessionTables))
    (sessions : List (String × Session)) (rates : RateCard Rat) (dayStart now : DateTime)
    (start stop : Option DateTime) :
    (∀ report, statuslineReport tables rates dayStart now = .ok report →
      (∀ row ∈ report.providers, ∃ name buckets, row.harness = registeredProvider name ∧
        row.pricing = row.harness.map (fun id ↦ controlledSurfaces buckets id.value rates now) ∧
        Honest rates now (usageOf (reportRows tables dayStart now) name) row.harness row.tokens
          buckets row.unattributedTokens row.pricingComplete) ∧
      report.tokens = ((reportRows tables dayStart now).map Prod.snd).sum ∧
      (report.pricingComplete = true → ∀ usage ∈ reportRows tables dayStart now, usage.2 ≠ 0 →
        ∃ row ∈ report.providers, ∃ provider, registeredProvider usage.1.1 = some provider ∧
          ∃ bucket, (pieceOf usage).1 = some (bucket.model, bucket.serviceTier) ∧
            rates.Prices provider.value .plan now bucket)) ∧
    ∀ report, categoryReport (sessions.map snapshotOf) rates start stop now = .ok report →
      ∀ row ∈ report.categories, ∃ buckets,
        row.pricing = row.harness.map (fun id ↦ controlledSurfaces buckets id.value rates now) ∧
        Honest rates now (categoryTurns (selectedSessions sessions start stop) row.harness
          row.category) row.harness row.tokens buckets row.unattributedTokens
          row.pricingComplete := by
  refine ⟨fun report h ↦ ⟨fun row hrow ↦ ?_, tokens_eq h, fun hcomplete usage husage htokens ↦ ?_⟩,
    fun report h row hrow ↦ ?_⟩
  · rw [providers_eq h] at hrow
    obtain ⟨⟨name, usage⟩, hentry, rfl⟩ := List.mem_map.mp hrow
    rw [ExtTreeMap.mem_toList_iff_getElem?_eq_some] at hentry
    exact ⟨name, usage.buckets, rfl, rfl, honest_statuslineProvider hentry⟩
  · obtain ⟨entry, hentry⟩ := Option.isSome_iff_exists.mp (isSome_usageByProvider husage)
    have hrow : statuslineProvider rates now usage.1.1 entry ∈ report.providers := by
      rw [providers_eq h]
      exact List.mem_map.mpr
        ⟨(usage.1.1, entry), ExtTreeMap.mem_toList_iff_getElem?_eq_some.mpr hentry, rfl⟩
    rw [pricingComplete_eq h, List.all_eq_true] at hcomplete
    have hpiece : pieceOf usage ∈ usageOf (reportRows tables dayStart now) usage.1.1 :=
      List.mem_map_of_mem (List.mem_filter.mpr ⟨husage, decide_eq_true rfl⟩)
    obtain ⟨provider, hprovider, bucket, -, hkey, hprice⟩ :=
      (honest_statuslineProvider hentry).complete (hcomplete _ hrow) _ hpiece htokens
    exact ⟨_, hrow, provider, hprovider, bucket, hkey, hprice⟩
  · obtain ⟨acc, heq, hcounts⟩ := exists_accumulator h hrow
    rw [heq] at hcounts ⊢
    exact ⟨acc.rows, rfl, hcounts.honest⟩

/-- A ledger with one token event of a model which the card prices. -/
def pricedTables : List (String × Ledger.SessionTables) :=
  [("codex:a", ⟨⟨[⟨"", 0, 0, some "gpt-5.5", none, none, 5, ⟨5, 0, 0, 0, 0, 5⟩⟩], [], [], []⟩,
    ⟨∅, ∅, ∅, ∅⟩⟩)]

/-- A turn of coding, with or without a model. -/
def codingTurn (model : Option String) : TurnInfo where
  turnId := "turn"
  index := 0
  model := model
  reasoningEffort := none
  collaborationMode := none
  serviceTier := none
  status := .completed
  abortReason := none
  startedAt := none
  completedAt := none
  durationMs := none
  timeToFirstTokenMs := none
  userMessage := none
  lastAgentMessage := none
  tokens := ⟨5, 0, 0, 0, 0, 5⟩
  toolMetrics := .zero
  classification := ⟨1, .coding, 1, []⟩

/-- A session with a turn of a priced model and a turn of no model. -/
def codingSessions : List (String × Session) :=
  [("codex:a", { Session.blank .codex "a" .epoch with
    turns := [codingTurn (some "gpt-5.5"), codingTurn none] })]
/-- The statusline is complete, with a price for all its usage. The category has a turn without a
model, which is named in its row. -/
theorem reports_honest_codingSessions :
    (∃ report, statuslineReport pricedTables oneRowCard .epoch .epoch = .ok report ∧
      report.pricingComplete = true ∧ report.tokens.totalTokens = 5 ∧
      ∀ usage ∈ reportRows pricedTables .epoch .epoch, usage.2 ≠ 0 →
        ∃ row ∈ report.providers, ∃ provider, registeredProvider usage.1.1 = some provider ∧
          ∃ bucket, (pieceOf usage).1 = some (bucket.model, bucket.serviceTier) ∧
            oneRowCard.Prices provider.value .plan .epoch bucket) ∧
    ∃ report, categoryReport (codingSessions.map snapshotOf) oneRowCard none none .epoch =
        .ok report ∧
      report.categories.map (fun row ↦ (row.unattributedTokens.totalTokens, row.pricingComplete)) =
        [(5, false)] ∧
      ∀ row ∈ report.categories, ∃ buckets,
        Honest oneRowCard .epoch (categoryTurns (selectedSessions codingSessions none none)
          row.harness row.category) row.harness row.tokens buckets row.unattributedTokens
          row.pricingComplete := by
  have h := reports_honest pricedTables codingSessions oneRowCard .epoch .epoch none none
  have hcomplete : ((statuslineReport pricedTables oneRowCard .epoch .epoch).toOption.map
      fun report ↦ (report.pricingComplete, report.tokens.totalTokens)) = some (true, 5) := by
    decide +kernel
  have hcategories : ((categoryReport (codingSessions.map snapshotOf) oneRowCard none none
      .epoch).toOption.map fun report ↦ report.categories.map fun row ↦
        (row.unattributedTokens.totalTokens, row.pricingComplete)) = some [(5, false)] := by
    decide +kernel
  constructor
  · cases hreport : statuslineReport pricedTables oneRowCard .epoch .epoch with
    | error message =>
      rw [hreport] at hcomplete
      cases hcomplete
    | ok report =>
      rw [hreport] at hcomplete
      obtain ⟨hpriced, htokens⟩ := Prod.mk.inj (Option.some.inj hcomplete)
      exact ⟨report, rfl, hpriced, htokens, (h.1 report hreport).2.2 hpriced⟩
  · cases hreport : categoryReport (codingSessions.map snapshotOf) oneRowCard none none .epoch with
    | error message =>
      rw [hreport] at hcategories
      cases hcategories
    | ok report =>
      rw [hreport] at hcategories
      refine ⟨report, rfl, Option.some.inj hcategories, fun row hrow ↦ ?_⟩
      obtain ⟨buckets, -, hhonest⟩ := h.2 report hreport row hrow
      exact ⟨buckets, hhonest⟩

end AgentOdometer.Report
