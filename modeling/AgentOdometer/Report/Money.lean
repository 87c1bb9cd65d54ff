import AgentOdometer.Report.Sessions

/-!
# What the reports of a window cost

The range, session and project reports price the same buckets, each grouped its own way. In every
currency the sessions cost what the projects and the sessions without one cost. A row of the range
report has a cost only if all of its buckets have one, so its total leaves out the priced tiers of a
model which has a tier without a price.
-/

namespace AgentOdometer.Report

open Std (ExtTreeMap ExtTreeSet)
open EntryFold GroupBy Ledger Pricing

variable {rates : RateCard Rat} {harnessFor : String → String} {now : DateTime}
  {store : ReportStore} {control : QueryControl} {window : RangeWindow} {currency : String}

/-! ### Amounts -/

/-- The amount of a bucket of a harness, zero when it has none. -/
def bucketAmount (rates : RateCard Rat) (now : DateTime) (harness : String) (bucket : TierBucket) :
    Rat :=
  (reportPriceTokens rates harness bucket now).amount.getD 0

/-- The amounts of the buckets of a harness. -/
def amountsOf (rates : RateCard Rat) (now : DateTime) (harness : String)
    (buckets : List TierBucket) : Rat :=
  (buckets.map (bucketAmount rates now harness)).sum

theorem amountsOf_append (harness : String) (buckets buckets' : List TierBucket) :
    amountsOf rates now harness (buckets ++ buckets') =
      amountsOf rates now harness buckets + amountsOf rates now harness buckets' := by
  rw [amountsOf, List.map_append, List.sum_append]
  rfl

/-- The cost of the buckets of a harness is the sum of their amounts. -/
theorem getD_reportPriceBuckets (harness : String) (buckets : List TierBucket) :
    (reportPriceBuckets rates harness buckets now).1.getD 0 =
      amountsOf rates now harness buckets := by
  unfold reportPriceBuckets amountsOf bucketAmount reportPriceTokens
  by_cases hknown : (registeredProvider harness).isSome = true
  · simp only [hknown, if_true]
    rw [RateCard.priceBuckets_fst]
    split
    · rfl
    next hunpriced =>
      rw [RateCard.priced_plainPass] at hunpriced
      rw [Option.getD_none]
      refine (List.sum_eq_zero fun amount hamount ↦ ?_).symm
      obtain ⟨bucket, hbucket, rfl⟩ := List.mem_map.mp hamount
      have hnone : ¬ rates.Prices harness .plan now bucket := fun h ↦ hunpriced ⟨bucket, hbucket, h⟩
      unfold RateCard.Prices RateCard.amount at hnone
      rw [not_not] at hnone
      rw [hnone, Option.getD_none]
  · simp [hknown]

/-- The cost of a session in a currency. -/
def costIn (rates : RateCard Rat) (harnessFor : String → String) (now : DateTime)
    (currency : String) (session : SessionProjectRow × RangeTotals) : Rat :=
  if harnessCurrency rates (harnessFor session.1.sessionKey) = currency then
    amountsOf rates now (harnessFor session.1.sessionKey) session.2.buckets
  else 0

/-- The cost in a currency of the counted rows of a list of keys. -/
def keyCost (rates : RateCard Rat) (harnessFor : String → String) (now : DateTime)
    (currency : String) (tables : String → SessionTables) (window : RangeWindow) (key : String) :
    Rat :=
  ((usageIn tables window key).map fun range ↦
    if harnessCurrency rates (harnessFor key) = currency then
      amountsOf rates now (harnessFor key) range.buckets
    else 0).getD 0

theorem sum_keyCost : (store.sessionKeys.map
      (keyCost rates harnessFor now currency store.tables window)).sum =
    ((countedRows store window).map (costIn rates harnessFor now currency)).sum := by
  rw [(store.keys_perm.map _).sum_eq, countedRows, countedAmong]
  induction store.rows with
  | nil => rfl
  | cons row rows ih =>
    rw [List.map_cons, List.map_cons, List.sum_cons, ih]
    unfold keyCost
    cases husage : usageIn store.tables window row.sessionKey with
    | none =>
      rw [List.filterMap_cons_none (by simp [husage]), Option.map_none, Option.getD_none, zero_add]
    | some range =>
      rw [List.filterMap_cons_some (b := (row, range)) (by simp [husage]), List.map_cons,
        List.sum_cons]
      rfl

/-! ### The session report -/

/-- The cost of the listed sessions in a currency. -/
def SessionReport.costIn (report : SessionReport) (currency : String) : Rat :=
  (report.sessions.map fun usage ↦
    if usage.currency = currency then usage.cost.getD 0 else 0).sum

/-- A row costs what its listed buckets cost. -/
theorem cost_of_sessionRow {lifecycles : Lifecycles} {totals : ExtTreeMap String RangeTotals}
    {key : String} {usage : Option SessionUsage}
    (h : sessionRow rates harnessFor now lifecycles window totals key = .ok usage) :
    (usage.map fun usage ↦ if usage.currency = currency then usage.cost.getD 0 else 0).getD 0 =
      ((listedRange window totals key).map fun listed ↦
        if harnessCurrency rates (harnessFor key) = currency then
          amountsOf rates now (harnessFor key) listed.2
        else 0).getD 0 := by
  unfold sessionRow at h
  split at h
  next hlisted =>
    obtain rfl := Except.ok.inj h
    rw [hlisted]
    rfl
  next tokens buckets hlisted =>
    simp only at h
    split at h
    · cases h
    · obtain rfl := Except.ok.inj h
      rw [hlisted]
      simp only [Option.map_some, Option.getD_some, getD_reportPriceBuckets]

/-- Sessions which are listed without usage cost nothing. -/
theorem cost_sessionRow {lifecycles : Lifecycles} {totals : ExtTreeMap String RangeTotals}
    (htotals : rangeTotals control store.tables store.sessionKeys window = .ok totals)
    {key : String} (hkey : key ∈ store.sessionKeys) {usage : Option SessionUsage}
    (h : sessionRow rates harnessFor now lifecycles window totals key = .ok usage) :
    (usage.map fun usage ↦ if usage.currency = currency then usage.cost.getD 0 else 0).getD 0 =
      keyCost rates harnessFor now currency store.tables window key := by
  rw [cost_of_sessionRow h, keyCost, ← countedRange_rangeTotals htotals hkey, countedRange,
    listedRange]
  cases hrange : totals[key]? with
  | none =>
    cases hopen : window.1.isNone && window.2.isNone with
    | true => simp [amountsOf]
    | false => rfl
  | some range =>
    rw [Option.filter_some]
    by_cases husage : hasUsage range = true
    · simp [husage]
    · have hempty : range.buckets = [] := by
        rw [hasUsage, Bool.not_eq_true', Bool.not_eq_false] at husage
        exact List.isEmpty_iff.mp (Bool.and_eq_true_iff.mp husage).2
      cases hbounded : window.1.isSome || window.2.isSome with
      | true => simp [husage]
      | false => simp [husage, hempty, amountsOf]

theorem sessionReport_costIn {lifecycles : Lifecycles} {coverageComplete : Bool}
    {report : SessionReport}
    (h : sessionReport rates harnessFor now lifecycles window store coverageComplete control none =
      .ok report) :
    report.costIn currency =
      ((countedRows store window).map (costIn rates harnessFor now currency)).sum := by
  rw [← sum_keyCost]
  exact sum_sessions_sessionReport _ _ h fun totals htotals key hkey usage husage ↦
    cost_sessionRow htotals hkey husage

/-! ### The project report -/

/-- The cost of a project in a currency, before it is reported. -/
def Accumulated.costIn (rates : RateCard Rat) (now : DateTime) (currency : String)
    (entry : Accumulated) : Rat :=
  (entry.buckets.toList.map fun group ↦
    if harnessCurrency rates group.1 = currency then amountsOf rates now group.1 group.2 else 0).sum

theorem getD_foldl_addHarness (groups : List (String × List TierBucket)) (costs : ProjectCosts) :
    ((groups.foldl (addHarness rates now) costs).costByCurrency[currency]?).getD 0 =
      (costs.costByCurrency[currency]?).getD 0 + (groups.map fun group ↦
        if harnessCurrency rates group.1 = currency then
          amountsOf rates now group.1 group.2 else 0).sum := by
  induction groups generalizing costs with
  | nil => exact (add_zero _).symm
  | cons group groups ih =>
    rw [List.foldl_cons, ih, List.map_cons, List.sum_cons, ← add_assoc]
    congr 1
    rw [← getD_reportPriceBuckets]
    cases hpriced : (reportPriceBuckets rates group.1 group.2 now).1 with
    | none => simp [addHarness, hpriced]
    | some cost =>
      simp only [addHarness, hpriced, getElem?_updateEntry]
      by_cases hcurrency : harnessCurrency rates group.1 = currency
      · simp [hcurrency]
      · simp [hcurrency]

theorem projectUsage_costIn (project : String × Accumulated) :
    ((projectUsage rates now project).costByCurrency[currency]?).getD 0 =
      project.2.costIn rates now currency := by
  refine (getD_foldl_addHarness project.2.buckets.toList ⟨∅, ∅, 0, true⟩).trans ?_
  rw [ExtTreeMap.getElem?_empty, Option.getD_none, zero_add]
  rfl

theorem costIn_addSession (entry : Accumulated) (session : SessionProjectRow × RangeTotals) :
    (entry.addSession harnessFor session).costIn rates now currency =
      entry.costIn rates now currency + costIn rates harnessFor now currency session := by
  refine sum_map_toList_updateEntry (fun harness buckets ↦
    if harnessCurrency rates harness = currency then amountsOf rates now harness buckets else 0)
    (costIn rates harnessFor now currency session) ?_ fun buckets ↦ ?_
  · simp [amountsOf]
  · unfold costIn
    split
    · exact amountsOf_append _ _ _
    · exact (add_zero 0).symm

/-- The projects and the sessions without one cost what all sessions cost. -/
theorem projectReport_costIn {report : ProjectReport}
    (h : projectReport store rates harnessFor control window now = .ok report) :
    (report.projects.map fun project ↦ (project.costByCurrency[currency]?).getD 0).sum +
        ((homeless store (countedRows store window)).map
          (costIn rates harnessFor now currency)).sum =
      ((countedRows store window).map (costIn rates harnessFor now currency)).sum := by
  rw [(projectReport_eq_ok h).1, List.map_map]
  have hempty : ∀ key, (startOf store key).costIn rates now currency = 0 := by
    intro key
    rw [Accumulated.costIn, (startOf_sums key).2.2, ExtTreeMap.toList_eq_nil_iff.mpr rfl]
    rfl
  have hsum := sum_toList_entryFold_add_isNone (fun session ↦ placeOf store session.1)
    (startOf store) (Accumulated.addSession harnessFor) (Accumulated.costIn rates now currency)
    (costIn rates harnessFor now currency) hempty costIn_addSession (countedRows store window)
  refine Eq.trans ?_ hsum
  congr 3
  funext project
  exact projectUsage_costIn project

/-! ### The range report -/

/-- The buckets of counted sessions, each with its harness. -/
abbrev Piece := String × TierBucket

/-- The buckets of the counted sessions of a list of keys. -/
def piecesOf (harnessFor : String → String) (tables : String → SessionTables) (window : RangeWindow)
    (keys : List String) : List Piece :=
  keys.flatMap fun key ↦
    ((usageIn tables window key).map fun range ↦
      range.buckets.map fun bucket ↦ (harnessFor key, bucket)).getD []

theorem piecesOf_cons (tables : String → SessionTables) (key : String) (keys : List String) :
    piecesOf harnessFor tables window (key :: keys) =
      ((usageIn tables window key).map fun range ↦
        range.buckets.map fun bucket ↦ (harnessFor key, bucket)).getD [] ++
          piecesOf harnessFor tables window keys :=
  List.flatMap_cons

/-- The row of the range report which a bucket belongs to. -/
def pieceKey (piece : Piece) : String × String :=
  (piece.1, piece.2.model)

/-- A bucket has a price. -/
def IsPriced (rates : RateCard Rat) (now : DateTime) (piece : Piece) : Prop :=
  (reportPriceTokens rates piece.1 piece.2 now).amount.isSome = true

instance (piece : Piece) : Decidable (IsPriced rates now piece) :=
  inferInstanceAs (Decidable (_ = true))

/-- All buckets of a row have a price. -/
def FullyPriced (rates : RateCard Rat) (now : DateTime) (pieces : List Piece)
    (key : String × String) : Prop :=
  ∀ piece ∈ pieces, pieceKey piece = key → IsPriced rates now piece

instance (pieces : List Piece) (key : String × String) :
    Decidable (FullyPriced rates now pieces key) :=
  inferInstanceAs (Decidable (∀ piece ∈ pieces, _))

/-- The rows after the buckets. -/
def modelRows (rates : RateCard Rat) (now : DateTime) (pieces : List Piece) :
    ExtTreeMap (String × String) ModelSum :=
  pieces.foldl (fun byModel piece ↦ addModelBucket rates now piece.1 byModel piece.2) ∅

theorem modelRows_concat (pieces : List Piece) (piece : Piece) :
    modelRows rates now (pieces ++ [piece]) =
      addModelBucket rates now piece.1 (modelRows rates now pieces) piece.2 := by
  rw [modelRows, List.foldl_append]
  rfl

theorem isSome_modelRows (pieces : List Piece) (key : String × String) :
    ((modelRows rates now pieces)[key]?).isSome = true ↔
      ∃ piece ∈ pieces, pieceKey piece = key := by
  refine (KeyedFold.foldl_iff_exists
    (fun byModel : ExtTreeMap (String × String) ModelSum ↦ (byModel[key]?).isSome = true)
    (fun byModel piece ↦ ?_) pieces ∅).trans (or_iff_right (by simp))
  rw [addModelBucket, getElem?_updateEntry]
  by_cases hkey : pieceKey piece = key
  · have hkey' : (piece.1, piece.2.model) = key := hkey
    simp [hkey', hkey]
  · have hkey' : ¬ (piece.1, piece.2.model) = key := hkey
    simp [hkey', hkey]

theorem fullyPriced_concat {pieces : List Piece} {piece : Piece} {key : String × String} :
    FullyPriced rates now (pieces ++ [piece]) key ↔
      FullyPriced rates now pieces key ∧ (pieceKey piece = key → IsPriced rates now piece) := by
  simp only [FullyPriced, List.forall_mem_append, List.forall_mem_singleton]

/-- The amounts of a row's buckets. -/
def rowAmount (rates : RateCard Rat) (now : DateTime) (pieces : List Piece)
    (key : String × String) : Rat :=
  sumAt key (pieces.map fun piece ↦ (pieceKey piece, bucketAmount rates now piece.1 piece.2))

theorem rowAmount_concat (pieces : List Piece) (piece : Piece) (key : String × String) :
    rowAmount rates now (pieces ++ [piece]) key = rowAmount rates now pieces key +
      if pieceKey piece = key then bucketAmount rates now piece.1 piece.2 else 0 := by
  rw [rowAmount, List.map_append, sumAt_eq_sum_map, List.map_append, List.sum_append,
    ← sumAt_eq_sum_map]
  simp [rowAmount]

/-- A row has an amount when all of its buckets have one. -/
theorem amount_modelRows (pieces : List Piece) (key : String × String) :
    (((modelRows rates now pieces)[key]?).map ModelSum.amount).getD (some 0) =
      if FullyPriced rates now pieces key then some (rowAmount rates now pieces key) else none := by
  induction pieces using List.reverseRecOn with
  | nil => simp [modelRows, FullyPriced, rowAmount, sumAt]
  | append_singleton pieces piece ih =>
    rw [modelRows_concat, rowAmount_concat, addModelBucket, getElem?_updateEntry]
    by_cases hkey : pieceKey piece = key
    · have hrow : (piece.1, piece.2.model) = key := hkey
      have hold : ((modelRows rates now pieces)[key]?.getD
          ⟨0, some 0, (reportPriceTokens rates piece.1 piece.2 now).basis⟩).amount =
            ((modelRows rates now pieces)[key]?.map ModelSum.amount).getD (some 0) := by
        cases (modelRows rates now pieces)[key]? <;> rfl
      simp only [hrow, if_true, Option.map_some, Option.getD_some, hold, ih, hkey,
        fullyPriced_concat, forall_const]
      by_cases hfull : FullyPriced rates now pieces key
      · cases hamount : (reportPriceTokens rates piece.1 piece.2 now).amount with
        | none => simp [hfull, IsPriced, hamount]
        | some amount => simp [hfull, IsPriced, hamount, bucketAmount]
      · simp [hfull]
    · have hrow : ¬ (piece.1, piece.2.model) = key := hkey
      simp only [hrow, if_false, ih, hkey, add_zero, fullyPriced_concat, false_implies, and_true]

/-- What a bucket adds to the totals of the range report. -/
def keptAmount (rates : RateCard Rat) (now : DateTime) (pieces : List Piece) (piece : Piece) :
    Rat :=
  if FullyPriced rates now pieces (pieceKey piece) then bucketAmount rates now piece.1 piece.2
  else 0

theorem sumAt_keptAmount (pieces : List Piece) (key : String × String) :
    sumAt key (pieces.map fun piece ↦ (pieceKey piece, keptAmount rates now pieces piece)) =
      if FullyPriced rates now pieces key then rowAmount rates now pieces key else 0 := by
  rw [rowAmount, sumAt_eq_sum_map, sumAt_eq_sum_map, List.map_map, List.map_map]
  by_cases hfull : FullyPriced rates now pieces key
  · rw [if_pos hfull]
    congr 2
    funext piece
    by_cases hkey : pieceKey piece = key
    · simp [keptAmount, hkey, hfull]
    · simp [hkey]
  · rw [if_neg hfull]
    refine List.sum_eq_zero fun amount hamount ↦ ?_
    obtain ⟨piece, -, rfl⟩ := List.mem_map.mp hamount
    by_cases hkey : pieceKey piece = key
    · simp [keptAmount, hkey, hfull]
    · simp [hkey]

/-- The amounts of the rows are those of the buckets which are kept. -/
theorem map_amount_modelRows (pieces : List Piece) :
    (modelRows rates now pieces).map (fun _ row ↦ row.amount.getD 0) =
      groupSum (pieces.map fun piece ↦ (pieceKey piece, keptAmount rates now pieces piece)) := by
  refine ExtTreeMap.ext_getElem? fun key ↦ ?_
  have hexists : (∃ e ∈ pieces.map fun piece ↦
      (pieceKey piece, keptAmount rates now pieces piece), e.1 = key) ↔
        ∃ piece ∈ pieces, pieceKey piece = key := by
    simp
  have hsome : ((modelRows rates now pieces)[key]?).isSome = true ↔ _ :=
    isSome_modelRows pieces key
  have hamount : (((modelRows rates now pieces)[key]?).map ModelSum.amount).getD (some 0) = _ :=
    amount_modelRows pieces key
  rw [ExtTreeMap.getElem?_map, getElem?_groupSum, sumAt_keptAmount]
  simp only [hexists]
  cases hrow : (modelRows rates now pieces)[key]? with
  | none =>
    rw [hrow] at hsome
    rw [if_neg fun h ↦ Bool.noConfusion (hsome.mpr h), Option.map_none]
  | some row =>
    rw [hrow] at hsome hamount
    rw [if_pos (hsome.mp rfl), Option.map_some]
    rw [Option.map_some, Option.getD_some] at hamount
    rw [hamount]
    split
    · rfl
    · rfl

/-- The loop over the sessions makes the rows of their buckets. -/
theorem byModel_foldl_addSessionUsage {totals : ExtTreeMap String RangeTotals}
    (h : rangeTotals control store.tables store.sessionKeys window = .ok totals)
    {keys : List String} (hsub : keys ⊆ store.sessionKeys) (sums : RangeSums) :
    (keys.foldl (addSessionUsage rates harnessFor now totals) sums).byModel =
      (piecesOf harnessFor store.tables window keys).foldl
        (fun byModel piece ↦ addModelBucket rates now piece.1 byModel piece.2) sums.byModel := by
  induction keys generalizing sums with
  | nil => rfl
  | cons key keys ih =>
    rw [List.cons_subset] at hsub
    have hcounted : countedRange totals key = usageIn store.tables window key :=
      countedRange_rangeTotals h hsub.1
    rw [List.foldl_cons, ih hsub.2, piecesOf_cons, List.foldl_append, ← hcounted]
    congr 1
    unfold addSessionUsage countedRange
    cases hrange : totals[key]? with
    | none => rfl
    | some range =>
      rw [Option.filter_some]
      by_cases husage : hasUsage range = true
      · simp [husage, List.foldl_map]
      · simp [husage]

/-- The total in a currency is the sum over the rows of that currency. -/
theorem getD_costByCurrency (models : List ModelUsage) (costs : ExtTreeMap String Rat) :
    ((models.foldl (fun costs usage ↦
      match usage.cost with
      | none => costs
      | some amount => updateEntry costs usage.currency 0 fun cost ↦ cost + amount)
        costs)[currency]?).getD 0 =
      (costs[currency]?).getD 0 +
        (models.map fun usage ↦
          if usage.currency = currency then usage.cost.getD 0 else 0).sum := by
  induction models generalizing costs with
  | nil => exact (add_zero _).symm
  | cons usage models ih =>
    rw [List.foldl_cons, ih, List.map_cons, List.sum_cons, ← add_assoc]
    congr 1
    cases hcost : usage.cost with
    | none => simp
    | some amount =>
      simp only [getElem?_updateEntry]
      by_cases hcurrency : usage.currency = currency
      · simp [hcurrency]
      · simp [hcurrency]

/-- The range report costs what the buckets of its fully priced rows cost. -/
theorem rangeReport_costIn {report : RangeReport}
    (h : rangeReport store rates harnessFor control window now = .ok report) :
    (report.costByCurrency[currency]?).getD 0 =
      ((piecesOf harnessFor store.tables window store.sessionKeys).map fun piece ↦
        if harnessCurrency rates piece.1 = currency then
          keptAmount rates now (piecesOf harnessFor store.tables window store.sessionKeys) piece
        else 0).sum := by
  unfold rangeReport at h
  cases htotals : rangeTotals control store.tables store.sessionKeys window with
  | error e =>
    rw [htotals] at h
    cases h
  | ok totals =>
    rw [htotals] at h
    obtain rfl := Except.ok.inj h
    have hrows : (store.sessionKeys.foldl (addSessionUsage rates harnessFor now totals)
        ⟨0, ∅, 0⟩).byModel =
          modelRows rates now (piecesOf harnessFor store.tables window store.sessionKeys) :=
      byModel_foldl_addSessionUsage htotals (List.Subset.refl _) ⟨0, ∅, 0⟩
    refine (getD_costByCurrency _ ∅).trans ?_
    rw [ExtTreeMap.getElem?_empty, Option.getD_none, zero_add, List.map_map, hrows]
    have hgroups := sum_map_toList_groupSum
      (fun (key : String × String) (amount : Rat) ↦
        if harnessCurrency rates key.1 = currency then amount else 0)
      (fun key ↦ by simp) (fun key a b ↦ by split <;> simp)
      ((piecesOf harnessFor store.tables window store.sessionKeys).map fun piece ↦
        (pieceKey piece,
          keptAmount rates now (piecesOf harnessFor store.tables window store.sessionKeys) piece))
    rw [← map_amount_modelRows, ExtTreeMap.toList_map, List.map_map, List.map_map] at hgroups
    exact hgroups

/-! ### The three reports -/

theorem sum_piecesOf (keys : List String) :
    ((piecesOf harnessFor store.tables window keys).map fun piece ↦
      if harnessCurrency rates piece.1 = currency then bucketAmount rates now piece.1 piece.2
      else 0).sum =
        (keys.map (keyCost rates harnessFor now currency store.tables window)).sum := by
  induction keys with
  | nil => rfl
  | cons key keys ih =>
    rw [piecesOf_cons, List.map_append, List.sum_append, List.map_cons, List.sum_cons, ih]
    congr 1
    unfold keyCost
    cases usageIn store.tables window key with
    | none => rfl
    | some range =>
      simp only [Option.map_some, Option.getD_some, List.map_map, Function.comp_def]
      split
      · rfl
      · exact List.sum_eq_zero fun amount hamount ↦ (by simpa using hamount : _ ∧ amount = 0).2

/-- The priced buckets which the range report leaves out of a currency: those of a row which has a
bucket without a price. -/
def withheldCost (rates : RateCard Rat) (harnessFor : String → String) (now : DateTime)
    (currency : String) (store : ReportStore) (window : RangeWindow) : Rat :=
  ((piecesOf harnessFor store.tables window store.sessionKeys).map fun piece ↦
    if harnessCurrency rates piece.1 = currency ∧
        ¬ FullyPriced rates now (piecesOf harnessFor store.tables window store.sessionKeys)
          (pieceKey piece) then
      bucketAmount rates now piece.1 piece.2
    else 0).sum

theorem rangeReport_add_withheldCost {report : RangeReport}
    (h : rangeReport store rates harnessFor control window now = .ok report) :
    (report.costByCurrency[currency]?).getD 0 +
        withheldCost rates harnessFor now currency store window =
      ((countedRows store window).map (costIn rates harnessFor now currency)).sum := by
  rw [rangeReport_costIn h, withheldCost, ← sum_keyCost, ← sum_piecesOf, ← List.sum_map_add]
  congr 2
  funext piece
  by_cases hcurrency : harnessCurrency rates piece.1 = currency
  · by_cases hfull : FullyPriced rates now
        (piecesOf harnessFor store.tables window store.sessionKeys) (pieceKey piece)
    · simp [keptAmount, hcurrency, hfull]
    · simp [keptAmount, hcurrency, hfull]
  · simp [hcurrency]

/-- Every row of the range report is priced in full or not at all. -/
def PricedWhole (rates : RateCard Rat) (harnessFor : String → String) (now : DateTime)
    (store : ReportStore) (window : RangeWindow) : Prop :=
  ∀ piece ∈ piecesOf harnessFor store.tables window store.sessionKeys, IsPriced rates now piece →
    FullyPriced rates now (piecesOf harnessFor store.tables window store.sessionKeys)
      (pieceKey piece)

theorem withheldCost_eq_zero (h : PricedWhole rates harnessFor now store window) :
    withheldCost rates harnessFor now currency store window = 0 := by
  refine List.sum_eq_zero fun amount hamount ↦ ?_
  obtain ⟨piece, hpiece, rfl⟩ := List.mem_map.mp hamount
  split
  · next hwithheld =>
    have hunpriced : ¬ IsPriced rates now piece := fun hpriced ↦
      hwithheld.2 (h piece hpiece hpriced)
    rw [IsPriced, Bool.not_eq_true, Option.isSome_eq_false_iff, Option.isNone_iff_eq_none]
      at hunpriced
    rw [bucketAmount, hunpriced, Option.getD_none]
  · rfl

/-- In every currency the sessions cost what the projects and the sessions without one cost, and
the range report costs as much but for the priced buckets of rows which are not priced in full. All
cost the same if every row is priced in full or not at all. -/
theorem reports_cost (lifecycles : Lifecycles) (coverageComplete : Bool)
    (control sessionControl projectControl : QueryControl) {range : RangeReport}
    {sessions : SessionReport} {projects : ProjectReport}
    (hrange : rangeReport store rates harnessFor control window now = .ok range)
    (hsessions : sessionReport rates harnessFor now lifecycles window store coverageComplete
      sessionControl none = .ok sessions)
    (hprojects : projectReport store rates harnessFor projectControl window now = .ok projects)
    (currency : String) :
    sessions.costIn currency =
        (projects.projects.map fun project ↦ (project.costByCurrency[currency]?).getD 0).sum +
          ((homeless store (countedRows store window)).map
            (costIn rates harnessFor now currency)).sum ∧
      (range.costByCurrency[currency]?).getD 0 +
        withheldCost rates harnessFor now currency store window = sessions.costIn currency ∧
      (PricedWhole rates harnessFor now store window →
        (range.costByCurrency[currency]?).getD 0 = sessions.costIn currency) := by
  rw [sessionReport_costIn hsessions, projectReport_costIn hprojects,
    ← rangeReport_add_withheldCost hrange]
  refine ⟨(rangeReport_add_withheldCost hrange).symm ▸ rfl, rfl, fun hwhole ↦ ?_⟩
  rw [withheldCost_eq_zero hwhole, add_zero]

/-- A session of a model on a tier which has a price and on one which has none. -/
def tieredStore : ReportStore where
  rows := [⟨"codex:a", none, none, none⟩]
  sessionKeys := ["codex:a"]
  tables := fun _ ↦
    ⟨⟨[⟨"", 0, 0, some "gpt-5.5", none, none, 1000000, ⟨1000000, 0, 0, 0, 0, 1000000⟩⟩,
        ⟨"", 1, 0, some "gpt-5.5", some "ultrafast", none, 1000005, ⟨5, 0, 0, 0, 0, 5⟩⟩], [], [], []⟩,
      ⟨∅, ∅, ∅, ∅⟩⟩
  overrides := ∅
  sessionOverrides := ∅
  nodup := by decide
  keys_perm := by decide

/-- The lifecycle of its session. -/
def tieredLifecycles : Lifecycles :=
  (∅ : Lifecycles).insert "codex:a" (.present, .present)

/-- The same session, with the tier that has a price only. -/
def pricedStore : ReportStore :=
  { tieredStore with
    tables := fun _ ↦
      ⟨⟨[⟨"", 0, 0, some "gpt-5.5", none, none, 1000000, ⟨1000000, 0, 0, 0, 0, 1000000⟩⟩], [], [],
        []⟩, ⟨∅, ∅, ∅, ∅⟩⟩ }

instance (harnessFor : String → String) (store : ReportStore) (window : RangeWindow) :
    Decidable (PricedWhole rates harnessFor now store window) :=
  inferInstanceAs (Decidable (∀ piece ∈ piecesOf harnessFor store.tables window store.sessionKeys,
    _ → _))

/-- Without the tier that has no price the reports agree, and with it but for what is withheld. -/
theorem reports_cost_tieredStore :
    (∃ range sessions projects,
      rangeReport tieredStore oneRowCard (fun _ ↦ "codex") ⟨10, 10, 100, 0⟩
        (some .epoch, some .epoch) .epoch = .ok range ∧
      sessionReport oneRowCard (fun _ ↦ "codex") .epoch tieredLifecycles (some .epoch, some .epoch)
        tieredStore true ⟨10, 10, 100, 0⟩ none = .ok sessions ∧
      projectReport tieredStore oneRowCard (fun _ ↦ "codex") ⟨10, 10, 100, 0⟩
        (some .epoch, some .epoch) .epoch = .ok projects ∧
      sessions.costIn "USD" =
        (projects.projects.map fun project ↦ (project.costByCurrency["USD"]?).getD 0).sum +
          ((homeless tieredStore (countedRows tieredStore (some .epoch, some .epoch))).map
            (costIn oneRowCard (fun _ ↦ "codex") .epoch "USD")).sum ∧
      (range.costByCurrency["USD"]?).getD 0 +
        withheldCost oneRowCard (fun _ ↦ "codex") .epoch "USD" tieredStore
          (some .epoch, some .epoch) = sessions.costIn "USD") ∧
    ∃ range sessions,
      rangeReport pricedStore oneRowCard (fun _ ↦ "codex") ⟨10, 10, 100, 0⟩
        (some .epoch, some .epoch) .epoch = .ok range ∧
      sessionReport oneRowCard (fun _ ↦ "codex") .epoch tieredLifecycles (some .epoch, some .epoch)
        pricedStore true ⟨10, 10, 100, 0⟩ none = .ok sessions ∧
      (range.costByCurrency["USD"]?).getD 0 = sessions.costIn "USD" := by
  constructor
  · exact ⟨_, _, _, rfl, rfl, rfl, And.imp_right And.left (reports_cost tieredLifecycles true
      ⟨10, 10, 100, 0⟩ ⟨10, 10, 100, 0⟩ ⟨10, 10, 100, 0⟩ rfl rfl rfl "USD")⟩
  · have hwhole : PricedWhole oneRowCard (fun _ ↦ "codex") .epoch pricedStore
        (some .epoch, some .epoch) := by
      decide +kernel
    obtain ⟨projects, hprojects⟩ : ∃ projects, projectReport pricedStore oneRowCard
        (fun _ ↦ "codex") ⟨10, 10, 100, 0⟩ (some .epoch, some .epoch) .epoch = .ok projects :=
      ⟨_, rfl⟩
    exact ⟨_, _, rfl, rfl, (reports_cost tieredLifecycles true ⟨10, 10, 100, 0⟩ ⟨10, 10, 100, 0⟩
      ⟨10, 10, 100, 0⟩ rfl rfl hprojects "USD").2.2 hwhole⟩

/-- The range report leaves out what the session report charges for the tier with a price. -/
theorem not_reports_agree_mixedTiers :
    ∃ range sessions,
      rangeReport tieredStore oneRowCard (fun _ ↦ "codex") ⟨10, 10, 100, 0⟩
        (some .epoch, some .epoch) .epoch = .ok range ∧
      sessionReport oneRowCard (fun _ ↦ "codex") .epoch tieredLifecycles (some .epoch, some .epoch)
        tieredStore true ⟨10, 10, 100, 0⟩ none = .ok sessions ∧
      (range.costByCurrency["USD"]?).getD 0 = 0 ∧ sessions.costIn "USD" = 1 :=
  ⟨_, _, rfl, rfl, by decide +kernel, by decide +kernel⟩

end AgentOdometer.Report
