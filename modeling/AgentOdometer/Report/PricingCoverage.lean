import AgentOdometer.Pricing.Converted

/-!
# Pricing coverage

`pricing_coverage` (`query_reports.rs:21–36,64–93,648–685`): whether the price of a report's
buckets covers all of its tokens.
-/

namespace AgentOdometer.Report

open Std (ExtTreeMap)
open Pricing

/-- `registered_provider`, `query_reports.rs:21–25`. -/
def registeredProvider (name : String) : Option ProviderId :=
  match ProviderId.new name with
  | .error _ => none
  | .ok id => if ProviderRegistry.descriptors.any fun entry ↦ entry.id = id then some id else none

/-- `CurrentPricing`, `query.rs:546–556`. -/
structure CurrentPricing where
  asOf : DateTime
  includedAllowanceBasis : String
  purchasedCredits : PricedSurface
  includedAllowance : PricedSurface
  apiEstimate : PricedSurface
deriving DecidableEq

/-- `RangePricing`, `query.rs:536–543`. -/
structure RangePricing where
  plan : PricedSurface
  api : Option PricedSurface
  current : Option CurrentPricing
deriving DecidableEq

/-- The report of a table which always applies. -/
def appliedSurface (rates : RateCard Rat) (harness : String) (buckets : List TierBucket)
    (table : RateTable) (now : DateTime) : PricedSurface :=
  rates.surface harness table (rates.pricingPass harness buckets table now)

/-- `expect("plan table always applies")` and its siblings never fail. -/
theorem priceBucketsDetailed_of_not_isApi {rates : RateCard Rat} {harness : String}
    {buckets : List TierBucket} {table : RateTable} {now : DateTime} (h : table.isApi = false) :
    rates.priceBucketsDetailed harness buckets table now =
      some (appliedSurface rates harness buckets table now) := by
  unfold RateCard.priceBucketsDetailed RateCard.apiMissing
  rw [h]
  rfl

/-- `current_pricing`, `query_desktop.rs:104–138`. -/
def currentPricing (buckets : List TierBucket) (harness : String) (rates : RateCard Rat)
    (now : DateTime) : Option CurrentPricing :=
  if isCodex harness then
    some
      { asOf := now
        includedAllowanceBasis := "standard_purchased_credit_rate_reference"
        purchasedCredits := appliedSurface rates harness buckets .purchasedCredits now
        includedAllowance := appliedSurface rates harness buckets .includedAllowance now
        apiEstimate := (rates.priceBucketsDetailed harness buckets .apiEstimate now).getD
          { total := 0, byModel := [], missingModels := buckets.map (·.model)
            unpricedModels := buckets.map (·.model), converted := none } }
  else none

/-- `controlled_surfaces` without a limit, `query_reports.rs:62–88`. -/
def controlledSurfaces (buckets : List TierBucket) (harness : String) (rates : RateCard Rat)
    (now : DateTime) : RangePricing where
  current := currentPricing buckets harness rates now
  plan := appliedSurface rates harness buckets .plan now
  api := rates.priceBucketsDetailed harness buckets .api now

/-- `currency`, `query_reports.rs:614–620`. -/
def reportCurrency (rates : RateCard Rat) (provider : ProviderId) : String :=
  rates.currencies[provider.value]?.getD rates.currency

/-- The models whose rows count as priced. Follows `query_reports.rs:655–660`. -/
def pricedModels (pricing : Option RangePricing) : List String :=
  match pricing with
  | none => []
  | some pricing =>
      (pricing.plan.byModel.filter fun model ↦
        !model.unpriced && model.basis ≠ .unavailable).map (·.model)

/-- `pricing_coverage`, `query_reports.rs:648–685`. -/
def pricingCoverage (tokens : TokenTotals) (buckets : List TierBucket)
    (pricing : Option RangePricing) : TokenTotals × Bool :=
  let attributed := buckets.foldl (fun total bucket ↦ total + bucket.tokens) 0
  let allModelsPriced := buckets.foldl
    (fun all bucket ↦ all && decide (bucket.model ∈ pricedModels pricing)) pricing.isSome
  let unattributed := tokens.sub attributed
  (unattributed, unattributed = 0 && allModelsPriced)

/-! ### What coverage says -/

variable {rates : RateCard Rat} {harness : String} {buckets : List TierBucket} {now : DateTime}
  {tokens : TokenTotals} {bucket : TierBucket}

/-- A bucket whose model counts as priced has a price itself: a refused tier marks the row. -/
theorem prices_of_mem_pricedModels (hbucket : bucket ∈ buckets)
    (h : bucket.model ∈ pricedModels (some (controlledSurfaces buckets harness rates now))) :
    rates.Prices harness .plan now bucket := by
  unfold pricedModels controlledSurfaces appliedSurface RateCard.surface at h
  simp only [List.mem_map, List.mem_filter, Bool.and_eq_true, Bool.not_eq_true'] at h
  obtain ⟨_, ⟨⟨⟨model, entry⟩, hentry, rfl⟩, hunmarked, -⟩, hmodel⟩ := h
  simp only at hunmarked hmodel
  subst hmodel
  rw [ExtTreeMap.mem_toList_iff_getElem?_eq_some] at hentry
  -- the row was made by a bucket of a known model, and none of the model's buckets was refused
  obtain ⟨maker, -, hmaker, hknown⟩ := RateCard.isSome_row_iff.mp (Option.isSome_of_eq_some hentry)
  have hnotRefused : ¬ rates.Unpriceable harness .plan now bucket := by
    intro hrefused
    have hmarked := RateCard.any_unpriced_iff.mpr ⟨bucket, hbucket, rfl, hrefused⟩
    rw [hentry, Option.any_some, hunmarked] at hmarked
    exact Bool.false_ne_true hmarked
  refine ((RateCard.not_unpriceable_iff rfl rfl).mp hnotRefused).resolve_right fun hunknown ↦ ?_
  rw [← hmaker] at hunknown
  exact hknown (RateCard.bucketClass_eq_absent_iff.mpr hunknown)

/-- The tokens of the buckets. -/
def attributed (buckets : List TierBucket) : TokenTotals :=
  (buckets.map (·.tokens)).sum

theorem foldl_tokens : buckets.foldl (fun total bucket ↦ total + bucket.tokens) 0 =
    attributed buckets :=
  (GroupBy.foldl_add_eq_sum (fun bucket : TierBucket ↦ bucket.tokens) buckets 0).trans (zero_add _)

theorem foldl_and {p : TierBucket → Bool} {start : Bool} :
    buckets.foldl (fun all bucket ↦ all && p bucket) start = true ↔
      start = true ∧ ∀ bucket ∈ buckets, p bucket = true := by
  induction buckets generalizing start with
  | nil => simp
  | cons bucket rest ih =>
    rw [List.foldl_cons, ih, Bool.and_eq_true, List.forall_mem_cons, and_assoc]

/-! ### Usage and its buckets -/

/-- A piece of usage: the model and tier it names, if any, and its tokens. -/
abbrev UsagePiece :=
  Option (String × Option String) × TokenTotals

/-- The tokens of the pieces which name no model. -/
def unnamed (usage : List UsagePiece) : TokenTotals :=
  ((usage.filter fun piece ↦ piece.1.isNone).map Prod.snd).sum

variable {usage : List UsagePiece}

theorem eq_zero_of_unnamed_eq_zero {piece : UsagePiece} (h : unnamed usage = 0)
    (hpiece : piece ∈ usage) (hnone : piece.1 = none) : piece.2 = 0 := by
  have hmem : piece.2 ∈ (usage.filter fun piece ↦ piece.1.isNone).map Prod.snd :=
    List.mem_map_of_mem (List.mem_filter.mpr ⟨hpiece, by rw [hnone, Option.isNone_none]⟩)
  obtain ⟨before, after, hsplit⟩ := List.append_of_mem hmem
  unfold unnamed at h
  rw [hsplit, List.sum_append, List.sum_cons, TokenTotals.add_eq_zero_iff,
    TokenTotals.add_eq_zero_iff] at h
  exact h.2.1

/-- All usage is counted in the tokens, and all which names a model in a bucket of that model and
tier. -/
structure Counts (tokens : TokenTotals) (buckets : List TierBucket) (usage : List UsagePiece) :
    Prop where
  total : tokens = (usage.map Prod.snd).sum
  split : attributed buckets + unnamed usage = tokens
  bucket : ∀ piece ∈ usage, ∀ key, piece.1 = some key →
    ∃ bucket ∈ buckets, (bucket.model, bucket.serviceTier) = key

/-- The unattributed tokens are those the buckets leave, which are the tokens without a model;
complete coverage means that every piece of the usage has a model and a bucket with a price. -/
structure Honest (rates : RateCard Rat) (now : DateTime) (usage : List UsagePiece)
    (harness : Option ProviderId) (tokens : TokenTotals) (buckets : List TierBucket)
    (unattributed : TokenTotals) (complete : Bool) : Prop where
  total : tokens = (usage.map Prod.snd).sum
  rest : unattributed + attributed buckets = tokens
  unattributed : unattributed = unnamed usage
  complete : complete = true → ∀ piece ∈ usage, piece.2 ≠ 0 →
    ∃ provider, harness = some provider ∧ ∃ bucket ∈ buckets,
      piece.1 = some (bucket.model, bucket.serviceTier) ∧
        rates.Prices provider.value .plan now bucket

theorem Counts.sub_attributed (h : Counts tokens buckets usage) :
    tokens.sub (attributed buckets) = unnamed usage := by
  have hle : attributed buckets ≤ tokens := by
    rw [← h.split]
    exact le_self_add
  exact add_left_cancel ((TokenTotals.add_sub_of_le hle).trans h.split.symm)

theorem Counts.honest {provider : Option ProviderId} (h : Counts tokens buckets usage) :
    Honest rates now usage provider tokens buckets
      (pricingCoverage tokens buckets (provider.map fun provider ↦
        controlledSurfaces buckets provider.value rates now)).1
      (pricingCoverage tokens buckets (provider.map fun provider ↦
        controlledSurfaces buckets provider.value rates now)).2 := by
  unfold pricingCoverage
  simp only [foldl_tokens, h.sub_attributed]
  refine ⟨h.total, by rw [add_comm, h.split], rfl, fun hcomplete piece hpiece htokens ↦ ?_⟩
  rw [Bool.and_eq_true, decide_eq_true_eq, foldl_and] at hcomplete
  obtain ⟨hzero, hsome, hall⟩ := hcomplete
  obtain ⟨pricing, hpricing⟩ := Option.isSome_iff_exists.mp hsome
  obtain ⟨id, rfl, -⟩ := Option.map_eq_some_iff.mp hpricing
  cases hkey : piece.1 with
  | none => exact absurd (eq_zero_of_unnamed_eq_zero hzero hpiece hkey) htokens
  | some key =>
    obtain ⟨bucket, hbucket, rfl⟩ := h.bucket piece hpiece key hkey
    exact ⟨id, rfl, bucket, hbucket, rfl,
      prices_of_mem_pricedModels hbucket (of_decide_eq_true (hall bucket hbucket))⟩

end AgentOdometer.Report
