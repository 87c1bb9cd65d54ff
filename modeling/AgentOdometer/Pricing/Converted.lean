import AgentOdometer.Pricing.Linear

/-!
# Converted totals

When a detailed report restates its total in the display currency (`query.rs:717–747`). The
restatement is withheld when some bucket was refused and no row is left that was not; buckets of
unknown models are neither, so a report in which nothing has a price can still show a converted
zero.
-/

namespace AgentOdometer.Pricing

open Std (ExtTreeMap ExtTreeSet)

namespace RateCard

variable {rates : RateCard Rat} {harness model : String} {table : RateTable} {now : DateTime}
  {bucket : TierBucket} {buckets : List TierBucket}

/-! ### Rows and refusals -/

theorem pricingPass_concat : rates.pricingPass harness (buckets ++ [bucket]) table now =
    rates.priceBucket harness table now (rates.pricingPass harness buckets table now) bucket := by
  unfold pricingPass
  rw [List.foldl_append]
  rfl

/-- A model has a row exactly when one of its buckets is not of an unknown model. -/
theorem isSome_row_iff :
    (rates.pricingPass harness buckets table now).byModel[model]?.isSome = true ↔
    ∃ bucket ∈ buckets, bucket.model = model ∧
      rates.bucketClass harness bucket.model bucket.serviceTier table now ≠ .absent := by
  have hrow : ∀ (bucketClass : BucketClass) tokens old, (bucketClass.row tokens old).isSome = true ↔
      old.isSome = true ∨ bucketClass ≠ .absent := by
    intro bucketClass tokens old
    cases bucketClass with
    | withheld => simp [BucketClass.row]
    | absent => simp [BucketClass.row]
    | shown => simp [BucketClass.row]
    | rated tariff => simp [BucketClass.row]
  have hstep : ∀ (pass : PricingPass) bucket,
      (rates.priceBucket harness table now pass bucket).byModel[model]?.isSome = true ↔
        pass.byModel[model]?.isSome = true ∨ (bucket.model = model ∧
          rates.bucketClass harness bucket.model bucket.serviceTier table now ≠ .absent) := by
    intro pass bucket
    rw [getElem?_priceBucket]
    by_cases hmodel : bucket.model = model
    · rw [if_pos hmodel, hrow, hmodel]
      simp
    · rw [if_neg hmodel]
      simp [hmodel]
  have hrun := KeyedFold.foldl_iff_exists
    (fun pass : PricingPass ↦ pass.byModel[model]?.isSome = true) hstep buckets .empty
  refine hrun.trans (or_iff_right ?_)
  unfold PricingPass.empty
  simp

theorem unpriced_entry {tariff : Tariff} {tokens : TokenTotals} :
    (tariff.entry tokens).unpriced = true ↔ ¬ tariff.Answers := by
  cases tariff with
  | refused _ => simp [Tariff.entry_refused, Tariff.Answers]
  | free _ => simp [Tariff.entry_free, Tariff.Answers]
  | metered _ _ _ _ => simp [Tariff.entry_metered, Tariff.Answers]

/-- A bucket marks the row of its model when it is refused. A withheld model never had another
mark. -/
theorem any_unpriced_row {bucketClass : BucketClass} {tokens : TokenTotals}
    {old : Option ModelEntry}
    (hwithheld : bucketClass = .withheld → ∀ entry, old = some entry → entry.unpriced = true) :
    (bucketClass.row tokens old).any (·.unpriced) = true ↔
      old.any (·.unpriced) = true ∨ PricingPass.Unpriceable bucketClass := by
  cases bucketClass with
  | withheld =>
    cases old with
    | none => simp [BucketClass.row, PricingPass.Unpriceable]
    | some entry => simp [BucketClass.row, PricingPass.Unpriceable, hwithheld rfl entry rfl]
  | absent => simp [BucketClass.row, PricingPass.Unpriceable]
  | shown =>
    cases old with
    | none => simp [BucketClass.row, PricingPass.Unpriceable]
    | some entry => simp [BucketClass.row, PricingPass.Unpriceable]
  | rated tariff =>
    rw [BucketClass.row_rated, Option.any_some]
    cases old with
    | none => exact unpriced_entry.trans (by simp [PricingPass.Unpriceable])
    | some entry =>
      show (entry.unpriced || (tariff.entry tokens).unpriced) = true ↔ _
      rw [Bool.or_eq_true, unpriced_entry]
      rfl

/-- A row is marked as unpriced exactly when a bucket of its model was refused. -/
theorem any_unpriced_iff :
    (rates.pricingPass harness buckets table now).byModel[model]?.any (·.unpriced) = true ↔
      ∃ bucket ∈ buckets, bucket.model = model ∧ rates.Unpriceable harness table now bucket := by
  induction buckets using List.reverseRecOn with
  | nil =>
    unfold pricingPass PricingPass.empty
    simp
  | append_singleton buckets bucket ih =>
    rw [pricingPass_concat, getElem?_priceBucket]
    simp only [List.mem_append, List.mem_singleton, or_and_right, exists_or, exists_eq_left]
    by_cases hmodel : bucket.model = model
    · rw [if_pos hmodel, hmodel, any_unpriced_row, ih]
      · unfold Unpriceable
        rw [hmodel]
        simp
      · intro hwithheld entry hentry
        -- the row was made by an earlier bucket of the model, which was withheld too
        obtain ⟨earlier, hearlier, rfl, -⟩ := isSome_row_iff.mp (Option.isSome_of_eq_some hentry)
        have hrefused : rates.Unpriceable harness table now earlier := by
          unfold Unpriceable
          rcases rates.flat_or_rated harness earlier.model table now with
            ⟨bucketClass, -, hclass⟩ | hrated
          · rw [hclass] at hwithheld ⊢
            rw [hwithheld]
            trivial
          · rw [hrated] at hwithheld
            cases hwithheld
        have hmarked := ih.mpr ⟨earlier, hearlier, rfl, hrefused⟩
        rw [hentry, Option.any_some] at hmarked
        exact hmarked
    · rw [if_neg hmodel, ih]
      simp [hmodel]

/-- Some row is not marked as unpriced. -/
theorem exists_unmarked_iff :
    ((rates.pricingPass harness buckets table now).byModel.toList.any
        fun entry ↦ !entry.2.unpriced) = true ↔
      ∃ bucket ∈ buckets,
        rates.bucketClass harness bucket.model bucket.serviceTier table now ≠ .absent ∧
        ∀ other ∈ buckets, other.model = bucket.model →
          ¬ rates.Unpriceable harness table now other := by
  rw [List.any_eq_true]
  constructor
  · rintro ⟨⟨model, entry⟩, hmem, hunmarked⟩
    rw [ExtTreeMap.mem_toList_iff_getElem?_eq_some] at hmem
    obtain ⟨bucket, hbucket, rfl, hclass⟩ := isSome_row_iff.mp (Option.isSome_of_eq_some hmem)
    refine ⟨bucket, hbucket, hclass, ?_⟩
    intro other hother hmodel hrefused
    have hmarked := any_unpriced_iff.mpr ⟨other, hother, hmodel, hrefused⟩
    rw [hmem, Option.any_some] at hmarked
    simp [hmarked] at hunmarked
  · rintro ⟨bucket, hbucket, hclass, hnone⟩
    have hsome := isSome_row_iff.mpr ⟨bucket, hbucket, rfl, hclass⟩
    obtain ⟨entry, hentry⟩ := Option.isSome_iff_exists.mp hsome
    refine ⟨(bucket.model, entry), ExtTreeMap.mem_toList_iff_getElem?_eq_some.mpr hentry, ?_⟩
    rw [Bool.not_eq_true', Bool.eq_false_iff]
    intro hmarked
    have hany : (rates.pricingPass harness buckets table now).byModel[bucket.model]?.any
        (·.unpriced) = true := by
      rw [hentry, Option.any_some]
      exact hmarked
    obtain ⟨other, hother, hmodel, hrefused⟩ := any_unpriced_iff.mp hany
    exact hnone other hother hmodel hrefused

/-! ### Conversion -/

/-- Credits are not money. -/
theorem convertTotal_credits (rates : RateCard Rat) (amount : Rat) :
    convertTotal rates "credits" amount = none := by
  unfold convertTotal
  have hcredits : isFxCurrency "credits" = false := by decide
  cases rates.displayCurrency with
  | none => rfl
  | some conversion => simp [hcredits]

theorem convertTotal_of_unsold (h : creditsUnsold harness table = true) (amount : Rat) :
    convertTotal rates (rates.surfaceCurrency harness table) amount = none := by
  unfold creditsUnsold RateTable.isCredits at h
  cases table with
  | plan => cases h
  | api => cases h
  | purchasedCredits => exact convertTotal_credits rates amount
  | includedAllowance => exact convertTotal_credits rates amount
  | apiEstimate => cases h

/-- The model has no row under any name and is not listed as unpriced. -/
def Unknown (rates : RateCard Rat) (harness : String) (table : RateTable) (now : DateTime)
    (model : String) : Prop :=
  (rates.resolveModelPricing model harness (rates.rateTable table) now).basis = .unavailable ∧
    model ∉ rates.unpricedModels ∧
    (rates.resolveModelPricing model harness (rates.rateTable table) now).resolvedModel ∉
      rates.rateTable table

theorem bucketClass_eq_absent_iff {tier : Option String} :
    rates.bucketClass harness model tier table now = .absent ↔
      rates.Unknown harness table now model := by
  unfold bucketClass Unknown
  simp only
  by_cases hunavailable :
      (rates.resolveModelPricing model harness (rates.rateTable table) now).basis = .unavailable
  · by_cases hunpriced : model ∈ rates.unpricedModels
    · simp [hunavailable, hunpriced]
    · by_cases hrow : (rates.resolveModelPricing model harness (rates.rateTable table)
          now).resolvedModel ∈ rates.rateTable table
      · simp [hunavailable, hunpriced, hrow]
      · simp [hunavailable, hunpriced, hrow]
  · simp only [hunavailable, decide_false, Bool.false_and, Bool.false_eq_true, if_false, false_and,
      iff_false]
    split
    · exact BucketClass.noConfusion
    · exact BucketClass.noConfusion

/-- A bucket of a table which is offered has a price, is of an unknown model, or is refused. -/
theorem not_unpriceable_iff (hapi : rates.apiMissing harness table = false)
    (hsold : creditsUnsold harness table = false) :
    ¬ rates.Unpriceable harness table now bucket ↔
      rates.Prices harness table now bucket ∨ rates.Unknown harness table now bucket.model := by
  unfold Unpriceable
  rw [prices_iff_answers]
  rcases @bucketClass_cases rates harness bucket.model bucket.serviceTier table now with
    ⟨hclass, hrefused⟩ | ⟨hclass, hrefused⟩ | hclass | hclass
  · have hknown : ¬ rates.Unknown harness table now bucket.model := by
      rw [← @bucketClass_eq_absent_iff rates harness bucket.model table now bucket.serviceTier,
        hclass]
      exact BucketClass.noConfusion
    rw [hclass]
    exact iff_of_false (fun h ↦ h trivial) fun h ↦ h.elim hrefused hknown
  · rw [hclass]
    exact iff_of_true id (Or.inr (bucketClass_eq_absent_iff.mp hclass))
  · have hknown : ¬ rates.Unknown harness table now bucket.model := by
      rw [← @bucketClass_eq_absent_iff rates harness bucket.model table now bucket.serviceTier,
        hclass]
      exact BucketClass.noConfusion
    rw [hclass]
    exact not_not.trans (or_iff_left hknown).symm
  · rw [hclass]
    obtain ⟨hfree, -⟩ := bucketClass_eq_shown_iff.mp hclass
    exact iff_of_true id
      (Or.inl (answers_of_free hapi hsold (basis_eq_freeLocal_iff.mpr hfree)))

/-- A model which is unknown has no price. -/
theorem not_prices_of_unknown (h : rates.Unknown harness table now bucket.model) :
    ¬ rates.Prices harness table now bucket := by
  rw [prices_iff_answers]
  exact not_answers_of_unavailable h.1

/-- Whether the report may restate its total: `conversion_available`, `query.rs:717–718`. -/
theorem conversionAvailable_iff (hapi : rates.apiMissing harness table = false)
    (hsold : creditsUnsold harness table = false) :
    ((rates.pricingPass harness buckets table now).unpriced.isEmpty ||
      (rates.pricingPass harness buckets table now).byModel.toList.any
        fun entry ↦ !entry.2.unpriced) = true ↔
      (∀ bucket ∈ buckets, rates.Prices harness table now bucket ∨
        rates.Unknown harness table now bucket.model) ∨
      ∃ bucket ∈ buckets, rates.Prices harness table now bucket ∧
        ∀ other ∈ buckets, other.model = bucket.model → rates.Prices harness table now other := by
  have hempty : (rates.pricingPass harness buckets table now).unpriced.isEmpty = true ↔
      ∀ bucket ∈ buckets, ¬ rates.Unpriceable harness table now bucket := by
    rw [ExtTreeSet.isEmpty_iff, ExtTreeSet.eq_empty_iff_forall_not_mem]
    constructor
    · intro h bucket hbucket hrefused
      exact h _ (mem_unpriced_pricingPass.mpr ⟨bucket, hbucket, rfl, hrefused⟩)
    · intro h model hmodel
      obtain ⟨bucket, hbucket, -, hrefused⟩ := mem_unpriced_pricingPass.mp hmodel
      exact h bucket hbucket hrefused
  rw [Bool.or_eq_true, hempty, exists_unmarked_iff]
  simp only [not_unpriceable_iff hapi hsold]
  refine or_congr_right ⟨?_, ?_⟩
  · rintro ⟨bucket, hbucket, hclass, hall⟩
    have hprices := (hall bucket hbucket rfl).resolve_right fun hunknown ↦
      hclass (bucketClass_eq_absent_iff.mpr hunknown)
    refine ⟨bucket, hbucket, hprices, ?_⟩
    intro other hother hmodel
    refine (hall other hother hmodel).resolve_right fun hunknown ↦ ?_
    rw [hmodel] at hunknown
    exact not_prices_of_unknown hunknown hprices
  · rintro ⟨bucket, hbucket, hprices, hall⟩
    refine ⟨bucket, hbucket, fun habsent ↦ ?_, fun other hother hmodel ↦
      Or.inl (hall other hother hmodel)⟩
    exact not_prices_of_unknown (bucketClass_eq_absent_iff.mp habsent) hprices

/-! ### Totals without a price -/

theorem tokenCost_zero (rate : ModelRate Rat) (multiplier : Rat) :
    tokenCost 0 rate multiplier = 0 := by
  rw [tokenCost_of_fits ⟨le_refl 0, le_refl 0⟩]
  show (((0 : Nat) - (0 : Nat) - (0 : Nat) : Rat) * rate.input + (0 : Nat) * rate.cachedInput +
    (0 : Nat) * rate.cacheCreationRate + ((0 : Nat) - (0 : Nat) : Rat) * rate.output +
    (0 : Nat) * rate.reasoning) / 1000000 * multiplier = 0
  simp

/-- No tokens cost nothing. -/
theorem amount_of_noTokens (h : bucket.tokens = 0) :
    (rates.amount harness table now bucket).getD 0 = 0 := by
  unfold amount
  rw [priceTokens_eq_price, h]
  cases rates.tariff harness bucket.model bucket.serviceTier table now with
  | refused _ => rfl
  | free _ => rfl
  | metered rate multiplier _ _ => exact tokenCost_zero rate multiplier

/-- Some bucket with tokens has a price. -/
def PricesTokens (rates : RateCard Rat) (harness : String) (buckets : List TierBucket)
    (table : RateTable) (now : DateTime) : Prop :=
  ∃ bucket ∈ buckets, bucket.tokens ≠ 0 ∧ rates.Prices harness table now bucket

/-- Where no tokens have a price the total is zero. -/
theorem total_of_not_pricesTokens (h : ¬ rates.PricesTokens harness buckets table now) :
    (rates.pricingPass harness buckets table now).total = 0 := by
  refine total_pricingPass.trans (amounts_eq_zero fun bucket hbucket ↦ ?_)
  by_cases htokens : bucket.tokens = 0
  · exact amount_of_noTokens htokens
  · exact getD_amount_of_not_prices fun hprices ↦ h ⟨bucket, hbucket, htokens, hprices⟩

/-- A zero can be restated in the display currency, no bucket with tokens has a price, and either
every bucket without a price is of an unknown model, or all buckets of some model have a price and
no tokens. -/
structure RestatesNothing (rates : RateCard Rat) (harness : String) (buckets : List TierBucket)
    (table : RateTable) (now : DateTime) : Prop where
  offered : rates.apiMissing harness table = false
  money : convertTotal rates (rates.surfaceCurrency harness table) 0 ≠ none
  nothing : ¬ rates.PricesTokens harness buckets table now
  available : (∀ bucket ∈ buckets, rates.Prices harness table now bucket ∨
      rates.Unknown harness table now bucket.model) ∨
    ∃ bucket ∈ buckets, rates.Prices harness table now bucket ∧
      ∀ other ∈ buckets, other.model = bucket.model → rates.Prices harness table now other

/-- A report restates a total only of priced tokens, exactly unless it restates nothing. -/
theorem pricesTokens_of_converted_iff (rates : RateCard Rat) (harness : String)
    (buckets : List TierBucket) (table : RateTable) (now : DateTime) :
    (∀ surface, rates.priceBucketsDetailed harness buckets table now = some surface →
      surface.converted ≠ none → rates.PricesTokens harness buckets table now) ↔
      ¬ rates.RestatesNothing harness buckets table now := by
  unfold priceBucketsDetailed
  constructor
  · intro h hnothing
    have hsold : creditsUnsold harness table = false :=
      Bool.eq_false_iff.mpr fun hunsold ↦ hnothing.money (convertTotal_of_unsold hunsold 0)
    rw [hnothing.offered] at h
    refine hnothing.nothing (h _ rfl ?_)
    unfold surface
    simp only
    rw [if_pos ((conversionAvailable_iff hnothing.offered hsold).mpr hnothing.available),
      total_of_not_pricesTokens hnothing.nothing]
    exact hnothing.money
  · intro hnothing surface hsome hconverted
    by_contra hprices
    split at hsome
    · cases hsome
    next hapi =>
      cases hsome
      unfold RateCard.surface at hconverted
      simp only at hconverted
      split at hconverted
      next havailable =>
        rw [total_of_not_pricesTokens hprices] at hconverted
        have hoffered := Bool.eq_false_iff.mpr hapi
        have hsold : creditsUnsold harness table = false :=
          Bool.eq_false_iff.mpr fun hunsold ↦ hconverted (convertTotal_of_unsold hunsold 0)
        exact hnothing ⟨hoffered, hconverted, hprices,
          (conversionAvailable_iff hoffered hsold).mp havailable⟩
      · exact hconverted rfl

end RateCard

/-- A card without rows whose totals are shown in euros. -/
def euroCard : RateCard Rat :=
  { sampleCard 14 [] [] with
    displayCurrency := some
      { fromCurrency := none, targetCurrency := "EUR", rate := 9 / 10, asOf := .epoch
        source := "checked by hand" } }

/-- Ten tokens of a model which no card names. -/
def unlistedBucket : TierBucket :=
  { freeLocalBucket with model := "unlisted" }

/-- The only bucket is of an unknown model, and the report shows zero euros. -/
theorem not_pricesTokens_unknownModel :
    ¬ ∀ surface, euroCard.priceBucketsDetailed "claude_code" [unlistedBucket] .plan .epoch =
        some surface →
      surface.converted ≠ none →
        euroCard.PricesTokens "claude_code" [unlistedBucket] .plan .epoch := by
  intro h
  obtain ⟨bucket, hbucket, -, hprices⟩ := h _ rfl (by decide +kernel)
  rw [List.mem_singleton] at hbucket
  subst hbucket
  exact hprices (by decide +kernel)

end AgentOdometer.Pricing
