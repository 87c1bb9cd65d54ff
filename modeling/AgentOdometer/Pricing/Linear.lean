import AgentOdometer.Lib.GroupedFold
import AgentOdometer.Pricing.Agreement
import AgentOdometer.Pricing.Refresh

/-!
# Linearity of bucket pricing

The report of a list of buckets depends only on the usage of each model and tier: not on the
order of the buckets, nor on how the usage is cut into buckets, as long as the subset counters of
each bucket fit into their parents.
-/

namespace AgentOdometer.Pricing

open Std (ExtTreeMap ExtTreeSet)
open GroupBy

/-! ### Confidence -/

theorem leastConfidentBasis_assoc (a b c : PricingBasis) :
    leastConfidentBasis (leastConfidentBasis a b) c =
      leastConfidentBasis a (leastConfidentBasis b c) := by
  unfold leastConfidentBasis
  by_cases hab : a.rank < b.rank
  · by_cases hbc : b.rank < c.rank
    · simp [hab, hbc, hab.trans hbc]
    · simp [hab, hbc]
  · by_cases hbc : b.rank < c.rank
    · simp [hab, hbc]
    · have hac : ¬ a.rank < c.rank := by omega
      simp [hab, hbc, hac]

theorem leastConfidentBasis_self (a : PricingBasis) : leastConfidentBasis a a = a := by
  unfold leastConfidentBasis
  rw [if_neg (lt_irrefl _)]

/-- No basis is less confident than an unavailable one. -/
theorem leastConfidentBasis_unavailable (a : PricingBasis) :
    leastConfidentBasis a .unavailable = .unavailable := by
  cases a <;> rfl

theorem unavailable_leastConfidentBasis (a : PricingBasis) :
    leastConfidentBasis .unavailable a = .unavailable := by
  cases a <;> rfl

/-- A downgrade for the tokens of two buckets is the less confident of the two downgrades. -/
theorem downgrade_add (basis : PricingBasis) (rate : ModelRate Rat) (m n : Nat) :
    downgradeForCacheCreationFallback basis rate (m + n) =
      leastConfidentBasis (downgradeForCacheCreationFallback basis rate m)
        (downgradeForCacheCreationFallback basis rate n) := by
  unfold downgradeForCacheCreationFallback
  by_cases hrate : ((basis = .direct ∨ basis = .aliased) ∨ basis = .floatingAlias) ∧
      rate.cacheCreationRateIsFallback = true
  · obtain ⟨hbasis, hfallback⟩ := hrate
    rcases Nat.eq_zero_or_pos m with rfl | hm
    · rcases Nat.eq_zero_or_pos n with rfl | hn
      · simp [leastConfidentBasis_self]
      · rcases hbasis with (rfl | rfl) | rfl <;> simp [hfallback, hn, leastConfidentBasis,
          PricingBasis.rank]
    · rcases Nat.eq_zero_or_pos n with rfl | hn
      · rcases hbasis with (rfl | rfl) | rfl <;> simp [hfallback, hm, leastConfidentBasis,
          PricingBasis.rank]
      · rcases hbasis with (rfl | rfl) | rfl <;> simp [hfallback, hm, hn, leastConfidentBasis_self]
  · have hkeep : ∀ k : Nat, ((basis = .direct || basis = .aliased || basis = .floatingAlias) &&
        0 < k && rate.cacheCreationRateIsFallback) = false := by
      intro k
      rw [Bool.eq_false_iff]
      intro h
      simp only [Bool.and_eq_true, Bool.or_eq_true, decide_eq_true_eq] at h
      exact hrate ⟨h.1.1, h.2⟩
    simp only [hkeep, Bool.false_eq_true, if_false, leastConfidentBasis_self]

/-! ### Rows -/

namespace ModelEntry

/-- Two entries of one model. -/
def join (a b : ModelEntry) : ModelEntry :=
  ⟨a.cost + b.cost, leastConfidentBasis a.basis b.basis, a.unpriced || b.unpriced⟩

theorem join_assoc (a b c : ModelEntry) : (a.join b).join c = a.join (b.join c) := by
  unfold join
  simp only [add_assoc, leastConfidentBasis_assoc, Bool.or_assoc]

theorem join_comm {a b : ModelEntry}
    (h : leastConfidentBasis a.basis b.basis = leastConfidentBasis b.basis a.basis) :
    a.join b = b.join a := by
  unfold join
  rw [add_comm, h, Bool.or_comm]

/-- An entry on top of what a row holds. -/
def onto (entry : ModelEntry) : Option ModelEntry → ModelEntry
  | none => entry
  | some old => old.join entry

theorem onto_onto (a b : ModelEntry) (old : Option ModelEntry) :
    b.onto (some (a.onto old)) = (a.join b).onto old := by
  cases old with
  | none => rfl
  | some old => exact join_assoc old a b

end ModelEntry

namespace Tariff

variable {tariff other : Tariff} {a b : TokenTotals}

/-- What tokens on a tariff put into the row of their model. -/
def entry (tariff : Tariff) (tokens : TokenTotals) : ModelEntry :=
  match (tariff.price tokens).amount with
  | none => ⟨0, .unavailable, true⟩
  | some cost => ⟨cost, (tariff.price tokens).basis, false⟩

theorem entry_refused {resolvedModel : String} :
    (refused resolvedModel).entry a = ⟨0, .unavailable, true⟩ := rfl

theorem entry_free {resolvedModel : String} :
    (free resolvedModel).entry a = ⟨0, .freeLocal, false⟩ := rfl

theorem entry_metered {rate : ModelRate Rat} {multiplier : Rat} {basis : PricingBasis}
    {resolvedModel : String} : (metered rate multiplier basis resolvedModel).entry a =
      ⟨tokenCost a rate multiplier,
        downgradeForCacheCreationFallback basis rate a.cacheCreationInputTokens, false⟩ := rfl

theorem entry_of_none (h : (tariff.price a).amount = none) :
    tariff.entry a = ⟨0, .unavailable, true⟩ := by
  unfold entry
  rw [h]

theorem entry_of_some {cost : Rat} (h : (tariff.price a).amount = some cost) :
    tariff.entry a = ⟨cost, (tariff.price a).basis, false⟩ := by
  unfold entry
  rw [h]

/-- The entry of two buckets is that of their sum. -/
theorem entry_add (ha : a.Fits) (hb : b.Fits) :
    (tariff.entry a).join (tariff.entry b) = tariff.entry (a + b) := by
  unfold ModelEntry.join
  cases tariff with
  | refused resolvedModel => simp [entry_refused, leastConfidentBasis_self]
  | free resolvedModel => simp [entry_free, leastConfidentBasis_self]
  | metered rate multiplier basis resolvedModel =>
    simp only [entry_metered, tokenCost_add ha hb, TokenTotals.cacheCreationInputTokens_add,
      downgrade_add, Bool.or_false]

/-- The amount of two buckets is that of their sum. -/
theorem amount_add (ha : a.Fits) (hb : b.Fits) : (tariff.price (a + b)).amount.getD 0 =
    (tariff.price a).amount.getD 0 + (tariff.price b).amount.getD 0 := by
  cases tariff with
  | refused resolvedModel => exact (add_zero _).symm
  | free resolvedModel => exact (add_zero _).symm
  | metered rate multiplier basis resolvedModel => exact tokenCost_add ha hb rate multiplier

/-- Tariffs of one model: where both are metered, they differ in the multiplier only. -/
def SameModel : Tariff → Tariff → Prop
  | metered rate _ basis _, metered rate' _ basis' _ => rate = rate' ∧ basis = basis'
  | free _, metered .. => False
  | metered .., free _ => False
  | _, _ => True

/-- The entries of one model can be joined in any order. -/
theorem entry_comm (h : tariff.SameModel other) :
    (tariff.entry a).join (other.entry b) = (other.entry b).join (tariff.entry a) := by
  apply ModelEntry.join_comm
  cases tariff with
  | refused _ =>
    simp only [entry_refused, leastConfidentBasis_unavailable, unavailable_leastConfidentBasis]
  | free _ =>
    cases other with
    | refused _ =>
      simp only [entry_refused, leastConfidentBasis_unavailable, unavailable_leastConfidentBasis]
    | free _ => rfl
    | metered => exact h.elim
  | metered rate multiplier basis _ =>
    cases other with
    | refused _ =>
      simp only [entry_refused, leastConfidentBasis_unavailable, unavailable_leastConfidentBasis]
    | free _ => exact h.elim
    | metered rate' multiplier' basis' _ =>
      obtain ⟨rfl, rfl⟩ := h
      simp only [entry_metered, ← downgrade_add, Nat.add_comm]

end Tariff

/-! ### Steps -/

namespace BucketClass

/-- What tokens of a class make of the row of their model. -/
def row (bucketClass : BucketClass) (tokens : TokenTotals) (old : Option ModelEntry) :
    Option ModelEntry :=
  match bucketClass with
  | withheld => some (old.getD ⟨0, .unavailable, true⟩)
  | absent => old
  | shown => some (old.getD ⟨0, .freeLocal, false⟩)
  | rated tariff => some ((tariff.entry tokens).onto old)

theorem row_rated {tariff : Tariff} {tokens : TokenTotals} {old : Option ModelEntry} :
    (rated tariff).row tokens old = some ((tariff.entry tokens).onto old) := rfl

/-- The classes which look at neither tier nor tokens. -/
def Flat (bucketClass : BucketClass) : Prop :=
  bucketClass = withheld ∨ bucketClass = absent ∨ bucketClass = shown

/-- One bucket of a flat class says all that others can say. -/
theorem Flat.row_row {bucketClass : BucketClass} (h : bucketClass.Flat) (a b c : TokenTotals)
    (old : Option ModelEntry) :
    bucketClass.row a (bucketClass.row b old) = bucketClass.row c old := by
  rcases h with rfl | rfl | rfl
  · rfl
  · rfl
  · rfl

end BucketClass

namespace PricingPass

variable {pass other : PricingPass} {model : String} {tokens : TokenTotals}
  {bucketClass : BucketClass}

theorem eq_of_fields (hrows : ∀ model : String, pass.byModel[model]? = other.byModel[model]?)
    (hmissing : ∀ model : String, model ∈ pass.missing ↔ model ∈ other.missing)
    (hunpriced : ∀ model : String, model ∈ pass.unpriced ↔ model ∈ other.unpriced)
    (htotal : pass.total = other.total) : pass = other := by
  cases pass
  cases other
  rw [mk.injEq]
  exact ⟨ExtTreeMap.ext_getElem? hrows, ExtTreeSet.ext_mem hmissing, ExtTreeSet.ext_mem hunpriced,
    htotal⟩

/-- A refusal marks the row. -/
theorem refused_onto (old : Option ModelEntry) :
    (⟨0, .unavailable, true⟩ : ModelEntry).onto old =
      { old.getD ⟨0, .unavailable, true⟩ with basis := .unavailable, unpriced := true } := by
  cases old with
  | none => rfl
  | some old =>
    unfold ModelEntry.onto ModelEntry.join
    simp only [add_zero, leastConfidentBasis_unavailable, Bool.or_true, Option.getD_some]

/-- A charge adds to the row. -/
theorem charged_onto (cost : Rat) (basis : PricingBasis) (old : Option ModelEntry) :
    (⟨cost, basis, false⟩ : ModelEntry).onto old =
      { old.getD ⟨0, basis, false⟩ with
        cost := (old.getD ⟨0, basis, false⟩).cost + cost
        basis := leastConfidentBasis (old.getD ⟨0, basis, false⟩).basis basis } := by
  cases old with
  | none =>
    unfold ModelEntry.onto
    simp only [Option.getD_none, zero_add, leastConfidentBasis_self]
  | some old =>
    unfold ModelEntry.onto ModelEntry.join
    simp only [Option.getD_some, Bool.or_false]

/-- The rows after tokens of a class. -/
theorem getElem?_enter (key : String) :
    (pass.enter model tokens bucketClass).byModel[key]? =
      if model = key then bucketClass.row tokens pass.byModel[model]? else pass.byModel[key]? := by
  cases bucketClass with
  | withheld => exact getElem?_updateEntry _ _ _ _
  | absent =>
    show pass.byModel[key]? = _
    by_cases h : model = key
    · rw [if_pos h, h]
      rfl
    · rw [if_neg h]
  | shown => exact getElem?_updateEntry _ _ _ _
  | rated tariff =>
    cases hamount : (tariff.price tokens).amount with
    | none =>
      rw [enter_of_none hamount, BucketClass.row, Tariff.entry_of_none hamount, refused_onto]
      exact getElem?_updateEntry _ _ _ _
    | some cost =>
      rw [enter_of_some hamount, BucketClass.row, Tariff.entry_of_some hamount, charged_onto]
      exact getElem?_updateEntry _ _ _ _

end PricingPass

namespace RateCard

variable {rates : RateCard Rat} {harness model : String} {table : RateTable} {now : DateTime}
  {pass : PricingPass} {bucket : TierBucket} {tier other : Option String} {a b : TokenTotals}
  {old : Option ModelEntry}

/-- The tariffs of a model on two tiers differ in the multiplier only. -/
theorem sameModel_tariff : (rates.tariff harness model tier table now).SameModel
    (rates.tariff harness model other table now) := by
  unfold tariff
  split
  · trivial
  · split
    · trivial
    · simp only
      split
      · trivial
      · split
        · trivial
        · split
          · trivial
          · split
            · trivial
            · split
              · trivial
              · exact ⟨rfl, rfl⟩

/-- The class of a model is flat, or it is rated on every tier. -/
theorem flat_or_rated (rates : RateCard Rat) (harness model : String) (table : RateTable)
    (now : DateTime) :
    (∃ bucketClass : BucketClass, bucketClass.Flat ∧
      ∀ tier, rates.bucketClass harness model tier table now = bucketClass) ∨
    ∀ tier, rates.bucketClass harness model tier table now =
      .rated (rates.tariff harness model tier table now) := by
  unfold bucketClass
  simp only
  split
  · exact Or.inl ⟨_, Or.inl rfl, fun _ ↦ rfl⟩
  · split
    · exact Or.inl ⟨_, Or.inr (Or.inl rfl), fun _ ↦ rfl⟩
    · split
      · exact Or.inr fun _ ↦ rfl
      · exact Or.inl ⟨_, Or.inr (Or.inr rfl), fun _ ↦ rfl⟩

/-- Two buckets of one model act on its row in any order. -/
theorem row_comm :
    (rates.bucketClass harness model tier table now).row a
        ((rates.bucketClass harness model other table now).row b old) =
      (rates.bucketClass harness model other table now).row b
        ((rates.bucketClass harness model tier table now).row a old) := by
  rcases rates.flat_or_rated harness model table now with ⟨bucketClass, hflat, hclass⟩ | hrated
  · rw [hclass, hclass, hflat.row_row a b 0, hflat.row_row b a 0]
  · rw [hrated, hrated]
    simp only [BucketClass.row_rated, ModelEntry.onto_onto]
    rw [Tariff.entry_comm sameModel_tariff]

/-- Two buckets of one model and tier act on its row as their sum. -/
theorem row_add (ha : a.Fits) (hb : b.Fits) :
    (rates.bucketClass harness model tier table now).row b
        ((rates.bucketClass harness model tier table now).row a old) =
      (rates.bucketClass harness model tier table now).row (a + b) old := by
  rcases rates.flat_or_rated harness model table now with ⟨bucketClass, hflat, hclass⟩ | hrated
  · rw [hclass, hflat.row_row]
  · rw [hrated]
    simp only [BucketClass.row_rated, ModelEntry.onto_onto]
    rw [Tariff.entry_add ha hb]

/-- The rows after one bucket. -/
theorem getElem?_priceBucket (key : String) :
    (rates.priceBucket harness table now pass bucket).byModel[key]? =
      if bucket.model = key then
        (rates.bucketClass harness bucket.model bucket.serviceTier table now).row bucket.tokens
          pass.byModel[bucket.model]?
      else pass.byModel[key]? := by
  rw [priceBucket_eq_enter, PricingPass.getElem?_enter]
  cases rates.usesFallback harness bucket.model table now with
  | false => rfl
  | true => rfl

/-- Two buckets can be visited in any order. -/
theorem priceBucket_comm (pass : PricingPass) (first second : TierBucket) :
    rates.priceBucket harness table now (rates.priceBucket harness table now pass first) second =
      rates.priceBucket harness table now (rates.priceBucket harness table now pass second)
        first := by
  apply PricingPass.eq_of_fields
  · intro key
    simp only [getElem?_priceBucket]
    by_cases hfirst : first.model = key
    · subst hfirst
      by_cases hsecond : second.model = first.model
      · rw [hsecond]
        simp only [if_true]
        exact row_comm
      · have hne : ¬ first.model = second.model := fun h ↦ hsecond h.symm
        simp only [hsecond, hne, if_true, if_false]
    · by_cases hsecond : second.model = key
      · subst hsecond
        simp only [hfirst, if_true, if_false]
      · simp only [hfirst, hsecond, if_false]
  · intro key
    simp only [mem_missing_priceBucket]
    exact or_right_comm
  · intro key
    simp only [mem_unpriced_priceBucket]
    exact or_right_comm
  · simp only [total_priceBucket]
    exact add_right_comm _ _ _

/-- Two buckets of one model and tier are visited as one with their sum. -/
theorem priceBucket_add (pass : PricingPass) (ha : a.Fits) (hb : b.Fits) :
    rates.priceBucket harness table now
        (rates.priceBucket harness table now pass ⟨model, tier, a⟩) ⟨model, tier, b⟩ =
      rates.priceBucket harness table now pass ⟨model, tier, a + b⟩ := by
  apply PricingPass.eq_of_fields
  · intro key
    simp only [getElem?_priceBucket]
    by_cases hmodel : model = key
    · simp only [hmodel, if_true]
      exact row_add ha hb
    · simp only [hmodel, if_false]
  · intro key
    simp only [mem_missing_priceBucket]
    exact or_assoc.trans (or_congr_right (or_self_iff ..))
  · intro key
    simp only [mem_unpriced_priceBucket]
    exact or_assoc.trans (or_congr_right (or_self_iff ..))
  · simp only [total_priceBucket]
    unfold amount
    simp only [priceTokens_eq_price, Tariff.amount_add ha hb]
    exact add_assoc _ _ _

/-- The usage of each model and tier. -/
def usageByTier (buckets : List TierBucket) : ExtTreeMap (String × Option String) TokenTotals :=
  groupSum (buckets.map fun bucket ↦ ((bucket.model, bucket.serviceTier), bucket.tokens))

/-- The pass over the usage of models and tiers. -/
theorem additive_priceBucket (rates : RateCard Rat) (harness : String) (table : RateTable)
    (now : DateTime) : GroupedFold.Additive
      (fun pass (e : (String × Option String) × TokenTotals) ↦
        rates.priceBucket harness table now pass ⟨e.1.1, e.1.2, e.2⟩) TokenTotals.Fits where
  comm pass _ _ := priceBucket_comm pass _ _
  merge pass _ _ _ hu hv := priceBucket_add pass hu hv
  valid _ _ hu hv := hu.add hv

theorem pricingPass_eq_foldl (rates : RateCard Rat) (harness : String) (buckets : List TierBucket)
    (table : RateTable) (now : DateTime) : rates.pricingPass harness buckets table now =
      (buckets.map fun bucket ↦ ((bucket.model, bucket.serviceTier), bucket.tokens)).foldl
        (fun pass e ↦ rates.priceBucket harness table now pass ⟨e.1.1, e.1.2, e.2⟩) .empty := by
  rw [List.foldl_map]
  rfl

/-- The report of buckets which fit is the same in any order, with two buckets of one model and
tier merged or one split, and for all buckets with the same usage of each model and tier. -/
theorem priceBucketsDetailed_regrouped (rates : RateCard Rat) (harness : String)
    (buckets : List TierBucket) (table : RateTable) (now : DateTime)
    (hfits : ∀ bucket ∈ buckets, bucket.tokens.Fits) :
    (∀ permuted, permuted.Perm buckets →
      rates.priceBucketsDetailed harness permuted table now =
        rates.priceBucketsDetailed harness buckets table now) ∧
    (∀ before after model tier a b,
      buckets = before ++ ⟨model, tier, a⟩ :: ⟨model, tier, b⟩ :: after →
      rates.priceBucketsDetailed harness (before ++ ⟨model, tier, a + b⟩ :: after) table now =
        rates.priceBucketsDetailed harness buckets table now) ∧
    ∀ regrouped, (∀ bucket ∈ regrouped, bucket.tokens.Fits) →
      usageByTier regrouped = usageByTier buckets →
      rates.priceBucketsDetailed harness regrouped table now =
        rates.priceBucketsDetailed harness buckets table now := by
  have hpass : ∀ other, rates.pricingPass harness other table now =
      rates.pricingPass harness buckets table now →
      rates.priceBucketsDetailed harness other table now =
        rates.priceBucketsDetailed harness buckets table now := by
    intro other h
    unfold priceBucketsDetailed
    rw [h]
  refine ⟨?_, ?_, ?_⟩
  · intro permuted hperm
    apply hpass
    rw [pricingPass_eq_foldl, pricingPass_eq_foldl]
    exact (rates.additive_priceBucket harness table now).foldl_perm (hperm.map _) _
  · rintro before after model tier a b rfl
    apply hpass
    unfold pricingPass
    rw [List.foldl_append, List.foldl_append, List.foldl_cons, List.foldl_cons, List.foldl_cons,
      priceBucket_add]
    · exact hfits ⟨model, tier, a⟩ (by simp)
    · exact hfits ⟨model, tier, b⟩ (by simp)
  · intro regrouped hregrouped husage
    apply hpass
    rw [pricingPass_eq_foldl, pricingPass_eq_foldl]
    refine (rates.additive_priceBucket harness table now).foldl_eq_of_groupSum_eq ?_ ?_ husage _
    · intro e he
      obtain ⟨bucket, hbucket, rfl⟩ := List.mem_map.mp he
      exact hregrouped bucket hbucket
    · intro e he
      obtain ⟨bucket, hbucket, rfl⟩ := List.mem_map.mp he
      exact hfits bucket hbucket

end RateCard

/-- Input of which a part was cached. -/
def cachedInput (input cached : Nat) : TokenTotals :=
  { TokenTotals.zero with
    inputTokens := input, cachedInputTokens := cached, totalTokens := input }

theorem priceBucketsDetailed_mergedInput :
    oneRowCard.priceBucketsDetailed "codex"
        [⟨"gpt-5.5", none, cachedInput 5 5 + cachedInput 9 2⟩] .plan .epoch =
      oneRowCard.priceBucketsDetailed "codex"
        [⟨"gpt-5.5", none, cachedInput 5 5⟩, ⟨"gpt-5.5", none, cachedInput 9 2⟩] .plan .epoch := by
  have hfits : ∀ bucket ∈ ([⟨"gpt-5.5", none, cachedInput 5 5⟩,
      ⟨"gpt-5.5", none, cachedInput 9 2⟩] : List TierBucket), bucket.tokens.Fits := by
    intro bucket hbucket
    rcases List.mem_pair.mp hbucket with rfl | rfl
    · exact ⟨by decide, by decide⟩
    · exact ⟨by decide, by decide⟩
  exact (oneRowCard.priceBucketsDetailed_regrouped "codex" _ .plan .epoch hfits).2.1 [] [] _ _ _ _
    rfl

/-! ### The same sums in `f64` -/

section Numbers

variable {ν : Type} [Add ν] [Mul ν] [Div ν] (number : Nat → ν)

/-- `token_cost`, `query.rs:174–189`, in any arithmetic. -/
def tokenCostIn (tokens : TokenTotals) (rate : ModelRate ν) (multiplier : ν) : ν :=
  let nonCachedInput :=
    tokens.inputTokens - tokens.cachedInputTokens - tokens.cacheCreationInputTokens
  let nonReasoningOutput := tokens.outputTokens - tokens.reasoningOutputTokens
  (number nonCachedInput * rate.input + number tokens.cachedInputTokens * rate.cachedInput +
    number tokens.cacheCreationInputTokens * rate.cacheCreationInput.getD rate.input +
    number nonReasoningOutput * rate.output +
    number tokens.reasoningOutputTokens * rate.reasoning) / number 1000000 * multiplier

/-- What the plan table charges for tokens without a tier: the multiplier is 1. Follows
`query.rs:72–166`. -/
def planAmountIn (card : RateCard ν) (harness model : String) (tokens : TokenTotals)
    (now : DateTime) : ν :=
  let resolution := card.resolveModelPricing model harness card.models now
  if resolution.basis = .freeLocal ∨ resolution.basis = .unavailable then number 0
  else
    match card.models[resolution.resolvedModel]? with
    | none => number 0
    | some rate => tokenCostIn number tokens rate (number 1)

/-- The running total of buckets without a tier on the plan table. Follows
`query.rs:640–716`. -/
def planTotalIn (card : RateCard ν) (harness : String) (buckets : List TierBucket)
    (now : DateTime) : ν :=
  buckets.foldl
    (fun total bucket ↦ total + planAmountIn number card harness bucket.model bucket.tokens now)
    (number 0)

end Numbers

namespace RateCard

variable {rates : RateCard Rat} {harness : String} {now : DateTime}

theorem planAmountIn_exact {bucket : TierBucket} (htier : bucket.serviceTier = none) :
    planAmountIn Nat.cast rates harness bucket.model bucket.tokens now =
      (rates.amount harness .plan now bucket).getD 0 := by
  have htable : rates.rateTable .plan = rates.models := rfl
  have hmultiplier : ∀ resolved fallbackUsed,
      rates.tierMultiplier harness resolved fallbackUsed none .plan now = some 1 := fun _ _ ↦ rfl
  have hrate : ∀ rate : ModelRate Rat, chargedRate .plan rate = rate := fun _ ↦ rfl
  have happlies : rates.apiMissing harness .plan = false := rfl
  have hsold : creditsUnsold harness .plan = false := rfl
  unfold planAmountIn amount priceTokens
  rw [happlies, hsold, htable, htier]
  simp only [Bool.false_eq_true, if_false]
  by_cases hfree : (rates.resolveModelPricing bucket.model harness rates.models now).basis =
      .freeLocal
  · rw [if_pos (.inl hfree), if_pos hfree]
    exact Nat.cast_zero
  · by_cases hmissing : (rates.resolveModelPricing bucket.model harness rates.models now).basis =
        .unavailable
    · rw [if_pos (.inr hmissing), if_neg hfree, if_pos hmissing]
      exact Nat.cast_zero
    · rw [if_neg (not_or.mpr ⟨hfree, hmissing⟩), if_neg hfree, if_neg hmissing]
      cases rates.models[(rates.resolveModelPricing bucket.model harness rates.models
          now).resolvedModel]? with
      | none => exact Nat.cast_zero
      | some rate =>
        simp only [hmultiplier, hrate, Option.getD_some]
        unfold tokenCostIn tokenCost ModelRate.cacheCreationRate
        norm_cast

/-- On exact numbers it is the total of the pass. -/
theorem planTotalIn_exact {buckets : List TierBucket}
    (htiers : ∀ bucket ∈ buckets, bucket.serviceTier = none) :
    planTotalIn Nat.cast rates harness buckets now =
      (rates.pricingPass harness buckets .plan now).total := by
  have hfold : ∀ (pass : PricingPass) (total : Rat), total = pass.total →
      buckets.foldl (fun total bucket ↦ total +
          planAmountIn Nat.cast rates harness bucket.model bucket.tokens now) total =
        (buckets.foldl (rates.priceBucket harness .plan now) pass).total := by
    induction buckets with
    | nil => exact fun _ _ h ↦ h
    | cons bucket rest ih =>
      intro pass total htotal
      rw [List.forall_mem_cons] at htiers
      rw [List.foldl_cons, List.foldl_cons]
      apply ih htiers.2
      rw [planAmountIn_exact htiers.1, total_priceBucket, htotal]
  exact hfold .empty _ Nat.cast_zero

end RateCard

/-- One unit for a million tokens of input, eight for a million of output. -/
def unitRateF64 : ModelRate Float :=
  { input := 1.0, cachedInput := 1.0, cacheCreationInput := none, output := 8.0, reasoning := 8.0 }

/-- A card of `f64` rates with one row. -/
def unitCardF64 : RateCard Float where
  version := 13
  currency := "USD"
  unit := "per_1m_tokens"
  sourceUrl := "https://example.test/rates"
  fetchedAt := none
  models := ExtTreeMap.ofList [("gpt-5.5", unitRateF64)]
  fallbackModel := "gpt-5.5"
  currencies := ∅
  fallbackModels := ∅
  apiModels := ∅
  unpricedModels := []
  pricingCatalog := ⟨[], [], []⟩
  modelAliases := ∅
  floatingModelAliases := ∅
  freeLocalModels := []
  subscriptionPlans := ∅
  displayCurrency := none
  refresh := ⟨none, none, none, 604800⟩
  delivery := none
  rateProvenance := ∅
  upgradeReview := []
  flatRateExpiresAt := ∅

/-- In `f64` the total depends on the order of the buckets, in its last bit: a tenth, two tenths and
three tenths of a unit. -/
theorem planTotal_depends_on_order :
    ¬ ∀ (card : RateCard Float) (harness : String) (buckets permuted : List TierBucket)
        (now : DateTime), card.validate = .ok () →
      (∀ bucket ∈ buckets, bucket.serviceTier = none ∧ bucket.tokens.Fits) →
      permuted.Perm buckets →
        planTotalIn Float.ofNat card harness permuted now =
          planTotalIn Float.ofNat card harness buckets now := by
  intro h
  have hfits : ∀ bucket ∈ ([⟨"gpt-5.5", none, cachedInput 100000 0⟩,
      ⟨"gpt-5.5", none, cachedInput 200000 0⟩,
      ⟨"gpt-5.5", none, cachedInput 300000 0⟩] : List TierBucket),
        bucket.serviceTier = none ∧ bucket.tokens.Fits := by
    intro bucket hbucket
    simp only [List.mem_cons, List.not_mem_nil, or_false] at hbucket
    rcases hbucket with rfl | rfl | rfl
    · exact ⟨rfl, by decide, by decide⟩
    · exact ⟨rfl, by decide, by decide⟩
    · exact ⟨rfl, by decide, by decide⟩
  have hequal := h unitCardF64 "codex" _ [⟨"gpt-5.5", none, cachedInput 300000 0⟩,
    ⟨"gpt-5.5", none, cachedInput 200000 0⟩, ⟨"gpt-5.5", none, cachedInput 100000 0⟩] .epoch
    (by decide +kernel) hfits (by decide)
  revert hequal
  decide +kernel

end AgentOdometer.Pricing
