import AgentOdometer.Lib.KeyedFold
import AgentOdometer.Pricing.Buckets
import AgentOdometer.Pricing.UpgradeValidity

/-!
# Agreement of the two passes

`price_buckets_detailed` and `price_buckets` visit the same buckets with two loops. They agree on
the total and on what they leave out, except for a free model without a row where credits are
asked for outside Codex: the plain pass leaves it out and the detailed one shows it as free.
-/

namespace AgentOdometer.Pricing

open Std (ExtTreeMap ExtTreeSet)
open GroupBy

namespace PricingPass

variable {pass : PricingPass} {model : String} {tokens : TokenTotals} {bucketClass : BucketClass}
  {tariff : Tariff}

theorem enter_of_none (h : (tariff.price tokens).amount = none) :
    pass.enter model tokens (.rated tariff) = pass.refuse model := by
  simp only [enter, h]

theorem enter_of_some {cost : Rat} (h : (tariff.price tokens).amount = some cost) :
    pass.enter model tokens (.rated tariff) =
      pass.charge model cost (tariff.price tokens).basis := by
  simp only [enter, h]

/-- The costs of the rows. -/
def costs (pass : PricingPass) : Rat :=
  (pass.byModel.toList.map fun entry ↦ entry.2.cost).sum

@[simp] theorem total_addMissing : (pass.addMissing model).total = pass.total := rfl

@[simp] theorem costs_addMissing : (pass.addMissing model).costs = pass.costs := rfl

/-- An update which adds to the cost of a row adds to the sum of the rows. -/
theorem costs_updateEntry (entry : ModelEntry) {f : ModelEntry → ModelEntry} (cost : Rat)
    (hzero : entry.cost = 0) (hcost : ∀ old, (f old).cost = old.cost + cost)
    {unpriced missing : ExtTreeSet String} {total : Rat} :
    (⟨updateEntry pass.byModel model entry f, missing, unpriced, total⟩ : PricingPass).costs =
      pass.costs + cost :=
  sum_map_toList_updateEntry (fun (_ : String) (old : ModelEntry) ↦ old.cost) cost hzero hcost

/-- The amount which a class adds to the total. -/
def amountOf (tokens : TokenTotals) : BucketClass → Rat
  | .rated tariff => (tariff.price tokens).amount.getD 0
  | _ => 0

@[simp] theorem amountOf_rated :
    amountOf tokens (.rated tariff) = (tariff.price tokens).amount.getD 0 := rfl

theorem total_enter : (pass.enter model tokens bucketClass).total =
    pass.total + amountOf tokens bucketClass := by
  cases bucketClass with
  | withheld => exact (add_zero _).symm
  | absent => exact (add_zero _).symm
  | shown => exact (add_zero _).symm
  | rated tariff =>
    cases hamount : (tariff.price tokens).amount with
    | none =>
      rw [enter_of_none hamount, amountOf_rated, hamount]
      exact (add_zero _).symm
    | some cost =>
      rw [enter_of_some hamount, amountOf_rated, hamount]
      rfl

theorem costs_enter : (pass.enter model tokens bucketClass).costs =
    pass.costs + amountOf tokens bucketClass := by
  cases bucketClass with
  | withheld => exact costs_updateEntry ⟨0, .unavailable, true⟩ 0 rfl fun _ ↦ (add_zero _).symm
  | absent => exact (add_zero _).symm
  | shown => exact costs_updateEntry ⟨0, .freeLocal, false⟩ 0 rfl fun _ ↦ (add_zero _).symm
  | rated tariff =>
    cases hamount : (tariff.price tokens).amount with
    | none =>
      rw [enter_of_none hamount, amountOf_rated, hamount]
      refine costs_updateEntry ⟨0, .unavailable, true⟩ 0 rfl ?_
      exact fun _ ↦ (add_zero _).symm
    | some cost =>
      rw [enter_of_some hamount, amountOf_rated, hamount]
      exact costs_updateEntry ⟨0, _, false⟩ cost rfl fun _ ↦ rfl

/-- The classes which put their model among the unpriced ones. -/
def Unpriceable : BucketClass → Prop
  | .withheld => True
  | .rated tariff => ¬ tariff.Answers
  | _ => False

theorem mem_unpriced_enter {other : String} :
    other ∈ (pass.enter model tokens bucketClass).unpriced ↔
    other ∈ pass.unpriced ∨ (model = other ∧ Unpriceable bucketClass) := by
  have hinsert : other ∈ pass.unpriced.insert model ↔ other ∈ pass.unpriced ∨ model = other := by
    rw [ExtTreeSet.mem_insert, Std.compare_eq_iff_eq, or_comm]
  cases bucketClass with
  | withheld => exact hinsert.trans (by simp [Unpriceable])
  | absent => exact (or_iff_left fun h ↦ h.2).symm
  | shown => exact (or_iff_left fun h ↦ h.2).symm
  | rated tariff =>
    unfold Unpriceable
    cases hamount : (tariff.price tokens).amount with
    | none =>
      rw [enter_of_none hamount]
      rw [Tariff.amount_price_eq_none] at hamount
      exact hinsert.trans (by simp [hamount])
    | some cost =>
      rw [enter_of_some hamount]
      have hanswers : tariff.Answers :=
        Tariff.isSome_amount_price.mp (Option.isSome_of_eq_some hamount)
      exact (or_iff_left fun h ↦ h.2 hanswers).symm

theorem mem_missing_enter {other : String} :
    other ∈ (pass.enter model tokens bucketClass).missing ↔
    other ∈ pass.missing ∨ (model = other ∧ bucketClass = .absent) := by
  cases bucketClass with
  | withheld => exact (or_iff_left fun h ↦ BucketClass.noConfusion h.2).symm
  | absent =>
    show other ∈ pass.missing.insert model ↔ _
    rw [ExtTreeSet.mem_insert, Std.compare_eq_iff_eq, or_comm]
    simp
  | shown => exact (or_iff_left fun h ↦ BucketClass.noConfusion h.2).symm
  | rated tariff =>
    have hnot : ¬ (model = other ∧ BucketClass.rated tariff = .absent) :=
      fun h ↦ BucketClass.noConfusion h.2
    cases hamount : (tariff.price tokens).amount with
    | none =>
      rw [enter_of_none hamount]
      exact (or_iff_left hnot).symm
    | some cost =>
      rw [enter_of_some hamount]
      exact (or_iff_left hnot).symm

end PricingPass

namespace RateCard

variable {rates : RateCard Rat} {harness model : String} {serviceTier : Option String}
  {table : RateTable} {now : DateTime} {pass : PricingPass} {bucket : TierBucket}
  {buckets : List TierBucket}

/-- The amount of a bucket. -/
def amount (rates : RateCard Rat) (harness : String) (table : RateTable) (now : DateTime)
    (bucket : TierBucket) : Option Rat :=
  (rates.priceTokens harness bucket.model bucket.serviceTier bucket.tokens table now).amount

/-- The bucket has an amount. -/
def Prices (rates : RateCard Rat) (harness : String) (table : RateTable) (now : DateTime)
    (bucket : TierBucket) : Prop :=
  rates.amount harness table now bucket ≠ none

theorem prices_iff_answers : rates.Prices harness table now bucket ↔
    (rates.tariff harness bucket.model bucket.serviceTier table now).Answers := by
  unfold Prices amount
  rw [priceTokens_eq_price, Ne, Tariff.amount_price_eq_none, not_not]

/-! ### Tariff and class -/

theorem not_answers_of_unavailable
    (h : (rates.resolveModelPricing model harness (rates.rateTable table) now).basis =
      .unavailable) : ¬ (rates.tariff harness model serviceTier table now).Answers := by
  unfold tariff
  split
  · exact id
  · split
    · exact id
    · simp only
      rw [if_neg (by rw [h]; decide), if_pos h]
      exact id

/-- Without credits for sale nothing has a price. -/
theorem not_answers_of_unsold (h : creditsUnsold harness table = true) :
    ¬ (rates.tariff harness model serviceTier table now).Answers := by
  unfold tariff
  split
  · exact id
  · exact id

/-- A free model has a price wherever its table is offered. -/
theorem answers_of_free (hapi : rates.apiMissing harness table = false)
    (hsold : creditsUnsold harness table = false)
    (hfree : (rates.resolveModelPricing model harness (rates.rateTable table) now).basis =
      .freeLocal) : (rates.tariff harness model serviceTier table now).Answers := by
  unfold tariff
  rw [if_neg (Bool.eq_false_iff.mp hapi), if_neg (Bool.eq_false_iff.mp hsold)]
  simp only
  rw [if_pos hfree]
  trivial

/-- The pass shows a free model without a row. -/
theorem bucketClass_eq_shown_iff :
    rates.bucketClass harness model serviceTier table now = .shown ↔
      model ∈ rates.freeLocalModels ∧ model ∉ rates.rateTable table := by
  by_cases hfree : model ∈ rates.freeLocalModels
  · unfold bucketClass
    rw [resolveModelPricing_of_free hfree]
    by_cases hrow : model ∈ rates.rateTable table
    · simp [hrow]
    · simp [hrow, hfree]
  · refine iff_of_false ?_ fun h ↦ hfree h.1
    unfold bucketClass
    simp only
    split
    · exact BucketClass.noConfusion
    · split
      · exact BucketClass.noConfusion
      next havailable =>
        rw [if_pos]
        · exact BucketClass.noConfusion
        · by_contra hrow
          exact hfree (basis_eq_freeLocal_iff.mp (basis_eq_freeLocal_of_notMem havailable hrow))

/-- The classes of a model and what they say about its tariff. -/
theorem bucketClass_cases :
    (rates.bucketClass harness model serviceTier table now = .withheld ∧
      ¬ (rates.tariff harness model serviceTier table now).Answers) ∨
    (rates.bucketClass harness model serviceTier table now = .absent ∧
      ∀ tier, rates.bucketClass harness model tier table now = .absent ∧
        ¬ (rates.tariff harness model tier table now).Answers) ∨
    rates.bucketClass harness model serviceTier table now =
      .rated (rates.tariff harness model serviceTier table now) ∨
    rates.bucketClass harness model serviceTier table now = .shown := by
  unfold bucketClass
  simp only
  split
  next hwithheld =>
    rw [Bool.and_eq_true, decide_eq_true_eq] at hwithheld
    exact Or.inl ⟨rfl, not_answers_of_unavailable hwithheld.1⟩
  · split
    next hunavailable =>
      exact Or.inr (Or.inl ⟨rfl, fun _ ↦ ⟨rfl, not_answers_of_unavailable hunavailable⟩⟩)
    · split
      · exact Or.inr (Or.inr (Or.inl rfl))
      · exact Or.inr (Or.inr (Or.inr rfl))

/-! ### The two passes -/

/-- A bucket adds its amount to the total, if it has one. -/
theorem amountOf_bucketClass :
    PricingPass.amountOf bucket.tokens
        (rates.bucketClass harness bucket.model bucket.serviceTier table now) =
      (rates.amount harness table now bucket).getD 0 := by
  unfold amount
  rw [priceTokens_eq_price]
  have hnone : ¬ (rates.tariff harness bucket.model bucket.serviceTier table now).Answers →
      (((rates.tariff harness bucket.model bucket.serviceTier table now).price
        bucket.tokens).amount).getD 0 = 0 := by
    intro h
    rw [Tariff.amount_price_eq_none.mpr h, Option.getD_none]
  rcases @bucketClass_cases rates harness bucket.model bucket.serviceTier table now with
    ⟨hclass, hrefused⟩ | ⟨hclass, hrefused⟩ | hclass | hclass
  · rw [hclass, hnone hrefused]
    rfl
  · rw [hclass, hnone (hrefused _).2]
    rfl
  · rw [hclass]
    rfl
  · rw [hclass]
    obtain ⟨hfree, -⟩ := bucketClass_eq_shown_iff.mp hclass
    unfold tariff
    split
    · rfl
    · split
      · rfl
      · simp only
        rw [if_pos (basis_eq_freeLocal_iff.mpr hfree)]
        rfl

theorem total_priceBucket : (rates.priceBucket harness table now pass bucket).total =
    pass.total + (rates.amount harness table now bucket).getD 0 := by
  rw [priceBucket_eq_enter, PricingPass.total_enter, amountOf_bucketClass]
  split
  · rfl
  · rfl

theorem costs_priceBucket : (rates.priceBucket harness table now pass bucket).costs =
    pass.costs + (rates.amount harness table now bucket).getD 0 := by
  rw [priceBucket_eq_enter, PricingPass.costs_enter, amountOf_bucketClass]
  split
  · rfl
  · rfl

/-- The sum of the amounts. -/
def amounts (rates : RateCard Rat) (harness : String) (buckets : List TierBucket)
    (table : RateTable) (now : DateTime) : Rat :=
  (buckets.map fun bucket ↦ (rates.amount harness table now bucket).getD 0).sum

/-- A step which adds an amount for each bucket computes the sum of the amounts. -/
theorem foldl_eq_amounts {σ : Type} {step : σ → TierBucket → σ} {obs : σ → Rat}
    (hstep : ∀ s bucket, obs (step s bucket) =
      obs s + (rates.amount harness table now bucket).getD 0) (s : σ) :
    obs (buckets.foldl step s) = obs s + rates.amounts harness buckets table now := by
  unfold amounts
  induction buckets generalizing s with
  | nil => simp
  | cons bucket rest ih => rw [List.foldl_cons, ih, hstep, List.map_cons, List.sum_cons, add_assoc]

theorem total_pricingPass :
    (rates.pricingPass harness buckets table now).total = rates.amounts harness buckets table now :=
  (foldl_eq_amounts (fun _ _ ↦ total_priceBucket) _).trans (zero_add _)

theorem costs_pricingPass :
    (rates.pricingPass harness buckets table now).costs = rates.amounts harness buckets table now :=
  (foldl_eq_amounts (fun _ _ ↦ costs_priceBucket) _).trans (zero_add _)

/-- The bucket puts its model among the unpriced ones. -/
def Unpriceable (rates : RateCard Rat) (harness : String) (table : RateTable) (now : DateTime)
    (bucket : TierBucket) : Prop :=
  PricingPass.Unpriceable (rates.bucketClass harness bucket.model bucket.serviceTier table now)

/-- The bucket puts its model among the missing ones. -/
def Missing (rates : RateCard Rat) (harness : String) (table : RateTable) (now : DateTime)
    (bucket : TierBucket) : Prop :=
  rates.usesFallback harness bucket.model table now = true ∨
    rates.bucketClass harness bucket.model bucket.serviceTier table now = .absent

theorem mem_unpriced_priceBucket :
    model ∈ (rates.priceBucket harness table now pass bucket).unpriced ↔
      model ∈ pass.unpriced ∨
        (bucket.model = model ∧ rates.Unpriceable harness table now bucket) := by
  rw [priceBucket_eq_enter, PricingPass.mem_unpriced_enter]
  split
  · rfl
  · rfl

theorem mem_missing_priceBucket :
    model ∈ (rates.priceBucket harness table now pass bucket).missing ↔
      model ∈ pass.missing ∨ (bucket.model = model ∧ rates.Missing harness table now bucket) := by
  rw [priceBucket_eq_enter, PricingPass.mem_missing_enter]
  unfold Missing
  split
  next hfallback =>
    show model ∈ pass.missing.insert bucket.model ∨ _ ↔ _
    rw [ExtTreeSet.mem_insert, Std.compare_eq_iff_eq]
    simp only [hfallback, true_or, and_true]
    tauto
  next hfallback => simp [hfallback]

theorem mem_unpriced_pricingPass :
    model ∈ (rates.pricingPass harness buckets table now).unpriced ↔
      ∃ bucket ∈ buckets, bucket.model = model ∧ rates.Unpriceable harness table now bucket := by
  have hrun := KeyedFold.foldl_iff_exists (fun pass : PricingPass ↦ model ∈ pass.unpriced)
    (fun pass bucket ↦ @mem_unpriced_priceBucket rates harness model table now pass bucket) buckets
    .empty
  exact hrun.trans (or_iff_right ExtTreeSet.not_mem_empty)

theorem mem_missing_pricingPass :
    model ∈ (rates.pricingPass harness buckets table now).missing ↔
      ∃ bucket ∈ buckets, bucket.model = model ∧ rates.Missing harness table now bucket := by
  have hrun := KeyedFold.foldl_iff_exists (fun pass : PricingPass ↦ model ∈ pass.missing)
    (fun pass bucket ↦ @mem_missing_priceBucket rates harness model table now pass bucket) buckets
    .empty
  exact hrun.trans (or_iff_right ExtTreeSet.not_mem_empty)

/-- The plain pass. -/
def plainPass (rates : RateCard Rat) (harness : String) (buckets : List TierBucket)
    (table : RateTable) (now : DateTime) : Rat × Bool × ExtTreeSet String :=
  buckets.foldl (rates.addBucket harness table now) (0, false, ∅)

section Plain

variable {acc : Rat × Bool × ExtTreeSet String}

theorem addBucket_of_none (h : rates.amount harness table now bucket = none) :
    rates.addBucket harness table now acc bucket =
      (acc.1, acc.2.1, acc.2.2.insert bucket.model) := by
  unfold amount at h
  simp only [addBucket, h]

theorem addBucket_of_some {value : Rat} (h : rates.amount harness table now bucket = some value) :
    rates.addBucket harness table now acc bucket = (acc.1 + value, true, acc.2.2) := by
  unfold amount at h
  simp only [addBucket, h]

theorem total_addBucket : (rates.addBucket harness table now acc bucket).1 =
    acc.1 + (rates.amount harness table now bucket).getD 0 := by
  cases h : rates.amount harness table now bucket with
  | none =>
    rw [addBucket_of_none h]
    exact (add_zero _).symm
  | some value =>
    rw [addBucket_of_some h]
    rfl

theorem priced_addBucket : (rates.addBucket harness table now acc bucket).2.1 = true ↔
    acc.2.1 = true ∨ rates.Prices harness table now bucket := by
  unfold Prices
  cases h : rates.amount harness table now bucket with
  | none =>
    rw [addBucket_of_none h]
    simp
  | some value =>
    rw [addBucket_of_some h]
    simp

theorem mem_omitted_addBucket : model ∈ (rates.addBucket harness table now acc bucket).2.2 ↔
    model ∈ acc.2.2 ∨ (bucket.model = model ∧ ¬ rates.Prices harness table now bucket) := by
  unfold Prices
  cases h : rates.amount harness table now bucket with
  | none =>
    rw [addBucket_of_none h, ExtTreeSet.mem_insert, Std.compare_eq_iff_eq]
    simp [or_comm]
  | some value =>
    rw [addBucket_of_some h]
    simp

theorem total_plainPass :
    (rates.plainPass harness buckets table now).1 = rates.amounts harness buckets table now :=
  (foldl_eq_amounts (fun _ _ ↦ total_addBucket) _).trans (zero_add _)

theorem priced_plainPass : (rates.plainPass harness buckets table now).2.1 = true ↔
    ∃ bucket ∈ buckets, rates.Prices harness table now bucket := by
  have hrun := KeyedFold.foldl_iff_exists
    (fun acc : Rat × Bool × ExtTreeSet String ↦ acc.2.1 = true)
    (fun acc bucket ↦ @priced_addBucket rates harness table now bucket acc) buckets (0, false, ∅)
  exact hrun.trans (or_iff_right Bool.false_ne_true)

theorem mem_omitted_plainPass : model ∈ (rates.plainPass harness buckets table now).2.2 ↔
    ∃ bucket ∈ buckets, bucket.model = model ∧ ¬ rates.Prices harness table now bucket := by
  have hrun := KeyedFold.foldl_iff_exists
    (fun acc : Rat × Bool × ExtTreeSet String ↦ model ∈ acc.2.2)
    (fun acc bucket ↦ @mem_omitted_addBucket rates harness model table now bucket acc) buckets
    (0, false, ∅)
  exact hrun.trans (or_iff_right ExtTreeSet.not_mem_empty)

end Plain

/-! ### Agreement -/

/-- The detailed report says the same as the plain pass. -/
structure Agrees (rates : RateCard Rat) (harness : String) (buckets : List TierBucket)
    (table : RateTable) (now : DateTime) (surface : PricedSurface) : Prop where
  byModel : (surface.byModel.map (·.cost)).sum = surface.total
  total : (∃ bucket ∈ buckets, rates.Prices harness table now bucket) →
    (rates.priceBuckets harness buckets table now).1 = some surface.total
  nothing : (¬ ∃ bucket ∈ buckets, rates.Prices harness table now bucket) →
    (rates.priceBuckets harness buckets table now).1 = none ∧ surface.total = 0
  omitted : ∀ model, model ∈ (rates.priceBuckets harness buckets table now).2 ↔
    model ∈ surface.unpricedModels ∨ (model ∈ surface.missingModels ∧
      ∀ bucket ∈ buckets, bucket.model = model → ¬ rates.Prices harness table now bucket)

/-- Credits are asked for outside Codex, for a free model without a row. -/
def FreeUnsold (rates : RateCard Rat) (harness : String) (buckets : List TierBucket)
    (table : RateTable) : Prop :=
  creditsUnsold harness table = true ∧
    ∃ bucket ∈ buckets, bucket.model ∈ rates.freeLocalModels ∧ bucket.model ∉ rates.models

theorem priceBuckets_fst : (rates.priceBuckets harness buckets table now).1 =
    if (rates.plainPass harness buckets table now).2.1 then
      some (rates.amounts harness buckets table now) else none := by
  rw [← total_plainPass]
  rfl

theorem priceBuckets_snd : (rates.priceBuckets harness buckets table now).2 =
    (rates.plainPass harness buckets table now).2.2.toList :=
  rfl

/-- Credits are looked up in the table of the plan. -/
theorem rateTable_of_unsold (h : creditsUnsold harness table = true) :
    rates.rateTable table = rates.models := by
  unfold creditsUnsold RateTable.isCredits at h
  cases table with
  | plan => rfl
  | api => cases h
  | purchasedCredits => rfl
  | includedAllowance => rfl
  | apiEstimate => cases h

/-- What the detailed pass leaves out. -/
def Omits (rates : RateCard Rat) (harness : String) (buckets : List TierBucket) (table : RateTable)
    (now : DateTime) (model : String) : Prop :=
  model ∈ (rates.pricingPass harness buckets table now).unpriced ∨
    (model ∈ (rates.pricingPass harness buckets table now).missing ∧
      ∀ bucket ∈ buckets, bucket.model = model → ¬ rates.Prices harness table now bucket)

/-- What the detailed pass leaves out has no amount. -/
theorem exists_not_prices (h : rates.Omits harness buckets table now model) :
    ∃ bucket ∈ buckets, bucket.model = model ∧ ¬ rates.Prices harness table now bucket := by
  rcases h with hunpriced | ⟨hmissing, hnone⟩
  · obtain ⟨bucket, hbucket, hmodel, hclass⟩ := mem_unpriced_pricingPass.mp hunpriced
    refine ⟨bucket, hbucket, hmodel, ?_⟩
    rw [prices_iff_answers]
    unfold Unpriceable at hclass
    rcases @bucketClass_cases rates harness bucket.model bucket.serviceTier table now with
      ⟨-, hrefused⟩ | ⟨-, hrefused⟩ | hrated | hshown
    · exact hrefused
    · exact (hrefused _).2
    · rw [hrated] at hclass
      exact hclass
    · rw [hshown] at hclass
      exact hclass.elim
  · obtain ⟨bucket, hbucket, hmodel, -⟩ := mem_missing_pricingPass.mp hmissing
    exact ⟨bucket, hbucket, hmodel, hnone bucket hbucket hmodel⟩

/-- A bucket without an amount is left out by the detailed pass, unless it is shown as free. -/
theorem omits_of_not_prices (hbucket : bucket ∈ buckets)
    (hnone : ¬ rates.Prices harness table now bucket)
    (hshown : rates.bucketClass harness bucket.model bucket.serviceTier table now ≠ .shown) :
    rates.Omits harness buckets table now bucket.model := by
  rcases @bucketClass_cases rates harness bucket.model bucket.serviceTier table now with
    ⟨hclass, -⟩ | ⟨hclass, hrefused⟩ | hclass | hclass
  · refine Or.inl (mem_unpriced_pricingPass.mpr ⟨bucket, hbucket, rfl, ?_⟩)
    unfold Unpriceable
    rw [hclass]
    trivial
  · refine Or.inr ⟨mem_missing_pricingPass.mpr ⟨bucket, hbucket, rfl, Or.inr hclass⟩, ?_⟩
    intro other _ hmodel
    rw [prices_iff_answers, hmodel]
    exact (hrefused _).2
  · refine Or.inl (mem_unpriced_pricingPass.mpr ⟨bucket, hbucket, rfl, ?_⟩)
    unfold Unpriceable
    rw [hclass]
    rw [prices_iff_answers] at hnone
    exact hnone
  · exact absurd hclass hshown

/-- A free model without a row is not among those which the detailed pass leaves out. -/
theorem not_omits_of_free (hfree : model ∈ rates.freeLocalModels)
    (hrow : model ∉ rates.rateTable table) : ¬ rates.Omits harness buckets table now model := by
  intro homits
  have hmark : ∃ bucket : TierBucket, bucket.model = model ∧
      (rates.Unpriceable harness table now bucket ∨ rates.Missing harness table now bucket) := by
    rcases homits with hunpriced | ⟨hmissing, -⟩
    · obtain ⟨bucket, -, hmodel, hmark⟩ := mem_unpriced_pricingPass.mp hunpriced
      exact ⟨bucket, hmodel, Or.inl hmark⟩
    · obtain ⟨bucket, -, hmodel, hmark⟩ := mem_missing_pricingPass.mp hmissing
      exact ⟨bucket, hmodel, Or.inr hmark⟩
  obtain ⟨bucket, rfl, hmark⟩ := hmark
  have hclass := (@bucketClass_eq_shown_iff rates harness bucket.model bucket.serviceTier table
    now).mpr ⟨hfree, hrow⟩
  unfold Unpriceable Missing usesFallback at hmark
  rw [hclass, resolveModelPricing_of_free hfree] at hmark
  rcases hmark with h | h | h
  · exact h
  · cases h
  · cases h

theorem mem_omitted_priceBuckets : model ∈ (rates.priceBuckets harness buckets table now).2 ↔
    ∃ bucket ∈ buckets, bucket.model = model ∧ ¬ rates.Prices harness table now bucket := by
  rw [priceBuckets_snd, ExtTreeSet.mem_toList, mem_omitted_plainPass]

theorem mem_omitted_surface :
    (model ∈ (rates.surface harness table
        (rates.pricingPass harness buckets table now)).unpricedModels ∨
      (model ∈ (rates.surface harness table
          (rates.pricingPass harness buckets table now)).missingModels ∧
        ∀ bucket ∈ buckets, bucket.model = model → ¬ rates.Prices harness table now bucket)) ↔
      rates.Omits harness buckets table now model := by
  unfold surface Omits
  rw [ExtTreeSet.mem_toList, ExtTreeSet.mem_toList]

/-- The plain pass leaves out what the detailed one leaves out, unless credits are asked for
outside Codex for a free model without a row. -/
theorem exists_not_prices_iff_omits (hapi : rates.apiMissing harness table = false)
    (hsold : ¬ rates.FreeUnsold harness buckets table) :
    (∃ bucket ∈ buckets, bucket.model = model ∧ ¬ rates.Prices harness table now bucket) ↔
      rates.Omits harness buckets table now model := by
  constructor
  · rintro ⟨bucket, hbucket, rfl, hnone⟩
    refine omits_of_not_prices hbucket hnone fun hshown ↦ ?_
    obtain ⟨hfree, hrow⟩ := bucketClass_eq_shown_iff.mp hshown
    by_cases hunsold : creditsUnsold harness table = true
    · rw [rateTable_of_unsold hunsold] at hrow
      exact hsold ⟨hunsold, bucket, hbucket, hfree, hrow⟩
    · exact hnone (prices_iff_answers.mpr (answers_of_free hapi (Bool.eq_false_iff.mpr hunsold)
        (basis_eq_freeLocal_iff.mpr hfree)))
  · exact exists_not_prices

/-- Buckets without an amount, or of no cost, add up to zero. -/
theorem amounts_eq_zero
    (h : ∀ bucket ∈ buckets, (rates.amount harness table now bucket).getD 0 = 0) :
    rates.amounts harness buckets table now = 0 := by
  unfold amounts
  rw [List.sum_eq_zero]
  intro amount hamount
  obtain ⟨bucket, hbucket, rfl⟩ := List.mem_map.mp hamount
  exact h bucket hbucket

theorem getD_amount_of_not_prices (h : ¬ rates.Prices harness table now bucket) :
    (rates.amount harness table now bucket).getD 0 = 0 := by
  rw [not_not.mp h, Option.getD_none]

theorem agrees_surface (hapi : rates.apiMissing harness table = false)
    (hsold : ¬ rates.FreeUnsold harness buckets table) :
    rates.Agrees harness buckets table now
      (rates.surface harness table (rates.pricingPass harness buckets table now)) where
  byModel := by
    have hcosts := (@costs_pricingPass rates harness table now buckets).trans
      total_pricingPass.symm
    unfold surface
    rw [List.map_map]
    exact hcosts
  total hsome := by
    rw [priceBuckets_fst, if_pos (priced_plainPass.mpr hsome), ← total_pricingPass]
    rfl
  nothing hnone := by
    rw [priceBuckets_fst, if_neg fun h ↦ hnone (priced_plainPass.mp h)]
    exact ⟨rfl, total_pricingPass.trans (amounts_eq_zero fun bucket hbucket ↦
      getD_amount_of_not_prices fun hprices ↦ hnone ⟨bucket, hbucket, hprices⟩)⟩
  omitted model := by
    rw [mem_omitted_surface, mem_omitted_priceBuckets]
    exact exists_not_prices_iff_omits hapi hsold

/-- The API table is not asked for where credits are. -/
theorem apiMissing_of_unsold (h : creditsUnsold harness table = true) :
    rates.apiMissing harness table = false := by
  unfold apiMissing
  unfold creditsUnsold RateTable.isCredits at h
  cases table with
  | plan => rfl
  | api => cases h
  | purchasedCredits => rfl
  | includedAllowance => rfl
  | apiEstimate => cases h

theorem not_agrees_of_freeUnsold (h : rates.FreeUnsold harness buckets table) :
    ¬ rates.Agrees harness buckets table now
      (rates.surface harness table (rates.pricingPass harness buckets table now)) := by
  obtain ⟨hunsold, bucket, hbucket, hfree, hrow⟩ := h
  rw [← rateTable_of_unsold hunsold] at hrow
  intro hagrees
  have homitted := hagrees.omitted bucket.model
  rw [mem_omitted_surface, mem_omitted_priceBuckets] at homitted
  have homits := homitted.mp ⟨bucket, hbucket, rfl, fun hprices ↦
    not_answers_of_unsold hunsold (prices_iff_answers.mp hprices)⟩
  exact not_omits_of_free hfree hrow homits

/-- The two passes agree on every list of buckets, exactly unless it has a free model without a
row where credits are asked for outside Codex. -/
theorem priceBucketsDetailed_agrees_iff (rates : RateCard Rat) (harness : String)
    (buckets : List TierBucket) (table : RateTable) (now : DateTime) :
    (∀ surface, rates.priceBucketsDetailed harness buckets table now = some surface →
      rates.Agrees harness buckets table now surface) ↔
      ¬ rates.FreeUnsold harness buckets table := by
  unfold priceBucketsDetailed
  constructor
  · intro h hunsold
    rw [apiMissing_of_unsold hunsold.1] at h
    exact not_agrees_of_freeUnsold hunsold (h _ rfl)
  · intro hsold surface hsome
    split at hsome
    · cases hsome
    next hapi =>
      cases hsome
      exact agrees_surface (Bool.eq_false_iff.mpr hapi) hsold

end RateCard

/-- A card without rows which declares one model free. -/
def freeLocalCard : RateCard Rat :=
  { sampleCard 14 [] [] with freeLocalModels := ["llama3"] }

/-- Ten tokens of the free model. -/
def freeLocalBucket : TierBucket :=
  { model := "llama3", serviceTier := none
    tokens := { TokenTotals.zero with inputTokens := 10, totalTokens := 10 } }

/-- The plain pass leaves the free model out, and the detailed one shows it as free. -/
theorem not_agrees_freeLocal :
    ¬ ∀ surface, freeLocalCard.priceBucketsDetailed "claude_code" [freeLocalBucket]
        .includedAllowance .epoch = some surface →
      freeLocalCard.Agrees "claude_code" [freeLocalBucket] .includedAllowance .epoch surface := by
  intro h
  have hunsold : freeLocalCard.FreeUnsold "claude_code" [freeLocalBucket] .includedAllowance :=
    ⟨by decide, freeLocalBucket, List.mem_singleton_self _, by decide, by decide⟩
  exact RateCard.not_agrees_of_freeUnsold hunsold (h _ rfl)

end AgentOdometer.Pricing
