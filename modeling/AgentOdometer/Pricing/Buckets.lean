import AgentOdometer.Lib.GroupBy
import AgentOdometer.Pricing.Tokens
import Std.Data.ExtTreeSet

/-!
# The price of buckets

`price_buckets_detailed` and `price_buckets` (`query.rs:500–540,616–800`): one pass over the
buckets keeps a row per model, the other only a total. `least_confident_basis` is
`query_reports.rs:38–53`, `convert_total` is `query.rs:1543–1564`.
-/

namespace AgentOdometer.Pricing

open Std (ExtTreeMap ExtTreeSet)
open GroupBy

/-- The confidence of a basis. Follows `query_reports.rs:39–47`. -/
def PricingBasis.rank : PricingBasis → Nat
  | direct | freeLocal | subscription => 0
  | aliased | floatingAlias => 1
  | estimated => 2
  | fallback | stale => 3
  | unavailable => 4

/-- `least_confident_basis`, `query_reports.rs:38–53`. -/
def leastConfidentBasis (left right : PricingBasis) : PricingBasis :=
  if left.rank < right.rank then right else left

/-- `PricedModel`, `query.rs:500–509`. -/
structure PricedModel where
  model : String
  cost : Rat
  basis : PricingBasis
  unpriced : Bool
deriving Repr, DecidableEq

/-- `ConvertedTotal`, `query.rs:1511–1522`. -/
structure ConvertedTotal where
  fromCurrency : String
  targetCurrency : String
  amount : Rat
  rate : Rat
  asOf : DateTime
  source : String
deriving Repr, DecidableEq

/-- `PricedSurface`, `query.rs:522–534`. -/
structure PricedSurface where
  total : Rat
  byModel : List PricedModel
  missingModels : List String
  unpricedModels : List String
  converted : Option ConvertedTotal
deriving Repr, DecidableEq

/-- `CurrencyConversion::convert`, `rates.rs:534–545`. -/
def CurrencyConversion.convert (conversion : CurrencyConversion Rat) (amount : Rat) :
    Option Rat :=
  if !RateNumber.isFinite conversion.rate || !RateNumber.isPositive conversion.rate ||
      !RateNumber.isFinite amount || !RateNumber.isNonNegative amount then none
  else
    let amount := amount * conversion.rate
    if RateNumber.isFinite amount then some amount else none

/-- `convert_total`, `query.rs:1543–1564`. -/
def convertTotal (rates : RateCard Rat) (currency : String) (amount : Rat) :
    Option ConvertedTotal :=
  match rates.displayCurrency with
  | none => none
  | some conversion =>
      if !conversion.validate.isOk || !isFxCurrency currency ||
          currency ≠ conversion.fromCurrency.getD rates.currency ||
          currency = conversion.targetCurrency then none
      else
        (conversion.convert amount).map fun amount ↦
          { fromCurrency := currency, targetCurrency := conversion.targetCurrency, amount
            rate := conversion.rate, asOf := conversion.asOf, source := conversion.source }

/-! ### The pass over the buckets -/

/-- The row of a model. Follows the triples of `query.rs:640`. -/
structure ModelEntry where
  cost : Rat
  basis : PricingBasis
  unpriced : Bool
deriving Repr, DecidableEq

/-- The accumulators of `query.rs:640–643`. -/
structure PricingPass where
  byModel : ExtTreeMap String ModelEntry
  missing : ExtTreeSet String
  unpriced : ExtTreeSet String
  total : Rat

namespace PricingPass

/-- Before the first bucket. -/
def empty : PricingPass :=
  ⟨∅, ∅, ∅, 0⟩

/-- `missing.insert(model)`. -/
def addMissing (pass : PricingPass) (model : String) : PricingPass :=
  { pass with missing := pass.missing.insert model }

/-- A model without a published price. Follows `query.rs:653–661`. -/
def withhold (pass : PricingPass) (model : String) : PricingPass :=
  { pass with
    unpriced := pass.unpriced.insert model
    byModel := updateEntry pass.byModel model ⟨0, .unavailable, true⟩ id }

/-- A free model without a row. Follows `query.rs:675–681`. -/
def showFree (pass : PricingPass) (model : String) : PricingPass :=
  { pass with byModel := updateEntry pass.byModel model ⟨0, .freeLocal, false⟩ id }

/-- A bucket which has no amount. Follows `query.rs:694–704`. -/
def refuse (pass : PricingPass) (model : String) : PricingPass :=
  { pass with
    unpriced := pass.unpriced.insert model
    byModel := updateEntry pass.byModel model ⟨0, .unavailable, true⟩ fun entry ↦
      { entry with basis := .unavailable, unpriced := true } }

/-- A bucket which has an amount. Follows `query.rs:705–715`. -/
def charge (pass : PricingPass) (model : String) (cost : Rat) (basis : PricingBasis) :
    PricingPass :=
  { pass with
    total := pass.total + cost
    byModel := updateEntry pass.byModel model ⟨0, basis, false⟩ fun entry ↦
      { entry with cost := entry.cost + cost, basis := leastConfidentBasis entry.basis basis } }

end PricingPass

namespace RateCard

/-- One bucket. Follows `query.rs:645–716`. -/
def priceBucket (rates : RateCard Rat) (harness : String) (table : RateTable) (now : DateTime)
    (pass : PricingPass) (bucket : TierBucket) : PricingPass :=
  let isUnpriced := decide (bucket.model ∈ rates.unpricedModels)
  let resolution := rates.resolveModelPricing bucket.model harness (rates.rateTable table) now
  let pass := if resolution.fallbackUsed then pass.addMissing bucket.model else pass
  if resolution.basis = .unavailable &&
      (isUnpriced || (rates.rateTable table).contains resolution.resolvedModel) then
    pass.withhold bucket.model
  else if resolution.basis = .unavailable then pass.addMissing bucket.model
  else
    match (rates.rateTable table)[resolution.resolvedModel]? with
    | none => if resolution.basis = .freeLocal then pass.showFree bucket.model else pass
    | some _ =>
        let priced := rates.priceTokens harness bucket.model bucket.serviceTier bucket.tokens
          table now
        match priced.amount with
        | none => pass.refuse bucket.model
        | some cost => pass.charge bucket.model cost priced.basis

/-- The currency of a table's totals. Follows `query.rs:734–743`. -/
def surfaceCurrency (rates : RateCard Rat) (harness : String) : RateTable → String
  | .api | .apiEstimate => "USD"
  | .purchasedCredits | .includedAllowance => "credits"
  | .plan => rates.currencies[harness]?.getD rates.currency

/-- The report of a pass. Follows `query.rs:717–747`. -/
def surface (rates : RateCard Rat) (harness : String) (table : RateTable) (pass : PricingPass) :
    PricedSurface :=
  let conversionAvailable :=
    pass.unpriced.isEmpty || pass.byModel.toList.any fun entry ↦ !entry.2.unpriced
  { total := pass.total
    byModel := pass.byModel.toList.map fun entry ↦
      ⟨entry.1, entry.2.cost, entry.2.basis, entry.2.unpriced⟩
    missingModels := pass.missing.toList
    unpricedModels := pass.unpriced.toList
    converted :=
      if conversionAvailable then
        convertTotal rates (rates.surfaceCurrency harness table) pass.total
      else none }

/-- The pass over all buckets. -/
def pricingPass (rates : RateCard Rat) (harness : String) (buckets : List TierBucket)
    (table : RateTable) (now : DateTime) : PricingPass :=
  buckets.foldl (rates.priceBucket harness table now) .empty

/-- `price_buckets_detailed`, `query.rs:600–748`. -/
def priceBucketsDetailed (rates : RateCard Rat) (harness : String) (buckets : List TierBucket)
    (table : RateTable) (now : DateTime) : Option PricedSurface :=
  if rates.apiMissing harness table then none
  else some (rates.surface harness table (rates.pricingPass harness buckets table now))

/-- One bucket of the plain pass: the total, whether a bucket was priced, and the models which
were not. Follows `query.rs:777–798`. -/
def addBucket (rates : RateCard Rat) (harness : String) (table : RateTable) (now : DateTime)
    (acc : Rat × Bool × ExtTreeSet String) (bucket : TierBucket) : Rat × Bool × ExtTreeSet String :=
  match (rates.priceTokens harness bucket.model bucket.serviceTier bucket.tokens table
      now).amount with
  | some value => (acc.1 + value, true, acc.2.2)
  | none => (acc.1, acc.2.1, acc.2.2.insert bucket.model)

/-- `price_buckets`, `query.rs:755–800`. -/
def priceBuckets (rates : RateCard Rat) (harness : String) (buckets : List TierBucket)
    (table : RateTable) (now : DateTime) : Option Rat × List String :=
  let (total, priced, omitted) := buckets.foldl (rates.addBucket harness table now) (0, false, ∅)
  (if priced then some total else none, omitted.toList)

end RateCard

/-! ### Free models -/

namespace RateCard

section Free

variable {ν : Type} {card : RateCard ν} {model harness : String}
  {table : ExtTreeMap String (ModelRate ν)} {now : DateTime}

/-- A resolution without a row of its own or a floating alias never declares a model free. -/
theorem resolveIndirect_ne_freeLocal :
    (card.resolveIndirect model harness table now).basis ≠ .freeLocal := by
  unfold resolveIndirect
  split
  split
  · exact basis_ne (by decide) (by decide) (by decide)
  · show (if _ then _ else _ : PricedModelResolution).basis ≠ _
    split
    · exact basis_ne (by decide) (by decide) (by decide)
    · exact PricingBasis.noConfusion

/-- A model is free exactly when the card declares it so. -/
theorem basis_eq_freeLocal_iff :
    (card.resolveModelPricing model harness table now).basis = .freeLocal ↔
      model ∈ card.freeLocalModels := by
  unfold resolveModelPricing
  split
  next hfree => exact iff_of_true rfl hfree
  next hnot =>
    refine iff_of_false ?_ hnot
    split
    · exact PricingBasis.noConfusion
    · split
      · exact PricingBasis.noConfusion
      · split
        · exact basis_ne (by decide) (by decide) (by decide)
        · split
          · exact basis_ne (by decide) (by decide) (by decide)
          · exact resolveIndirect_ne_freeLocal

theorem resolveModelPricing_of_free (h : model ∈ card.freeLocalModels) :
    card.resolveModelPricing model harness table now = ⟨false, model, .freeLocal⟩ := by
  unfold resolveModelPricing
  rw [if_pos h]

end Free

end RateCard

/-! ### Classes of buckets -/

/-- What the pass does with the buckets of a model and tier. -/
inductive BucketClass where
  | withheld
  | absent
  | shown
  | rated (tariff : Tariff)

/-- The effect of tokens of a class. -/
def PricingPass.enter (pass : PricingPass) (model : String) (tokens : TokenTotals) :
    BucketClass → PricingPass
  | .withheld => pass.withhold model
  | .absent => pass.addMissing model
  | .shown => pass.showFree model
  | .rated tariff =>
      match (tariff.price tokens).amount with
      | none => pass.refuse model
      | some cost => pass.charge model cost (tariff.price tokens).basis

namespace RateCard

/-- The model is priced by its harness's fallback row. -/
def usesFallback (rates : RateCard Rat) (harness model : String) (table : RateTable)
    (now : DateTime) : Bool :=
  (rates.resolveModelPricing model harness (rates.rateTable table) now).fallbackUsed

/-- The class of a model and tier. -/
def bucketClass (rates : RateCard Rat) (harness model : String) (serviceTier : Option String)
    (table : RateTable) (now : DateTime) : BucketClass :=
  let resolution := rates.resolveModelPricing model harness (rates.rateTable table) now
  if resolution.basis = .unavailable &&
      (decide (model ∈ rates.unpricedModels) ||
        (rates.rateTable table).contains resolution.resolvedModel) then .withheld
  else if resolution.basis = .unavailable then .absent
  else if resolution.resolvedModel ∈ rates.rateTable table then
    .rated (rates.tariff harness model serviceTier table now)
  else .shown

variable {rates : RateCard Rat} {harness model : String} {table : RateTable} {now : DateTime}
  {pass : PricingPass} {bucket : TierBucket}

theorem notMem_of_getElem?_eq_none {rows : ExtTreeMap String (ModelRate Rat)}
    (h : rows[model]? = none) : model ∉ rows := by
  rw [ExtTreeMap.mem_iff_isSome_getElem?, h]
  exact Bool.false_ne_true

/-- A model which is priced without a row is free. -/
theorem basis_eq_freeLocal_of_notMem
    (havailable : (rates.resolveModelPricing model harness (rates.rateTable table) now).basis ≠
      .unavailable)
    (hrow : (rates.resolveModelPricing model harness (rates.rateTable table) now).resolvedModel ∉
      rates.rateTable table) :
    (rates.resolveModelPricing model harness (rates.rateTable table) now).basis = .freeLocal := by
  by_contra hfree
  exact hrow (priced_resolveModelPricing hfree havailable).inTable

/-- One bucket marks a model priced by the fallback row, and then acts by its class. -/
theorem priceBucket_eq_enter :
    rates.priceBucket harness table now pass bucket =
      (if rates.usesFallback harness bucket.model table now then pass.addMissing bucket.model
        else pass).enter bucket.model bucket.tokens
          (rates.bucketClass harness bucket.model bucket.serviceTier table now) := by
  unfold priceBucket bucketClass usesFallback
  simp only [priceTokens_eq_price]
  split
  · rfl
  · split
    · rfl
    next havailable =>
      split
      next hnone =>
        have hrow := notMem_of_getElem?_eq_none hnone
        rw [if_pos (basis_eq_freeLocal_of_notMem havailable hrow), if_neg hrow]
        rfl
      next hsome =>
        rw [if_pos (ExtTreeMap.mem_iff_isSome_getElem?.mpr (Option.isSome_of_eq_some hsome))]
        rfl

end RateCard

end AgentOdometer.Pricing
