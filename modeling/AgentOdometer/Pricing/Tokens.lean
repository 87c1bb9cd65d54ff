import AgentOdometer.Model.TokenOrder
import AgentOdometer.Pricing.Coverage
import AgentOdometer.Pricing.Resolution
import Mathlib.Algebra.Order.Field.Rat
import Mathlib.Tactic.Ring

/-!
# The price of tokens

`price_tokens` and the multipliers of a service tier (`query.rs:38–282`,
`rates.rs:64–81,1094–1119`), on exact numbers. What a model is charged on a tier does not
depend on the tokens, so it is split off as a tariff.
-/

namespace AgentOdometer.Pricing

open Std (ExtTreeMap)

/-- `RateTable`, `query.rs:40–51`. -/
inductive RateTable where
  | plan
  | api
  | purchasedCredits
  | includedAllowance
  | apiEstimate
deriving Repr, DecidableEq

/-- `matches!(table, RateTable::Api | RateTable::ApiEstimate)`. -/
def RateTable.isApi (table : RateTable) : Bool :=
  table = .api || table = .apiEstimate

/-- `matches!(table, RateTable::PurchasedCredits | RateTable::IncludedAllowance)`. -/
def RateTable.isCredits (table : RateTable) : Bool :=
  table = .purchasedCredits || table = .includedAllowance

/-- `harness == codex_provider_id().as_str()`. -/
def isCodex (harness : String) : Bool :=
  harness = ProviderId.codex.value

/-- `PricedAmount`, `query.rs:58–65`. -/
structure PricedAmount where
  amount : Option Rat
  basis : PricingBasis
  resolvedModel : String
deriving Repr, DecidableEq

/-- `ModelRate::cache_creation_rate`, `rates.rs:69–71`. -/
def ModelRate.cacheCreationRate (rate : ModelRate Rat) : Rat :=
  rate.cacheCreationInput.getD rate.input

/-- `ModelRate::cache_creation_rate_is_fallback`, `rates.rs:77–79`. -/
def ModelRate.cacheCreationRateIsFallback (rate : ModelRate Rat) : Bool :=
  rate.cacheCreationInput.isNone

/-- `downgrade_for_cache_creation_fallback`, `rates.rs:1104–1119`. -/
def downgradeForCacheCreationFallback (basis : PricingBasis) (rate : ModelRate Rat)
    (cacheCreationTokens : Nat) : PricingBasis :=
  if (basis = .direct || basis = .aliased || basis = .floatingAlias) && 0 < cacheCreationTokens &&
      rate.cacheCreationRateIsFallback then .estimated
  else basis

/-- `token_cost`, `query.rs:174–189`. -/
def tokenCost (tokens : TokenTotals) (rate : ModelRate Rat) (multiplier : Rat) : Rat :=
  let nonCachedInput :=
    tokens.inputTokens - tokens.cachedInputTokens - tokens.cacheCreationInputTokens
  let nonReasoningOutput := tokens.outputTokens - tokens.reasoningOutputTokens
  (nonCachedInput * rate.input + tokens.cachedInputTokens * rate.cachedInput +
    tokens.cacheCreationInputTokens * rate.cacheCreationRate + nonReasoningOutput * rate.output +
    tokens.reasoningOutputTokens * rate.reasoning) / 1000000 * multiplier

/-! ### Service tiers -/

/-- `None | Some("default" | "standard")`. -/
def isStandardTier (tier : Option String) : Bool :=
  tier = none || tier = some "default" || tier = some "standard"

/-- `Some("fast" | "priority")`. -/
def isFastTier (tier : Option String) : Bool :=
  tier = some "fast" || tier = some "priority"

/-- `service_tier_multiplier`, `query.rs:193–206`. -/
def serviceTierMultiplier (model : String) (serviceTier : Option String) (table : RateTable) :
    Rat :=
  if !isFastTier serviceTier then 1
  else if model = "gpt-6-astra" then
    if table = .plan || table = .includedAllowance then 5 / 2 else 2
  else if model = "gpt-5.5" then 5 / 2
  else if model = "gpt-5.4" then 2
  else 1

/-- The tier's name in the catalog. Follows `query.rs:247–252`. -/
def scenarioTier (tier : Option String) : Option String :=
  if isStandardTier tier then some "standard"
  else if isFastTier tier then some "fast"
  else if tier = some "ultrafast" then some "ultrafast"
  else none

namespace RateCard

/-- `multipliers.input` of the catalog's rule for a tier. -/
def tierRule (rates : RateCard Rat) (surface : PricingSurface) (resolved : String)
    (instant : DateTime) (tier : String) : Option Rat :=
  (rates.pricingCatalog.modifierForTier surface resolved instant tier).map (·.multipliers.input)

/-- The multiplier of the two reference tables. Follows `query.rs:219–243`. -/
def referenceMultiplier (rates : RateCard Rat) (harness resolved : String) (fallbackUsed : Bool)
    (tier : Option String) (table : RateTable) (surface : PricingSurface) (instant : DateTime) :
    Option Rat :=
  if isStandardTier tier then some 1
  else if isFastTier tier && !fallbackUsed then
    (if isCodex harness then rates.tierRule surface resolved instant "fast" else none).or
      (if resolved = "gpt-6-astra" || resolved = "gpt-5.5" || resolved = "gpt-5.4" then
        some (serviceTierMultiplier resolved tier table)
      else none)
  else none

/-- The multiplier of a current scenario. Follows `query.rs:244–271`. -/
def scenarioMultiplier (rates : RateCard Rat) (harness resolved : String) (fallbackUsed : Bool)
    (tier : Option String) (surface : PricingSurface) (instant : DateTime) : Option Rat :=
  if !isCodex harness then none
  else
    match scenarioTier tier with
    | none => none
    | some name =>
        if fallbackUsed && name ≠ "standard" then none
        else (rates.tierRule surface resolved instant name).or
          (if name = "standard" then some 1 else none)

/-- `tier_multiplier`, `query.rs:210–272`. -/
def tierMultiplier (rates : RateCard Rat) (harness resolved : String) (fallbackUsed : Bool)
    (tier : Option String) (table : RateTable) (instant : DateTime) : Option Rat :=
  match table with
  | .plan =>
      rates.referenceMultiplier harness resolved fallbackUsed tier table .codexIncludedAllowance
        instant
  | .api => rates.referenceMultiplier harness resolved fallbackUsed tier table .openaiApiUsd instant
  | .purchasedCredits =>
      rates.scenarioMultiplier harness resolved fallbackUsed tier .codexPurchasedCredits instant
  | .includedAllowance =>
      rates.scenarioMultiplier harness resolved fallbackUsed tier .codexIncludedAllowance instant
  | .apiEstimate =>
      rates.scenarioMultiplier harness resolved fallbackUsed tier .openaiApiUsd instant

/-! ### The pricer -/

/-- The table's rows. Follows `query.rs:81–86`. -/
def rateTable (rates : RateCard Rat) (table : RateTable) : ExtTreeMap String (ModelRate Rat) :=
  if table.isApi then rates.apiModels else rates.models

/-- The API table is asked for where there is none. Follows `query.rs:89–91`. -/
def apiMissing (rates : RateCard Rat) (harness : String) (table : RateTable) : Bool :=
  table.isApi && (!isCodex harness || rates.apiModels.isEmpty)

/-- Credits are asked for outside Codex. Follows `query.rs:100–103`. -/
def creditsUnsold (harness : String) (table : RateTable) : Bool :=
  table.isCredits && !isCodex harness

/-- The rate of a row as the table charges it. Follows `query.rs:144–151`. -/
def chargedRate (table : RateTable) (rate : ModelRate Rat) : ModelRate Rat :=
  if table.isCredits then { rate with cacheCreationInput := some 0 } else rate

/-- `price_tokens`, `query.rs:72–166`. -/
def priceTokens (rates : RateCard Rat) (harness model : String) (serviceTier : Option String)
    (tokens : TokenTotals) (table : RateTable) (now : DateTime) : PricedAmount :=
  if rates.apiMissing harness table then ⟨none, .unavailable, model⟩
  else if creditsUnsold harness table then ⟨none, .unavailable, model⟩
  else
    let resolution := rates.resolveModelPricing model harness (rates.rateTable table) now
    if resolution.basis = .freeLocal then ⟨some 0, resolution.basis, resolution.resolvedModel⟩
    else if resolution.basis = .unavailable then
      ⟨none, resolution.basis, resolution.resolvedModel⟩
    else
      match (rates.rateTable table)[resolution.resolvedModel]? with
      | none => ⟨none, .unavailable, resolution.resolvedModel⟩
      | some rate =>
          match rates.tierMultiplier harness resolution.resolvedModel resolution.fallbackUsed
            serviceTier table now with
          | none => ⟨none, .unavailable, resolution.resolvedModel⟩
          | some multiplier =>
              let rate := chargedRate table rate
              ⟨some (tokenCost tokens rate multiplier),
                downgradeForCacheCreationFallback resolution.basis rate
                  tokens.cacheCreationInputTokens,
                resolution.resolvedModel⟩

end RateCard

/-! ### Tariffs -/

/-- What a model is charged on a tier. -/
inductive Tariff where
  | refused (resolvedModel : String)
  | free (resolvedModel : String)
  | metered (rate : ModelRate Rat) (multiplier : Rat) (basis : PricingBasis)
      (resolvedModel : String)
deriving Repr, DecidableEq

namespace Tariff

/-- The price of tokens on a tariff. -/
def price (tokens : TokenTotals) : Tariff → PricedAmount
  | refused resolvedModel => ⟨none, .unavailable, resolvedModel⟩
  | free resolvedModel => ⟨some 0, .freeLocal, resolvedModel⟩
  | metered rate multiplier basis resolvedModel =>
      ⟨some (tokenCost tokens rate multiplier),
        downgradeForCacheCreationFallback basis rate tokens.cacheCreationInputTokens,
        resolvedModel⟩

/-- Whether an amount is given, whatever the tokens. -/
def Answers : Tariff → Prop
  | refused _ => False
  | free _ => True
  | metered .. => True

variable {tariff : Tariff} {tokens : TokenTotals}

theorem isSome_amount_price : (tariff.price tokens).amount.isSome = true ↔ tariff.Answers := by
  cases tariff with
  | refused => exact ⟨Bool.noConfusion, False.elim⟩
  | free => exact ⟨fun _ ↦ trivial, fun _ ↦ rfl⟩
  | metered => exact ⟨fun _ ↦ trivial, fun _ ↦ rfl⟩

theorem amount_price_eq_none : (tariff.price tokens).amount = none ↔ ¬ tariff.Answers := by
  have hsome : (tariff.price tokens).amount.isSome = true ↔ tariff.Answers := isSome_amount_price
  rw [← hsome, Option.not_isSome_iff_eq_none]

end Tariff

/-- The tariff of a model and tier. -/
def RateCard.tariff (rates : RateCard Rat) (harness model : String) (serviceTier : Option String)
    (table : RateTable) (now : DateTime) : Tariff :=
  if rates.apiMissing harness table then .refused model
  else if RateCard.creditsUnsold harness table then .refused model
  else
    let resolution := rates.resolveModelPricing model harness (rates.rateTable table) now
    if resolution.basis = .freeLocal then .free resolution.resolvedModel
    else if resolution.basis = .unavailable then .refused resolution.resolvedModel
    else
      match (rates.rateTable table)[resolution.resolvedModel]? with
      | none => .refused resolution.resolvedModel
      | some rate =>
          match rates.tierMultiplier harness resolution.resolvedModel resolution.fallbackUsed
            serviceTier table now with
          | none => .refused resolution.resolvedModel
          | some multiplier =>
              .metered (chargedRate table rate) multiplier resolution.basis resolution.resolvedModel

/-- The pricer applies the tariff of the model and tier to the tokens. -/
theorem RateCard.priceTokens_eq_price (rates : RateCard Rat) (harness model : String)
    (serviceTier : Option String) (tokens : TokenTotals) (table : RateTable) (now : DateTime) :
    rates.priceTokens harness model serviceTier tokens table now =
      (rates.tariff harness model serviceTier table now).price tokens := by
  unfold priceTokens tariff
  split
  · rfl
  · split
    · rfl
    · simp only
      split
      next hfree =>
        rw [hfree]
        rfl
      · split
        next hunavailable =>
          rw [hunavailable]
          rfl
        · split
          · rfl
          · split
            · rfl
            · rfl

/-! ### Linearity -/

end AgentOdometer.Pricing

namespace AgentOdometer.TokenTotals

/-- The subset counters fit into their parents. -/
structure Fits (tokens : TokenTotals) : Prop where
  input : tokens.cachedInputTokens + tokens.cacheCreationInputTokens ≤ tokens.inputTokens
  output : tokens.reasoningOutputTokens ≤ tokens.outputTokens

theorem Fits.add {a b : TokenTotals} (ha : a.Fits) (hb : b.Fits) : (a + b).Fits := by
  constructor
  · have := ha.input
    have := hb.input
    simp only [inputTokens_add, cachedInputTokens_add, cacheCreationInputTokens_add]
    omega
  · exact Nat.add_le_add ha.output hb.output

end AgentOdometer.TokenTotals

namespace AgentOdometer.Pricing

/-- The cost of counters which fit, without truncated subtraction. -/
theorem tokenCost_of_fits {tokens : TokenTotals} (h : tokens.Fits) (rate : ModelRate Rat)
    (multiplier : Rat) :
    tokenCost tokens rate multiplier =
      ((tokens.inputTokens - tokens.cachedInputTokens - tokens.cacheCreationInputTokens : Rat) *
          rate.input + tokens.cachedInputTokens * rate.cachedInput +
        tokens.cacheCreationInputTokens * rate.cacheCreationRate +
        (tokens.outputTokens - tokens.reasoningOutputTokens : Rat) * rate.output +
        tokens.reasoningOutputTokens * rate.reasoning) / 1000000 * multiplier := by
  have hinput := h.input
  unfold tokenCost
  simp only
  rw [Nat.cast_sub (by omega), Nat.cast_sub (by omega), Nat.cast_sub h.output]

/-- The cost is additive in counters which fit. -/
theorem tokenCost_add {a b : TokenTotals} (ha : a.Fits) (hb : b.Fits) (rate : ModelRate Rat)
    (multiplier : Rat) :
    tokenCost (a + b) rate multiplier =
      tokenCost a rate multiplier + tokenCost b rate multiplier := by
  rw [tokenCost_of_fits ha, tokenCost_of_fits hb, tokenCost_of_fits (ha.add hb)]
  simp only [TokenTotals.inputTokens_add, TokenTotals.cachedInputTokens_add,
    TokenTotals.cacheCreationInputTokens_add, TokenTotals.outputTokens_add,
    TokenTotals.reasoningOutputTokens_add, Nat.cast_add]
  ring

end AgentOdometer.Pricing
