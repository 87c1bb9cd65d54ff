import AgentOdometer.Base.Text
import AgentOdometer.Base.Time
import Std.Data.ExtTreeMap

/-!
# Rate cards

The data of `rates.rs:14–169,471–805`. Rates are `f64` in the source; the card is generic in
the type of its numbers, so that the same model is used with floats and with exact numbers.
-/

namespace AgentOdometer.Pricing

open Std (ExtTreeMap)

/-- The checks of a rate value. -/
class RateNumber (ν : Type) where
  /-- `value.is_finite()`. -/
  isFinite : ν → Bool
  /-- `value >= 0.0`. -/
  isNonNegative : ν → Bool
  /-- `!(value <= 0.0)`. -/
  isPositive : ν → Bool

instance : RateNumber Float where
  isFinite := Float.isFinite
  isNonNegative value := 0.0 ≤ value
  isPositive value := !(value ≤ 0.0)

/-- Exact numbers are all finite. -/
instance : RateNumber Rat where
  isFinite _ := true
  isNonNegative value := 0 ≤ value
  isPositive value := 0 < value

/-- A calendar date, as its day number. -/
structure NaiveDate where
  day : Int
deriving Repr, DecidableEq

variable {ν : Type}

/-- `ModelRate`, `rates.rs:15–40`. -/
structure ModelRate (ν : Type) where
  input : ν
  cachedInput : ν
  cacheCreationInput : Option ν
  output : ν
  reasoning : ν
deriving Repr, BEq, DecidableEq

/-- `ModelRate::is_usable`, `rates.rs:50–62`. -/
def ModelRate.isUsable [RateNumber ν] (rate : ModelRate ν) : Bool :=
  ([some rate.input, some rate.cachedInput, some rate.output, some rate.reasoning,
    rate.cacheCreationInput].filterMap id).all fun value ↦
      RateNumber.isFinite value && RateNumber.isNonNegative value

/-- `PricingSurface`, `rates.rs:84–93`. -/
inductive PricingSurface where
  | codexPlanCredits
  | codexPurchasedCredits
  | codexIncludedAllowance
  | openaiApiUsd
  | anthropicApiUsd
  | geminiApiUsd
deriving Repr, DecidableEq

/-- The `Debug` text of a surface. -/
def PricingSurface.debug : PricingSurface → String
  | .codexPlanCredits => "CodexPlanCredits"
  | .codexPurchasedCredits => "CodexPurchasedCredits"
  | .codexIncludedAllowance => "CodexIncludedAllowance"
  | .openaiApiUsd => "OpenaiApiUsd"
  | .anthropicApiUsd => "AnthropicApiUsd"
  | .geminiApiUsd => "GeminiApiUsd"

/-- `PricingProvenance`, `rates.rs:95–104`. -/
structure PricingProvenance where
  evidence : String
  sourceUrl : String
  verifiedAt : DateTime
  note : Option String
deriving Repr, DecidableEq

/-- `EffectiveRatePeriod`, `rates.rs:106–126`. -/
structure EffectiveRatePeriod (ν : Type) where
  id : String
  surface : PricingSurface
  model : String
  startsAt : DateTime
  endsAt : Option DateTime
  rate : ModelRate ν
  cacheWriteInputMultiplier : Option ν
  provenance : PricingProvenance
  label : String
deriving Repr, BEq, DecidableEq

/-- `PricingCondition`, `rates.rs:128–136`. -/
inductive PricingCondition where
  | requestInputTokenThreshold (greaterThan : Nat)
  | serviceTier (tier : String)
deriving Repr, DecidableEq

/-- `RateMultipliers`, `rates.rs:138–142`. -/
structure RateMultipliers (ν : Type) where
  input : ν
  output : ν
deriving Repr, BEq, DecidableEq

/-- `ConditionalRateModifier`, `rates.rs:144–161`. -/
structure ConditionalRateModifier (ν : Type) where
  id : String
  surface : PricingSurface
  model : String
  startsAt : DateTime
  endsAt : Option DateTime
  condition : PricingCondition
  multipliers : RateMultipliers ν
  provenance : PricingProvenance
  label : String
deriving Repr, BEq, DecidableEq

/-- `PricingCatalog`, `rates.rs:163–174`. -/
structure PricingCatalog (ν : Type) where
  ratePeriods : List (EffectiveRatePeriod ν)
  conditionalModifiers : List (ConditionalRateModifier ν)
  notes : List String
deriving Repr

/-- `SubscriptionPlan`, `rates.rs:471–489`. -/
structure SubscriptionPlan (ν : Type) where
  name : String
  monthlyPrice : Option ν
  currency : Option String
  notes : Option String
  localBaselineSavings : Option ν
deriving Repr

/-- `CurrencyConversion`, `rates.rs:491–513`. -/
structure CurrencyConversion (ν : Type) where
  fromCurrency : Option String
  targetCurrency : String
  rate : ν
  asOf : DateTime
  source : String
deriving Repr

/-- `RateDelivery`, `rates.rs:557–563`. -/
structure RateDelivery where
  source : String
  appVersion : String
  cardVersion : Nat
  lastFailureReason : Option String
deriving Repr, DecidableEq

/-- `RateRefreshState`, `rates.rs:593–606`. -/
structure RateRefreshState where
  lastSuccessAt : Option DateTime
  lastAttemptAt : Option DateTime
  lastFailureReason : Option String
  maxCacheAgeSecs : Int
deriving Repr, DecidableEq

/-- `FloatingAlias`, `rates.rs:716–730`. -/
structure FloatingAlias where
  target : String
  expiresAt : NaiveDate
  sourceUrl : String
deriving Repr, DecidableEq

/-- `RateCard`, `rates.rs:732–805`. -/
structure RateCard (ν : Type) where
  version : Nat
  currency : String
  unit : String
  sourceUrl : String
  fetchedAt : Option String
  models : ExtTreeMap String (ModelRate ν)
  fallbackModel : String
  currencies : ExtTreeMap String String
  fallbackModels : ExtTreeMap String String
  apiModels : ExtTreeMap String (ModelRate ν)
  unpricedModels : List String
  pricingCatalog : PricingCatalog ν
  modelAliases : ExtTreeMap String String
  floatingModelAliases : ExtTreeMap String FloatingAlias
  freeLocalModels : List String
  subscriptionPlans : ExtTreeMap String (SubscriptionPlan ν)
  displayCurrency : Option (CurrencyConversion ν)
  refresh : RateRefreshState
  delivery : Option RateDelivery
  rateProvenance : ExtTreeMap String PricingProvenance
  upgradeReview : List String
  flatRateExpiresAt : ExtTreeMap String NaiveDate

/-! ### Intervals -/

/-- `interval_contains`, `rates.rs:357–359`. -/
def intervalContains (startsAt : DateTime) (endsAt : Option DateTime) (instant : DateTime) : Bool :=
  startsAt ≤ instant && endsAt.all (instant < ·)

/-- `intervals_overlap`, `rates.rs:361–368`. -/
def intervalsOverlap (firstFrom : DateTime) (firstTo : Option DateTime) (secondFrom : DateTime)
    (secondTo : Option DateTime) : Bool :=
  firstTo.all (secondFrom < ·) && secondTo.all (firstFrom < ·)

theorem intervalsOverlap_comm (firstFrom : DateTime) (firstTo : Option DateTime)
    (secondFrom : DateTime) (secondTo : Option DateTime) :
    intervalsOverlap firstFrom firstTo secondFrom secondTo =
      intervalsOverlap secondFrom secondTo firstFrom firstTo :=
  Bool.and_comm _ _

/-- Two periods of one surface and model whose intervals overlap. -/
def EffectiveRatePeriod.overlaps (first second : EffectiveRatePeriod ν) : Bool :=
  decide (first.surface = second.surface) && decide (first.model = second.model) &&
    intervalsOverlap first.startsAt first.endsAt second.startsAt second.endsAt

/-- Two modifiers of one surface, model and condition whose intervals overlap. -/
def ConditionalRateModifier.overlaps (first second : ConditionalRateModifier ν) : Bool :=
  decide (first.surface = second.surface) && decide (first.model = second.model) &&
    decide (first.condition = second.condition) &&
    intervalsOverlap first.startsAt first.endsAt second.startsAt second.endsAt

theorem EffectiveRatePeriod.overlaps_comm (first second : EffectiveRatePeriod ν) :
    first.overlaps second = second.overlaps first := by
  simp only [overlaps, intervalsOverlap_comm first.startsAt,
    eq_comm (a := first.surface) (b := second.surface),
    eq_comm (a := first.model) (b := second.model)]

theorem ConditionalRateModifier.overlaps_comm (first second : ConditionalRateModifier ν) :
    first.overlaps second = second.overlaps first := by
  simp only [overlaps, intervalsOverlap_comm first.startsAt,
    eq_comm (a := first.surface) (b := second.surface),
    eq_comm (a := first.model) (b := second.model),
    eq_comm (a := first.condition) (b := second.condition)]

end AgentOdometer.Pricing
