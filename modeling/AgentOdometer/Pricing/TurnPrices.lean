import AgentOdometer.Pricing.Converted

/-!
# The price of a turn

`price_turn` (`query_desktop.rs:60–66,169–228`). It resolves the model itself for two tables and
delegates to the pricer for the other three; the two ways differ on models which are declared
free and where the API table is not offered.
-/

namespace AgentOdometer.Pricing

open Std (ExtTreeMap)

/-- `TurnPrice`, `query_desktop.rs:60–66`. -/
structure TurnPrice where
  cost : Rat
  fallbackUsed : Bool
  unpriced : Bool
  basis : PricingBasis
deriving Repr, DecidableEq

/-- The tables for which the pricer is asked. Follows `query_desktop.rs:197–200`. -/
def RateTable.delegates (table : RateTable) : Bool :=
  table = .purchasedCredits || table = .includedAllowance || table = .apiEstimate

namespace RateCard

/-- A turn on one of the two reference tables. Follows `query_desktop.rs:207–226`. -/
def priceReferenceTurn (rates : RateCard Rat) (tokens : TokenTotals) (tier : Option String)
    (harness : String) (table : RateTable) (now : DateTime) (resolution : PricedModelResolution) :
    TurnPrice :=
  if resolution.basis = .unavailable then ⟨0, resolution.fallbackUsed, true, resolution.basis⟩
  else
    match (rates.rateTable table)[resolution.resolvedModel]? with
    | none => ⟨0, resolution.fallbackUsed, false, resolution.basis⟩
    | some rate =>
        match rates.tierMultiplier harness resolution.resolvedModel resolution.fallbackUsed tier
          table now with
        | some multiplier =>
            ⟨tokenCost tokens rate multiplier, resolution.fallbackUsed, false, resolution.basis⟩
        | none => ⟨0, resolution.fallbackUsed, true, .unavailable⟩

/-- `price_turn`, `query_desktop.rs:169–228`. -/
def priceTurn (rates : RateCard Rat) (tokens : TokenTotals) (model tier : Option String)
    (harness : String) (table : RateTable) (now : DateTime) : TurnPrice :=
  let unpriced := model.any fun model ↦ decide (model ∈ rates.unpricedModels)
  match model.filter fun _ ↦ !unpriced with
  | none => ⟨0, false, unpriced, .unavailable⟩
  | some model =>
      let resolution := rates.resolveModelPricing model harness (rates.rateTable table) now
      if table.delegates then
        let value := rates.priceTokens harness model tier tokens table now
        ⟨value.amount.getD 0, resolution.fallbackUsed, value.amount.isNone, value.basis⟩
      else rates.priceReferenceTurn tokens tier harness table now resolution

variable {rates : RateCard Rat} {harness model : String} {tier : Option String}
  {tokens : TokenTotals} {table : RateTable} {now : DateTime}

theorem priceTurn_of_unpriced (h : model ∈ rates.unpricedModels) :
    rates.priceTurn tokens (some model) tier harness table now =
      ⟨0, false, true, .unavailable⟩ := by
  unfold priceTurn
  simp [h]

theorem priceTurn_of_priced (h : model ∉ rates.unpricedModels) :
    rates.priceTurn tokens (some model) tier harness table now =
      if table.delegates then
        ⟨(rates.priceTokens harness model tier tokens table now).amount.getD 0,
          (rates.resolveModelPricing model harness (rates.rateTable table) now).fallbackUsed,
          (rates.priceTokens harness model tier tokens table now).amount.isNone,
          (rates.priceTokens harness model tier tokens table now).basis⟩
      else
        rates.priceReferenceTurn tokens tier harness table now
          (rates.resolveModelPricing model harness (rates.rateTable table) now) := by
  unfold priceTurn
  rw [Option.any_some, decide_eq_false h]
  rfl

/-! ### Agreement with the pricer -/

/-- The turn costs what the report of its one bucket says, and is unpriced when the pricer has no
amount for it. -/
structure TurnAgrees (rates : RateCard Rat) (tokens : TokenTotals) (model : String)
    (tier : Option String) (harness : String) (table : RateTable) (now : DateTime) : Prop where
  cost : ∀ surface,
    rates.priceBucketsDetailed harness [⟨model, tier, tokens⟩] table now = some surface →
      (rates.priceTurn tokens (some model) tier harness table now).cost = surface.total
  unpriced : (rates.priceTurn tokens (some model) tier harness table now).unpriced = true ↔
    (rates.priceTokens harness model tier tokens table now).amount = none

/-- The report of one bucket has its amount as the total. -/
theorem total_singleton {surface : PricedSurface}
    (h : rates.priceBucketsDetailed harness [⟨model, tier, tokens⟩] table now = some surface) :
    surface.total = (rates.priceTokens harness model tier tokens table now).amount.getD 0 := by
  unfold priceBucketsDetailed at h
  split at h
  · cases h
  · cases h
    show (rates.pricingPass harness [⟨model, tier, tokens⟩] table now).total = _
    rw [total_pricingPass]
    exact add_zero _

theorem turnAgrees_iff : rates.TurnAgrees tokens model tier harness table now ↔
    (rates.apiMissing harness table = false →
      (rates.priceTurn tokens (some model) tier harness table now).cost =
        (rates.priceTokens harness model tier tokens table now).amount.getD 0) ∧
    ((rates.priceTurn tokens (some model) tier harness table now).unpriced = true ↔
      (rates.priceTokens harness model tier tokens table now).amount = none) := by
  constructor
  · rintro ⟨hcost, hunpriced⟩
    refine ⟨fun hoffered ↦ ?_, hunpriced⟩
    have hsome : rates.priceBucketsDetailed harness [⟨model, tier, tokens⟩] table now =
        some (rates.surface harness table
          (rates.pricingPass harness [⟨model, tier, tokens⟩] table now)) := by
      unfold priceBucketsDetailed
      rw [hoffered]
      rfl
    rw [hcost _ hsome, total_singleton hsome]
  · rintro ⟨hcost, hunpriced⟩
    refine ⟨fun surface hsurface ↦ ?_, hunpriced⟩
    rw [total_singleton hsurface]
    apply hcost
    unfold priceBucketsDetailed at hsurface
    split at hsurface
    · cases hsurface
    next hoffered => exact Bool.eq_false_iff.mpr hoffered

/-- The row charges nothing for these tokens. -/
def ChargesNothing (tokens : TokenTotals) (rate : ModelRate Rat) (multiplier : Rat) : Prop :=
  multiplier = 0 ∨
    ((tokens.inputTokens - tokens.cachedInputTokens - tokens.cacheCreationInputTokens : Nat) *
        rate.input + tokens.cachedInputTokens * rate.cachedInput +
      tokens.cacheCreationInputTokens * rate.cacheCreationRate +
      (tokens.outputTokens - tokens.reasoningOutputTokens : Nat) * rate.output +
      tokens.reasoningOutputTokens * rate.reasoning) = 0

theorem tokenCost_eq_zero_iff {rate : ModelRate Rat} {multiplier : Rat} :
    tokenCost tokens rate multiplier = 0 ↔ ChargesNothing tokens rate multiplier := by
  unfold tokenCost ChargesNothing
  simp only [mul_eq_zero, div_eq_zero_iff]
  have hmillion : ¬ (1000000 : Rat) = 0 := by norm_num
  simp only [hmillion, or_false]
  exact or_comm

/-! ### The amount of the pricer -/

theorem amount_of_apiMissing (h : rates.apiMissing harness table = true) :
    (rates.priceTokens harness model tier tokens table now).amount = none := by
  unfold priceTokens
  rw [if_pos h]

theorem amount_of_unavailable
    (h : (rates.resolveModelPricing model harness (rates.rateTable table) now).basis =
      .unavailable) : (rates.priceTokens harness model tier tokens table now).amount = none := by
  rw [priceTokens_eq_price, Tariff.amount_price_eq_none]
  exact not_answers_of_unavailable h

/-- A free model costs nothing where its table is offered. -/
theorem amount_of_free (hfree : model ∈ rates.freeLocalModels) :
    (rates.priceTokens harness model tier tokens table now).amount =
      if rates.apiMissing harness table || creditsUnsold harness table then none else some 0 := by
  unfold priceTokens
  rw [resolveModelPricing_of_free hfree]
  cases rates.apiMissing harness table with
  | true => rfl
  | false =>
    cases creditsUnsold harness table with
    | true => rfl
    | false => rfl

/-- A model which is listed as unpriced is free or has no price. -/
theorem amount_of_unpriced (hunpriced : model ∈ rates.unpricedModels)
    (hfree : model ∉ rates.freeLocalModels) :
    (rates.priceTokens harness model tier tokens table now).amount = none := by
  apply amount_of_unavailable
  unfold resolveModelPricing
  rw [if_neg hfree, if_pos hunpriced]

/-- A reference table is sold everywhere and charges the rate of the row. -/
theorem amount_of_row {rate : ModelRate Rat} (hoffered : rates.apiMissing harness table = false)
    (hreference : table.delegates = false)
    (hfree : (rates.resolveModelPricing model harness (rates.rateTable table) now).basis ≠
      .freeLocal)
    (havailable : (rates.resolveModelPricing model harness (rates.rateTable table) now).basis ≠
      .unavailable)
    (hrow : (rates.rateTable table)[(rates.resolveModelPricing model harness
      (rates.rateTable table) now).resolvedModel]? = some rate) :
    (rates.priceTokens harness model tier tokens table now).amount =
      (rates.tierMultiplier harness
        (rates.resolveModelPricing model harness (rates.rateTable table) now).resolvedModel
        (rates.resolveModelPricing model harness (rates.rateTable table) now).fallbackUsed
        tier table now).map fun multiplier ↦ tokenCost tokens rate multiplier := by
  have hcredits : table.isCredits = false := by
    unfold RateTable.delegates at hreference
    unfold RateTable.isCredits
    rw [Bool.or_eq_false_iff] at hreference
    exact hreference.1
  unfold priceTokens creditsUnsold chargedRate
  simp only [hoffered, hcredits, Bool.false_and, Bool.false_eq_true, if_false, hfree, havailable,
    hrow]
  cases rates.tierMultiplier harness _ _ tier table now with
  | none => rfl
  | some multiplier => rfl

/-! ### Where the turn differs -/

/-- The model is declared free and listed as unpriced, and its table is offered. -/
def FreeAndUnpriced (rates : RateCard Rat) (model harness : String) (table : RateTable) : Prop :=
  model ∈ rates.freeLocalModels ∧ model ∈ rates.unpricedModels ∧
    rates.apiMissing harness table = false ∧ creditsUnsold harness table = false

/-- The model is declared free, and its row of an offered reference table has no multiplier for
the tier or charges something. -/
def FreeWithRow (rates : RateCard Rat) (tokens : TokenTotals) (model : String)
    (tier : Option String) (harness : String) (table : RateTable) (now : DateTime) : Prop :=
  table.delegates = false ∧ rates.apiMissing harness table = false ∧
    model ∈ rates.freeLocalModels ∧ model ∉ rates.unpricedModels ∧
    ∃ rate, (rates.rateTable table)[model]? = some rate ∧
      ∀ multiplier, rates.tierMultiplier harness model false tier table now = some multiplier →
        ¬ ChargesNothing tokens rate multiplier

/-- The API table is not offered, and the model is free or has a row and a multiplier in it. -/
def PricedUnoffered (rates : RateCard Rat) (model : String) (tier : Option String)
    (harness : String) (table : RateTable) (now : DateTime) : Prop :=
  let resolution := rates.resolveModelPricing model harness (rates.rateTable table) now
  table.delegates = false ∧ rates.apiMissing harness table = true ∧
    model ∉ rates.unpricedModels ∧ resolution.basis ≠ .unavailable ∧
    (resolution.resolvedModel ∉ rates.rateTable table ∨
      rates.tierMultiplier harness resolution.resolvedModel resolution.fallbackUsed tier table now ≠
        none)

theorem turnAgrees_of_unpriced (h : model ∈ rates.unpricedModels) :
    rates.TurnAgrees tokens model tier harness table now ↔
      ¬ rates.FreeAndUnpriced model harness table := by
  rw [turnAgrees_iff, priceTurn_of_unpriced h]
  unfold FreeAndUnpriced
  by_cases hfree : model ∈ rates.freeLocalModels
  · rw [amount_of_free hfree]
    cases hapi : rates.apiMissing harness table with
    | true => simp
    | false =>
      cases hsold : creditsUnsold harness table with
      | true => simp
      | false => simp [hfree, h]
  · rw [amount_of_unpriced h hfree]
    simp [hfree]

theorem turnAgrees_of_delegates (hpriced : model ∉ rates.unpricedModels)
    (h : table.delegates = true) : rates.TurnAgrees tokens model tier harness table now := by
  rw [turnAgrees_iff, priceTurn_of_priced hpriced, if_pos h]
  exact ⟨fun _ ↦ rfl, Option.isNone_iff_eq_none⟩

/-- Where the API table is not offered, nothing has an amount. -/
theorem turnAgrees_of_apiMissing (hpriced : model ∉ rates.unpricedModels)
    (hreference : table.delegates = false) (hapi : rates.apiMissing harness table = true) :
    rates.TurnAgrees tokens model tier harness table now ↔
      ¬ rates.PricedUnoffered model tier harness table now := by
  rw [turnAgrees_iff, priceTurn_of_priced hpriced, hreference, if_neg Bool.false_ne_true,
    amount_of_apiMissing hapi, hapi]
  unfold PricedUnoffered priceReferenceTurn
  simp only [hreference, hapi, hpriced, not_false_eq_true, true_and, Bool.true_eq_false,
    false_implies, iff_true]
  split
  next hunavailable => simp [hunavailable]
  next havailable =>
    split
    next hnone =>
      have hrow := notMem_of_getElem?_eq_none hnone
      simp [havailable, hrow]
    next rate hrow =>
      have hmem := ExtTreeMap.mem_iff_isSome_getElem?.mpr (Option.isSome_of_eq_some hrow)
      split
      next multiplier hmultiplier => simp [havailable, hmultiplier]
      next hmultiplier => simp [havailable, hmem, hmultiplier]

/-- On an offered table the turn differs for free models only. -/
theorem turnAgrees_of_offered (hpriced : model ∉ rates.unpricedModels)
    (hreference : table.delegates = false) (hoffered : rates.apiMissing harness table = false) :
    rates.TurnAgrees tokens model tier harness table now ↔
      ¬ rates.FreeWithRow tokens model tier harness table now := by
  rw [turnAgrees_iff, priceTurn_of_priced hpriced, hreference, if_neg Bool.false_ne_true]
  unfold FreeWithRow
  simp only [hreference, hoffered, hpriced, not_false_eq_true, true_and, true_implies]
  by_cases hfree : model ∈ rates.freeLocalModels
  · have hcredits : creditsUnsold harness table = false := by
      unfold RateTable.delegates at hreference
      unfold creditsUnsold RateTable.isCredits
      rw [Bool.or_eq_false_iff] at hreference
      rw [hreference.1, Bool.false_and]
    rw [amount_of_free hfree, hoffered, hcredits, resolveModelPricing_of_free hfree]
    unfold priceReferenceTurn
    rw [if_neg PricingBasis.noConfusion]
    simp only [hfree, true_and]
    cases hrow : (rates.rateTable table)[model]? with
    | none => simp
    | some rate =>
      cases hmultiplier : rates.tierMultiplier harness model false tier table now with
      | none => simp
      | some multiplier => simp [tokenCost_eq_zero_iff]
  · refine iff_of_true ?_ fun h ↦ hfree h.1
    have hbasis : (rates.resolveModelPricing model harness (rates.rateTable table) now).basis ≠
        .freeLocal := fun h ↦ hfree (basis_eq_freeLocal_iff.mp h)
    unfold priceReferenceTurn
    split
    next hunavailable =>
      rw [amount_of_unavailable hunavailable]
      exact ⟨rfl, iff_of_true rfl rfl⟩
    next havailable =>
      split
      next hnone =>
        exact absurd (basis_eq_freeLocal_of_notMem havailable (notMem_of_getElem?_eq_none hnone))
          hbasis
      next rate hrow =>
        rw [amount_of_row hoffered hreference hbasis havailable hrow]
        split
        next multiplier hmultiplier => simp [hmultiplier]
        next hmultiplier => simp [hmultiplier]

/-- A turn agrees with the pricer, exactly unless its model is free and listed as unpriced, free
with a row that charges, or priced by an API table which is not offered. -/
theorem priceTurn_agrees_iff (rates : RateCard Rat) (tokens : TokenTotals) (model : String)
    (tier : Option String) (harness : String) (table : RateTable) (now : DateTime) :
    rates.TurnAgrees tokens model tier harness table now ↔
      ¬ (rates.FreeAndUnpriced model harness table ∨
        rates.FreeWithRow tokens model tier harness table now ∨
        rates.PricedUnoffered model tier harness table now) := by
  by_cases hunpriced : model ∈ rates.unpricedModels
  · have hrow : ¬ rates.FreeWithRow tokens model tier harness table now :=
      fun h ↦ h.2.2.2.1 hunpriced
    have hoffered : ¬ rates.PricedUnoffered model tier harness table now :=
      fun h ↦ h.2.2.1 hunpriced
    rw [turnAgrees_of_unpriced hunpriced]
    simp [hrow, hoffered]
  · have hboth : ¬ rates.FreeAndUnpriced model harness table := fun h ↦ hunpriced h.2.1
    cases hreference : table.delegates with
    | true =>
      have hrow : ¬ rates.FreeWithRow tokens model tier harness table now :=
        fun h ↦ Bool.false_ne_true (h.1.symm.trans hreference)
      have hoffered : ¬ rates.PricedUnoffered model tier harness table now :=
        fun h ↦ Bool.false_ne_true (h.1.symm.trans hreference)
      refine iff_of_true (turnAgrees_of_delegates hunpriced hreference) ?_
      simp [hboth, hrow, hoffered]
    | false =>
      cases hapi : rates.apiMissing harness table with
      | true =>
        have hrow : ¬ rates.FreeWithRow tokens model tier harness table now :=
          fun h ↦ Bool.false_ne_true (h.2.1.symm.trans hapi)
        rw [turnAgrees_of_apiMissing hunpriced hreference hapi]
        simp [hboth, hrow]
      | false =>
        have hoffered : ¬ rates.PricedUnoffered model tier harness table now :=
          fun h ↦ Bool.false_ne_true (hapi.symm.trans h.2.1)
        rw [turnAgrees_of_offered hunpriced hreference hapi]
        simp [hboth, hoffered]

end RateCard

/-- The free model on a card which has a row for it. -/
def pricedFreeCard : RateCard Rat :=
  { oneRowCard with freeLocalModels := ["gpt-5.5"] }

/-- The pricer says that the turn is free, and the turn is charged by the row. -/
theorem not_turnAgrees_freeRow : ¬ pricedFreeCard.TurnAgrees freeLocalBucket.tokens "gpt-5.5" none
    "codex" .plan .epoch := by
  intro h
  have hcost := h.cost _ rfl
  exact absurd hcost (by decide +kernel)

end AgentOdometer.Pricing
