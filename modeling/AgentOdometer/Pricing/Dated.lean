import AgentOdometer.Model.Session
import AgentOdometer.Pricing.Buckets

/-!
# Dated pricing of a session

`time_aware_surface` (`query_desktop.rs:404–608`): every event of a token history at the rate and
the modifiers which the catalog has for its instant. The first event without such evidence withholds
the whole price. `time_aware_pricing` (388–403) is the price at the API surface of the provider.
-/

namespace AgentOdometer.Pricing

/-! ### One event -/

/-- `PricingCatalog::modifiers_for_request`, `rates.rs:198–217`. -/
def PricingCatalog.modifiersForRequest (catalog : PricingCatalog Rat) (surface : PricingSurface)
    (model : String) (instant : DateTime) (requestInputTokens : Nat) :
    List (ConditionalRateModifier Rat) :=
  catalog.conditionalModifiers.filter fun modifier ↦
    modifier.covers surface model instant &&
      match modifier.condition with
      | .requestInputTokenThreshold greaterThan => greaterThan < requestInputTokens
      | .serviceTier _ => false

/-- The thresholds which could have applied to a request of unknown size. Follows
`query_desktop.rs:475–490`. -/
def PricingCatalog.thresholds (catalog : PricingCatalog Rat) (surface : PricingSurface)
    (model : String) (instant : DateTime) : List (ConditionalRateModifier Rat) :=
  catalog.conditionalModifiers.filter fun modifier ↦
    modifier.covers surface model instant &&
      match modifier.condition with
      | .requestInputTokenThreshold _ => true
      | .serviceTier _ => false

/-- What an event is charged. -/
structure Charge where
  model : String
  cost : Rat
  basis : PricingBasis
  period : EffectiveRatePeriod Rat
  modifiers : List (ConditionalRateModifier Rat)
  evidenceMissing : List String
  cacheCreation : Bool

namespace RateCard

variable (rates : RateCard Rat) (harness : String) (surface : PricingSurface)

/-- The name under which the catalog has a model. A fallback does not lend its rules. Follows
`query_desktop.rs:443–457`. -/
def canonicalModel (model : String) (instant : DateTime) : String :=
  let table := if surface = .openaiApiUsd then rates.apiModels else rates.models
  let resolution := rates.resolveModelPricing model harness table instant
  if resolution.fallbackUsed || resolution.basis = .unavailable then model
  else resolution.resolvedModel

/-- The historical exceptions to a missing rule for a tier. Follows `query_desktop.rs:469–474`. -/
def isHistoricalTier (canonical tier : String) : Bool :=
  surface = .openaiApiUsd && (canonical = "gpt-5.5" || canonical = "gpt-5.4") && tier = "fast"

/-- The rule for a tier, unless the tier needs one and there is none. Follows
`query_desktop.rs:466–475`. -/
def tierRules (canonical : String) (instant : DateTime) (tier : String) :
    Option (List (ConditionalRateModifier Rat)) :=
  match rates.pricingCatalog.modifierForTier surface canonical instant tier with
  | some rule => some [rule]
  | none => if tier = "standard" || isHistoricalTier surface canonical tier then some [] else none

/-- The rate of a period with the multipliers of its modifiers. Follows
`query_desktop.rs:493–504`. -/
def datedRate (rate : ModelRate Rat) (modifiers : List (ConditionalRateModifier Rat)) :
    ModelRate Rat :=
  let input := modifiers.foldl (fun value modifier ↦ value * modifier.multipliers.input) 1
  let output := modifiers.foldl (fun value modifier ↦ value * modifier.multipliers.output) 1
  { input := rate.input * input
    cachedInput := rate.cachedInput * input
    cacheCreationInput := some (rate.cacheCreationRate * input)
    output := rate.output * output
    reasoning := rate.reasoning * output }

/-- The multiplier of a fast tier which the catalog has no rule for. Follows
`query_desktop.rs:508–518`. -/
def historicalMultiplier (canonical : String) (instant : DateTime) (tier : String) : Rat :=
  if tier = "fast" && surface = .openaiApiUsd &&
      (rates.pricingCatalog.modifierForTier surface canonical instant tier).isNone then
    serviceTierMultiplier canonical (some "fast") .api
  else 1

/-- The charge of an event at a period and a tier. Follows `query_desktop.rs:460–528`. -/
def chargeAt (event : TokenHistoryPoint) (model canonical : String)
    (period : EffectiveRatePeriod Rat) (tier : String)
    (tierRules : List (ConditionalRateModifier Rat)) : Charge :=
  let modifiers := ((event.requestInputTokens.map
    (rates.pricingCatalog.modifiersForRequest surface canonical event.timestamp)).getD []) ++
      tierRules
  { model
    cost := tokenCost event.delta (datedRate period.rate modifiers)
      (rates.historicalMultiplier surface canonical event.timestamp tier)
    basis := if period.rate.cacheCreationRateIsFallback && 0 < event.delta.cacheCreationInputTokens
      then .estimated else .direct
    period
    modifiers
    evidenceMissing := if event.requestInputTokens.isNone then
      (rates.pricingCatalog.thresholds surface canonical event.timestamp).map (·.id) else []
    cacheCreation := 0 < event.delta.cacheCreationInputTokens }

/-- One event: nothing when it withholds the price, no charge when it has no model and no tokens.
Follows `query_desktop.rs:432–529`. -/
def chargeEvent (event : TokenHistoryPoint) : Option (Option Charge) :=
  match event.model with
  | none => if 0 < event.delta.totalTokens then none else some none
  | some model =>
      if model ∈ rates.unpricedModels then none
      else do
        let canonical := rates.canonicalModel harness surface model event.timestamp
        let period ← rates.pricingCatalog.rateAt surface canonical event.timestamp
        let tier ← scenarioTier event.serviceTier
        let rules ← rates.tierRules surface canonical event.timestamp tier
        return some (rates.chargeAt surface event model canonical period tier rules)

end RateCard

/-! ### The loop -/

/-- `push_unique`, `query_desktop.rs:382–386`. -/
def pushUnique {α : Type} [DecidableEq α] (values : List α) (value : α) : List α :=
  if value ∈ values then values else values ++ [value]

/-- The row of a model. Follows `query_desktop.rs:530–548`. -/
def addRow (charge : Charge) : List PricedModel → List PricedModel
  | [] => [⟨charge.model, charge.cost, charge.basis, false⟩]
  | row :: rest =>
      if row.model = charge.model then
        { row with
          cost := row.cost + charge.cost
          basis := if row.basis ≠ .estimated then charge.basis else row.basis } :: rest
      else row :: addRow charge rest

/-- What the loop of `time_aware_surface` accumulates, `query_desktop.rs:413–430`. -/
structure DatedTotals where
  total : Rat
  byModel : List PricedModel
  ratePeriods : List String
  modifiers : List String
  evidenceMissing : List String
  multipliers : List Rat
  cacheCreationObserved : Bool

namespace DatedTotals

/-- Before the first event. -/
def empty : DatedTotals :=
  ⟨0, [], [], [], [], [], false⟩

/-- A charge is entered. Follows `query_desktop.rs:475–562`. -/
def add (totals : DatedTotals) (charge : Charge) : DatedTotals where
  total := totals.total + charge.cost
  byModel := addRow charge totals.byModel
  ratePeriods := pushUnique totals.ratePeriods charge.period.id
  modifiers := (charge.modifiers.map (·.id)).foldl pushUnique totals.modifiers
  evidenceMissing := charge.evidenceMissing.foldl pushUnique totals.evidenceMissing
  multipliers := charge.period.cacheWriteInputMultiplier.toList.foldl pushUnique totals.multipliers
  cacheCreationObserved := totals.cacheCreationObserved ||
    (charge.period.cacheWriteInputMultiplier.isSome && charge.cacheCreation)

end DatedTotals

/-- `PricingRuleSummary`, `query_desktop.rs:81–88`. -/
structure PricingRuleSummary where
  id : String
  label : String
  startsAt : DateTime
  endsAt : Option DateTime
  provenance : PricingProvenance

/-- `TimeAwarePricing`, `query_desktop.rs:68–79`. -/
structure TimeAwarePricing where
  pricing : PricedSurface
  surface : PricingSurface
  appliedRatePeriods : List String
  appliedModifiers : List String
  conditionalEvidenceMissing : List String
  cacheWritePricingUnmodeled : Bool
  unobservedCacheWriteInputMultipliers : List Rat
  rules : List PricingRuleSummary

/-- The currency of a surface. Follows `query_desktop.rs:597–604`. -/
def PricingSurface.currency : PricingSurface → String
  | .codexPlanCredits | .codexPurchasedCredits | .codexIncludedAllowance => "credits"
  | .openaiApiUsd | .anthropicApiUsd | .geminiApiUsd => "USD"

namespace RateCard

variable (rates : RateCard Rat) (harness : String) (surface : PricingSurface)

/-- The loop, `query_desktop.rs:432–562`. -/
def priceEvents : List TokenHistoryPoint → DatedTotals → Option DatedTotals
  | [], totals => some totals
  | event :: rest, totals =>
      match rates.chargeEvent harness surface event with
      | none => none
      | some none => priceEvents rest totals
      | some (some charge) => priceEvents rest (totals.add charge)

/-- The rules of the catalog which were applied. Follows `query_desktop.rs:565–593`. -/
def appliedRules (totals : DatedTotals) : List PricingRuleSummary :=
  (rates.pricingCatalog.ratePeriods.filter (·.id ∈ totals.ratePeriods)).map
      (fun rule ↦ ⟨rule.id, rule.label, rule.startsAt, rule.endsAt, rule.provenance⟩) ++
    (rates.pricingCatalog.conditionalModifiers.filter (·.id ∈ totals.modifiers)).map
      fun rule ↦ ⟨rule.id, rule.label, rule.startsAt, rule.endsAt, rule.provenance⟩

/-- The report of the loop. No model is listed as missing or unpriced, so the total is always
restated. Follows `query_desktop.rs:563–608`. -/
def datedReport (totals : DatedTotals) : TimeAwarePricing where
  pricing := {
    total := totals.total
    byModel := totals.byModel
    missingModels := []
    unpricedModels := []
    converted := convertTotal rates surface.currency totals.total }
  surface
  appliedRatePeriods := totals.ratePeriods
  appliedModifiers := totals.modifiers
  conditionalEvidenceMissing := totals.evidenceMissing
  cacheWritePricingUnmodeled := !totals.multipliers.isEmpty && !totals.cacheCreationObserved
  unobservedCacheWriteInputMultipliers := totals.multipliers
  rules := rates.appliedRules totals

/-- `time_aware_surface`, `query_desktop.rs:404–608`. -/
def timeAwareSurface (session : Session) : Option TimeAwarePricing :=
  if session.tokensHistory.isEmpty then none
  else (rates.priceEvents session.harness.value surface session.tokensHistory .empty).map
    (rates.datedReport surface)

/-- The API surface of a provider. Follows `query_desktop.rs:392–401`. -/
def apiSurface (harness : String) : Option PricingSurface :=
  if isCodex harness then some .openaiApiUsd
  else if harness = "gemini_cli" then some .geminiApiUsd
  else if harness = "claude_code" then some .anthropicApiUsd
  else none

/-- `time_aware_pricing`, `query_desktop.rs:388–403`. -/
def timeAwarePricing (session : Session) : Option TimeAwarePricing :=
  if session.tokensHistory.isEmpty || rates.pricingCatalog.ratePeriods.isEmpty then none
  else do
    let surface ← apiSurface session.harness.value
    rates.timeAwareSurface surface session

/-! ### Evidence -/

/-- What the catalog has to know of an event. -/
def Evidenced (event : TokenHistoryPoint) : Prop :=
  match event.model with
  | none => event.delta.totalTokens = 0
  | some model =>
      model ∉ rates.unpricedModels ∧
        (∃ period ∈ rates.pricingCatalog.ratePeriods, period.covers surface
          (rates.canonicalModel harness surface model event.timestamp) event.timestamp = true) ∧
        ∃ tier, scenarioTier event.serviceTier = some tier ∧
          (tier = "standard" ∨ isHistoricalTier surface
              (rates.canonicalModel harness surface model event.timestamp) tier = true ∨
            ∃ rule ∈ rates.pricingCatalog.conditionalModifiers, rule.applies surface
              (rates.canonicalModel harness surface model event.timestamp) (.serviceTier tier)
                event.timestamp = true)

variable {rates harness surface}

theorem isSome_tierRules {canonical tier : String} {instant : DateTime} :
    (rates.tierRules surface canonical instant tier).isSome = true ↔
      tier = "standard" ∨ isHistoricalTier surface canonical tier = true ∨
        ∃ rule ∈ rates.pricingCatalog.conditionalModifiers,
          rule.applies surface canonical (.serviceTier tier) instant = true := by
  have hfind : (rates.pricingCatalog.modifierForTier surface canonical instant tier).isSome = true ↔
      ∃ rule ∈ rates.pricingCatalog.conditionalModifiers,
        rule.applies surface canonical (.serviceTier tier) instant = true :=
    List.find?_isSome
  rw [← hfind]
  unfold tierRules
  cases rates.pricingCatalog.modifierForTier surface canonical instant tier with
  | some rule => simp
  | none =>
    by_cases hknown : tier = "standard" ∨ isHistoricalTier surface canonical tier = true
    · rw [if_pos (by simpa using hknown)]
      exact iff_of_true rfl (hknown.imp_right .inl)
    · rw [if_neg (by simpa using hknown)]
      refine iff_of_false Bool.false_ne_true ?_
      rintro (hstandard | hhistorical | hnone)
      · exact hknown (.inl hstandard)
      · exact hknown (.inr hhistorical)
      · cases hnone

theorem isSome_chargeEvent {event : TokenHistoryPoint} :
    (rates.chargeEvent harness surface event).isSome = true ↔
      rates.Evidenced harness surface event := by
  unfold chargeEvent Evidenced
  cases event.model with
  | none =>
    simp only
    by_cases htokens : 0 < event.delta.totalTokens
    · rw [if_pos htokens]
      exact iff_of_false Bool.false_ne_true (Nat.pos_iff_ne_zero.mp htokens)
    · rw [if_neg htokens]
      exact iff_of_true rfl (Nat.eq_zero_of_not_pos htokens)
  | some model =>
    simp only
    by_cases hunpriced : model ∈ rates.unpricedModels
    · rw [if_pos hunpriced]
      exact iff_of_false Bool.false_ne_true fun h ↦ h.1 hunpriced
    · rw [if_neg hunpriced]
      have hperiod : (rates.pricingCatalog.rateAt surface
          (rates.canonicalModel harness surface model event.timestamp) event.timestamp).isSome =
            true ↔ ∃ period ∈ rates.pricingCatalog.ratePeriods, period.covers surface
              (rates.canonicalModel harness surface model event.timestamp) event.timestamp = true :=
        List.find?_isSome
      rw [← hperiod]
      simp only [← isSome_tierRules]
      cases rates.pricingCatalog.rateAt surface
          (rates.canonicalModel harness surface model event.timestamp) event.timestamp with
      | none => simp
      | some period =>
        cases scenarioTier event.serviceTier with
        | none => simp
        | some tier =>
          cases hrules : rates.tierRules surface
            (rates.canonicalModel harness surface model event.timestamp) event.timestamp tier with
          | none => simp [hrules]
          | some rules => simp [hrules, hunpriced]

/-- The charges of events. -/
def chargesOf (rates : RateCard Rat) (harness : String) (surface : PricingSurface)
    (events : List TokenHistoryPoint) : List Charge :=
  events.filterMap fun event ↦ (rates.chargeEvent harness surface event).join

/-- The loop enters the charges of all events, or withholds the price when one of them has none. -/
theorem priceEvents_eq (events : List TokenHistoryPoint) (totals : DatedTotals) :
    rates.priceEvents harness surface events totals =
      if events.all fun event ↦ (rates.chargeEvent harness surface event).isSome then
        some ((rates.chargesOf harness surface events).foldl DatedTotals.add totals)
      else none := by
  induction events generalizing totals with
  | nil => rfl
  | cons event rest ih =>
    unfold priceEvents chargesOf
    rw [List.all_cons, List.filterMap_cons]
    cases rates.chargeEvent harness surface event with
    | none => rfl
    | some charged =>
      cases charged with
      | none =>
        simp only [Option.join_some, Option.isSome_some, Bool.true_and]
        exact ih totals
      | some charge =>
        simp only [Option.join_some, Option.isSome_some, Bool.true_and, List.foldl_cons]
        exact ih (totals.add charge)

/-- A dated price exists exactly when there is an event and the catalog has evidence for every
event: a model which is not marked as unpriced, a period of its canonical name which contains the
instant, and a known tier with a rule where it needs one. -/
theorem isSome_timeAwareSurface_iff (rates : RateCard Rat) (surface : PricingSurface)
    (session : Session) :
    (rates.timeAwareSurface surface session).isSome = true ↔
      session.tokensHistory ≠ [] ∧
        ∀ event ∈ session.tokensHistory, rates.Evidenced session.harness.value surface event := by
  unfold timeAwareSurface
  cases hhistory : session.tokensHistory with
  | nil => exact iff_of_false Bool.false_ne_true fun h ↦ h.1 rfl
  | cons event rest =>
    simp only [← isSome_chargeEvent]
    rw [← List.all_eq_true, if_neg (by simp), Option.isSome_map, priceEvents_eq]
    split
    next hcharged => exact iff_of_true rfl ⟨List.cons_ne_nil _ _, hcharged⟩
    next hcharged => exact iff_of_false Bool.false_ne_true fun h ↦ hcharged h.2

end RateCard

/-! ### Sums and rules -/

section Rows

variable {α : Type} [DecidableEq α] {values new : List α} {value a : α}

theorem mem_pushUnique : a ∈ pushUnique values value ↔ a ∈ values ∨ a = value := by
  unfold pushUnique
  split
  next hmem =>
    constructor
    · exact .inl
    · rintro (hold | rfl)
      · exact hold
      · exact hmem
  · rw [List.mem_append, List.mem_singleton]

theorem nodup_pushUnique (h : values.Nodup) : (pushUnique values value).Nodup := by
  unfold pushUnique
  split
  · exact h
  next hmem =>
    exact List.nodup_append.mpr ⟨h, List.nodup_singleton value, fun b hb c hc hbc ↦
      hmem (List.mem_singleton.mp hc ▸ hbc ▸ hb)⟩

theorem mem_foldl_pushUnique : a ∈ new.foldl pushUnique values ↔ a ∈ values ∨ a ∈ new := by
  induction new generalizing values with
  | nil => simp
  | cons first rest ih => rw [List.foldl_cons, ih, mem_pushUnique, List.mem_cons, or_assoc]

theorem nodup_foldl_pushUnique (h : values.Nodup) : (new.foldl pushUnique values).Nodup := by
  induction new generalizing values with
  | nil => exact h
  | cons first rest ih => exact ih (nodup_pushUnique h)

variable {charge : Charge} {rows : List PricedModel} {row : PricedModel}

theorem sum_addRow : ((addRow charge rows).map PricedModel.cost).sum =
    (rows.map PricedModel.cost).sum + charge.cost := by
  induction rows with
  | nil => simp [addRow]
  | cons first rest ih =>
    unfold addRow
    split
    · simp only [List.map_cons, List.sum_cons]
      ring
    · simp only [List.map_cons, List.sum_cons, ih]
      ring

theorem models_addRow : (addRow charge rows).map PricedModel.model =
    pushUnique (rows.map PricedModel.model) charge.model := by
  induction rows with
  | nil => rfl
  | cons first rest ih =>
    unfold addRow
    by_cases hfirst : first.model = charge.model
    · have hmem : charge.model ∈ (first :: rest).map PricedModel.model := by
        rw [← hfirst]
        exact List.mem_cons_self
      rw [if_pos hfirst, pushUnique, if_pos hmem]
      rfl
    · have hmem : charge.model ∈ (first :: rest).map PricedModel.model ↔
          charge.model ∈ rest.map PricedModel.model := by
        rw [List.map_cons, List.mem_cons]
        exact or_iff_right (Ne.symm hfirst)
      rw [if_neg hfirst, List.map_cons, ih, pushUnique, pushUnique]
      simp only [hmem]
      split <;> rfl

/-- A row is left, is the one of the charge, or is new. -/
theorem mem_addRow (hnodup : (rows.map PricedModel.model).Nodup) (h : row ∈ addRow charge rows) :
    row ∈ rows ∧ row.model ≠ charge.model ∨
      (∃ old ∈ rows, old.model = charge.model ∧ row = { old with
        cost := old.cost + charge.cost
        basis := if old.basis ≠ .estimated then charge.basis else old.basis }) ∨
      charge.model ∉ rows.map PricedModel.model ∧
        row = ⟨charge.model, charge.cost, charge.basis, false⟩ := by
  induction rows with
  | nil => exact .inr (.inr ⟨List.not_mem_nil, List.mem_singleton.mp h⟩)
  | cons first rest ih =>
    rw [List.map_cons, List.nodup_cons] at hnodup
    unfold addRow at h
    by_cases hfirst : first.model = charge.model
    · rw [if_pos hfirst, List.mem_cons] at h
      rcases h with rfl | hrest
      · exact .inr (.inl ⟨first, List.mem_cons_self, hfirst, rfl⟩)
      · refine .inl ⟨List.mem_cons_of_mem _ hrest, fun hrow ↦ hnodup.1 ?_⟩
        rw [hfirst, ← hrow]
        exact List.mem_map_of_mem hrest
    · rw [if_neg hfirst, List.mem_cons] at h
      rcases h with rfl | hrest
      · exact .inl ⟨List.mem_cons_self, hfirst⟩
      · rcases ih hnodup.2 hrest with ⟨hold, hne⟩ | ⟨old, hold, hmodel, hrow⟩ | ⟨hnew, hrow⟩
        · exact .inl ⟨List.mem_cons_of_mem _ hold, hne⟩
        · exact .inr (.inl ⟨old, List.mem_cons_of_mem _ hold, hmodel, hrow⟩)
        · refine .inr (.inr ⟨?_, hrow⟩)
          rw [List.map_cons, List.mem_cons, not_or]
          exact ⟨Ne.symm hfirst, hnew⟩

end Rows

/-- The charges of a model. -/
def chargesFor (model : String) (charges : List Charge) : List Charge :=
  charges.filter (·.model = model)

/-- The totals are made of the charges: the total is their sum and that of the rows, there is one
row for each model with the sum of its charges, and the ids are those of the rules they used. -/
structure DatedTotals.MadeOf (totals : DatedTotals) (charges : List Charge) : Prop where
  total : totals.total = (charges.map Charge.cost).sum
  rows : totals.total = (totals.byModel.map PricedModel.cost).sum
  nodup : (totals.byModel.map PricedModel.model).Nodup
  models : ∀ model, model ∈ totals.byModel.map PricedModel.model ↔ model ∈ charges.map Charge.model
  cost : ∀ row ∈ totals.byModel, row.cost = ((chargesFor row.model charges).map Charge.cost).sum
  estimated : ∀ row ∈ totals.byModel, row.basis = .estimated ↔
    ∃ charge ∈ charges, charge.model = row.model ∧ charge.basis = .estimated
  periodsNodup : totals.ratePeriods.Nodup
  periods : ∀ id, id ∈ totals.ratePeriods ↔ ∃ charge ∈ charges, charge.period.id = id
  modifiersNodup : totals.modifiers.Nodup
  modifiers : ∀ id, id ∈ totals.modifiers ↔
    ∃ charge ∈ charges, ∃ rule ∈ charge.modifiers, rule.id = id

namespace DatedTotals

variable {totals : DatedTotals} {charges : List Charge}

theorem madeOf_empty : empty.MadeOf [] where
  total := rfl
  rows := rfl
  nodup := List.nodup_nil
  models _ := Iff.rfl
  cost := List.forall_mem_nil _
  estimated := List.forall_mem_nil _
  periodsNodup := List.nodup_nil
  periods _ := by simp [empty]
  modifiersNodup := List.nodup_nil
  modifiers _ := by simp [empty]

theorem chargesFor_concat (model : String) (charges : List Charge) (charge : Charge) :
    chargesFor model (charges ++ [charge]) =
      chargesFor model charges ++ if charge.model = model then [charge] else [] := by
  unfold chargesFor
  rw [List.filter_append, List.filter_singleton]
  by_cases hmodel : charge.model = model
  · simp [hmodel]
  · simp [hmodel]

theorem chargesFor_eq_nil {model : String} (h : model ∉ charges.map Charge.model) :
    chargesFor model charges = [] := by
  unfold chargesFor
  refine List.filter_eq_nil_iff.mpr fun charge hcharge hmodel ↦ h ?_
  rw [← of_decide_eq_true hmodel]
  exact List.mem_map_of_mem hcharge

/-- Entering a charge. -/
theorem MadeOf.add (h : totals.MadeOf charges) (charge : Charge) :
    (totals.add charge).MadeOf (charges ++ [charge]) where
  total := by
    rw [List.map_append, List.sum_append, ← h.total]
    simp [DatedTotals.add]
  rows := by
    show totals.total + charge.cost = _
    rw [h.rows]
    exact sum_addRow.symm
  nodup := by
    show ((addRow charge totals.byModel).map PricedModel.model).Nodup
    rw [models_addRow]
    exact nodup_pushUnique h.nodup
  models model := by
    show model ∈ (addRow charge totals.byModel).map PricedModel.model ↔ _
    rw [models_addRow, mem_pushUnique, h.models, List.map_append, List.mem_append]
    exact or_congr_right List.mem_singleton.symm
  cost row hrow := by
    rw [chargesFor_concat]
    rcases mem_addRow h.nodup hrow with ⟨hold, hne⟩ | ⟨old, hold, hmodel, rfl⟩ | ⟨hnew, rfl⟩
    · rw [if_neg (Ne.symm hne), List.append_nil, h.cost row hold]
    · rw [if_pos hmodel.symm, List.map_append, List.sum_append]
      simp [h.cost old hold]
    · rw [if_pos rfl, chargesFor_eq_nil fun hmem ↦ hnew ((h.models _).mpr hmem)]
      simp
  estimated row hrow := by
    have hconcat : (∃ c ∈ charges ++ [charge], c.model = row.model ∧ c.basis = .estimated) ↔
        (∃ c ∈ charges, c.model = row.model ∧ c.basis = .estimated) ∨
          charge.model = row.model ∧ charge.basis = .estimated := by
      simp only [List.mem_append, List.mem_singleton, or_and_right, exists_or, exists_eq_left]
    rw [hconcat]
    rcases mem_addRow h.nodup hrow with ⟨hold, hne⟩ | ⟨old, hold, hmodel, rfl⟩ | ⟨hnew, rfl⟩
    · rw [h.estimated row hold, or_iff_left fun hcharge ↦ hne hcharge.1.symm]
    · rw [← h.estimated old hold]
      by_cases hbasis : old.basis = .estimated
      · simp [hbasis]
      · simp [hbasis, hmodel]
    · have hnone : ¬∃ c ∈ charges, c.model = charge.model ∧ c.basis = .estimated := by
        rintro ⟨c, hc, hmodel, -⟩
        exact hnew ((h.models _).mpr (hmodel ▸ List.mem_map_of_mem hc))
      simp [hnone]
  periodsNodup := nodup_pushUnique h.periodsNodup
  periods id := by
    show id ∈ pushUnique totals.ratePeriods charge.period.id ↔ _
    rw [mem_pushUnique, h.periods]
    simp only [List.mem_append, List.mem_singleton, or_and_right, exists_or, exists_eq_left]
    exact or_congr_right eq_comm
  modifiersNodup := nodup_foldl_pushUnique h.modifiersNodup
  modifiers id := by
    show id ∈ (charge.modifiers.map (·.id)).foldl pushUnique totals.modifiers ↔ _
    rw [mem_foldl_pushUnique, h.modifiers, List.mem_map]
    simp only [List.mem_append, List.mem_singleton, or_and_right, exists_or, exists_eq_left]

theorem MadeOf.foldl (h : totals.MadeOf charges) (more : List Charge) :
    (more.foldl DatedTotals.add totals).MadeOf (charges ++ more) := by
  induction more generalizing totals charges with
  | nil =>
    rw [List.append_nil]
    exact h
  | cons charge rest ih =>
    have hrest := ih (h.add charge)
    rw [List.append_assoc] at hrest
    exact hrest

end DatedTotals

namespace RateCard

variable {rates : RateCard Rat} {harness : String} {surface : PricingSurface}

/-- An event meets the condition of a modifier. -/
def MeetsCondition (event : TokenHistoryPoint) : PricingCondition → Prop
  | .requestInputTokenThreshold greaterThan =>
      ∃ tokens, event.requestInputTokens = some tokens ∧ greaterThan < tokens
  | .serviceTier tier => scenarioTier event.serviceTier = some tier

/-- The rules of a charge are the catalog's for the instant of its event. -/
structure ChargedBy (rates : RateCard Rat) (harness : String) (surface : PricingSurface)
    (event : TokenHistoryPoint) (charge : Charge) : Prop where
  model : event.model = some charge.model
  period : charge.period ∈ rates.pricingCatalog.ratePeriods ∧ charge.period.covers surface
    (rates.canonicalModel harness surface charge.model event.timestamp) event.timestamp = true
  modifiers : ∀ rule ∈ charge.modifiers, rule ∈ rates.pricingCatalog.conditionalModifiers ∧
    rule.covers surface (rates.canonicalModel harness surface charge.model event.timestamp)
      event.timestamp = true ∧ MeetsCondition event rule.condition

theorem chargedBy_of_chargeEvent {event : TokenHistoryPoint} {charge : Charge}
    (h : rates.chargeEvent harness surface event = some (some charge)) :
    rates.ChargedBy harness surface event charge := by
  unfold chargeEvent at h
  cases hmodel : event.model with
  | none =>
    rw [hmodel] at h
    simp only at h
    split at h <;> cases h
  | some model =>
    rw [hmodel] at h
    simp only at h
    split at h
    · cases h
    obtain ⟨period, hperiod, h⟩ := Option.bind_eq_some_iff.mp h
    obtain ⟨tier, htier, h⟩ := Option.bind_eq_some_iff.mp h
    obtain ⟨rules, hrules, h⟩ := Option.bind_eq_some_iff.mp h
    cases h
    unfold PricingCatalog.rateAt at hperiod
    have hcovers := List.find?_some hperiod
    refine ⟨hmodel, ⟨List.mem_of_find?_eq_some hperiod, hcovers⟩, ?_⟩
    intro rule hrule
    rcases List.mem_append.mp hrule with hrequest | htierRule
    · cases htokens : event.requestInputTokens with
      | none =>
        rw [htokens] at hrequest
        exact absurd hrequest List.not_mem_nil
      | some tokens =>
        rw [htokens] at hrequest
        obtain ⟨hmem, hrequest⟩ := List.mem_filter.mp hrequest
        obtain ⟨hcovers, hcondition⟩ := Bool.and_eq_true_iff.mp hrequest
        refine ⟨hmem, hcovers, ?_⟩
        cases hcond : rule.condition with
        | requestInputTokenThreshold greaterThan =>
          rw [hcond] at hcondition
          exact ⟨tokens, htokens, of_decide_eq_true hcondition⟩
        | serviceTier tier =>
          rw [hcond] at hcondition
          cases hcondition
    · unfold tierRules at hrules
      split at hrules
      next found hfound =>
        cases hrules
        cases List.mem_singleton.mp htierRule
        unfold PricingCatalog.modifierForTier at hfound
        have happlies := List.find?_some hfound
        obtain ⟨hcovers, hcondition⟩ := Bool.and_eq_true_iff.mp happlies
        have hcond : rule.condition = .serviceTier tier := of_decide_eq_true hcondition
        refine ⟨List.mem_of_find?_eq_some hfound, hcovers, ?_⟩
        rw [hcond]
        exact htier
      · split at hrules
        · cases hrules
          exact absurd htierRule List.not_mem_nil
        · cases hrules

/-- A dated price is the report of the totals of its charges. -/
theorem totals_of_timeAwareSurface {session : Session} {result : TimeAwarePricing}
    (h : rates.timeAwareSurface surface session = some result) :
    ∃ totals : DatedTotals, result = rates.datedReport surface totals ∧
      totals.MadeOf (rates.chargesOf session.harness.value surface session.tokensHistory) ∧
      ∀ charge ∈ rates.chargesOf session.harness.value surface session.tokensHistory,
        ∃ event ∈ session.tokensHistory,
          rates.ChargedBy session.harness.value surface event charge := by
  unfold timeAwareSurface at h
  split at h
  · cases h
  · rw [priceEvents_eq] at h
    split at h
    · cases h
      refine ⟨_, rfl, DatedTotals.madeOf_empty.foldl _, ?_⟩
      intro charge hcharge
      obtain ⟨event, hevent, hjoin⟩ := List.mem_filterMap.mp hcharge
      exact ⟨event, hevent, chargedBy_of_chargeEvent (Option.join_eq_some_iff.mp hjoin)⟩
    · cases h

/-- The total of a dated price is the sum of the charges of its events and the sum of its rows, each
row has the charges of its model, and the rules it names are exactly those which were applied, each
in force at the instant of an event which meets its condition. -/
theorem timeAwareSurface_addsUp (rates : RateCard Rat) (surface : PricingSurface)
    (session : Session) :
    rates.timeAwareSurface surface session = none ∨ ∃ totals : DatedTotals,
      rates.timeAwareSurface surface session = some (rates.datedReport surface totals) ∧
      totals.MadeOf (rates.chargesOf session.harness.value surface session.tokensHistory) ∧
      ∀ charge ∈ rates.chargesOf session.harness.value surface session.tokensHistory,
        ∃ event ∈ session.tokensHistory,
          rates.ChargedBy session.harness.value surface event charge := by
  cases hpriced : rates.timeAwareSurface surface session with
  | none => exact .inl rfl
  | some result =>
    obtain ⟨totals, rfl, hmade, hcharged⟩ := totals_of_timeAwareSurface hpriced
    exact .inr ⟨totals, rfl, hmade, hcharged⟩

/-! ### The surface of the provider -/

theorem surface_of_covers_period {period : EffectiveRatePeriod Rat} {model : String}
    {instant : DateTime} (h : period.covers surface model instant = true) :
    period.surface = surface := by
  unfold EffectiveRatePeriod.covers at h
  rw [Bool.and_eq_true, Bool.and_eq_true] at h
  exact of_decide_eq_true h.1.1

theorem surface_of_covers_modifier {rule : ConditionalRateModifier Rat} {model : String}
    {instant : DateTime} (h : rule.covers surface model instant = true) :
    rule.surface = surface := by
  unfold ConditionalRateModifier.covers at h
  rw [Bool.and_eq_true, Bool.and_eq_true] at h
  exact of_decide_eq_true h.1.1

theorem currency_apiSurface (h : apiSurface harness = some surface) :
    surface.currency = "USD" := by
  unfold apiSurface at h
  split at h
  · cases h
    rfl
  split at h
  · cases h
    rfl
  split at h
  · cases h
    rfl
  · cases h

/-- Billing rules stay inside the provider's API surface: a dated price is in US dollars and names
rules of that surface only. -/
theorem timeAwarePricing_withinProvider (rates : RateCard Rat) (session : Session) :
    rates.timeAwarePricing session = none ∨ ∃ result,
      rates.timeAwarePricing session = some result ∧
      apiSurface session.harness.value = some result.surface ∧ result.surface.currency = "USD" ∧
      (∀ id ∈ result.appliedRatePeriods, ∃ period ∈ rates.pricingCatalog.ratePeriods,
        period.id = id ∧ period.surface = result.surface) ∧
      ∀ id ∈ result.appliedModifiers, ∃ rule ∈ rates.pricingCatalog.conditionalModifiers,
        rule.id = id ∧ rule.surface = result.surface := by
  cases hpriced : rates.timeAwarePricing session with
  | none => exact .inl rfl
  | some result =>
    unfold timeAwarePricing at hpriced
    split at hpriced
    · cases hpriced
    obtain ⟨surface, hsurface, hpriced⟩ := Option.bind_eq_some_iff.mp hpriced
    obtain ⟨totals, rfl, hmade, hcharged⟩ := totals_of_timeAwareSurface hpriced
    refine .inr ⟨_, rfl, hsurface, currency_apiSurface hsurface, ?_, ?_⟩
    · intro id hid
      obtain ⟨charge, hcharge, hperiod⟩ := (hmade.periods id).mp hid
      obtain ⟨event, -, hby⟩ := hcharged charge hcharge
      exact ⟨charge.period, hby.period.1, hperiod, surface_of_covers_period hby.period.2⟩
    · intro id hid
      obtain ⟨charge, hcharge, rule, hrule, hid⟩ := (hmade.modifiers id).mp hid
      obtain ⟨event, -, hby⟩ := hcharged charge hcharge
      obtain ⟨hmem, hcovers, -⟩ := hby.modifiers rule hrule
      exact ⟨rule, hmem, hid, surface_of_covers_modifier hcovers⟩

end RateCard

end AgentOdometer.Pricing
