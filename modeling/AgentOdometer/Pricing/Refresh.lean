import AgentOdometer.Pricing.Resolution
import AgentOdometer.Pricing.UpgradeValidity

/-!
# Refresh of a rate card

`apply_refresh_candidate` (`rates.rs:646–701`): a candidate replaces the card when it passes
every check, and is refused as a whole when it does not.
-/

namespace AgentOdometer.Pricing

open Std (ExtTreeMap)

variable {ν : Type}

/-- A row of the previous table is neither in the new table nor marked as unpriced. Follows
`rates.rs:657–662`. -/
def droppedRows (previous refreshed : ExtTreeMap String (ModelRate ν))
    (unpricedModels : List String) : Bool :=
  previous.keys.any fun model ↦ !refreshed.contains model && !decide (model ∈ unpricedModels)

section Refresh

variable [RateNumber ν] [BEq ν]

/-- A rate of one of the two tables cannot be used. Follows `rates.rs:672–676`. -/
def RateCard.unusableRate (card : RateCard ν) : Bool :=
  (card.models.toList ++ card.apiModels.toList).any (!·.2.isUsable)

/-- `pricing_catalog.validate().is_ok()`, `rates.rs:652`. -/
def RateCard.structurallyValid (card : RateCard ν) : Bool :=
  card.pricingCatalog.validate.isOk

/-- `validate().is_ok()`, `rates.rs:653`. -/
def RateCard.metadataValid (card : RateCard ν) : Bool :=
  card.validate.isOk

/-- The candidate passes every check. Follows `rates.rs:677–681`. -/
def RateCard.acceptable (previous candidate : RateCard ν) : Bool :=
  candidate.structurallyValid && candidate.metadataValid &&
    !droppedRows previous.models candidate.models candidate.unpricedModels &&
    !droppedRows previous.apiModels candidate.apiModels candidate.unpricedModels &&
    !candidate.unusableRate

/-- The text of a refused candidate. Follows `rates.rs:689–697`. -/
def RateCard.refusalReason (candidate : RateCard ν) : String :=
  if !candidate.structurallyValid then "candidate pricing catalog failed validation"
  else if candidate.unusableRate then "candidate contained a negative or non-finite rate"
  else if !candidate.metadataValid then
    "candidate FX or cache-age metadata failed validation"
  else "candidate price tables were empty or partial"

/-- The state after a refresh which succeeded. Follows `rates.rs:683–685`. -/
def RateRefreshState.succeeded (state : RateRefreshState) (now : DateTime) : RateRefreshState :=
  { state with lastSuccessAt := some now, lastAttemptAt := some now, lastFailureReason := none }

/-- The state after a refresh which failed. Follows `rates.rs:689–697`. -/
def RateRefreshState.failed (state : RateRefreshState) (now : DateTime) (reason : String) :
    RateRefreshState :=
  { state with lastAttemptAt := some now, lastFailureReason := some reason }

/-- `apply_refresh_candidate`, `rates.rs:646–701`. -/
def applyRefreshCandidate (previous candidate : RateCard ν) (now : DateTime) : RateCard ν :=
  if RateCard.acceptable previous candidate then
    { candidate with refresh := candidate.refresh.succeeded now }
  else
    { previous with refresh := previous.refresh.failed now candidate.refusalReason }

end Refresh

/-! ### Rows which are kept -/

section Rows

variable {previous refreshed table : ExtTreeMap String (ModelRate ν)}
  {unpricedModels : List String}

/-- Every row of the previous table is in the new one or marked as unpriced. -/
def KeepsRows (previous refreshed : ExtTreeMap String (ModelRate ν))
    (unpricedModels : List String) : Prop :=
  ∀ model ∈ previous, model ∈ refreshed ∨ model ∈ unpricedModels

theorem droppedRows_eq_false :
    droppedRows previous refreshed unpricedModels = false ↔
      KeepsRows previous refreshed unpricedModels := by
  unfold droppedRows KeepsRows
  simp only [List.any_eq_false, ExtTreeMap.mem_keys, Bool.and_eq_true, Bool.not_eq_true',
    decide_eq_false_iff_not, not_and_or, Bool.not_eq_false, ExtTreeMap.contains_iff_mem,
    not_not]

/-- A model with a row, or marked as unpriced, is never priced by another row. -/
theorem RateCard.resolveModelPricing_own {card : RateCard ν} {model harness : String}
    {now : DateTime} (h : model ∈ table ∨ model ∈ card.unpricedModels) :
    (card.resolveModelPricing model harness table now).resolvedModel = model ∧
      (card.resolveModelPricing model harness table now).fallbackUsed = false := by
  unfold resolveModelPricing
  split
  · exact ⟨rfl, rfl⟩
  · split
    · exact ⟨rfl, rfl⟩
    next hpriced =>
      split
      · exact ⟨rfl, rfl⟩
      · rw [if_pos (h.resolve_right hpriced)]
        exact ⟨rfl, rfl⟩

/-- The card prices the model of a row, whatever the harness. -/
def RateCard.PricesRow (card : RateCard ν) (table : ExtTreeMap String (ModelRate ν))
    (model : String) (now : DateTime) : Prop :=
  ∀ harness, (card.resolveModelPricing model harness table now).basis ≠ .unavailable

/-- A row is priced when its model is free, or neither marked as unpriced nor on a flat rate which
has ended. -/
theorem RateCard.pricesRow_iff {card : RateCard ν} {model : String} {now : DateTime}
    (hrow : model ∈ table) :
    card.PricesRow table model now ↔ model ∈ card.freeLocalModels ∨
      model ∉ card.unpricedModels ∧ card.flatRateExpired model now = false := by
  unfold PricesRow resolveModelPricing
  by_cases hfree : model ∈ card.freeLocalModels
  · simp [hfree]
  · by_cases hunpriced : model ∈ card.unpricedModels
    · simp [hfree, hunpriced]
    · by_cases hexpired : card.flatRateExpired model now = true
      · simp [hfree, hunpriced, hexpired]
      · have hcurrent : card.flatRateExpired model now = false := Bool.eq_false_iff.mpr hexpired
        have hbasis : card.basis now model .direct ≠ .unavailable := by
          unfold basis withdrawn
          rw [hcurrent, decide_eq_false hunpriced]
          split
          · contradiction
          · split
            · exact PricingBasis.noConfusion
            · exact PricingBasis.noConfusion
        simp [hfree, hunpriced, hcurrent, hrow, hbasis]

/-- Every model of a row which one card prices is priced by another, or marked there as unpriced. -/
def RateCard.StaysPriced (previous result : RateCard ν)
    (table table' : ExtTreeMap String (ModelRate ν)) (now : DateTime) : Prop :=
  ∀ model ∈ table, previous.PricesRow table model now →
    result.PricesRow table' model now ∨ model ∈ result.unpricedModels

/-- No model of a row which the previous card prices is put on a flat rate which has ended, unless
it is free or marked as unpriced. -/
def RateCard.KeepsFlatRates (previous candidate : RateCard ν)
    (table : ExtTreeMap String (ModelRate ν)) (now : DateTime) : Prop :=
  ∀ model ∈ table, previous.PricesRow table model now →
    model ∈ candidate.freeLocalModels ∨ model ∈ candidate.unpricedModels ∨
      candidate.flatRateExpired model now = false

/-- Where the rows are kept, it is the ended flat rates that take prices away. -/
theorem RateCard.staysPriced_iff {card result : RateCard ν} {now : DateTime}
    (hkeeps : KeepsRows previous refreshed result.unpricedModels) :
    card.StaysPriced result previous refreshed now ↔ card.KeepsFlatRates result previous now := by
  refine forall₃_congr fun model hmodel _ ↦ ?_
  rcases hkeeps model hmodel with hrow | hunpriced
  · rw [pricesRow_iff hrow]
    by_cases hunpriced : model ∈ result.unpricedModels
    · simp [hunpriced]
    · simp [hunpriced]
  · simp [hunpriced]

end Rows

/-! ### All or nothing -/

section Outcome

variable [RateNumber ν]

/-- All rates of a card: those of its two tables and of the periods of its catalog. -/
def RateCard.rates (card : RateCard ν) : List (ModelRate ν) :=
  (card.models.toList ++ card.apiModels.toList).map (·.2) ++
    card.pricingCatalog.ratePeriods.map (·.rate)

theorem EffectiveRatePeriod.WellFormed.isUsable {period : EffectiveRatePeriod ν}
    (h : period.WellFormed) : period.rate.isUsable = true := by
  unfold EffectiveRatePeriod.WellFormed validatePeriod at h
  simp only [bind_eq_ok, require_eq_ok] at h
  obtain ⟨_, husable, -⟩ := h
  exact husable

variable [BEq ν] {previous candidate card : RateCard ν}

/-- Every rate of a valid card can be used. -/
theorem RateCard.isUsable_of_valid (hvalid : card.validate = .ok ()) :
    ∀ rate ∈ card.rates, rate.isUsable = true := by
  obtain ⟨hcatalog, hmodels, hapi, -, -⟩ := RateCard.validate_eq_ok.mp hvalid
  intro rate hrate
  unfold RateCard.rates at hrate
  rw [List.mem_append] at hrate
  rcases hrate with hrate | hrate
  · obtain ⟨⟨model, _⟩, hrow, rfl⟩ := List.mem_map.mp hrate
    rcases List.mem_append.mp hrow with hrow | hrow
    · exact hmodels model _ (ExtTreeMap.mem_toList_iff_getElem?_eq_some.mp hrow)
    · exact hapi model _ (ExtTreeMap.mem_toList_iff_getElem?_eq_some.mp hrow)
  · obtain ⟨period, hperiod, rfl⟩ := List.mem_map.mp hrate
    exact (hcatalog.periods period hperiod).isUsable

/-- Validation reads only the cache age of the refresh state. -/
theorem RateCard.validate_withRefresh {refresh : RateRefreshState}
    (hage : refresh.maxCacheAgeSecs = card.refresh.maxCacheAgeSecs) :
    { card with refresh }.validate = card.validate := by
  unfold RateCard.validate
  simp only [hage]

omit [RateNumber ν] [BEq ν] in
theorem eq_ok_of_isOk {result : Except String Unit} (h : result.isOk = true) :
    result = .ok () := by
  cases result with
  | error _ => cases h
  | ok _ => rfl

/-- What passes the checks: a valid candidate which keeps the rows of both tables. -/
theorem RateCard.acceptable_iff :
    RateCard.acceptable previous candidate = true ↔ candidate.validate = .ok () ∧
      KeepsRows previous.models candidate.models candidate.unpricedModels ∧
      KeepsRows previous.apiModels candidate.apiModels candidate.unpricedModels := by
  unfold acceptable structurallyValid metadataValid
  simp only [Bool.and_eq_true, Bool.not_eq_true', droppedRows_eq_false]
  constructor
  · rintro ⟨⟨⟨⟨-, hvalid⟩, hmodels⟩, hapi⟩, -⟩
    exact ⟨eq_ok_of_isOk hvalid, hmodels, hapi⟩
  · rintro ⟨hvalid, hmodels, hapi⟩
    have hcatalog : candidate.pricingCatalog.validate = .ok () :=
      PricingCatalog.validate_eq_ok.mpr (RateCard.validate_eq_ok.mp hvalid).1
    have husable : candidate.unusableRate = false := by
      unfold unusableRate
      rw [List.any_eq_false]
      intro row hrow
      have hrate : row.2 ∈ candidate.rates := List.mem_append_left _ (List.mem_map_of_mem hrow)
      rw [RateCard.isUsable_of_valid hvalid row.2 hrate]
      decide
    rw [hcatalog, hvalid]
    exact ⟨⟨⟨⟨rfl, rfl⟩, hmodels⟩, hapi⟩, husable⟩

/-- A card which may take the place of the previous one. -/
structure RateCard.Refreshes (previous result : RateCard ν) (now : DateTime) : Prop where
  valid : result.validate = .ok ()
  usable : ∀ rate ∈ result.rates, rate.isUsable = true
  keepsModels : KeepsRows previous.models result.models result.unpricedModels
  keepsApiModels : KeepsRows previous.apiModels result.apiModels result.unpricedModels
  pricesModels : previous.StaysPriced result previous.models result.models now
  pricesApiModels : previous.StaysPriced result previous.apiModels result.apiModels now
  ownModels : ∀ model ∈ previous.models, ∀ harness instant,
    (result.resolveModelPricing model harness result.models instant).resolvedModel = model ∧
      (result.resolveModelPricing model harness result.models instant).fallbackUsed = false
  ownApiModels : ∀ model ∈ previous.apiModels, ∀ harness instant,
    (result.resolveModelPricing model harness result.apiModels instant).resolvedModel = model ∧
      (result.resolveModelPricing model harness result.apiModels instant).fallbackUsed = false

/-- The previous card, with another attempt and failure in its refresh state. -/
def RateCard.Unchanged (previous result : RateCard ν) : Prop :=
  ∃ lastAttemptAt lastFailureReason, result =
    { previous with refresh := { previous.refresh with lastAttemptAt, lastFailureReason } }

/-- The candidate as it is taken over. -/
def RateCard.taken (candidate : RateCard ν) (now : DateTime) : RateCard ν :=
  { candidate with refresh := candidate.refresh.succeeded now }

/-- What passes the checks may take the place of the previous card when it keeps the flat rates. -/
theorem RateCard.refreshes_taken_iff (now : DateTime)
    (haccept : RateCard.acceptable previous candidate = true) :
    previous.Refreshes (candidate.taken now) now ↔
      previous.KeepsFlatRates candidate previous.models now ∧
        previous.KeepsFlatRates candidate previous.apiModels now := by
  obtain ⟨hvalid, hrows, hrowsApi⟩ := RateCard.acceptable_iff.mp haccept
  have hmodels : KeepsRows previous.models (candidate.taken now).models
      (candidate.taken now).unpricedModels := hrows
  have hapi : KeepsRows previous.apiModels (candidate.taken now).apiModels
      (candidate.taken now).unpricedModels := hrowsApi
  have hresult : (candidate.taken now).validate = .ok () :=
    (RateCard.validate_withRefresh rfl).trans hvalid
  constructor
  · intro h
    exact ⟨(staysPriced_iff h.keepsModels).mp h.pricesModels,
      (staysPriced_iff h.keepsApiModels).mp h.pricesApiModels⟩
  · rintro ⟨hflat, hflatApi⟩
    exact {
      valid := hresult
      usable := RateCard.isUsable_of_valid hresult
      keepsModels := hmodels
      keepsApiModels := hapi
      pricesModels := (staysPriced_iff hmodels).mpr hflat
      pricesApiModels := (staysPriced_iff hapi).mpr hflatApi
      ownModels := fun model hmodel _ _ ↦ RateCard.resolveModelPricing_own (hmodels model hmodel)
      ownApiModels := fun model hmodel _ _ ↦
        RateCard.resolveModelPricing_own (hapi model hmodel) }

omit [RateNumber ν] [BEq ν] in
/-- A candidate with the rows and marks of the previous card keeps its flat rates. -/
theorem RateCard.keepsFlatRates_of_unchanged {refresh : RateRefreshState}
    {table : ExtTreeMap String (ModelRate ν)} {now : DateTime}
    (h : previous.Unchanged { candidate with refresh }) :
    previous.KeepsFlatRates candidate table now := by
  obtain ⟨lastAttemptAt, lastFailureReason, hsame⟩ := h
  have hfree := congrArg RateCard.freeLocalModels hsame
  have hexpires := congrArg RateCard.flatRateExpiresAt hsame
  simp only at hfree hexpires
  intro model hmodel hpriced
  rw [pricesRow_iff hmodel] at hpriced
  unfold flatRateExpired at hpriced ⊢
  rw [hfree, hexpires]
  exact hpriced.imp_right fun hcurrent ↦ .inr hcurrent.2

end Outcome

/-- One unit for each kind of input, eight for each kind of output. -/
def unitRate : ModelRate Rat :=
  { input := 1, cachedInput := 1, cacheCreationInput := none, output := 8, reasoning := 8 }

/-- A card with one row. -/
def oneRowCard : RateCard Rat :=
  { sampleCard 13 [] [] with models := ExtTreeMap.ofList [("gpt-5.5", unitRate)] }

/-- The same rows under another rate. -/
def dearerCard : RateCard Rat :=
  { oneRowCard with
    version := 14
    models := ExtTreeMap.ofList [("gpt-5.5", { unitRate with input := 2 })] }

/-- The same rows, of which one is on a flat rate which has ended. -/
def endedCard : RateCard Rat :=
  { oneRowCard with
    version := 14
    flatRateExpiresAt := ExtTreeMap.ofList [("gpt-5.5", (⟨0⟩ : NaiveDate))] }

example :
    (applyRefreshCandidate oneRowCard (sampleCard 14 [] []) .epoch).refresh.lastFailureReason =
    some "candidate price tables were empty or partial" := by decide +kernel

end AgentOdometer.Pricing
