import AgentOdometer.Pricing.Buckets
import AgentOdometer.Pricing.Refresh
import Mathlib.Tactic.NormNum

/-!
# Frozen experiment rates

An offline comparison freezes the rate of each of its two variants when it is made and prices the
runs imported later with it (`history_experiments.rs:227–237,259–401,424–543`). The quote probes the
live pricer with a million tokens of each kind. On exact numbers the frozen rate gives the live
amount of every run whose counters fit, as long as that amount is in USD.
-/

namespace AgentOdometer.Experiments

open Pricing

/-- The texts that the quote and the import make of their arguments: the redaction of
`history_curated.rs:106–146`, and the printed form of an instant. -/
structure FreezeTexts where
  redact : String → List String → String
  rfc3339 : DateTime → String

/-- The longest prefix of whole characters within a number of bytes. -/
def takeBytes : Nat → List Char → List Char
  | _, [] => []
  | maximum, c :: text =>
      if c.utf8Size ≤ maximum then c :: takeBytes (maximum - c.utf8Size) text else []

/-- `clean`, `history_experiments.rs:227–237`. -/
def FreezeTexts.clean (texts : FreezeTexts) (value : String) (phrases : List String)
    (maximum : Nat) : String :=
  String.ofList (takeBytes maximum (texts.redact (Text.trim value) phrases).toList)

/-- `PromptVariant`, `history_experiments.rs:15–25`, without the prompt. -/
structure PromptVariant where
  id : String
  promptId : String
  promptVersion : String
  provider : String
  model : String
  serviceTier : String
deriving Repr, DecidableEq

/-- `FrozenModifier`, `history_experiments.rs:39–47`. -/
structure FrozenModifier where
  id : String
  surface : PricingSurface
  effectiveFrom : String
  effectiveTo : Option String
  evidence : String
  verifiedAt : String
deriving Repr, DecidableEq

/-- `FrozenRate`, `history_experiments.rs:26–38`. -/
structure FrozenRate where
  configuredVersion : Nat
  currency : String
  table : String
  quotedAt : String
  resolvedModel : String
  basis : PricingBasis
  cacheCreationBasis : PricingBasis
  effectivePerMillion : Option (ModelRate Rat)
  appliedTierMultiplier : Option Rat
  modifier : Option FrozenModifier
deriving Repr, DecidableEq

/-! ### The quote -/

/-- The table which a variant is priced with. Follows `history_experiments.rs:264–268`. -/
def quotedTable (provider : String) : RateTable :=
  if isCodex provider then .apiEstimate else .plan

/-- A million tokens of each kind. Follows `history_experiments.rs:280–307`. -/
def inputProbe : TokenTotals := ⟨1000000, 0, 0, 0, 0, 1000000⟩

/-- A million input tokens which were read from the cache. -/
def cachedProbe : TokenTotals := ⟨1000000, 1000000, 0, 0, 0, 1000000⟩

/-- A million input tokens which were written to the cache. -/
def creationProbe : TokenTotals := ⟨1000000, 0, 1000000, 0, 0, 1000000⟩

/-- A million output tokens. -/
def outputProbe : TokenTotals := ⟨0, 0, 0, 1000000, 0, 1000000⟩

/-- A million output tokens of reasoning. -/
def reasoningProbe : TokenTotals := ⟨0, 0, 0, 1000000, 1000000, 1000000⟩

/-- The live price of a variant's tokens. Follows `history_experiments.rs:269–279`. -/
def livePrice (rates : RateCard Rat) (variant : PromptVariant) (captured : DateTime)
    (tokens : TokenTotals) : PricedAmount :=
  rates.priceTokens variant.provider variant.model (some variant.serviceTier) tokens
    (quotedTable variant.provider) captured

/-- The quote is kept only if it is in USD. Follows `history_experiments.rs:308–314`. -/
def quotedInUsd (rates : RateCard Rat) (provider : String) : Bool :=
  isCodex provider || rates.currencies[provider]?.getD rates.currency = "USD"

/-- Follows `history_experiments.rs:315–336`. -/
def effectiveRate (usd : Bool)
    (input cachedInput cacheCreationInput output reasoning : Option Rat) :
    Option (ModelRate Rat) :=
  match input, cachedInput, cacheCreationInput, output, reasoning with
  | some input, some cachedInput, some cacheCreationInput, some output, some reasoning =>
      if usd then some ⟨input, cachedInput, some cacheCreationInput, output, reasoning⟩ else none
  | _, _, _, _, _ => none

/-- Follows `history_experiments.rs:337–346`. -/
def quotedResolution (rates : RateCard Rat) (variant : PromptVariant) (captured : DateTime) :
    PricedModelResolution :=
  rates.resolveModelPricing variant.model variant.provider
    (if isCodex variant.provider then rates.apiModels else rates.models) captured

/-- Follows `history_experiments.rs:356–375`. -/
def frozenModifier (texts : FreezeTexts) (rates : RateCard Rat) (variant : PromptVariant)
    (captured : DateTime) : Option FrozenModifier :=
  if isCodex variant.provider then
    (rates.pricingCatalog.modifierForTier .openaiApiUsd
      (quotedResolution rates variant captured).resolvedModel captured variant.serviceTier).map
      fun rule ↦
        { id := texts.clean rule.id [] 128, surface := rule.surface
          effectiveFrom := texts.rfc3339 rule.startsAt
          effectiveTo := rule.endsAt.map texts.rfc3339
          evidence := texts.clean rule.provenance.evidence [] 128
          verifiedAt := texts.rfc3339 rule.provenance.verifiedAt }
  else none

/-- `quote_rate`, `history_experiments.rs:259–396`. -/
def quoteRate (texts : FreezeTexts) (rates : RateCard Rat) (variant : PromptVariant)
    (captured : DateTime) : FrozenRate :=
  let quote := livePrice rates variant captured
  let usd := quotedInUsd rates variant.provider
  let resolution := quotedResolution rates variant captured
  { configuredVersion := rates.version
    currency := "USD"
    table := "frozen_api_base_estimate"
    quotedAt := texts.rfc3339 captured
    resolvedModel := texts.clean (quote inputProbe).resolvedModel [] 128
    basis := if usd then (quote inputProbe).basis else .unavailable
    cacheCreationBasis := if usd then (quote creationProbe).basis else .unavailable
    effectivePerMillion :=
      effectiveRate usd (quote inputProbe).amount (quote cachedProbe).amount
        (quote creationProbe).amount (quote outputProbe).amount (quote reasoningProbe).amount
    appliedTierMultiplier :=
      rates.tierMultiplier variant.provider resolution.resolvedModel resolution.fallbackUsed
        (some variant.serviceTier) (quotedTable variant.provider) captured
    modifier := frozenModifier texts rates variant captured }

/-- `estimate`, `history_experiments.rs:397–401`. -/
def estimate (tokens : TokenTotals) (rate : FrozenRate) : Option Rat :=
  rate.effectivePerMillion.map fun effective ↦ tokenCost tokens effective 1

/-! ### Imported runs -/

/-- `FrozenVariant`, `history_experiments.rs:48–53`. -/
structure FrozenVariant where
  conditions : PromptVariant
  promptHash : String
  rate : FrozenRate
deriving Repr, DecidableEq

/-- `CaseMember`, `history_experiments.rs:54–61`, as far as an import reads it. -/
structure CaseMember where
  inputHash : String
deriving Repr, DecidableEq

/-- `ExperimentManifest`, `history_experiments.rs:62–74`, as far as an import reads it. -/
structure ExperimentManifest where
  rateSnapshotHash : String
  variants : List FrozenVariant
deriving Repr, DecidableEq

/-- `ImportedRun`, `history_experiments.rs:90–118`. -/
structure ImportedRun where
  caseId : Int
  variant : String
  status : String
  output : String
  elapsedMs : Option Nat
  actualCostUsd : Option Rat
  tokens : Option TokenTotals
  quality : Option String
  observedInputHash : String
  observedModel : String
  observedProvider : String
  observedServiceTier : String
  observedPromptId : String
  observedPromptVersion : String
  observedPromptHash : String
  observedRateHash : String
deriving Repr, DecidableEq

/-- `FrozenRun`, `history_experiments.rs:119–126`. -/
structure FrozenRun where
  record : ImportedRun
  outputTruncated : Bool
  estimatedApiUsd : Option Rat
  estimateBasis : PricingBasis
  conditionNotes : List String
deriving Repr, DecidableEq

/-- Follows `history_experiments.rs:435–442`. -/
def ImportedRun.outOfBounds (row : ImportedRun) : Bool :=
  ! ["completed", "failed", "missing"].contains row.status || 16 * 1024 < row.output.utf8ByteSize ||
    row.elapsedMs.any (604800000 < ·) ||
    row.actualCostUsd.any fun cost ↦ !(decide (0 ≤ cost) && decide (cost ≤ 1000000000))

/-- Follows `history_experiments.rs:444–449`. -/
def ImportedRun.fabricated (row : ImportedRun) : Bool :=
  row.status = "missing" && (!row.output.isEmpty || row.elapsedMs.isSome ||
    row.actualCostUsd.isSome || row.tokens.isSome || row.quality.isSome)

/-- The token counts of a run do not reconcile. Follows `history_experiments.rs:453–463`. -/
def unreconciled (provider : String) (tokens : TokenTotals) : Bool :=
  1000000000000 < tokens.inputTokens || 1000000000000 < tokens.outputTokens ||
    tokens.inputTokens < tokens.cachedInputTokens + tokens.cacheCreationInputTokens ||
    tokens.outputTokens < tokens.reasoningOutputTokens ||
    tokens.inputTokens + tokens.outputTokens ≠ tokens.totalTokens ||
    (isCodex provider && tokens.cacheCreationInputTokens ≠ 0)

/-- Follows `history_experiments.rs:467–471`. -/
def ImportedRun.unratable (row : ImportedRun) : Bool :=
  row.quality.any (fun quality ↦
    ! ["accepted", "rejected", "unresolved", "not_rated"].contains quality) ||
  (row.quality.isSome && (row.status ≠ "completed" || Text.isBlank row.output))

/-- One reported condition beside the frozen one. Follows `history_experiments.rs:512–520`. -/
def observeCondition (texts : FreezeTexts) (phrases : List String)
    (label observed expected : String) : Except String (String × List String) :=
  if 128 < observed.utf8ByteSize then
    .error "Reported condition identifiers must fit 128 bytes"
  else
    let observed := texts.clean observed phrases 128
    .ok (observed,
      if observed.isEmpty then [label ++ " not reported"]
      else if observed ≠ expected then [label ++ " differs from frozen conditions"]
      else [])

/-- The amount and the basis of a run. Follows `history_experiments.rs:522–541`. -/
def FrozenRate.estimated (rate : FrozenRate) (tokens : Option TokenTotals) :
    Option Rat × PricingBasis :=
  let amount := tokens.bind (estimate · rate)
  let basis :=
    if tokens.any (0 < ·.cacheCreationInputTokens) then rate.cacheCreationBasis else rate.basis
  (amount, if amount.isSome then basis else .unavailable)

/-- The conditions of a run are observed, in the order of `history_experiments.rs:479–521`. -/
def observeConditions (texts : FreezeTexts) (phrases : List String) (row : ImportedRun)
    (member : CaseMember) (manifest : ExperimentManifest) (variant : FrozenVariant) :
    Except String (ImportedRun × List String) := do
  let observe := observeCondition texts phrases
  let (inputHash, input) ← observe "input" row.observedInputHash member.inputHash
  let (model, models) ← observe "model" row.observedModel variant.conditions.model
  let (provider, providers) ←
    observe "provider" row.observedProvider variant.conditions.provider
  let (serviceTier, tiers) ←
    observe "service tier" row.observedServiceTier variant.conditions.serviceTier
  let (promptId, ids) ←
    observe "prompt identifier" row.observedPromptId variant.conditions.promptId
  let (promptVersion, versions) ←
    observe "prompt version" row.observedPromptVersion variant.conditions.promptVersion
  let (promptHash, prompts) ← observe "prompt text" row.observedPromptHash variant.promptHash
  let (rateHash, rates) ← observe "rates" row.observedRateHash manifest.rateSnapshotHash
  return ({ row with
      observedInputHash := inputHash, observedModel := model, observedProvider := provider
      observedServiceTier := serviceTier, observedPromptId := promptId
      observedPromptVersion := promptVersion, observedPromptHash := promptHash
      observedRateHash := rateHash },
    input ++ models ++ providers ++ tiers ++ ids ++ versions ++ prompts ++ rates)

/-- `project_run`, `history_experiments.rs:424–543`. -/
def projectRun (texts : FreezeTexts) (row : ImportedRun) (member : CaseMember)
    (manifest : ExperimentManifest) (phrases : List String) : Except String FrozenRun :=
  match manifest.variants.find? (·.conditions.id = row.variant) with
  | none => .error "Use variant a or b"
  | some variant =>
      if row.outOfBounds then
        .error ("Use a reported status, output up to 16 KiB, time up to seven days, and " ++
          "nonnegative finite USD cost")
      else if row.fabricated then
        .error "Missing runs cannot carry fabricated outputs or measurements"
      else if row.tokens.any (unreconciled variant.conditions.provider) then
        .error "Imported token subsets and totals do not reconcile"
      else if row.unratable then
        .error "Human quality labels require a completed run with an output"
      else
        let truncated := 3000 < (texts.redact (Text.trim row.output) phrases).utf8ByteSize
        let row := { row with output := texts.clean row.output phrases 3000 }
        (observeConditions texts phrases row member manifest variant).map fun observed ↦
          let estimated := variant.rate.estimated observed.1.tokens
          { record := observed.1, outputTruncated := truncated
            estimatedApiUsd := estimated.1, estimateBasis := estimated.2
            conditionNotes := observed.2 }

/-! ### The frozen rate prices as the live card -/

variable {texts : FreezeTexts} {rates : RateCard Rat} {variant : PromptVariant}
  {captured : DateTime}

/-- The tariff of a variant when its rate is frozen. -/
def quotedTariff (rates : RateCard Rat) (variant : PromptVariant) (captured : DateTime) : Tariff :=
  rates.tariff variant.provider variant.model (some variant.serviceTier)
    (quotedTable variant.provider) captured

theorem livePrice_eq_price (tokens : TokenTotals) :
    livePrice rates variant captured tokens =
      (quotedTariff rates variant captured).price tokens :=
  rates.priceTokens_eq_price _ _ _ _ _ _

/-- The rate of a tariff with its multiplier, as the probes find it. -/
def Tariff.perMillion : Tariff → Option (ModelRate Rat)
  | .refused _ => none
  | .free _ => some ⟨0, 0, some 0, 0, 0⟩
  | .metered rate multiplier _ _ =>
      some ⟨rate.input * multiplier, rate.cachedInput * multiplier,
        some (rate.cacheCreationRate * multiplier), rate.output * multiplier,
        rate.reasoning * multiplier⟩

theorem effectiveRate_price (tariff : Tariff) :
    effectiveRate true (tariff.price inputProbe).amount (tariff.price cachedProbe).amount
        (tariff.price creationProbe).amount (tariff.price outputProbe).amount
        (tariff.price reasoningProbe).amount = Tariff.perMillion tariff := by
  cases tariff with
  | refused => rfl
  | free => rfl
  | metered rate multiplier basis resolved =>
    simp only [Tariff.price, effectiveRate, Tariff.perMillion, tokenCost, inputProbe, cachedProbe,
      creationProbe, outputProbe, reasoningProbe, if_true]
    norm_num

theorem effectiveRate_false (input cachedInput cacheCreationInput output reasoning : Option Rat) :
    effectiveRate false input cachedInput cacheCreationInput output reasoning = none := by
  unfold effectiveRate
  split
  · rfl
  · rfl

/-- The multiplier may be put into the rate. -/
theorem tokenCost_perMillion (tokens : TokenTotals) (rate : ModelRate Rat) (multiplier : Rat) :
    tokenCost tokens
        ⟨rate.input * multiplier, rate.cachedInput * multiplier,
          some (rate.cacheCreationRate * multiplier), rate.output * multiplier,
          rate.reasoning * multiplier⟩ 1 = tokenCost tokens rate multiplier := by
  simp only [tokenCost, ModelRate.cacheCreationRate, Option.getD_some]
  ring

theorem map_tokenCost_perMillion (tariff : Tariff) (tokens : TokenTotals) :
    ((Tariff.perMillion tariff).map fun effective ↦ tokenCost tokens effective 1) =
      (tariff.price tokens).amount := by
  cases tariff with
  | refused => rfl
  | free => simp [Tariff.perMillion, Tariff.price, tokenCost, ModelRate.cacheCreationRate]
  | metered rate multiplier basis resolved =>
    exact congrArg some (tokenCost_perMillion tokens rate multiplier)

/-- Whether the fallback of the creation rate shows in the basis depends only on whether any token
was written to the cache. -/
theorem basis_price (tariff : Tariff) (tokens : TokenTotals) :
    (if 0 < tokens.cacheCreationInputTokens then (tariff.price creationProbe).basis
      else (tariff.price inputProbe).basis) = (tariff.price tokens).basis := by
  cases tariff with
  | refused => exact ite_self _
  | free => exact ite_self _
  | metered rate multiplier basis resolved =>
    simp only [Tariff.price, downgradeForCacheCreationFallback, creationProbe, inputProbe]
    split
    next hcreated => simp [hcreated]
    next hnone => simp [hnone]

theorem basis_eq_unavailable {tariff : Tariff} {tokens : TokenTotals}
    (h : (tariff.price tokens).amount = none) : (tariff.price tokens).basis = .unavailable := by
  cases tariff with
  | refused => rfl
  | free => cases h
  | metered => cases h

/-- The quote is kept exactly if the table's totals are in USD. -/
theorem quotedInUsd_iff (rates : RateCard Rat) (provider : String) :
    quotedInUsd rates provider = true ↔
      rates.surfaceCurrency provider (quotedTable provider) = "USD" := by
  unfold quotedInUsd quotedTable
  by_cases hcodex : isCodex provider = true
  · simp [hcodex, RateCard.surfaceCurrency]
  · simp [hcodex, RateCard.surfaceCurrency]

/-- The estimate of a rate which was quoted in USD is the live amount. -/
theorem estimate_quoteRate (husd : quotedInUsd rates variant.provider = true)
    (tokens : TokenTotals) :
    estimate tokens (quoteRate texts rates variant captured) =
      (livePrice rates variant captured tokens).amount := by
  simp only [estimate, quoteRate, husd, livePrice_eq_price, effectiveRate_price,
    map_tokenCost_perMillion]

theorem estimate_quoteRate_of_not_usd (husd : quotedInUsd rates variant.provider = false)
    (tokens : TokenTotals) : estimate tokens (quoteRate texts rates variant captured) = none := by
  simp only [estimate, quoteRate, husd, effectiveRate_false, Option.map_none]

/-- The amount and the basis of a rate which was quoted in USD are the live ones. -/
theorem estimated_quoteRate (husd : quotedInUsd rates variant.provider = true)
    (tokens : TokenTotals) :
    (quoteRate texts rates variant captured).estimated (some tokens) =
      ((livePrice rates variant captured tokens).amount,
        (livePrice rates variant captured tokens).basis) := by
  have hbasis := basis_price (quotedTariff rates variant captured) tokens
  simp only [← livePrice_eq_price] at hbasis
  have hestimate : estimate tokens (quoteRate texts rates variant captured) = _ :=
    estimate_quoteRate husd tokens
  simp only [FrozenRate.estimated, Option.bind_some, Option.any_some, hestimate, Prod.mk.injEq,
    true_and]
  cases hamount : (livePrice rates variant captured tokens).amount with
  | none =>
    rw [livePrice_eq_price] at hamount ⊢
    exact (basis_eq_unavailable hamount).symm
  | some amount => simpa only [Option.isSome_some, if_true, decide_eq_true_eq, quoteRate, husd]

theorem estimated_quoteRate_of_not_usd (husd : quotedInUsd rates variant.provider = false)
    (tokens : TokenTotals) :
    (quoteRate texts rates variant captured).estimated (some tokens) = (none, .unavailable) := by
  simp [FrozenRate.estimated, estimate_quoteRate_of_not_usd husd]

/-! ### Imported runs report it -/

theorem fits_of_unreconciled {provider : String} {tokens : TokenTotals}
    (h : unreconciled provider tokens = false) : tokens.Fits := by
  simp only [unreconciled, Bool.or_eq_false_iff, decide_eq_false_iff_not] at h
  exact ⟨by omega, by omega⟩

/-- Observing the conditions leaves the tokens as they are. -/
theorem tokens_observeConditions {phrases : List String} {row : ImportedRun} {member : CaseMember}
    {manifest : ExperimentManifest} {frozen : FrozenVariant}
    {observed : ImportedRun × List String}
    (h : observeConditions texts phrases row member manifest frozen = .ok observed) :
    observed.1.tokens = row.tokens := by
  unfold observeConditions at h
  simp only [bind, Except.bind, pure, Except.pure] at h
  repeat' split at h
  all_goals first | cases h; rfl | cases h

/-- A run is accepted only with tokens that fit, and is estimated with the rate of its variant. -/
theorem projectRun_ok {row : ImportedRun} {member : CaseMember} {manifest : ExperimentManifest}
    {phrases : List String} {run : FrozenRun} {frozen : FrozenVariant}
    (h : projectRun texts row member manifest phrases = .ok run)
    (hfind : manifest.variants.find? (·.conditions.id = row.variant) = some frozen) :
    (run.estimatedApiUsd, run.estimateBasis) = frozen.rate.estimated row.tokens ∧
      ∀ tokens, row.tokens = some tokens → tokens.Fits := by
  unfold projectRun at h
  rw [hfind] at h
  simp only at h
  split at h
  · cases h
  · split at h
    · cases h
    · split at h
      · cases h
      next hreconciled =>
        split at h
        · cases h
        · constructor
          · cases hobserved : observeConditions texts phrases
                { row with output := texts.clean row.output phrases 3000 } member manifest
                frozen with
            | error message =>
              rw [hobserved] at h
              cases h
            | ok observed =>
              have htokens := tokens_observeConditions hobserved
              simp only at htokens
              rw [hobserved, Except.map] at h
              rw [← Except.ok.inj h, ← htokens]
          · intro tokens htokens
            rw [htokens, Option.any_some, Bool.not_eq_true] at hreconciled
            exact fits_of_unreconciled hreconciled

/-- The estimate and its basis are the live ones when the amount is in USD or there is none. -/
theorem estimated_eq_livePrice {tokens : TokenTotals}
    (h : rates.surfaceCurrency variant.provider (quotedTable variant.provider) = "USD" ∨
      (livePrice rates variant captured tokens).amount = none) :
    (quoteRate texts rates variant captured).estimated (some tokens) =
      ((livePrice rates variant captured tokens).amount,
        (livePrice rates variant captured tokens).basis) := by
  cases husd : quotedInUsd rates variant.provider with
  | true => exact estimated_quoteRate husd tokens
  | false =>
    rcases h with hcurrency | hnone
    · rw [(quotedInUsd_iff rates variant.provider).mpr hcurrency] at husd
      cases husd
    · rw [estimated_quoteRate_of_not_usd husd, hnone]
      rw [livePrice_eq_price] at hnone ⊢
      rw [basis_eq_unavailable hnone]

/-- A frozen rate estimates what the live card gives, and none for an amount in another currency.
Every accepted run of the variant reports that estimate, and its counters fit. -/
theorem frozen_rate_reproduces_live (texts : FreezeTexts) (rates : RateCard Rat)
    (variant : PromptVariant) (captured : DateTime) :
    (∀ tokens : TokenTotals,
      rates.surfaceCurrency variant.provider (quotedTable variant.provider) = "USD" ∨
          (livePrice rates variant captured tokens).amount = none →
        estimate tokens (quoteRate texts rates variant captured) =
            (livePrice rates variant captured tokens).amount ∧
          (quoteRate texts rates variant captured).estimated (some tokens) =
            ((livePrice rates variant captured tokens).amount,
              (livePrice rates variant captured tokens).basis)) ∧
    (∀ tokens : TokenTotals,
      rates.surfaceCurrency variant.provider (quotedTable variant.provider) ≠ "USD" →
        (quoteRate texts rates variant captured).estimated (some tokens) = (none, .unavailable)) ∧
    ∀ (row : ImportedRun) (member : CaseMember) (manifest : ExperimentManifest)
      (phrases : List String) (run : FrozenRun) (promptHash : String) (tokens : TokenTotals),
      manifest.variants.find? (·.conditions.id = row.variant) =
        some ⟨variant, promptHash, quoteRate texts rates variant captured⟩ →
      row.tokens = some tokens → projectRun texts row member manifest phrases = .ok run →
        tokens.Fits ∧ (run.estimatedApiUsd, run.estimateBasis) =
          (quoteRate texts rates variant captured).estimated (some tokens) := by
  refine ⟨?_, ?_, ?_⟩
  · intro tokens h
    have hestimated : (quoteRate texts rates variant captured).estimated (some tokens) = _ :=
      estimated_eq_livePrice h
    exact ⟨congrArg Prod.fst hestimated, hestimated⟩
  · intro tokens hcurrency
    refine estimated_quoteRate_of_not_usd ?_ tokens
    rwa [← Bool.not_eq_true, quotedInUsd_iff]
  · intro row member manifest phrases run promptHash tokens hfind htokens hrun
    obtain ⟨hestimated, hfits⟩ := projectRun_ok hrun hfind
    rw [htokens] at hestimated
    exact ⟨hfits tokens htokens, hestimated⟩

/-- A card of the rates of `oneRowCard` in euros. -/
def euroCard : RateCard Rat := { oneRowCard with currency := "EUR" }

/-- A variant of the second provider. -/
def sonnetVariant : PromptVariant :=
  ⟨"a", "prompt", "1", "claude_code", "gpt-5.5", "standard"⟩

/-- Texts which are kept as they are. -/
def plainTexts : FreezeTexts := ⟨fun text _ ↦ text, fun _ ↦ "1970-01-01T00:00:00+00:00"⟩

/-- A run of the variant which used every kind of token. -/
def sonnetRun : ImportedRun where
  caseId := 1
  variant := "a"
  status := "completed"
  output := "done"
  elapsedMs := none
  actualCostUsd := none
  tokens := some ⟨1500, 500, 250, 700, 200, 2200⟩
  quality := none
  observedInputHash := ""
  observedModel := "gpt-5.5"
  observedProvider := "claude_code"
  observedServiceTier := "standard"
  observedPromptId := "prompt"
  observedPromptVersion := "1"
  observedPromptHash := ""
  observedRateHash := ""

/-- A comparison whose first variant is frozen at the rates of `oneRowCard`. -/
def sonnetManifest : ExperimentManifest :=
  ⟨"rates", [⟨sonnetVariant, "hash", quoteRate plainTexts oneRowCard sonnetVariant .epoch⟩]⟩

theorem frozen_rate_reproduces_live_sonnetRun :
    estimate ⟨1500, 500, 250, 700, 200, 2200⟩
        (quoteRate plainTexts oneRowCard sonnetVariant .epoch) =
      (livePrice oneRowCard sonnetVariant .epoch ⟨1500, 500, 250, 700, 200, 2200⟩).amount ∧
    (quoteRate plainTexts euroCard sonnetVariant .epoch).estimated
      (some ⟨1500, 500, 250, 700, 200, 2200⟩) = (none, .unavailable) ∧
    ∃ run, projectRun plainTexts sonnetRun ⟨"input"⟩ sonnetManifest [] = .ok run ∧
      (run.estimatedApiUsd, run.estimateBasis) =
        (quoteRate plainTexts oneRowCard sonnetVariant .epoch).estimated
          (some ⟨1500, 500, 250, 700, 200, 2200⟩) := by
  refine ⟨?_, ?_, ?_⟩
  · exact ((frozen_rate_reproduces_live plainTexts oneRowCard sonnetVariant .epoch).1 _
      (.inl (by decide +kernel))).1
  · exact (frozen_rate_reproduces_live plainTexts euroCard sonnetVariant .epoch).2.1 _
      (by decide +kernel)
  · have hok : (projectRun plainTexts sonnetRun ⟨"input"⟩ sonnetManifest []).isOk = true := by
      decide +kernel
    cases hrun : projectRun plainTexts sonnetRun ⟨"input"⟩ sonnetManifest [] with
    | error message =>
      rw [hrun] at hok
      cases hok
    | ok run =>
      exact ⟨run, rfl, ((frozen_rate_reproduces_live plainTexts oneRowCard sonnetVariant .epoch).2.2
        sonnetRun ⟨"input"⟩ sonnetManifest [] run "hash" _ rfl rfl hrun).2⟩

/-- The live basis of a euro amount is a rate's, the frozen one is not. -/
theorem not_same_basis_euroCard :
    ¬ ∀ (texts : FreezeTexts) (rates : RateCard Rat) (variant : PromptVariant)
      (captured : DateTime) (tokens : TokenTotals), tokens.Fits →
        ((quoteRate texts rates variant captured).estimated (some tokens)).2 =
          (livePrice rates variant captured tokens).basis := by
  intro h
  have := h plainTexts euroCard sonnetVariant .epoch inputProbe ⟨by decide, by decide⟩
  revert this
  decide +kernel

end AgentOdometer.Experiments
