import AgentOdometer.Lib.KeyedFold
import AgentOdometer.Lib.RuleMerge
import AgentOdometer.Pricing.RateCard
import Mathlib.Data.List.Dedup
import Mathlib.Data.List.Sort

/-!
# Upgrade of a saved rate card

`merge_older_override` and its helpers (`rates.rs:1123–1443`): an older saved card takes over a
newer bundled one. The archived bundles which `include_str!` embeds are a parameter, by version.
-/

namespace AgentOdometer.Pricing

open Std (ExtTreeMap)

variable {ν τ : Type}

/-! ### Tables -/

/-- `review.push` unless the list has the key. -/
def pushNew (review : List String) (key : String) : List String :=
  if key ∈ review then review else review ++ [key]

/-- A table with its evidence and the entries to review, as they are updated together. -/
structure EntryMerge (τ : Type) where
  table : ExtTreeMap String τ
  evidence : ExtTreeMap String PricingProvenance
  review : List String

/-- The `is_default` of an id. Follows `rates.rs:1337–1339`. -/
def isDefaultEntry [BEq τ] (previous : Option (ExtTreeMap String τ)) (table : ExtTreeMap String τ)
    (id : String) : Bool :=
  table[id]?.all fun existing ↦ (previous.bind fun table ↦ table[id]?) == some existing

/-- One bundled entry. Follows `rates.rs:1335–1352`. -/
def mergeEntry [BEq τ] (kind : String) (previous : Option (ExtTreeMap String τ))
    (bundledEvidence : ExtTreeMap String PricingProvenance) (state : EntryMerge τ)
    (entry : String × τ) : EntryMerge τ :=
  let key := kind ++ "/" ++ entry.1
  if isDefaultEntry previous state.table entry.1 then
    { table := state.table.insert entry.1 entry.2
      evidence := match bundledEvidence[key]? with
        | some source => state.evidence.insert key source
        | none => state.evidence
      review := state.review.filter (· ≠ key) }
  else { state with review := pushNew state.review key }

/-- `merge_default_entries`, `rates.rs:1326–1359`. -/
def mergeDefaultEntries [BEq τ] (bundled : ExtTreeMap String τ)
    (previous : Option (ExtTreeMap String τ)) (kind : String)
    (bundledEvidence : ExtTreeMap String PricingProvenance) (disk : EntryMerge τ) : EntryMerge τ :=
  let merged := bundled.toList.foldl (mergeEntry kind previous bundledEvidence) disk
  { merged with
    review := (merged.table.keys.filter fun id ↦ !bundled.contains id).foldl
      (fun review id ↦ pushNew review (kind ++ "/" ++ id)) merged.review }

/-- `disk.entry(key).or_insert(value)` for every entry. -/
def orInsertAll (disk bundled : ExtTreeMap String τ) : ExtTreeMap String τ :=
  bundled.toList.foldl (fun table entry ↦ table.insertIfNew entry.1 entry.2) disk

/-- One model of the backfill. Follows `rates.rs:1203–1211`. -/
def backfillEntry (table : ExtTreeMap String (ModelRate ν)) (entry : String × ModelRate ν) :
    ExtTreeMap String (ModelRate ν) :=
  match table[entry.1]? with
  | none => table
  | some existing =>
      if existing.cacheCreationInput.isNone && entry.2.cacheCreationInput.isSome then
        table.insert entry.1 { existing with cacheCreationInput := entry.2.cacheCreationInput }
      else table

/-- The backfill of the cache creation rates. Follows `rates.rs:1203–1220`. -/
def backfillCacheCreation (disk bundled : ExtTreeMap String (ModelRate ν)) :
    ExtTreeMap String (ModelRate ν) :=
  bundled.toList.foldl backfillEntry disk

/-! ### Floating aliases -/

/-- The floating aliases as the static aliases of the saved card are gone through. -/
structure AliasMerge where
  floatingDefaults : ExtTreeMap String FloatingAlias
  review : List String
  floatingModelAliases : ExtTreeMap String FloatingAlias
  rateProvenance : ExtTreeMap String PricingProvenance

/-- One static alias of the saved card. Follows `rates.rs:1158–1181`. -/
def keepStaticAlias (version : Nat) (bundled : ExtTreeMap String FloatingAlias)
    (previous : Option (ExtTreeMap String FloatingAlias)) (state : AliasMerge)
    (entry : String × String) : AliasMerge :=
  if !state.floatingDefaults.contains entry.1 then state
  else if version < 11 && bundled[entry.1]?.any (·.target = entry.2) then state
  else
    let kept := { state with
      floatingDefaults := state.floatingDefaults.erase entry.1
      review := state.review ++ ["model_aliases/" ++ entry.1] }
    if (previous.bind fun table ↦ table[entry.1]?) = state.floatingModelAliases[entry.1]? then
      { kept with
        floatingModelAliases := kept.floatingModelAliases.erase entry.1
        rateProvenance := kept.rateProvenance.erase ("floating_model_aliases/" ++ entry.1) }
    else kept

/-- The static aliases without the copies of floating ones. Follows `rates.rs:1265–1274`. -/
def dropSuperseded (version : Nat) (floating : ExtTreeMap String FloatingAlias)
    (modelAliases : ExtTreeMap String String) : ExtTreeMap String String :=
  floating.toList.foldl
    (fun aliases entry ↦
      if version < 11 && aliases[entry.1]?.any (· = entry.2.target) then aliases.erase entry.1
      else aliases)
    modelAliases

/-! ### Catalog rules -/

/-- How periods are merged: by id, apart in each scope, equal to the archived rule of the id. -/
def periodScheme [BEq ν] (previous : Option (PricingCatalog ν)) :
    RuleScheme (EffectiveRatePeriod ν) String where
  id := EffectiveRatePeriod.id
  conflict := EffectiveRatePeriod.overlaps
  isDefault existing :=
    (previous.bind fun catalog ↦ catalog.ratePeriods.find? fun period ↦ period.id = existing.id) ==
      some existing

/-- How modifiers are merged. -/
def modifierScheme [BEq ν] (previous : Option (PricingCatalog ν)) :
    RuleScheme (ConditionalRateModifier ν) String where
  id := ConditionalRateModifier.id
  conflict := ConditionalRateModifier.overlaps
  isDefault existing :=
    (previous.bind fun catalog ↦
        catalog.conditionalModifiers.find? fun modifier ↦ modifier.id = existing.id) ==
      some existing

/-- `merge_older_catalog`, `rates.rs:1361–1443`: the catalog and the entries to review. -/
def mergeOlderCatalog [BEq ν] (disk bundled : PricingCatalog ν)
    (previous : Option (PricingCatalog ν)) (review : List String) :
    PricingCatalog ν × List String :=
  let periods := (periodScheme previous).merge disk.ratePeriods bundled.ratePeriods
  let modifiers :=
    (modifierScheme previous).merge disk.conditionalModifiers bundled.conditionalModifiers
  ({ ratePeriods := periods.1
     conditionalModifiers := modifiers.1
     notes := bundled.notes.foldl pushNew disk.notes },
    review ++ periods.2.map ("pricing_catalog/" ++ ·) ++ modifiers.2.map ("pricing_catalog/" ++ ·))

/-! ### The card -/

/-- The archived bundle of a saved card. Follows `rates.rs:1131–1136`. -/
def previousCard (archive : Nat → Option (RateCard ν)) (version : Nat) : Option (RateCard ν) :=
  if version = 11 ∨ version = 12 ∨ version = 13 then archive version else none

/-- The user has a rate for the model. Follows `rates.rs:1228–1245`. -/
def userSuppliedRate [BEq ν] (previous : Option (RateCard ν))
    (models apiModels : ExtTreeMap String (ModelRate ν)) (model : String) : Bool :=
  [(models, previous.map (·.models)), (apiModels, previous.map (·.apiModels))].any
    fun (table, old) ↦
      table[model]?.any fun value ↦ (old.bind fun table ↦ table[model]?) != some value

/-- The models without a price. Follows `rates.rs:1227–1249`. -/
def mergeUnpricedModels [BEq ν] (previous : Option (RateCard ν))
    (models apiModels : ExtTreeMap String (ModelRate ν)) (disk bundled : List String) :
    List String :=
  bundled.foldl
    (fun unpriced model ↦
      if userSuppliedRate previous models apiModels model then unpriced else pushNew unpriced model)
    disk

/-- The saved periods the bundle does not have. Follows `rates.rs:1286–1300`. -/
def unbundledPeriods (disk bundled : PricingCatalog ν) : List String :=
  (disk.ratePeriods.filter fun period ↦ !bundled.ratePeriods.any (·.id = period.id)).map
    fun period ↦ "pricing_catalog/" ++ period.id

/-- `sort` and `dedup` of the entries to review. -/
def sortDedup (review : List String) : List String :=
  (review.insertionSort (· ≤ ·)).dedup

/-- `merge_older_override`, `rates.rs:1123–1323`. -/
def mergeOlderOverride [BEq ν] (archive : Nat → Option (RateCard ν))
    (disk bundled : RateCard ν) : RateCard ν :=
  if bundled.version ≤ disk.version then disk
  else
    let previous := previousCard archive disk.version
    let models := mergeDefaultEntries bundled.models (previous.map (·.models)) "models"
      bundled.rateProvenance ⟨disk.models, disk.rateProvenance, disk.upgradeReview⟩
    let apiModels := mergeDefaultEntries bundled.apiModels (previous.map (·.apiModels))
      "api_models" bundled.rateProvenance ⟨disk.apiModels, models.evidence, models.review⟩
    let aliases := disk.modelAliases.toList.foldl
      (keepStaticAlias disk.version bundled.floatingModelAliases
        (previous.map (·.floatingModelAliases)))
      ⟨bundled.floatingModelAliases, apiModels.review, disk.floatingModelAliases,
        apiModels.evidence⟩
    let floating := mergeDefaultEntries aliases.floatingDefaults
      (previous.map (·.floatingModelAliases)) "floating_model_aliases" bundled.rateProvenance
      ⟨aliases.floatingModelAliases, aliases.rateProvenance, aliases.review⟩
    let diskModels := backfillCacheCreation models.table bundled.models
    let diskApiModels := backfillCacheCreation apiModels.table bundled.apiModels
    let catalog := mergeOlderCatalog disk.pricingCatalog bundled.pricingCatalog
      (previous.map (·.pricingCatalog))
      (floating.review ++ unbundledPeriods disk.pricingCatalog bundled.pricingCatalog)
    { disk with
      version := bundled.version
      sourceUrl := bundled.sourceUrl
      fetchedAt := if catalog.2.isEmpty then bundled.fetchedAt else disk.fetchedAt
      models := diskModels
      currencies := orInsertAll disk.currencies bundled.currencies
      fallbackModels := orInsertAll disk.fallbackModels bundled.fallbackModels
      apiModels := diskApiModels
      unpricedModels := mergeUnpricedModels previous diskModels diskApiModels disk.unpricedModels
        bundled.unpricedModels
      pricingCatalog := catalog.1
      modelAliases := orInsertAll
        (dropSuperseded disk.version bundled.floatingModelAliases disk.modelAliases)
        bundled.modelAliases
      floatingModelAliases := floating.table
      freeLocalModels := bundled.freeLocalModels.foldl pushNew disk.freeLocalModels
      subscriptionPlans := orInsertAll disk.subscriptionPlans bundled.subscriptionPlans
      rateProvenance := floating.evidence
      upgradeReview := sortDedup catalog.2
      flatRateExpiresAt := bundled.flatRateExpiresAt.toList.foldl
        (fun table entry ↦
          if "models/" ++ entry.1 ∈ catalog.2 then table
          else table.insertIfNew entry.1 entry.2)
        disk.flatRateExpiresAt }

end AgentOdometer.Pricing
