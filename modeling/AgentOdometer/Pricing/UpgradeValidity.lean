import AgentOdometer.Pricing.UpgradeTables
import AgentOdometer.Pricing.Validation

/-!
# Validity of an upgraded card

The merge looks for overlaps among the rules of one kind, and validation wants ids which no two
rules of either kind share. An upgraded card is valid exactly when no new rule brings an id
which a saved rule of the other kind has.
-/

namespace AgentOdometer.Pricing

open Std (ExtTreeMap)

variable {ν : Type} [RateNumber ν] [BEq ν]

/-! ### The catalog -/

section Catalog

variable {previous : Option (PricingCatalog ν)} {disk bundled catalog : PricingCatalog ν}
  {review : List String}

omit [RateNumber ν] in
theorem periodScheme_symm (first second : EffectiveRatePeriod ν) :
    (periodScheme previous).conflict first second = (periodScheme previous).conflict second first :=
  first.overlaps_comm second

omit [RateNumber ν] in
theorem modifierScheme_symm (first second : ConditionalRateModifier ν) :
    (modifierScheme previous).conflict first second =
      (modifierScheme previous).conflict second first :=
  first.overlaps_comm second

theorem PricingCatalog.Sound.noConflict_periods (h : catalog.Sound) :
    (periodScheme previous).NoConflict catalog.ratePeriods :=
  RuleScheme.NoConflict.of_pairwise periodScheme_symm h.periodsApart

theorem PricingCatalog.Sound.noConflict_modifiers (h : catalog.Sound) :
    (modifierScheme previous).NoConflict catalog.conditionalModifiers :=
  RuleScheme.NoConflict.of_pairwise modifierScheme_symm h.modifiersApart

theorem PricingCatalog.Sound.nodup_periods (h : catalog.Sound) :
    (catalog.ratePeriods.map (periodScheme previous).id).Nodup :=
  (List.nodup_append.mp h.ids).1

theorem PricingCatalog.Sound.nodup_modifiers (h : catalog.Sound) :
    (catalog.conditionalModifiers.map (modifierScheme previous).id).Nodup :=
  (List.nodup_append.mp h.ids).2.1

/-- No rule the bundle brings in has the id of a saved rule of the other kind. -/
def KindsApart (previous : Option (PricingCatalog ν)) (disk bundled : PricingCatalog ν) : Prop :=
  (∀ period, (periodScheme previous).Admitted disk.ratePeriods bundled.ratePeriods period →
    period.id ∉ disk.conditionalModifiers.map (·.id)) ∧
  ∀ modifier, (modifierScheme previous).Admitted disk.conditionalModifiers
      bundled.conditionalModifiers modifier →
    modifier.id ∉ disk.ratePeriods.map (·.id)

/-- The ids of the merged periods. -/
theorem mem_ids_mergedPeriods (hdisk : disk.Sound) (hbundled : bundled.Sound) {k : String} :
    k ∈ (mergeOlderCatalog disk bundled previous review).1.ratePeriods.map (·.id) ↔
      k ∈ disk.ratePeriods.map (·.id) ∨ ∃ period, (periodScheme previous).Admitted
        disk.ratePeriods bundled.ratePeriods period ∧ period.id = k :=
  RuleScheme.mem_ids_merge_iff_admitted hdisk.nodup_periods hbundled.noConflict_periods

/-- The ids of the merged modifiers. -/
theorem mem_ids_mergedModifiers (hdisk : disk.Sound) (hbundled : bundled.Sound) {k : String} :
    k ∈ (mergeOlderCatalog disk bundled previous review).1.conditionalModifiers.map (·.id) ↔
      k ∈ disk.conditionalModifiers.map (·.id) ∨ ∃ modifier, (modifierScheme previous).Admitted
        disk.conditionalModifiers bundled.conditionalModifiers modifier ∧ modifier.id = k :=
  RuleScheme.mem_ids_merge_iff_admitted hdisk.nodup_modifiers hbundled.noConflict_modifiers

/-- The ids of the two kinds stay apart exactly when no new rule brings an id over. -/
theorem disjoint_mergedIds_iff (hdisk : disk.Sound) (hbundled : bundled.Sound) :
    List.Disjoint ((mergeOlderCatalog disk bundled previous review).1.ratePeriods.map (·.id))
        ((mergeOlderCatalog disk bundled previous review).1.conditionalModifiers.map (·.id)) ↔
      KindsApart previous disk bundled := by
  have hdiskIds := (List.nodup_append'.mp hdisk.ids).2.2
  have hbundledIds := (List.nodup_append'.mp hbundled.ids).2.2
  constructor
  · intro h
    constructor
    · intro period hadmitted hmem
      exact h ((mem_ids_mergedPeriods hdisk hbundled).mpr (.inr ⟨period, hadmitted, rfl⟩))
        ((mem_ids_mergedModifiers hdisk hbundled).mpr (.inl hmem))
    · intro modifier hadmitted hmem
      exact h ((mem_ids_mergedPeriods hdisk hbundled).mpr (.inl hmem))
        ((mem_ids_mergedModifiers hdisk hbundled).mpr (.inr ⟨modifier, hadmitted, rfl⟩))
  · rintro ⟨hperiods, hmodifiers⟩ k hperiod hmodifier
    rw [mem_ids_mergedPeriods hdisk hbundled] at hperiod
    rw [mem_ids_mergedModifiers hdisk hbundled] at hmodifier
    rcases hperiod with hperiod | ⟨period, hadmitted, rfl⟩
    · rcases hmodifier with hmodifier | ⟨modifier, hadmitted, rfl⟩
      · exact hdiskIds hperiod hmodifier
      · exact hmodifiers modifier hadmitted hperiod
    · rcases hmodifier with hmodifier | ⟨modifier, hadmitted', hid⟩
      · exact hperiods period hadmitted hmodifier
      · exact hbundledIds (List.mem_map_of_mem hadmitted.mem)
          (List.mem_map.mpr ⟨modifier, hadmitted'.mem, hid⟩)

/-- Everything else that validation asks of a catalog is kept by the merge. -/
theorem mergeOlderCatalog_sound_iff (hdisk : disk.Sound) (hbundled : bundled.Sound) :
    (mergeOlderCatalog disk bundled previous review).1.Sound ↔
      KindsApart previous disk bundled := by
  have hperiodIds : ((mergeOlderCatalog disk bundled previous review).1.ratePeriods.map
      (periodScheme previous).id).Nodup := RuleScheme.nodup_ids_merge hdisk.nodup_periods
  have hmodifierIds : ((mergeOlderCatalog disk bundled previous review).1.conditionalModifiers.map
      (modifierScheme previous).id).Nodup := RuleScheme.nodup_ids_merge hdisk.nodup_modifiers
  rw [← disjoint_mergedIds_iff hdisk hbundled]
  constructor
  · intro h
    exact (List.nodup_append'.mp h.ids).2.2
  · intro hdisjoint
    constructor
    · intro period hmem
      rcases RuleScheme.mem_merge hmem with h | h
      · exact hdisk.periods period h
      · exact hbundled.periods period h
    · intro modifier hmem
      rcases RuleScheme.mem_merge hmem with h | h
      · exact hdisk.modifiers modifier h
      · exact hbundled.modifiers modifier h
    · exact List.nodup_append'.mpr ⟨hperiodIds, hmodifierIds, hdisjoint⟩
    · exact (RuleScheme.noConflict_merge periodScheme_symm hdisk.noConflict_periods).pairwise
        hperiodIds
    · exact (RuleScheme.noConflict_merge modifierScheme_symm hdisk.noConflict_modifiers).pairwise
        hmodifierIds

end Catalog

/-! ### The card -/

/-- Every row of a table is usable. -/
def AllUsable (table : ExtTreeMap String (ModelRate ν)) : Prop :=
  ∀ (model : String) (rate : ModelRate ν), table[model]? = some rate → rate.isUsable = true

omit [BEq ν] in
theorem isUsable_iff {row : ModelRate ν} : row.isUsable = true ↔
    { row with cacheCreationInput := none : ModelRate ν }.isUsable = true ∧
      ∀ value ∈ row.cacheCreationInput,
        (RateNumber.isFinite value && RateNumber.isNonNegative value) = true := by
  unfold ModelRate.isUsable
  cases row.cacheCreationInput with
  | none => simp
  | some value => simp [and_assoc]

omit [BEq ν] in
theorem isUsable_backfilled {row : ModelRate ν} {bundled : Option (ModelRate ν)}
    (hrow : row.isUsable = true) (hbundled : ∀ rate ∈ bundled, rate.isUsable = true) :
    (row.backfilled bundled).isUsable = true := by
  rw [isUsable_iff] at hrow ⊢
  refine ⟨hrow.1, ?_⟩
  intro value hvalue
  rcases Option.or_eq_some_iff.mp hvalue with hown | ⟨-, hbackfill⟩
  · exact hrow.2 value hown
  · obtain ⟨rate, hrate, hrateValue⟩ := Option.bind_eq_some_iff.mp hbackfill
    exact (isUsable_iff.mp (hbundled rate hrate)).2 value hrateValue

/-- Merging usable tables and backfilling gives a usable table. -/
theorem allUsable_merged {disk bundled : ExtTreeMap String (ModelRate ν)}
    {previous : Option (ExtTreeMap String (ModelRate ν))} {kind : String}
    {sources evidence : ExtTreeMap String PricingProvenance} {review : List String}
    (hdisk : AllUsable disk) (hbundled : AllUsable bundled) :
    AllUsable (backfillCacheCreation
      (mergeDefaultEntries bundled previous kind sources ⟨disk, evidence, review⟩).table
      bundled) := by
  intro model rate hrate
  rw [getElem?_backfillCacheCreation] at hrate
  obtain ⟨row, hrow, rfl⟩ := Option.map_eq_some_iff.mp hrate
  refine isUsable_backfilled ?_ fun rate hrate ↦ hbundled model rate hrate
  rw [getElem?_mergeDefaultEntries] at hrow
  cases hvalue : bundled[model]? with
  | none =>
    rw [hvalue, Option.map_none, Option.getD_none] at hrow
    exact hdisk model row hrow
  | some value =>
    rw [hvalue, Option.map_some, Option.getD_some] at hrow
    split at hrow
    · cases hrow
      exact hbundled model _ hvalue
    · exact hdisk model row hrow

/-- For a valid saved card and a valid newer bundle, the upgraded card is valid exactly when no
rule the bundle brings in has the id of a saved rule of the other kind. -/
theorem mergeOlderOverride_valid_iff {archive : Nat → Option (RateCard ν)}
    {disk bundled : RateCard ν} (hversion : disk.version < bundled.version)
    (hdisk : disk.validate = .ok ()) (hbundled : bundled.validate = .ok ()) :
    (mergeOlderOverride archive disk bundled).validate = .ok () ↔
      KindsApart ((previousCard archive disk.version).map (·.pricingCatalog))
        disk.pricingCatalog bundled.pricingCatalog := by
  rw [RateCard.validate_eq_ok] at hdisk hbundled ⊢
  obtain ⟨hdiskCatalog, hdiskModels, hdiskApi, hage, hcurrency⟩ := hdisk
  obtain ⟨hbundledCatalog, hbundledModels, hbundledApi, -, -⟩ := hbundled
  unfold mergeOlderOverride
  rw [if_neg (not_le.mpr hversion)]
  simp only
  rw [mergeOlderCatalog_sound_iff hdiskCatalog hbundledCatalog]
  refine and_iff_left ⟨?_, ?_, hage, hcurrency⟩
  · exact allUsable_merged hdiskModels hbundledModels
  · exact allUsable_merged hdiskApi hbundledApi

/-! ### An id used twice -/

/-- A provenance with evidence and a source. -/
def sampleProvenance : PricingProvenance :=
  { evidence := "published", sourceUrl := "https://example.test/rates", verifiedAt := .epoch,
    note := none }

/-- A period of one model from the epoch on. -/
def samplePeriod (id model : String) : EffectiveRatePeriod Rat :=
  { id, surface := .openaiApiUsd, model, startsAt := .epoch, endsAt := none
    rate :=
      { input := 1, cachedInput := 1, cacheCreationInput := none, output := 1, reasoning := 1 }
    cacheWriteInputMultiplier := none, provenance := sampleProvenance, label := id }

/-- A long-context modifier of one model from the epoch on. -/
def sampleModifier (id model : String) : ConditionalRateModifier Rat :=
  { id, surface := .openaiApiUsd, model, startsAt := .epoch, endsAt := none
    condition := .requestInputTokenThreshold 200000
    multipliers := { input := 2, output := 2 }, provenance := sampleProvenance, label := id }

/-- A card with the given version, rules and no rows. -/
def sampleCard (version : Nat) (periods : List (EffectiveRatePeriod Rat))
    (modifiers : List (ConditionalRateModifier Rat)) : RateCard Rat :=
  { version, currency := "USD", unit := "per_1m_tokens", sourceUrl := "https://example.test/rates"
    fetchedAt := none, models := ∅, fallbackModel := "gpt-5.5", currencies := ∅
    fallbackModels := ∅, apiModels := ∅, unpricedModels := []
    pricingCatalog := { ratePeriods := periods, conditionalModifiers := modifiers, notes := [] }
    modelAliases := ∅, floatingModelAliases := ∅, freeLocalModels := [], subscriptionPlans := ∅
    displayCurrency := none
    refresh := { lastSuccessAt := none, lastAttemptAt := none, lastFailureReason := none
                 maxCacheAgeSecs := 604800 }
    delivery := none, rateProvenance := ∅, upgradeReview := [], flatRateExpiresAt := ∅ }

/-- A saved card with a rule of the user's own. -/
def ownRuleCard : RateCard Rat :=
  sampleCard 13 [samplePeriod "gpt-6/long-context" "gpt-6-private"] []

/-- A bundle which publishes a modifier under the same id. -/
def longContextBundle : RateCard Rat :=
  sampleCard 14 [] [sampleModifier "gpt-6/long-context" "gpt-6"]

theorem mergeOlderOverride_valid_iff_ownRule :
    (mergeOlderOverride (fun _ ↦ none) ownRuleCard longContextBundle).validate = .ok () ↔
      KindsApart ((previousCard (fun _ ↦ none) ownRuleCard.version).map (·.pricingCatalog))
        ownRuleCard.pricingCatalog longContextBundle.pricingCatalog :=
  mergeOlderOverride_valid_iff (by decide) (by decide +kernel) (by decide +kernel)

/-- The user's rule does not overlap the published modifier, so both end up in the card. -/
theorem upgrade_can_invalidate :
    ¬ ∀ (archive : Nat → Option (RateCard Rat)) (disk bundled : RateCard Rat),
      disk.version < bundled.version → disk.validate = .ok () → bundled.validate = .ok () →
        (mergeOlderOverride archive disk bundled).validate = .ok () := by
  intro h
  have hvalid := h (fun _ ↦ none) ownRuleCard longContextBundle (by decide) (by decide +kernel)
    (by decide +kernel)
  have herror : (mergeOlderOverride (fun _ ↦ none) ownRuleCard longContextBundle).validate =
      .error "duplicate pricing catalog rule ID: gpt-6/long-context" := by decide +kernel
  rw [hvalid] at herror
  cases herror

end AgentOdometer.Pricing
