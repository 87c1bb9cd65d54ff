import AgentOdometer.Base.Checked
import AgentOdometer.Pricing.RateCard
import Mathlib.Data.List.Dedup
import Mathlib.Data.List.Sort

/-!
# Validation of a rate card

`PricingCatalog::validate` and `RateCard::validate` (`rates.rs:237–391,514–556,898–915`), and
what a validated card is: rules in order, ids used once, and no two rules of one scope at one
time.
-/

namespace AgentOdometer.Pricing

variable {ν : Type} [RateNumber ν]

/-- `validate_rule_id`, `rates.rs:347–355`: the ids seen with the new one. -/
def validateRuleId (id : String) (ids : List String) : Except String (List String) :=
  if Text.isBlank id then .error "pricing catalog rules require a non-empty ID"
  else if id ∈ ids then .error ("duplicate pricing catalog rule ID: " ++ id)
  else .ok (id :: ids)

/-- `validate_rule_scope`, `rates.rs:370–388`. -/
def validateRuleScope (model : String) (startsAt : DateTime) (endsAt : Option DateTime)
    (label : String) (provenance : PricingProvenance) : Except String Unit := do
  require (!(Text.isBlank model || Text.isBlank label))
    "pricing catalog rules require a model and label"
  require (!(Text.isBlank provenance.evidence || Text.isBlank provenance.sourceUrl))
    "pricing catalog rules require evidence and a source URL"
  require (!endsAt.any (· ≤ startsAt))
    "pricing catalog interval end must be after its start"

/-- The checks of one period. Follows `rates.rs:239–258`. -/
def validatePeriod (ids : List String) (period : EffectiveRatePeriod ν) :
    Except String (List String) := do
  require period.rate.isUsable "Pricing period rates must be finite and non-negative"
  let ids ← validateRuleId period.id ids
  validateRuleScope period.model period.startsAt period.endsAt period.label period.provenance
  require (!period.cacheWriteInputMultiplier.any fun multiplier ↦
      !RateNumber.isFinite multiplier || !RateNumber.isPositive multiplier)
    "cache-write input multiplier must be greater than zero"
  return ids

/-- The check of a condition. Follows `rates.rs:268–280`. -/
def validateCondition : PricingCondition → Except String Unit
  | .requestInputTokenThreshold greaterThan =>
      require (0 < greaterThan) "request input token threshold must be greater than zero"
  | .serviceTier tier =>
      require (tier = "standard" || tier = "fast" || tier = "ultrafast")
        "unsupported service-tier rule"

/-- Whether a condition is a service tier. -/
def PricingCondition.isServiceTier : PricingCondition → Bool
  | .serviceTier _ => true
  | .requestInputTokenThreshold _ => false

/-- The checks of one modifier. Follows `rates.rs:259–308`. -/
def validateModifier [BEq ν] (ids : List String) (modifier : ConditionalRateModifier ν) :
    Except String (List String) := do
  let ids ← validateRuleId modifier.id ids
  validateRuleScope modifier.model modifier.startsAt modifier.endsAt modifier.label
    modifier.provenance
  validateCondition modifier.condition
  require (!(modifier.condition.isServiceTier &&
      modifier.multipliers.input != modifier.multipliers.output))
    "service-tier multipliers must apply equally to input and output"
  require (!(!modifier.condition.isServiceTier &&
      (modifier.surface = .codexPurchasedCredits || modifier.surface = .codexIncludedAllowance)))
    "API request thresholds cannot apply to Codex allowance or credit surfaces"
  require (!(!RateNumber.isFinite modifier.multipliers.input ||
      !RateNumber.isFinite modifier.multipliers.output ||
      !RateNumber.isPositive modifier.multipliers.input ||
      !RateNumber.isPositive modifier.multipliers.output))
    "pricing modifier multipliers must be greater than zero"
  return ids

/-- The text of two periods which overlap. Follows `rates.rs:323–328`. -/
def overlappingPeriods (first second : EffectiveRatePeriod ν) : String :=
  "overlapping pricing periods for " ++ first.surface.debug ++ "/" ++ first.model ++ ": " ++
    first.label ++ " and " ++ second.label

/-- The windows of two of a sorted group. Follows `rates.rs:319–330`. -/
def validateAdjacent : List (EffectiveRatePeriod ν) → Except String Unit
  | current :: next :: rest => do
      require (!intervalsOverlap current.startsAt current.endsAt next.startsAt next.endsAt)
        (overlappingPeriods current next)
      validateAdjacent (next :: rest)
  | _ => .ok ()

/-- The periods of one scope, by their start. Follows `rates.rs:311–318`. -/
def sortedGroup (periods : List (EffectiveRatePeriod ν)) (scope : PricingSurface × String) :
    List (EffectiveRatePeriod ν) :=
  (periods.filter fun period ↦ (period.surface, period.model) = scope).insertionSort
    fun first second ↦ first.startsAt ≤ second.startsAt

/-- The groups one after the other. The source visits them in the order of a hash map. Follows
`rates.rs:309–330`. -/
def validateGroups (periods : List (EffectiveRatePeriod ν)) : Except String Unit :=
  ((periods.map fun period ↦ (period.surface, period.model)).dedup).forM fun scope ↦
    validateAdjacent (sortedGroup periods scope)

/-- The text of two modifiers which overlap. Follows `rates.rs:338–344`. -/
def overlappingModifiers (first second : ConditionalRateModifier ν) : String :=
  "overlapping conditional pricing modifiers for " ++ first.surface.debug ++ "/" ++ first.model ++
    ": " ++ first.label ++ " and " ++ second.label

/-- Every modifier against those behind it. Follows `rates.rs:331–347`. -/
def validateModifierPairs : List (ConditionalRateModifier ν) → Except String Unit
  | [] => .ok ()
  | modifier :: rest => do
      rest.forM fun other ↦
        require (!modifier.overlaps other) (overlappingModifiers modifier other)
      validateModifierPairs rest

/-- `PricingCatalog::validate`, `rates.rs:237–345`. -/
def PricingCatalog.validate [BEq ν] (catalog : PricingCatalog ν) : Except String Unit := do
  let ids ← catalog.ratePeriods.foldlM validatePeriod []
  let _ ← catalog.conditionalModifiers.foldlM validateModifier ids
  validateGroups catalog.ratePeriods
  validateModifierPairs catalog.conditionalModifiers

/-- `is_fx_currency`, `rates.rs:549–555`. -/
def isFxCurrency (value : String) : Bool :=
  value ∈ ["USD", "EUR", "GBP", "CAD", "AUD", "JPY", "CHF", "NZD", "CNY", "INR", "BRL", "MXN",
    "SGD", "HKD", "KRW", "SEK", "NOK", "DKK", "PLN", "CZK", "ZAR"]

/-- `CurrencyConversion::validate`, `rates.rs:516–530`. -/
def CurrencyConversion.validate (conversion : CurrencyConversion ν) : Except String Unit :=
  require (!(conversion.fromCurrency.any (!isFxCurrency ·) ||
      !isFxCurrency conversion.targetCurrency || !RateNumber.isFinite conversion.rate ||
      !RateNumber.isPositive conversion.rate || Text.isBlank conversion.source ||
      256 < conversion.source.utf8ByteSize))
    ("FX requires supported monetary currencies, a finite positive rate and a source of at " ++
      "most 256 bytes")

/-- `RateCard::validate`, `rates.rs:898–915`. -/
def RateCard.validate [BEq ν] (card : RateCard ν) : Except String Unit := do
  card.pricingCatalog.validate
  require (card.models.toList.all (·.2.isUsable) && card.apiModels.toList.all (·.2.isUsable))
    "Rate values must be finite and non-negative"
  require (0 < card.refresh.maxCacheAgeSecs) "Rate cache age must be positive"
  match card.displayCurrency with
  | none => .ok ()
  | some conversion => conversion.validate

/-! ### Sound rules -/

section Rules

variable {period : EffectiveRatePeriod ν} {modifier : ConditionalRateModifier ν}
  {ids ids' : List String}

/-- A period which is valid on its own. -/
def EffectiveRatePeriod.WellFormed (period : EffectiveRatePeriod ν) : Prop :=
  validatePeriod [] period = .ok [period.id]

/-- A modifier which is valid on its own. -/
def ConditionalRateModifier.WellFormed [BEq ν] (modifier : ConditionalRateModifier ν) : Prop :=
  validateModifier [] modifier = .ok [modifier.id]

theorem validateRuleId_eq_ok {id : String} : validateRuleId id ids = .ok ids' ↔
    Text.isBlank id = false ∧ id ∉ ids ∧ ids' = id :: ids := by
  unfold validateRuleId
  cases hblank : Text.isBlank id with
  | true => simp
  | false =>
    by_cases hmem : id ∈ ids
    · simp [hmem]
    · simp [hmem, eq_comm]

/-- A period passes after others exactly when it is valid on its own and its id is new. -/
theorem validatePeriod_eq_ok : validatePeriod ids period = .ok ids' ↔
    period.WellFormed ∧ period.id ∉ ids ∧ ids' = period.id :: ids := by
  unfold EffectiveRatePeriod.WellFormed validatePeriod
  simp only [bind_eq_ok, require_eq_ok, validateRuleId_eq_ok, pure, Except.pure, Except.ok.injEq]
  constructor
  · rintro ⟨_, husable, _, ⟨hblank, hmem, rfl⟩, _, hscope, _, hmultiplier, rfl⟩
    exact ⟨⟨(), husable, _, ⟨hblank, List.not_mem_nil, rfl⟩, (), hscope, (), hmultiplier, rfl⟩,
      hmem, rfl⟩
  · rintro ⟨⟨_, husable, _, ⟨hblank, -, -⟩, _, hscope, _, hmultiplier, -⟩, hmem, rfl⟩
    exact ⟨(), husable, _, ⟨hblank, hmem, rfl⟩, (), hscope, (), hmultiplier, rfl⟩

/-- A modifier passes after others exactly when it is valid on its own and its id is new. -/
theorem validateModifier_eq_ok [BEq ν] : validateModifier ids modifier = .ok ids' ↔
    modifier.WellFormed ∧ modifier.id ∉ ids ∧ ids' = modifier.id :: ids := by
  unfold ConditionalRateModifier.WellFormed validateModifier
  simp only [bind_eq_ok, require_eq_ok, validateRuleId_eq_ok, pure, Except.pure, Except.ok.injEq]
  constructor
  · rintro ⟨_, ⟨hblank, hmem, rfl⟩, _, hscope, _, hcondition, _, htier, _, hsurface, _,
      hmultipliers, rfl⟩
    exact ⟨⟨_, ⟨hblank, List.not_mem_nil, rfl⟩, (), hscope, (), hcondition, (), htier, (),
      hsurface, (), hmultipliers, rfl⟩, hmem, rfl⟩
  · rintro ⟨⟨_, ⟨hblank, -, -⟩, _, hscope, _, hcondition, _, htier, _, hsurface, _,
      hmultipliers, -⟩, hmem, rfl⟩
    exact ⟨_, ⟨hblank, hmem, rfl⟩, (), hscope, (), hcondition, (), htier, (), hsurface, (),
      hmultipliers, rfl⟩

/-- The interval of a valid period is not empty. -/
theorem EffectiveRatePeriod.WellFormed.startsAt_lt (h : period.WellFormed) {endsAt : DateTime}
    (hend : period.endsAt = some endsAt) : period.startsAt < endsAt := by
  unfold EffectiveRatePeriod.WellFormed validatePeriod validateRuleScope at h
  simp only [bind_eq_ok, require_eq_ok] at h
  obtain ⟨_, -, _, -, _, ⟨_, -, _, -, hinterval⟩, -⟩ := h
  rw [hend] at hinterval
  simpa using hinterval

/-- Rules which pass one after the other are valid and have new and distinct ids. -/
theorem foldlM_eq_ok {ρ : Type} {check : List String → ρ → Except String (List String)}
    (id : ρ → String) (WellFormed : ρ → Prop)
    (hcheck : ∀ ids ids' rule, check ids rule = .ok ids' ↔
      WellFormed rule ∧ id rule ∉ ids ∧ ids' = id rule :: ids) {rules : List ρ} :
    rules.foldlM check ids = .ok ids' ↔ (∀ rule ∈ rules, WellFormed rule) ∧
      (rules.map id).Nodup ∧ (∀ rule ∈ rules, id rule ∉ ids) ∧
      ids' = (rules.map id).reverse ++ ids := by
  induction rules generalizing ids with
  | nil => simp [pure, Except.pure, eq_comm]
  | cons rule rest ih =>
    rw [List.foldlM_cons, bind_eq_ok]
    constructor
    · rintro ⟨seen, hrule, hrest⟩
      obtain ⟨hvalid, hnew, rfl⟩ := (hcheck _ _ _).mp hrule
      obtain ⟨hvalids, hnodup, hnews, rfl⟩ := ih.mp hrest
      refine ⟨List.forall_mem_cons.mpr ⟨hvalid, hvalids⟩, ?_, ?_, by simp⟩
      · rw [List.map_cons, List.nodup_cons]
        refine ⟨?_, hnodup⟩
        intro hmem
        obtain ⟨other, hother, hid⟩ := List.mem_map.mp hmem
        exact hnews other hother (hid ▸ List.mem_cons_self)
      · rw [List.forall_mem_cons]
        exact ⟨hnew, fun other hother h ↦ hnews other hother (List.mem_cons_of_mem _ h)⟩
    · rintro ⟨hvalids, hnodup, hnews, rfl⟩
      rw [List.forall_mem_cons] at hvalids hnews
      rw [List.map_cons, List.nodup_cons] at hnodup
      refine ⟨id rule :: ids, (hcheck _ _ _).mpr ⟨hvalids.1, hnews.1, rfl⟩, ih.mpr
        ⟨hvalids.2, hnodup.2, ?_, by simp⟩⟩
      intro other hother h
      rcases List.mem_cons.mp h with h | h
      · exact hnodup.1 (h ▸ List.mem_map_of_mem hother)
      · exact hnews.2 other hother h

theorem validatePeriods_eq_ok {periods : List (EffectiveRatePeriod ν)} :
    periods.foldlM validatePeriod ids = .ok ids' ↔ (∀ period ∈ periods, period.WellFormed) ∧
      (periods.map (·.id)).Nodup ∧ (∀ period ∈ periods, period.id ∉ ids) ∧
      ids' = (periods.map (·.id)).reverse ++ ids :=
  foldlM_eq_ok EffectiveRatePeriod.id EffectiveRatePeriod.WellFormed
    fun _ _ _ ↦ validatePeriod_eq_ok

theorem validateModifiers_eq_ok [BEq ν] {modifiers : List (ConditionalRateModifier ν)} :
    modifiers.foldlM validateModifier ids = .ok ids' ↔
      (∀ modifier ∈ modifiers, modifier.WellFormed) ∧
      (modifiers.map (·.id)).Nodup ∧ (∀ modifier ∈ modifiers, modifier.id ∉ ids) ∧
      ids' = (modifiers.map (·.id)).reverse ++ ids :=
  foldlM_eq_ok ConditionalRateModifier.id ConditionalRateModifier.WellFormed
    fun _ _ _ ↦ validateModifier_eq_ok

end Rules

/-! ### Intervals apart -/

section Apart

variable {periods group : List (EffectiveRatePeriod ν)} {scope : PricingSurface × String}

omit [RateNumber ν] in
/-- Neighbours of a sorted group are apart exactly when all its periods are. -/
theorem validateAdjacent_eq_ok
    (hproper : ∀ period ∈ group, ∀ endsAt, period.endsAt = some endsAt → period.startsAt < endsAt)
    (hsorted : group.Pairwise fun first second ↦ first.startsAt ≤ second.startsAt) :
    validateAdjacent group = .ok () ↔ group.Pairwise fun first second ↦
      intervalsOverlap first.startsAt first.endsAt second.startsAt second.endsAt = false := by
  induction group with
  | nil => exact ⟨fun _ ↦ List.Pairwise.nil, fun _ ↦ rfl⟩
  | cons current rest ih =>
    cases rest with
    | nil => exact ⟨fun _ ↦ List.pairwise_singleton _ _, fun _ ↦ rfl⟩
    | cons next rest =>
      rw [List.pairwise_cons] at hsorted
      have hrest := ih (fun period hperiod ↦ hproper period (List.mem_cons_of_mem current hperiod))
        hsorted.2
      unfold validateAdjacent
      simp only [bind_eq_ok, require_eq_ok, exists_const, Bool.not_eq_true']
      rw [hrest]
      constructor
      · rintro ⟨hnext, hpairs⟩
        refine List.pairwise_cons.mpr ⟨?_, hpairs⟩
        -- the next period starts no later than the others, so an end before it is before them all
        have hnextProper : next.endsAt.all (current.startsAt < ·) = true := by
          cases hend : next.endsAt with
          | none => rfl
          | some endsAt =>
            have hlt := hproper next (List.mem_cons_of_mem current List.mem_cons_self) endsAt hend
            exact decide_eq_true (lt_of_le_of_lt (hsorted.1 next List.mem_cons_self) hlt)
        intro other hother
        unfold intervalsOverlap at hnext ⊢
        rw [hnextProper, Bool.and_true] at hnext
        cases hend : current.endsAt with
        | none =>
          rw [hend] at hnext
          cases hnext
        | some endsAt =>
          rw [hend] at hnext
          have hle : next.startsAt ≤ other.startsAt := by
            rcases List.mem_cons.mp hother with rfl | hother
            · exact le_refl _
            · exact (List.pairwise_cons.mp hsorted.2).1 other hother
          have hbefore : endsAt ≤ next.startsAt := not_lt.mp (of_decide_eq_false hnext)
          rw [Option.all_some, decide_eq_false (not_lt.mpr (hbefore.trans hle)), Bool.false_and]
      · intro h
        rw [List.pairwise_cons] at h
        exact ⟨h.1 next List.mem_cons_self, h.2⟩

omit [RateNumber ν] in
theorem overlaps_eq_false_iff {first second : EffectiveRatePeriod ν} :
    first.overlaps second = false ↔
      ((first.surface, first.model) = (second.surface, second.model) →
        intervalsOverlap first.startsAt first.endsAt second.startsAt second.endsAt = false) := by
  unfold EffectiveRatePeriod.overlaps
  by_cases hsurface : first.surface = second.surface
  · by_cases hmodel : first.model = second.model
    · simp [hsurface, hmodel]
    · simp [hmodel]
  · simp [hsurface]

omit [RateNumber ν] in
theorem pairwise_sortedGroup (periods : List (EffectiveRatePeriod ν)) :
    (sortedGroup periods scope).Pairwise fun first second ↦ first.startsAt ≤ second.startsAt := by
  have htotal : Std.Total fun first second : EffectiveRatePeriod ν ↦
      first.startsAt ≤ second.startsAt := ⟨fun first second ↦ le_total _ _⟩
  have htrans : IsTrans (EffectiveRatePeriod ν) fun first second ↦
      first.startsAt ≤ second.startsAt := ⟨fun _ _ _ ↦ le_trans⟩
  exact List.pairwise_insertionSort _ _

omit [RateNumber ν] in
/-- The groups are apart exactly when no two periods of one scope overlap. -/
theorem validateGroups_eq_ok (hproper : ∀ period ∈ periods, ∀ endsAt,
      period.endsAt = some endsAt → period.startsAt < endsAt) :
    validateGroups periods = .ok () ↔
      periods.Pairwise fun first second ↦ first.overlaps second = false := by
  have hgroup : ∀ scope, validateAdjacent (sortedGroup periods scope) = .ok () ↔
      (periods.filter fun period ↦ (period.surface, period.model) = scope).Pairwise
        fun first second ↦
          intervalsOverlap first.startsAt first.endsAt second.startsAt second.endsAt = false := by
    intro scope
    have hperm : (sortedGroup periods scope).Perm
        (periods.filter fun period ↦ (period.surface, period.model) = scope) :=
      List.perm_insertionSort _ _
    rw [validateAdjacent_eq_ok _ (pairwise_sortedGroup periods)]
    · apply hperm.pairwise_iff
      intro first second h
      rw [intervalsOverlap_comm]
      exact h
    · intro period hperiod
      exact hproper period (List.mem_of_mem_filter (hperm.subset hperiod))
  unfold validateGroups
  rw [forM_eq_ok]
  simp only [hgroup, List.mem_dedup]
  constructor
  · intro h
    rw [List.pairwise_iff_forall_sublist]
    intro first second hsub
    have hfirst : first ∈ periods := hsub.subset List.mem_cons_self
    rw [overlaps_eq_false_iff]
    intro hscope
    have hgroupSub := hsub.filter fun period ↦
      (period.surface, period.model) = (first.surface, first.model)
    have hboth : ∀ period ∈ [first, second],
        decide ((period.surface, period.model) = (first.surface, first.model)) = true := by
      intro period hperiod
      rcases List.mem_pair.mp hperiod with rfl | rfl
      · exact decide_eq_true rfl
      · exact decide_eq_true hscope.symm
    rw [List.filter_eq_self.mpr hboth] at hgroupSub
    exact List.pairwise_iff_forall_sublist.mp (h _ (List.mem_map_of_mem hfirst)) hgroupSub
  · intro h scope _
    rw [List.pairwise_iff_forall_sublist] at h ⊢
    intro first second hsub
    have hfirst := List.of_mem_filter (hsub.subset List.mem_cons_self)
    have hsecond := List.of_mem_filter (hsub.subset (List.mem_cons_of_mem _ List.mem_cons_self))
    exact overlaps_eq_false_iff.mp (h (hsub.trans List.filter_sublist))
      ((of_decide_eq_true hfirst).trans (of_decide_eq_true hsecond).symm)

end Apart

/-! ### Sound catalogs -/

/-- A catalog whose rules are valid, have ids of their own, and are apart within each scope. -/
structure PricingCatalog.Sound [BEq ν] (catalog : PricingCatalog ν) : Prop where
  periods : ∀ period ∈ catalog.ratePeriods, period.WellFormed
  modifiers : ∀ modifier ∈ catalog.conditionalModifiers, modifier.WellFormed
  ids : (catalog.ratePeriods.map (·.id) ++ catalog.conditionalModifiers.map (·.id)).Nodup
  periodsApart : catalog.ratePeriods.Pairwise fun first second ↦ first.overlaps second = false
  modifiersApart : catalog.conditionalModifiers.Pairwise fun first second ↦
    first.overlaps second = false

omit [RateNumber ν] in
theorem validateModifierPairs_eq_ok {modifiers : List (ConditionalRateModifier ν)} {u : Unit} :
    validateModifierPairs modifiers = .ok u ↔
      modifiers.Pairwise fun first second ↦ first.overlaps second = false := by
  induction modifiers with
  | nil => exact ⟨fun _ ↦ List.Pairwise.nil, fun _ ↦ rfl⟩
  | cons modifier rest ih =>
    unfold validateModifierPairs
    rw [bind_eq_ok, List.pairwise_cons]
    simp only [forM_eq_ok, require_eq_ok, ih, exists_const, Bool.not_eq_true']

/-- Validation accepts exactly the sound catalogs. -/
theorem PricingCatalog.validate_eq_ok [BEq ν] {catalog : PricingCatalog ν} {u : Unit} :
    catalog.validate = .ok u ↔ catalog.Sound := by
  unfold PricingCatalog.validate
  simp only [bind_eq_ok, validatePeriods_eq_ok, validateModifiers_eq_ok,
    validateModifierPairs_eq_ok]
  constructor
  · rintro ⟨_, ⟨hperiods, hnodup, -, rfl⟩, _, ⟨hmodifiers, hnodup', hnew, -⟩, _, hgroups, hpairs⟩
    refine ⟨hperiods, hmodifiers, ?_, ?_, hpairs⟩
    · rw [List.nodup_append]
      refine ⟨hnodup, hnodup', ?_⟩
      rintro id hid _ hid' rfl
      obtain ⟨modifier, hmodifier, rfl⟩ := List.mem_map.mp hid'
      refine hnew modifier hmodifier ?_
      rw [List.append_nil, List.mem_reverse]
      exact hid
    · refine (validateGroups_eq_ok ?_).mp hgroups
      intro period hperiod endsAt hend
      exact (hperiods period hperiod).startsAt_lt hend
  · rintro ⟨hperiods, hmodifiers, hids, hapart, hpairs⟩
    rw [List.nodup_append] at hids
    refine ⟨_, ⟨hperiods, hids.1, fun _ _ ↦ List.not_mem_nil, rfl⟩, _,
      ⟨hmodifiers, hids.2.1, ?_, rfl⟩, (), (validateGroups_eq_ok ?_).mpr hapart, hpairs⟩
    · intro modifier hmodifier hmem
      rw [List.append_nil, List.mem_reverse] at hmem
      exact hids.2.2 _ hmem _ (List.mem_map_of_mem hmodifier) rfl
    · intro period hperiod endsAt hend
      exact (hperiods period hperiod).startsAt_lt hend

/-- Validation of a card: its catalog, its flat rates, its cache age and its conversion. -/
theorem RateCard.validate_eq_ok [BEq ν] {card : RateCard ν} :
    card.validate = .ok () ↔ card.pricingCatalog.Sound ∧
      (∀ (model : String) (rate : ModelRate ν), card.models[model]? = some rate →
        rate.isUsable = true) ∧
      (∀ (model : String) (rate : ModelRate ν), card.apiModels[model]? = some rate →
        rate.isUsable = true) ∧
      0 < card.refresh.maxCacheAgeSecs ∧
      ∀ conversion, card.displayCurrency = some conversion → conversion.validate = .ok () := by
  have hall : ∀ table : Std.ExtTreeMap String (ModelRate ν),
      (table.toList.all (·.2.isUsable) = true) ↔ ∀ (model : String) (rate : ModelRate ν),
        table[model]? = some rate → rate.isUsable = true := by
    intro table
    simp only [List.all_eq_true, Prod.forall, Std.ExtTreeMap.mem_toList_iff_getElem?_eq_some]
  have hconversion : (match card.displayCurrency with
      | none => Except.ok ()
      | some conversion => conversion.validate) = .ok () ↔
        ∀ conversion, card.displayCurrency = some conversion → conversion.validate = .ok () := by
    cases card.displayCurrency with
    | none => simp
    | some conversion => simp
  unfold RateCard.validate
  simp only [bind_eq_ok, require_eq_ok, Bool.and_eq_true, decide_eq_true_eq, hall, hconversion,
    exists_const, PricingCatalog.validate_eq_ok, and_assoc]

end AgentOdometer.Pricing
