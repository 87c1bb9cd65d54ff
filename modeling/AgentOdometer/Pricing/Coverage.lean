import AgentOdometer.Pricing.Validation

/-!
# Coverage of a catalog

`PricingCatalog::rate_at`, `modifiers_for_request` and `modifier_for_tier` (`rates.rs:183–233`).
Each takes the first rule that applies; in a sound catalog there is no second one.
-/

namespace AgentOdometer.Pricing

variable {ν : Type}

/-- The period is for this surface and model and its interval contains the instant. -/
def EffectiveRatePeriod.covers (period : EffectiveRatePeriod ν) (surface : PricingSurface)
    (model : String) (instant : DateTime) : Bool :=
  decide (period.surface = surface) && decide (period.model = model) &&
    intervalContains period.startsAt period.endsAt instant

/-- The modifier is for this surface and model and its interval contains the instant. -/
def ConditionalRateModifier.covers (modifier : ConditionalRateModifier ν)
    (surface : PricingSurface) (model : String) (instant : DateTime) : Bool :=
  decide (modifier.surface = surface) && decide (modifier.model = model) &&
    intervalContains modifier.startsAt modifier.endsAt instant

/-- `PricingCatalog::rate_at`, `rates.rs:184–195`. -/
def PricingCatalog.rateAt (catalog : PricingCatalog ν) (surface : PricingSurface) (model : String)
    (instant : DateTime) : Option (EffectiveRatePeriod ν) :=
  catalog.ratePeriods.find? (·.covers surface model instant)

/-- The modifier covers the instant and has this condition. -/
def ConditionalRateModifier.applies (modifier : ConditionalRateModifier ν)
    (surface : PricingSurface) (model : String) (condition : PricingCondition)
    (instant : DateTime) : Bool :=
  modifier.covers surface model instant && decide (modifier.condition = condition)

/-- `PricingCatalog::modifier_for_tier`, `rates.rs:219–233`. -/
def PricingCatalog.modifierForTier (catalog : PricingCatalog ν) (surface : PricingSurface)
    (model : String) (instant : DateTime) (tier : String) :
    Option (ConditionalRateModifier ν) :=
  catalog.conditionalModifiers.find? (·.applies surface model (.serviceTier tier) instant)

/-! ### One rule at most -/

section Lists

variable {ρ : Type} {apart : ρ → ρ → Bool} {p : ρ → Bool} {rules rules' : List ρ}

/-- Rules which are pairwise apart satisfy a predicate at most once, when two that satisfy it are
not apart. -/
theorem length_filter_le_one (hrules : rules.Pairwise fun first second ↦ apart first second = false)
    (hboth : ∀ first second, p first = true → p second = true → apart first second = true) :
    (rules.filter p).length ≤ 1 := by
  have hfiltered := hrules.sublist (List.filter_sublist (p := p))
  have hall : ∀ rule ∈ rules.filter p, p rule = true := fun _ hrule ↦ List.of_mem_filter hrule
  generalize rules.filter p = found at hfiltered hall
  match found with
  | [] => exact Nat.zero_le 1
  | [_] => exact le_refl 1
  | first :: second :: rest =>
    have hapart := (List.pairwise_cons.mp hfiltered).1 second List.mem_cons_self
    rw [hboth first second (hall first List.mem_cons_self)
      (hall second (List.mem_cons_of_mem _ List.mem_cons_self))] at hapart
    cases hapart

/-- Where at most one rule satisfies a predicate, the first one to do so does not depend on the
order of the rules. -/
theorem find?_eq_of_perm (hperm : rules'.Perm rules) (hone : (rules.filter p).length ≤ 1) :
    rules'.find? p = rules.find? p := by
  have hfilter := hperm.filter p
  rw [← List.head?_filter, ← List.head?_filter]
  match hfound : rules.filter p with
  | [] =>
    rw [hfound] at hfilter
    rw [hfilter.eq_nil]
  | [rule] =>
    rw [hfound] at hfilter
    rw [List.perm_singleton.mp hfilter]
  | _ :: _ :: _ =>
    rw [hfound] at hone
    simp at hone

end Lists

/-- Two intervals which contain one instant overlap. -/
theorem intervalsOverlap_of_contains {firstFrom secondFrom instant : DateTime}
    {firstTo secondTo : Option DateTime}
    (hfirst : intervalContains firstFrom firstTo instant = true)
    (hsecond : intervalContains secondFrom secondTo instant = true) :
    intervalsOverlap firstFrom firstTo secondFrom secondTo = true := by
  have hends : ∀ {startsAt : DateTime} {endsAt : Option DateTime},
      startsAt ≤ instant → endsAt.all (instant < ·) = true →
        endsAt.all (startsAt < ·) = true := by
    intro startsAt endsAt hstart hend
    cases endsAt with
    | none => rfl
    | some endsAt => exact decide_eq_true (lt_of_le_of_lt hstart (of_decide_eq_true hend))
  unfold intervalContains at hfirst hsecond
  rw [Bool.and_eq_true, decide_eq_true_eq] at hfirst hsecond
  unfold intervalsOverlap
  rw [Bool.and_eq_true]
  exact ⟨hends hsecond.1 hfirst.2, hends hfirst.1 hsecond.2⟩

variable {surface : PricingSurface} {model : String} {condition : PricingCondition}
  {instant : DateTime}

/-- Two periods which cover one instant of one scope overlap. -/
theorem EffectiveRatePeriod.overlaps_of_covers {first second : EffectiveRatePeriod ν}
    (hfirst : first.covers surface model instant = true)
    (hsecond : second.covers surface model instant = true) : first.overlaps second = true := by
  simp only [covers, Bool.and_eq_true, decide_eq_true_eq] at hfirst hsecond
  simp only [overlaps, Bool.and_eq_true, decide_eq_true_eq]
  exact ⟨⟨hfirst.1.1.trans hsecond.1.1.symm, hfirst.1.2.trans hsecond.1.2.symm⟩,
    intervalsOverlap_of_contains hfirst.2 hsecond.2⟩

/-- Two modifiers of one condition which apply at one instant overlap. -/
theorem ConditionalRateModifier.overlaps_of_applies {first second : ConditionalRateModifier ν}
    (hfirst : first.applies surface model condition instant = true)
    (hsecond : second.applies surface model condition instant = true) :
    first.overlaps second = true := by
  simp only [applies, covers, Bool.and_eq_true, decide_eq_true_eq] at hfirst hsecond
  simp only [overlaps, Bool.and_eq_true, decide_eq_true_eq]
  exact ⟨⟨⟨hfirst.1.1.1.trans hsecond.1.1.1.symm, hfirst.1.1.2.trans hsecond.1.1.2.symm⟩,
    hfirst.2.trans hsecond.2.symm⟩, intervalsOverlap_of_contains hfirst.1.2 hsecond.1.2⟩

section Sound

variable [RateNumber ν] [BEq ν] {catalog : PricingCatalog ν}

/-- At most one period of a sound catalog covers an instant. -/
theorem PricingCatalog.Sound.periods_covering (h : catalog.Sound) (surface : PricingSurface)
    (model : String) (instant : DateTime) :
    (catalog.ratePeriods.filter (·.covers surface model instant)).length ≤ 1 :=
  length_filter_le_one h.periodsApart fun _ _ hfirst hsecond ↦
    EffectiveRatePeriod.overlaps_of_covers hfirst hsecond

/-- At most one modifier of a sound catalog applies under a condition. -/
theorem PricingCatalog.Sound.modifiers_applying (h : catalog.Sound) (surface : PricingSurface)
    (model : String) (condition : PricingCondition) (instant : DateTime) :
    (catalog.conditionalModifiers.filter
      (·.applies surface model condition instant)).length ≤ 1 :=
  length_filter_le_one h.modifiersApart fun _ _ hfirst hsecond ↦
    ConditionalRateModifier.overlaps_of_applies hfirst hsecond

/-- A validated catalog has at most one rule for each question, so its answers do not depend on
the order of its rules. -/
theorem PricingCatalog.validate_unambiguous (catalog : PricingCatalog ν)
    (hvalid : catalog.validate = .ok ()) :
    (∀ surface model instant,
      (catalog.ratePeriods.filter (·.covers surface model instant)).length ≤ 1) ∧
    (∀ surface model condition instant, (catalog.conditionalModifiers.filter
      (·.applies surface model condition instant)).length ≤ 1) ∧
    ∀ permuted : PricingCatalog ν, permuted.ratePeriods.Perm catalog.ratePeriods →
      permuted.conditionalModifiers.Perm catalog.conditionalModifiers →
      ∀ surface model instant,
        permuted.rateAt surface model instant = catalog.rateAt surface model instant ∧
        ∀ tier, permuted.modifierForTier surface model instant tier =
          catalog.modifierForTier surface model instant tier := by
  have hsound := validate_eq_ok.mp hvalid
  refine ⟨hsound.periods_covering, hsound.modifiers_applying, ?_⟩
  intro permuted hperiods hmodifiers surface model instant
  constructor
  · exact find?_eq_of_perm hperiods (hsound.periods_covering surface model instant)
  · intro tier
    exact find?_eq_of_perm hmodifiers
      (hsound.modifiers_applying surface model (.serviceTier tier) instant)

end Sound

/-- Evidence for the catalog below. -/
def scheduleProvenance : PricingProvenance :=
  ⟨"published_schedule", "schedule", .epoch, none⟩

/-- The day after the epoch. -/
def secondDay : DateTime := ⟨86400000000000, by decide, by decide⟩

/-- The prices and the fast tier of the first day, and those from the second day on. -/
def tieredCatalog : PricingCatalog Rat where
  ratePeriods := [⟨"launch", .openaiApiUsd, "gpt-5", .epoch, some secondDay, ⟨1, 1, none, 8, 8⟩,
      none, scheduleProvenance, "Launch"⟩,
    ⟨"base", .openaiApiUsd, "gpt-5", secondDay, none, ⟨2, 2, none, 16, 16⟩, none,
      scheduleProvenance, "Base"⟩]
  conditionalModifiers := [⟨"launch-fast", .openaiApiUsd, "gpt-5", .epoch, some secondDay,
      .serviceTier "fast", ⟨2, 2⟩, scheduleProvenance, "Fast at launch"⟩,
    ⟨"fast", .openaiApiUsd, "gpt-5", secondDay, none, .serviceTier "fast", ⟨3, 3⟩,
      scheduleProvenance, "Fast"⟩]
  notes := []

/-- The two periods meet on the second day, which only the later covers, and the reversed catalog
has the same prices. -/
theorem tieredCatalog_unambiguous :
    (tieredCatalog.ratePeriods.filter (·.covers .openaiApiUsd "gpt-5" secondDay)).map (·.id) =
        ["base"] ∧
      (tieredCatalog.ratePeriods.filter
        (·.covers .openaiApiUsd "gpt-5" secondDay)).length ≤ 1 ∧
      ({ tieredCatalog with
        ratePeriods := tieredCatalog.ratePeriods.reverse
        conditionalModifiers := tieredCatalog.conditionalModifiers.reverse }).rateAt .openaiApiUsd
          "gpt-5" secondDay = tieredCatalog.rateAt .openaiApiUsd "gpt-5" secondDay := by
  obtain ⟨hperiods, -, hpermuted⟩ := tieredCatalog.validate_unambiguous (by decide +kernel)
  refine ⟨by decide +kernel, hperiods _ _ _, (hpermuted _ ?_ ?_ _ _ _).1⟩
  · exact List.reverse_perm _
  · exact List.reverse_perm _

end AgentOdometer.Pricing
