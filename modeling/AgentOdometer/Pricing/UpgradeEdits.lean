import AgentOdometer.Pricing.UpgradeValidity

/-!
# What an upgrade keeps

Rows and rules which equal their archived counterparts follow the bundle, and the others
survive. Rows the bundle dropped stay, and so does a rule which a saved rule of another id keeps
from being refreshed (`rates.rs:1123–1443`).
-/

namespace AgentOdometer

namespace RuleScheme

variable {ρ κ : Type} [DecidableEq κ] {S : RuleScheme ρ κ} {rules news : List ρ}
  {rule new : ρ}

/-- A default is gone when a rule of its id is let in, unless it is that rule. -/
theorem mem_news_of_default (hrules : (rules.map S.id).Nodup) (hnews : S.NoConflict news)
    (hnew : S.Admitted rules news new) (hid : S.id new = S.id rule)
    (hdefault : S.isDefault rule = true) (h : rule ∈ (S.merge rules news).1) : rule ∈ news := by
  rcases (leaves_merge hrules hnews).gone rule h with hmem | hkept
  · exact hmem
  · exact absurd ⟨hdefault, mem_taken_iff.mpr ⟨new, hnew, hid⟩⟩ hkept

/-- Without edits, and with every new rule let in, the result has the new rules and those old
ones whose ids the new rules do not have. -/
theorem mem_merge_iff_of_pristine (hrules : (rules.map S.id).Nodup)
    (hnodup : (news.map S.id).Nodup) (hnews : S.NoConflict news)
    (hdefault : ∀ rule ∈ rules, S.isDefault rule = true)
    (hadmitted : ∀ new ∈ news, S.Admitted rules news new) :
    rule ∈ (S.merge rules news).1 ↔
      rule ∈ news ∨ (rule ∈ rules ∧ S.id rule ∉ news.map S.id) := by
  constructor
  · intro h
    rcases mem_merge h with hrule | hnew
    · by_cases hid : S.id rule ∈ news.map S.id
      · obtain ⟨new, hnew, hid⟩ := List.mem_map.mp hid
        exact .inl (mem_news_of_default hrules hnews (hadmitted new hnew) hid
          (hdefault rule hrule) h)
      · exact .inr ⟨hrule, hid⟩
    · exact .inl hnew
  · rintro (hnew | ⟨hrule, hid⟩)
    · apply mem_merge_of_accepted hrules hnodup
      · exact (accepted_iff_admitted hrules hnews).mpr (hadmitted rule hnew)
      · intro old hold _
        exact hdefault old hold
    · exact mem_merge_of_keep hrule hrules (.inr hid)

end RuleScheme

namespace Pricing

open Std (ExtTreeMap)

variable {ν τ : Type}

/-! ### Tables -/

/-- What an upgrade makes of a table with an archive. The rows `shadowed` by the user's static
aliases do not follow the bundle, and `backfill` is what it adds to an edited row. -/
structure RowsUpgraded [BEq τ] (kind : String) (shadowed : String → Prop)
    (backfill : Option τ → τ → τ) (archived saved bundled result : ExtTreeMap String τ)
    (review : List String) : Prop where
  refreshed : ∀ (id : String) (value : τ), bundled[id]? = some value → ¬ shadowed id →
    (∀ row, saved[id]? = some row → (archived[id]? == some row) = true) →
      result[id]? = some value
  edited : ∀ (id : String) (row : τ), saved[id]? = some row → (archived[id]? == some row) = false →
    result[id]? = some (backfill bundled[id]? row) ∧ kind ++ "/" ++ id ∈ review
  dropped : ∀ (id : String) (row : τ), saved[id]? = some row → bundled[id]? = none →
    result[id]? = some row ∧ kind ++ "/" ++ id ∈ review

section Rows

variable {kind : String} {sources evidence : ExtTreeMap String PricingProvenance}
  {review review' : List String} {id : String}

theorem isDefaultEntry_eq_true [BEq τ] {archived saved : ExtTreeMap String τ}
    (h : ∀ row, saved[id]? = some row → (archived[id]? == some row) = true) :
    isDefaultEntry (some archived) saved id = true := by
  unfold isDefaultEntry
  rw [Option.all_eq_true]
  exact h

theorem isDefaultEntry_eq_false [BEq τ] {archived saved : ExtTreeMap String τ} {row : τ}
    (hrow : saved[id]? = some row) (h : (archived[id]? == some row) = false) :
    isDefaultEntry (some archived) saved id = false := by
  unfold isDefaultEntry
  rw [hrow]
  exact h

/-- A table of rates: the merge, then the backfill. -/
theorem rowsUpgraded_rates [BEq ν] {archived saved bundled : ExtTreeMap String (ModelRate ν)}
    (hreview : ∀ id, kind ++ "/" ++ id ∈ (mergeDefaultEntries bundled (some archived) kind sources
      ⟨saved, evidence, review⟩).review → kind ++ "/" ++ id ∈ review') :
    RowsUpgraded kind (fun _ ↦ False) ModelRate.backfilled archived saved bundled
      (backfillCacheCreation (mergeDefaultEntries bundled (some archived) kind sources
        ⟨saved, evidence, review⟩).table bundled) review' := by
  constructor
  · intro id value hvalue _ hdefault
    have hstatus : (mergeDefaultEntries bundled (some archived) kind sources
        ⟨saved, evidence, review⟩).status kind id = (some value, false) := by
      rw [status_mergeDefaultEntries, hvalue]
      simp [isDefaultEntry_eq_true hdefault]
    rw [getElem?_backfillCacheCreation, (EntryMerge.of_status hstatus).1, hvalue,
      Option.map_some, ModelRate.backfilled_self]
  · intro id row hrow hedit
    have hstatus : (mergeDefaultEntries bundled (some archived) kind sources
        ⟨saved, evidence, review⟩).status kind id = (some row, true) := by
      rw [status_mergeDefaultEntries]
      cases bundled[id]? with
      | none => simp [hrow]
      | some value => simp [isDefaultEntry_eq_false hrow hedit, hrow]
    rw [getElem?_backfillCacheCreation, (EntryMerge.of_status hstatus).1]
    exact ⟨rfl, hreview id ((EntryMerge.of_status hstatus).2 rfl)⟩
  · intro id row hrow hnone
    have hstatus : (mergeDefaultEntries bundled (some archived) kind sources
        ⟨saved, evidence, review⟩).status kind id = (some row, true) := by
      rw [status_mergeDefaultEntries, hnone]
      simp [hrow]
    rw [getElem?_backfillCacheCreation, (EntryMerge.of_status hstatus).1, hnone, Option.map_some,
      ModelRate.backfilled_none]
    exact ⟨rfl, hreview id ((EntryMerge.of_status hstatus).2 rfl)⟩

/-- The floating aliases: the static aliases of the user first, then the merge. -/
theorem rowsUpgraded_floating {version : Nat} {static : ExtTreeMap String String}
    {archived saved bundled : ExtTreeMap String FloatingAlias} {aliases : AliasMerge}
    (hversion : ¬ version < 11)
    (haliases : aliases = static.toList.foldl (keepStaticAlias version bundled (some archived))
      ⟨bundled, review, saved, evidence⟩)
    (hreview : ∀ id, kind ++ "/" ++ id ∈ (mergeDefaultEntries aliases.floatingDefaults
      (some archived) kind sources ⟨aliases.floatingModelAliases, aliases.rateProvenance,
        aliases.review⟩).review → kind ++ "/" ++ id ∈ review') :
    RowsUpgraded kind (fun id ↦ static[id]? ≠ none) (fun _ row ↦ row) archived saved bundled
      (mergeDefaultEntries aliases.floatingDefaults (some archived) kind sources
        ⟨aliases.floatingModelAliases, aliases.rateProvenance, aliases.review⟩).table review' := by
  have haliasStatus : ∀ id, aliases.status id =
      if static[id]? = none ∨ bundled[id]? = none then (bundled[id]?, saved[id]?)
      else (none, if archived[id]? = saved[id]? then none else saved[id]?) := by
    intro id
    rw [haliases]
    exact status_foldl_keepStaticAlias hversion
  constructor
  · intro id value hvalue hstatic hdefault
    rw [not_not] at hstatic
    have hkept := haliasStatus id
    rw [if_pos (.inl hstatic), hvalue] at hkept
    have hdefaults : aliases.floatingDefaults[id]? = some value := congrArg Prod.fst hkept
    have hsaved : aliases.floatingModelAliases[id]? = saved[id]? := congrArg Prod.snd hkept
    have hstatus : (mergeDefaultEntries aliases.floatingDefaults (some archived) kind sources
        ⟨aliases.floatingModelAliases, aliases.rateProvenance, aliases.review⟩).status kind id =
          (some value, false) := by
      rw [status_mergeDefaultEntries, hdefaults]
      simp [isDefaultEntry_congr hsaved, isDefaultEntry_eq_true hdefault]
    exact (EntryMerge.of_status hstatus).1
  · intro id row hrow hedit
    have hne : archived[id]? ≠ saved[id]? := by
      rw [hrow]
      simpa using hedit
    have hsaved : aliases.floatingModelAliases[id]? = some row := by
      have hkept := congrArg Prod.snd (haliasStatus id)
      rw [if_neg hne, apply_ite Prod.snd, ite_self, hrow] at hkept
      exact hkept
    have hstatus : (mergeDefaultEntries aliases.floatingDefaults (some archived) kind sources
        ⟨aliases.floatingModelAliases, aliases.rateProvenance, aliases.review⟩).status kind id =
          (some row, true) := by
      rw [status_mergeDefaultEntries]
      cases aliases.floatingDefaults[id]? with
      | none => simp [hsaved]
      | some value => simp [isDefaultEntry_eq_false hsaved hedit, hsaved]
    exact ⟨(EntryMerge.of_status hstatus).1, hreview id ((EntryMerge.of_status hstatus).2 rfl)⟩
  · intro id row hrow hnone
    have hkept := haliasStatus id
    rw [if_pos (.inr hnone), hnone, hrow] at hkept
    have hdefaults : aliases.floatingDefaults[id]? = none := congrArg Prod.fst hkept
    have hsaved : aliases.floatingModelAliases[id]? = some row := congrArg Prod.snd hkept
    have hstatus : (mergeDefaultEntries aliases.floatingDefaults (some archived) kind sources
        ⟨aliases.floatingModelAliases, aliases.rateProvenance, aliases.review⟩).status kind id =
          (some row, true) := by
      rw [status_mergeDefaultEntries, hdefaults]
      simp [hsaved]
    exact ⟨(EntryMerge.of_status hstatus).1, hreview id ((EntryMerge.of_status hstatus).2 rfl)⟩

end Rows

/-- What an upgrade makes of the rules of one kind. -/
structure RulesUpgraded {ρ : Type} (S : RuleScheme ρ String) (saved bundled result : List ρ)
    (review : List String) : Prop where
  refreshed : ∀ rule ∈ saved, S.isDefault rule = true → ∀ new, S.Admitted saved bundled new →
    S.id new = S.id rule → new ∈ result ∧ (rule ∈ result → rule ∈ bundled)
  edited : ∀ rule ∈ saved, S.isDefault rule = false → rule ∈ result ∧
    ∀ new, S.Admitted saved bundled new → S.id new = S.id rule →
      "pricing_catalog/" ++ S.id rule ∈ review
  dropped : ∀ rule ∈ saved, S.id rule ∉ bundled.map S.id → rule ∈ result
  added : ∀ new, S.Admitted saved bundled new →
    (∀ rule ∈ saved, S.id rule = S.id new → S.isDefault rule = true) → new ∈ result
  pristine : (∀ rule ∈ saved, S.isDefault rule = true) →
    (∀ new ∈ bundled, S.Admitted saved bundled new) → ∀ rule, rule ∈ result ↔
      rule ∈ bundled ∨ (rule ∈ saved ∧ S.id rule ∉ bundled.map S.id)

theorem rulesUpgraded_merge {ρ : Type} {S : RuleScheme ρ String} {saved bundled : List ρ}
    {review : List String} (hsaved : (saved.map S.id).Nodup) (hbundled : (bundled.map S.id).Nodup)
    (hapart : S.NoConflict bundled)
    (hreview : ∀ id ∈ (S.merge saved bundled).2, "pricing_catalog/" ++ id ∈ review) :
    RulesUpgraded S saved bundled (S.merge saved bundled).1 review := by
  have haccepted : ∀ new, S.Admitted saved bundled new → S.Accepted saved bundled new :=
    fun new ↦ (RuleScheme.accepted_iff_admitted hsaved hapart).mpr
  constructor
  · intro rule hrule hdefault new hnew hid
    constructor
    · apply RuleScheme.mem_merge_of_accepted hsaved hbundled (haccepted new hnew)
      intro other hother hother'
      rw [List.inj_on_of_nodup_map hsaved hother hrule (hother'.trans hid)]
      exact hdefault
    · exact RuleScheme.mem_news_of_default hsaved hapart hnew hid hdefault
  · intro rule hrule hedit
    refine ⟨RuleScheme.mem_merge_of_keep hrule hsaved (.inl hedit), ?_⟩
    intro new hnew hid
    exact hreview _ (RuleScheme.mem_reviewed_of_accepted hsaved hbundled (haccepted new hnew)
      hrule hid.symm hedit)
  · intro rule hrule hid
    exact RuleScheme.mem_merge_of_keep hrule hsaved (.inr hid)
  · intro new hnew hdefault
    exact RuleScheme.mem_merge_of_accepted hsaved hbundled (haccepted new hnew) hdefault
  · intro hdefault hadmitted rule
    exact RuleScheme.mem_merge_iff_of_pristine hsaved hbundled hapart hdefault hadmitted

/-! ### The card -/

/-- What an upgrade makes of a saved card with an archive. -/
structure CardUpgraded [BEq ν] (archived disk bundled merged : RateCard ν) : Prop where
  models : RowsUpgraded "models" (fun _ ↦ False) ModelRate.backfilled archived.models disk.models
    bundled.models merged.models merged.upgradeReview
  apiModels : RowsUpgraded "api_models" (fun _ ↦ False) ModelRate.backfilled archived.apiModels
    disk.apiModels bundled.apiModels merged.apiModels merged.upgradeReview
  floatingModelAliases : RowsUpgraded "floating_model_aliases"
    (fun id ↦ disk.modelAliases[id]? ≠ none) (fun _ row ↦ row) archived.floatingModelAliases
    disk.floatingModelAliases bundled.floatingModelAliases merged.floatingModelAliases
    merged.upgradeReview
  ratePeriods : RulesUpgraded (periodScheme (some archived.pricingCatalog))
    disk.pricingCatalog.ratePeriods bundled.pricingCatalog.ratePeriods
    merged.pricingCatalog.ratePeriods merged.upgradeReview
  conditionalModifiers : RulesUpgraded (modifierScheme (some archived.pricingCatalog))
    disk.pricingCatalog.conditionalModifiers bundled.pricingCatalog.conditionalModifiers
    merged.pricingCatalog.conditionalModifiers merged.upgradeReview
  unbundled : ∀ period ∈ disk.pricingCatalog.ratePeriods,
    period.id ∉ bundled.pricingCatalog.ratePeriods.map (·.id) →
      "pricing_catalog/" ++ period.id ∈ merged.upgradeReview
  currencies : ∀ id : String,
    merged.currencies[id]? = disk.currencies[id]?.or bundled.currencies[id]?
  fallbackModels : ∀ id : String,
    merged.fallbackModels[id]? = disk.fallbackModels[id]?.or bundled.fallbackModels[id]?
  modelAliases : ∀ id : String,
    merged.modelAliases[id]? = disk.modelAliases[id]?.or bundled.modelAliases[id]?
  subscriptionPlans : ∀ id : String,
    merged.subscriptionPlans[id]? = disk.subscriptionPlans[id]?.or bundled.subscriptionPlans[id]?

theorem exists_of_previousCard {archive : Nat → Option (RateCard ν)} {version : Nat}
    {archived : RateCard ν} (h : previousCard archive version = some archived) :
    ¬ version < 11 := by
  unfold previousCard at h
  split at h
  · omega
  · cases h

theorem mem_review_mergeOlderCatalog [BEq ν] {disk bundled : PricingCatalog ν}
    {previous : Option (PricingCatalog ν)} {review : List String} {key : String} :
    key ∈ (mergeOlderCatalog disk bundled previous review).2 ↔ key ∈ review ∨
      (∃ id ∈ ((periodScheme previous).merge disk.ratePeriods bundled.ratePeriods).2,
        "pricing_catalog/" ++ id = key) ∨
      ∃ id ∈ ((modifierScheme previous).merge disk.conditionalModifiers
        bundled.conditionalModifiers).2, "pricing_catalog/" ++ id = key := by
  unfold mergeOlderCatalog
  simp only [List.mem_append, List.mem_map, or_assoc]

theorem mem_unbundledPeriods {disk bundled : PricingCatalog ν} {period : EffectiveRatePeriod ν}
    (hperiod : period ∈ disk.ratePeriods) (hid : period.id ∉ bundled.ratePeriods.map (·.id)) :
    "pricing_catalog/" ++ period.id ∈ unbundledPeriods disk bundled := by
  unfold unbundledPeriods
  apply List.mem_map_of_mem
  rw [List.mem_filter]
  refine ⟨hperiod, ?_⟩
  rw [List.mem_map] at hid
  simpa using hid

/-- An upgrade refreshes defaults and keeps edits. -/
theorem upgrade_keeps_edits [RateNumber ν] [BEq ν] {archive : Nat → Option (RateCard ν)}
    {disk bundled archived : RateCard ν} (hversion : disk.version < bundled.version)
    (hdisk : disk.validate = .ok ()) (hbundled : bundled.validate = .ok ())
    (harchive : previousCard archive disk.version = some archived) :
    CardUpgraded archived disk bundled (mergeOlderOverride archive disk bundled) := by
  have hsaved := (RateCard.validate_eq_ok.mp hdisk).1
  have hnew := (RateCard.validate_eq_ok.mp hbundled).1
  have hstatic := exists_of_previousCard harchive
  unfold mergeOlderOverride
  rw [if_neg (not_le.mpr hversion), harchive]
  simp only [Option.map_some]
  constructor
  · apply rowsUpgraded_rates
    intro id hid
    rw [mem_sortDedup, mem_review_mergeOlderCatalog]
    refine .inl (List.mem_append_left _ ?_)
    rw [mem_review_mergeDefaultEntries_of_ne (key_ne (by decide) (by decide) (by decide) _)]
    apply mem_review_foldl_keepStaticAlias
    simp only
    rw [mem_review_mergeDefaultEntries_of_ne (key_ne (by decide) (by decide) (by decide) _)]
    exact hid
  · apply rowsUpgraded_rates
    intro id hid
    rw [mem_sortDedup, mem_review_mergeOlderCatalog]
    refine .inl (List.mem_append_left _ ?_)
    rw [mem_review_mergeDefaultEntries_of_ne (key_ne (by decide) (by decide) (by decide) _)]
    apply mem_review_foldl_keepStaticAlias
    exact hid
  · apply rowsUpgraded_floating hstatic rfl
    intro id hid
    rw [mem_sortDedup, mem_review_mergeOlderCatalog]
    exact .inl (List.mem_append_left _ hid)
  · apply rulesUpgraded_merge hsaved.nodup_periods hnew.nodup_periods hnew.noConflict_periods
    intro id hid
    rw [mem_sortDedup, mem_review_mergeOlderCatalog]
    exact .inr (.inl ⟨id, hid, rfl⟩)
  · apply rulesUpgraded_merge hsaved.nodup_modifiers hnew.nodup_modifiers
      hnew.noConflict_modifiers
    intro id hid
    rw [mem_sortDedup, mem_review_mergeOlderCatalog]
    exact .inr (.inr ⟨id, hid, rfl⟩)
  · intro period hperiod hid
    rw [mem_sortDedup, mem_review_mergeOlderCatalog]
    exact .inl (List.mem_append_right _ (mem_unbundledPeriods hperiod hid))
  · exact fun id ↦ getElem?_orInsertAll
  · exact fun id ↦ getElem?_orInsertAll
  · intro id
    rw [dropSuperseded_of_not_lt hstatic]
    exact getElem?_orInsertAll
  · exact fun id ↦ getElem?_orInsertAll

/-- A saved card which is its archived bundle. -/
def pristineCard : RateCard Rat :=
  sampleCard 13 [samplePeriod "gpt-6/launch" "gpt-6"] []

/-- A bundle which publishes the price of the model under a new id. -/
def renamedBundle : RateCard Rat :=
  sampleCard 14 [samplePeriod "gpt-6/standard" "gpt-6"] []

/-- A price of the flat table. -/
def flatRate (input : Rat) : ModelRate Rat :=
  { input, cachedInput := 1, cacheCreationInput := none, output := 1, reasoning := 1 }

/-- A card with prices of two models, and a period of a third from the epoch on. -/
def pricedCard (version : Nat) (mini large : Rat) (period : EffectiveRatePeriod Rat) :
    RateCard Rat :=
  { sampleCard version [period] [] with
    models := ((∅ : ExtTreeMap String (ModelRate Rat)).insert "gpt-5-mini" (flatRate mini)).insert
      "gpt-5" (flatRate large) }

/-- The bundle of version 13. -/
def archivedBundle : RateCard Rat :=
  pricedCard 13 1 8 (samplePeriod "gpt-6/launch" "gpt-6")

/-- The saved card, in which the user edited a row and the period. -/
def editedCard : RateCard Rat :=
  pricedCard 13 1 5 { samplePeriod "gpt-6/launch" "gpt-6" with label := "Own" }

/-- The bundle of version 14, with other prices of both rows. -/
def repricedBundle : RateCard Rat :=
  pricedCard 14 2 9 (samplePeriod "gpt-6/launch" "gpt-6")

/-- The unedited row becomes the bundle's. The edited row and the edited period stay, and are named
for review. -/
theorem upgrade_keeps_edits_edited :
    CardUpgraded archivedBundle editedCard repricedBundle
        (mergeOlderOverride (fun _ ↦ some archivedBundle) editedCard repricedBundle) ∧
      (mergeOlderOverride (fun _ ↦ some archivedBundle) editedCard
        repricedBundle).models["gpt-5-mini"]? = some (flatRate 2) ∧
      (mergeOlderOverride (fun _ ↦ some archivedBundle) editedCard
        repricedBundle).models["gpt-5"]? = some (flatRate 5) ∧
      (mergeOlderOverride (fun _ ↦ some archivedBundle) editedCard
        repricedBundle).upgradeReview = ["models/gpt-5", "pricing_catalog/gpt-6/launch"] :=
  ⟨upgrade_keeps_edits (by decide) (by decide +kernel) (by decide +kernel) rfl,
    by decide +kernel, by decide +kernel, by decide +kernel⟩

/-- A rule the bundle dropped stays, and keeps the rule out which would take its place. -/
theorem pristine_upgrade_keeps_dropped :
    ¬ ∀ (archive : Nat → Option (RateCard Rat)) (disk bundled : RateCard Rat),
      disk.version < bundled.version → disk.validate = .ok () → bundled.validate = .ok () →
        previousCard archive disk.version = some disk →
          ∀ period, period ∈ (mergeOlderOverride archive disk bundled).pricingCatalog.ratePeriods ↔
            period ∈ bundled.pricingCatalog.ratePeriods := by
  intro h
  have hlaunch := h (fun _ ↦ some pristineCard) pristineCard renamedBundle (by decide)
    (by decide +kernel) (by decide +kernel) rfl (samplePeriod "gpt-6/launch" "gpt-6")
  have hmerged : (mergeOlderOverride (fun _ ↦ some pristineCard) pristineCard
      renamedBundle).pricingCatalog.ratePeriods = [samplePeriod "gpt-6/launch" "gpt-6"] := by
    decide +kernel
  rw [hmerged] at hlaunch
  have hid := congrArg EffectiveRatePeriod.id (List.mem_singleton.mp (hlaunch.mp
    List.mem_cons_self))
  revert hid
  decide

end Pricing

end AgentOdometer
