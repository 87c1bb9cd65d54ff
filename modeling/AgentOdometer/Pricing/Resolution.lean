import AgentOdometer.Lib.AliasChain
import AgentOdometer.Pricing.RateCard

/-!
# Resolution of a model's price

`RateCard::resolve_model_pricing` and `resolve_alias` (`rates.rs:391–469,565–640,982–1092`):
which row of a table prices a model, and on what basis.
-/

namespace AgentOdometer

/-- `date_naive`: the day of an instant in UTC. -/
def DateTime.dateNaive (instant : DateTime) : Pricing.NaiveDate :=
  ⟨instant.nanos / 86400000000000⟩

namespace Pricing

open Std (ExtTreeMap)

variable {ν : Type}

/-- `PricingBasis`, `rates.rs:394–429`. -/
inductive PricingBasis where
  | direct
  | aliased
  | floatingAlias
  | fallback
  | estimated
  | freeLocal
  | subscription
  | stale
  | unavailable
deriving Repr, DecidableEq

/-- `PricedModelResolution`, `rates.rs:436–445`. -/
structure PricedModelResolution where
  fallbackUsed : Bool
  resolvedModel : String
  basis : PricingBasis
deriving Repr, DecidableEq

/-- `RateFreshness`, `rates.rs:567–577`. -/
inductive RateFreshness where
  | fresh
  | stale
  | unknown
deriving Repr, DecidableEq

/-- `RateRefreshState::freshness`, `rates.rs:626–639`. -/
def RateRefreshState.freshness (state : RateRefreshState) (now : DateTime) : RateFreshness :=
  match state.lastSuccessAt with
  | none => .unknown
  | some instant =>
      if (now.signedDurationSince instant).numSeconds ≤ state.maxCacheAgeSecs then .fresh
      else .stale

/-- `resolve_alias`, `rates.rs:454–469`. -/
def resolveAlias (model : String) (aliases : ExtTreeMap String String) : String × Bool :=
  AliasChain.chase aliases (aliases.size + 1) [] model false

namespace RateCard

/-- The flat rate of a row has ended. Follows `rates.rs:1007–1011,1033–1037`. -/
def flatRateExpired (card : RateCard ν) (model : String) (now : DateTime) : Bool :=
  card.flatRateExpiresAt[model]?.any (·.day ≤ now.dateNaive.day)

/-- The row has no published price, or its flat rate has ended. -/
def withdrawn (card : RateCard ν) (model : String) (now : DateTime) : Bool :=
  decide (model ∈ card.unpricedModels) || card.flatRateExpired model now

/-- The basis of a row found in a table. Follows `rates.rs:1006–1018`. -/
def basis (card : RateCard ν) (now : DateTime) (resolved : String) (directBasis : PricingBasis) :
    PricingBasis :=
  if card.withdrawn resolved now then .unavailable
  else if card.refresh.freshness now = .stale then .stale
  else directBasis

/-- The target of a floating alias which is still trusted. Follows `rates.rs:1055–1064`. -/
def floatingTarget (card : RateCard ν) (model : String) (table : ExtTreeMap String (ModelRate ν))
    (now : DateTime) : Option String :=
  match card.floatingModelAliases[model]? with
  | none => none
  | some floating =>
      if now.dateNaive.day ≤ floating.expiresAt.day && decide (floating.target ∈ table) then
        some floating.target
      else none

/-- A model without a row of its own or a trusted floating alias. Follows
`rates.rs:1065–1091`. -/
def resolveIndirect (card : RateCard ν) (model harness : String)
    (table : ExtTreeMap String (ModelRate ν)) (now : DateTime) : PricedModelResolution :=
  let (resolved, hopped) := resolveAlias model card.modelAliases
  if hopped && decide (resolved ∈ table) then
    ⟨false, resolved, card.basis now resolved .aliased⟩
  else
    let fallbackModel := card.fallbackModels[harness]?.getD card.fallbackModel
    if fallbackModel ∈ table then
      ⟨true, fallbackModel, card.basis now fallbackModel .fallback⟩
    else ⟨false, model, .unavailable⟩

/-- `RateCard::resolve_model_pricing`, `rates.rs:999–1092`. -/
def resolveModelPricing (card : RateCard ν) (model harness : String)
    (table : ExtTreeMap String (ModelRate ν)) (now : DateTime) : PricedModelResolution :=
  if model ∈ card.freeLocalModels then ⟨false, model, .freeLocal⟩
  else if model ∈ card.unpricedModels then ⟨false, model, .unavailable⟩
  else if card.flatRateExpired model now then ⟨false, model, .unavailable⟩
  else if model ∈ table then ⟨false, model, card.basis now model .direct⟩
  else
    match card.floatingTarget model table now with
    | some target => ⟨false, target, card.basis now target .floatingAlias⟩
    | none => card.resolveIndirect model harness table now

variable {card : RateCard ν} {model harness : String} {table : ExtTreeMap String (ModelRate ν)}
  {now : DateTime}

/-! ### A row which may be used -/

/-- The row is in the table, has a published price, and its flat rate has not ended. -/
structure Usable (card : RateCard ν) (table : ExtTreeMap String (ModelRate ν)) (now : DateTime)
    (resolved : String) : Prop where
  inTable : resolved ∈ table
  priced : resolved ∉ card.unpricedModels
  current : card.flatRateExpired resolved now = false

/-- The resolution names a usable row, unless its basis says that it names none. -/
def Priced (card : RateCard ν) (table : ExtTreeMap String (ModelRate ν)) (now : DateTime)
    (resolution : PricedModelResolution) : Prop :=
  resolution.basis ≠ .freeLocal → resolution.basis ≠ .unavailable →
    card.Usable table now resolution.resolvedModel

/-- A basis other than `Unavailable` is only given to a row which is not withdrawn. -/
theorem withdrawn_eq_false {resolved : String} {directBasis : PricingBasis}
    (h : card.basis now resolved directBasis ≠ .unavailable) :
    card.withdrawn resolved now = false := by
  unfold basis at h
  split at h
  · exact absurd rfl h
  next hnot => exact Bool.eq_false_iff.mpr hnot

theorem priced_of_mem {used : Bool} {resolved : String} {directBasis : PricingBasis}
    (hmem : resolved ∈ table) :
    card.Priced table now ⟨used, resolved, card.basis now resolved directBasis⟩ := by
  intro _ havailable
  have hrow := withdrawn_eq_false havailable
  unfold withdrawn at hrow
  rw [Bool.or_eq_false_iff, decide_eq_false_iff_not] at hrow
  exact ⟨hmem, hrow.1, hrow.2⟩

theorem priced_of_unavailable {used : Bool} {resolved : String} :
    card.Priced table now ⟨used, resolved, .unavailable⟩ :=
  fun _ h ↦ absurd rfl h

/-- A trusted floating alias is not past its date, and its target is in the table. -/
theorem floatingTarget_eq_some {target : String} :
    card.floatingTarget model table now = some target ↔
      ∃ floating, card.floatingModelAliases[model]? = some floating ∧
        now.dateNaive.day ≤ floating.expiresAt.day ∧ floating.target ∈ table ∧
        floating.target = target := by
  unfold floatingTarget
  cases card.floatingModelAliases[model]? with
  | none => simp
  | some floating => simp [and_assoc]

theorem priced_resolveIndirect : card.Priced table now
    (card.resolveIndirect model harness table now) := by
  unfold resolveIndirect
  split
  next resolved hopped _ =>
    split
    next h => exact priced_of_mem (of_decide_eq_true (Bool.and_eq_true _ _ ▸ h).2)
    · show card.Priced table now (if _ then _ else _)
      split
      next hmem => exact priced_of_mem hmem
      · exact priced_of_unavailable

theorem priced_resolveModelPricing : card.Priced table now
    (card.resolveModelPricing model harness table now) := by
  unfold resolveModelPricing
  split
  · exact fun h ↦ absurd rfl h
  · split
    · exact priced_of_unavailable
    · split
      · exact priced_of_unavailable
      · split
        next hmem => exact priced_of_mem hmem
        · split
          next target htarget =>
            obtain ⟨_, _, _, hmem, rfl⟩ := floatingTarget_eq_some.mp htarget
            exact priced_of_mem hmem
          · exact priced_resolveIndirect

/-! ### Aliases -/

/-- The basis of a row is the one it was found by, or says that the row is stale or withdrawn. -/
theorem basis_cases (resolved : String) (directBasis : PricingBasis) :
    card.basis now resolved directBasis = .unavailable ∨
      card.basis now resolved directBasis = .stale ∨
      card.basis now resolved directBasis = directBasis := by
  unfold basis
  split
  · exact Or.inl rfl
  · split
    · exact Or.inr (Or.inl rfl)
    · exact Or.inr (Or.inr rfl)

/-- A row found one way does not get the basis of another way. -/
theorem basis_ne {resolved : String} {directBasis other : PricingBasis}
    (hunavailable : other ≠ .unavailable) (hstale : other ≠ .stale) (hother : other ≠ directBasis) :
    card.basis now resolved directBasis ≠ other := by
  intro h
  rcases @basis_cases _ card now resolved directBasis with hbasis | hbasis | hbasis
  · exact hunavailable (h.symm.trans hbasis)
  · exact hstale (h.symm.trans hbasis)
  · exact hother (h.symm.trans hbasis)

/-- A resolution without a row of its own is aliased only by the chain of its model. -/
theorem resolveIndirect_aliased
    (h : (card.resolveIndirect model harness table now).basis = .aliased) :
    (card.resolveIndirect model harness table now).resolvedModel =
      (resolveAlias model card.modelAliases).1 := by
  unfold resolveIndirect at h ⊢
  split
  next resolved hopped halias =>
    rw [halias] at h ⊢
    split
    · rfl
    next hnot =>
      exfalso
      revert h
      show (if _ then _ else _ : PricedModelResolution).basis ≠ _
      rw [if_neg hnot]
      show (if _ then _ else _ : PricedModelResolution).basis ≠ _
      split
      · exact basis_ne (by decide) (by decide) (by decide)
      · exact PricingBasis.noConfusion

/-- A resolution without a trusted floating alias is never a floating alias. -/
theorem resolveIndirect_ne_floatingAlias :
    (card.resolveIndirect model harness table now).basis ≠ .floatingAlias := by
  unfold resolveIndirect
  split
  split
  · exact basis_ne (by decide) (by decide) (by decide)
  · show (if _ then _ else _ : PricedModelResolution).basis ≠ _
    split
    · exact basis_ne (by decide) (by decide) (by decide)
    · exact PricingBasis.noConfusion

theorem resolveModelPricing_aliased
    (h : (card.resolveModelPricing model harness table now).basis = .aliased) :
    (card.resolveModelPricing model harness table now).resolvedModel =
      (resolveAlias model card.modelAliases).1 := by
  unfold resolveModelPricing at h ⊢
  split at h
  · cases h
  · split at h
    · cases h
    · split at h
      · cases h
      · split at h
        · exact absurd h (basis_ne (by decide) (by decide) (by decide))
        · split at h
          · exact absurd h (basis_ne (by decide) (by decide) (by decide))
          next hfree hunpriced hexpired hmem _ _ =>
            rw [if_neg hfree, if_neg hunpriced, if_neg hexpired, if_neg hmem]
            exact resolveIndirect_aliased h

/-- A floating alias prices a model only with the target which is trusted now. -/
theorem resolveModelPricing_floatingAlias
    (h : (card.resolveModelPricing model harness table now).basis = .floatingAlias) :
    card.floatingTarget model table now =
      some (card.resolveModelPricing model harness table now).resolvedModel := by
  unfold resolveModelPricing at h ⊢
  split at h
  · cases h
  · split at h
    · cases h
    · split at h
      · cases h
      · split at h
        · exact absurd h (basis_ne (by decide) (by decide) (by decide))
        · split at h
          next hfree hunpriced hexpired hmem _ _ hfloating =>
            rw [if_neg hfree, if_neg hunpriced, if_neg hexpired, if_neg hmem, hfloating]
          · exact absurd h resolveIndirect_ne_floatingAlias

/-- The card without the floating alias of a model. -/
def withoutFloating (card : RateCard ν) (model : String) : RateCard ν :=
  { card with floatingModelAliases := card.floatingModelAliases.erase model }

/-- A floating alias past its date resolves as if the card did not have it. -/
theorem resolveModelPricing_expired {floating : FloatingAlias}
    (hfloating : card.floatingModelAliases[model]? = some floating)
    (hexpired : floating.expiresAt.day < now.dateNaive.day) :
    card.resolveModelPricing model harness table now =
      (card.withoutFloating model).resolveModelPricing model harness table now := by
  have hcard : card.floatingTarget model table now = none := by
    unfold floatingTarget
    rw [hfloating]
    simp [hexpired]
  have herased : (card.withoutFloating model).floatingTarget model table now = none := by
    unfold floatingTarget withoutFloating
    simp
  unfold resolveModelPricing
  rw [hcard, herased]
  rfl

/-- The end of a chain: no further alias. -/
def IsAliasEnd (card : RateCard ν) (model resolved : String) : Prop :=
  Relation.ReflTransGen (AliasChain.Hop card.modelAliases) model resolved ∧
    card.modelAliases[resolved]? = none

/-- Without a cycle, an alias resolves to the end of its chain. -/
theorem isAliasEnd_resolveAlias (hacyclic : AliasChain.Acyclic card.modelAliases) :
    card.IsAliasEnd model (resolveAlias model card.modelAliases).1 := by
  constructor
  · exact AliasChain.reflTransGen_chase _ _ _ _
  · apply AliasChain.getElem?_chase hacyclic
    · exact List.nodup_nil
    · exact fun _ h ↦ nomatch h
    · rw [List.length_nil]
      omega

/-- Every resolution of every card: a row that prices a model is usable, a floating alias is
followed only until its date, and an alias without cycles to its end. -/
theorem resolveModelPricing_sound (card : RateCard ν) (model harness : String)
    (table : ExtTreeMap String (ModelRate ν)) (now : DateTime) :
    card.Priced table now (card.resolveModelPricing model harness table now) ∧
    (∀ floating, card.floatingModelAliases[model]? = some floating →
      floating.expiresAt.day < now.dateNaive.day →
      (card.resolveModelPricing model harness table now).basis ≠ .floatingAlias ∧
      card.resolveModelPricing model harness table now =
        (card.withoutFloating model).resolveModelPricing model harness table now) ∧
    (AliasChain.Acyclic card.modelAliases →
      (card.resolveModelPricing model harness table now).basis = .aliased →
      card.IsAliasEnd model (card.resolveModelPricing model harness table now).resolvedModel) := by
  refine ⟨priced_resolveModelPricing, ?_, ?_⟩
  · intro floating hfloating hexpired
    refine ⟨?_, resolveModelPricing_expired hfloating hexpired⟩
    intro hbasis
    obtain ⟨trusted, htrusted, hdate, -⟩ :=
      floatingTarget_eq_some.mp (resolveModelPricing_floatingAlias hbasis)
    rw [hfloating, Option.some.injEq] at htrusted
    subst htrusted
    exact absurd hexpired (not_lt.mpr hdate)
  · intro hacyclic hbasis
    rw [resolveModelPricing_aliased hbasis]
    exact isAliasEnd_resolveAlias hacyclic

end RateCard

end Pricing

end AgentOdometer
