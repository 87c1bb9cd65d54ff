import AgentOdometer.Lib.Transition
import AgentOdometer.RangeData.Cache
import Mathlib.Data.List.Forall2

/-!
# Delta-refreshed range totals

A consumer keeps range totals of the sessions it wants through an accumulator and a cache. It is
compared with fetching every wanted session anew.
-/

namespace AgentOdometer.RangeData

open Std (ExtTreeMap)

variable {σ ω τ : Type}

/-- The answer of the backend for one window: the sessions with usage in it. -/
def windowTotals (totals : String → Option τ) (ids : List String) : ExtTreeMap String τ :=
  ids.foldl (fun results id ↦
    match totals id with
    | some total => results.insert id total
    | none => results) ∅

/-- The answer of the backend for the given sessions, for each window. -/
def fetchRanges (usage : Usage ω τ) (windows : List ω) (ids : List String) :
    List (ExtTreeMap String τ) :=
  windows.map fun window ↦ windowTotals (usage window) ids

/-- The store and a consumer of it. -/
structure Consumer (σ ω τ : Type) where
  store : SessionsStore σ ω τ
  mutations : MutationAccumulator
  cache : RangeDataCache τ

/-- A consumer which has fetched nothing. -/
def Consumer.start (usage : Usage ω τ) : Consumer σ ω τ :=
  ⟨.empty usage, .new, .empty⟩

/-- A mutation of the store, with what the backend answers afterwards; an observation of the
latest log; or a cycle for the wanted ids and the range layout. -/
inductive Action (σ ω τ : Type) where
  | replaceAll (list : List (String × σ)) (usage : Usage ω τ)
  | upsertMany (list : List (String × σ)) (usage : Usage ω τ)
  | applyMutations (list : List (String × σ)) (removals : List String) (usage : Usage ω τ)
  | remove (id : String) (usage : Usage ω τ)
  | observe
  | cycle (rangesKey : String) (ids : List String)
  | invalidate

/-- The totals of the sessions outside the lists did not change. -/
def Unchanged (usage usage' : Usage ω τ) (ids : List String) : Prop :=
  ∀ window id, id ∉ ids → usage' window id = usage window id

namespace Consumer

/-- A cycle: drain, plan, fetch what the plan asks for and apply it. Follows `App.svelte:145–176`,
for a fetch during which the store stays the same. -/
def cycle (windows : String → List ω) (c : Consumer σ ω τ) (rangesKey : String)
    (ids : List String) : Option (Consumer σ ω τ) :=
  let drained := c.mutations.drain
  let c := { c with mutations := drained.2 }
  match c.cache.plan rangesKey ids drained.1 with
  | .full =>
      let fetched := fetchRanges c.store.usage (windows rangesKey) ids
      some { c with cache := .applyFull rangesKey ids fetched }
  | .delta fetchIds =>
      let fetched := fetchRanges c.store.usage (windows rangesKey) fetchIds
      (c.cache.applyDelta fetchIds drained.1.removedIds (some fetched)).map fun cache ↦
        { c with cache }
  | .none => some c

/-- One step. -/
def step (windows : String → List ω) (c : Consumer σ ω τ) : Action σ ω τ → Option (Consumer σ ω τ)
  | .replaceAll list usage => some { c with store := { c.store.replaceAll list with usage } }
  | .upsertMany list usage => some { c with store := { c.store.upsertMany list with usage } }
  | .applyMutations list removals usage =>
      some { c with store := { c.store.applyMutations list removals with usage } }
  | .remove id usage => some { c with store := { c.store.remove id with usage } }
  | .observe => some { c with mutations := c.mutations.observe c.store.mutationLog }
  | .cycle rangesKey ids => c.cycle windows rangesKey ids
  | .invalidate => some { c with cache := .empty }

/-- What the backend promises and the consumer keeps: the totals of a session change only with the
session, and no id whose removal is pending is wanted. -/
def IsAdmitted (c : Consumer σ ω τ) : Action σ ω τ → Prop
  | .replaceAll _ _ | .observe | .invalidate => True
  | .upsertMany list usage => Unchanged c.store.usage usage (list.map Prod.fst)
  | .applyMutations list removals usage =>
      Unchanged c.store.usage usage (list.map Prod.fst ++ removals)
  | .remove id usage => Unchanged c.store.usage usage [id]
  | .cycle _ ids => ∀ id ∈ ids, id ∉ c.mutations.removed

/-- The latest log was observed. -/
def HasObserved (c : Consumer σ ω τ) : Prop :=
  c.mutations.lastGeneration = c.store.mutationLog.generation

instance (c : Consumer σ ω τ) : Decidable c.HasObserved :=
  inferInstanceAs (Decidable (_ = _))

end Consumer

/-! ### Maps of totals -/

@[simp]
theorem getElem?_windowTotals (totals : String → Option τ) (ids : List String) (id : String) :
    (windowTotals totals ids)[id]? = if id ∈ ids then totals id else none := by
  have hfold : ∀ m : ExtTreeMap String τ, (ids.foldl (fun results id ↦
      match totals id with
      | some total => results.insert id total
      | none => results) m)[id]? = if id ∈ ids then (totals id).or m[id]? else m[id]? := by
    induction ids with
    | nil => simp
    | cons first ids ih =>
      intro m
      rw [List.foldl_cons, ih]
      cases htotals : totals first with
      | none =>
        by_cases hid : id = first
        · simp [hid, htotals]
        · simp [hid]
      | some total =>
        by_cases hid : id = first
        · simp [hid, htotals]
        · have hne : ¬ first = id := fun h ↦ hid h.symm
          simp [hid, ExtTreeMap.getElem?_insert, hne]
  rw [windowTotals, hfold]
  simp

theorem getElem?_foldl_mergeId (totals : String → Option τ) (all fetchIds : List String)
    (previous : ExtTreeMap String τ) (hsub : ∀ id ∈ fetchIds, id ∈ all) (id : String) :
    (fetchIds.foldl (RangeDataCache.mergeId (some (windowTotals totals all))) previous)[id]? =
      if id ∈ fetchIds then totals id else previous[id]? := by
  induction fetchIds generalizing previous with
  | nil => simp
  | cons first fetchIds ih =>
    rw [List.foldl_cons, ih _ fun id hid ↦ hsub id (List.mem_cons_of_mem _ hid)]
    have hfirst := hsub first List.mem_cons_self
    have hmerge : (RangeDataCache.mergeId (some (windowTotals totals all)) previous first)[id]? =
        if id = first then totals first else previous[id]? := by
      simp only [RangeDataCache.mergeId, Option.bind_some, getElem?_windowTotals, hfirst, if_true]
      cases htotals : totals first with
      | none =>
        simp only [ExtTreeMap.getElem?_erase, Std.compare_eq_iff_eq, eq_comm (a := first)]
      | some total =>
        simp only [ExtTreeMap.getElem?_insert, Std.compare_eq_iff_eq, eq_comm (a := first)]
    rw [hmerge]
    by_cases hid : id = first
    · simp [hid]
    · simp [hid]

theorem getElem?_foldl_erase (removedIds : List String) (previous : ExtTreeMap String τ)
    (id : String) : (removedIds.foldl (·.erase ·) previous)[id]? =
      if id ∈ removedIds then none else previous[id]? := by
  induction removedIds generalizing previous with
  | nil => simp
  | cons first removedIds ih =>
    rw [List.foldl_cons, ih]
    by_cases hid : id = first
    · simp [hid]
    · have hne : ¬ first = id := fun h ↦ hid h.symm
      simp [hid, ExtTreeMap.getElem?_erase, hne]

/-- One range after a delta whose fetch answered for the current store. -/
theorem getElem?_mergeRange (totals : String → Option τ) (fetchIds removedIds : List String)
    (previous : ExtTreeMap String τ) (id : String) :
    (RangeDataCache.mergeRange fetchIds removedIds previous
      (some (windowTotals totals fetchIds)))[id]? =
      if id ∈ removedIds then none
      else if id ∈ fetchIds then totals id else previous[id]? := by
  rw [RangeDataCache.mergeRange, getElem?_foldl_erase,
    getElem?_foldl_mergeId totals fetchIds fetchIds previous fun _ h ↦ h]

/-! ### What the cache knows -/

/-- The map of a window has the totals of the known sessions, apart from the dirty ones. -/
def Agrees (totals : String → Option τ) (known : List String) (dirty : String → Prop)
    (results : ExtTreeMap String τ) : Prop :=
  ∀ id, (id ∉ known → results[id]? = none) ∧
    (id ∈ known → ¬ dirty id → results[id]? = totals id)

/-- Fetched totals agree, whatever is dirty. -/
theorem agrees_windowTotals (totals : String → Option τ) {ids known : List String}
    (hknown : ∀ id, id ∈ known ↔ id ∈ ids) (dirty : String → Prop) :
    Agrees totals known dirty (windowTotals totals ids) := by
  intro id
  rw [getElem?_windowTotals, hknown]
  refine ⟨fun hnot ↦ if_neg hnot, fun hmem _ ↦ if_pos hmem⟩

/-- Totals which agree everywhere are those of a fetch. -/
theorem Agrees.eq_windowTotals {totals : String → Option τ} {known ids : List String}
    {dirty : String → Prop} {results : ExtTreeMap String τ} (h : Agrees totals known dirty results)
    (hclean : ∀ id, ¬ dirty id) (hknown : ∀ id, id ∈ known ↔ id ∈ ids) :
    results = windowTotals totals ids := by
  apply ExtTreeMap.ext_getElem?
  intro id
  rw [getElem?_windowTotals]
  by_cases hid : id ∈ ids
  · rw [if_pos hid]
    exact (h id).2 ((hknown id).mpr hid) (hclean id)
  · rw [if_neg hid]
    exact (h id).1 fun hmem ↦ hid ((hknown id).mp hmem)

/-- A delta makes the fetched ids agree, and forgets the removed ones. -/
theorem Agrees.mergeRange {totals : String → Option τ} {known : List String}
    {dirty dirty' : String → Prop} {results : ExtTreeMap String τ}
    {fetchIds removedIds : List String}
    (h : Agrees totals known dirty results)
    (hdirty : ∀ id, dirty id → id ∈ known → id ∈ fetchIds ∨ id ∈ removedIds ∨ dirty' id) :
    Agrees totals (OrderedSet.deleteAll (OrderedSet.addAll known fetchIds) removedIds) dirty'
      (RangeDataCache.mergeRange fetchIds removedIds results
        (some (windowTotals totals fetchIds))) := by
  intro id
  rw [getElem?_mergeRange, OrderedSet.mem_deleteAll, OrderedSet.mem_addAll]
  refine ⟨fun hnot ↦ ?_, fun hmem hclean ↦ ?_⟩
  · split
    · rfl
    · rename_i hkept
      have hout : id ∉ known ∧ id ∉ fetchIds := by
        refine ⟨fun hknown ↦ hnot ⟨.inl hknown, hkept⟩, fun hfetch ↦ hnot ⟨.inr hfetch, hkept⟩⟩
      rw [if_neg hout.2]
      exact (h id).1 hout.1
  · rw [if_neg hmem.2]
    split
    · rfl
    · rename_i hfetch
      have hknown := hmem.1.resolve_right hfetch
      refine (h id).2 hknown fun hd ↦ ?_
      rcases hdirty id hd hknown with hin | hin | hin
      · exact hfetch hin
      · exact hmem.2 hin
      · exact hclean hin

/-! ### What a consumer knows -/

namespace Consumer

variable {windows : String → List ω} {c d : Consumer σ ω τ}

/-- The next plan, or the one after the latest log is observed, fetches everything. -/
def IsUnknown (c : Consumer σ ω τ) : Prop :=
  c.mutations.replaced = true ∨ (¬ c.HasObserved ∧ c.store.mutationLog.replaced = true)

/-- A change of the session is pending, in the accumulator or in the latest log. -/
def IsDirty (c : Consumer σ ω τ) (id : String) : Prop :=
  id ∈ c.mutations.changed ∨ id ∈ c.mutations.removed ∨
    (¬ c.HasObserved ∧ (id ∈ c.store.mutationLog.changed ∨ id ∈ c.store.mutationLog.removed))

/-- Every known session which is not dirty has its totals, in every window. -/
def IsCurrent (windows : String → List ω) (c : Consumer σ ω τ) (dirty : String → Prop) : Prop :=
  ∀ key results, c.cache.rangesKey = some key → c.cache.results = some results →
    List.Forall₂ (fun window map ↦ Agrees (c.store.usage window) c.cache.known dirty map)
      (windows key) results

/-- No log is ahead of the store, and the cache is current unless the history is unknown. -/
structure Coherent (windows : String → List ω) (c : Consumer σ ω τ) : Prop where
  behind : c.mutations.lastGeneration ≤ c.store.generation
  latest : c.store.mutationLog.generation = c.store.generation
  current : ¬ c.IsUnknown → c.IsCurrent windows c.IsDirty

theorem coherent_start (usage : Usage ω τ) : (start usage : Consumer σ ω τ).Coherent windows :=
  ⟨Int.negSucc_le_zero 0, rfl, fun h ↦ absurd (.inl rfl) h⟩

/-- A step does not write a log over one which was not observed, unless the next plan fetches
everything. -/
def IsClean (c : Consumer σ ω τ) : Action σ ω τ → Prop
  | .upsertMany list _ => list ≠ [] → c.HasObserved ∨ c.mutations.replaced = true
  | .applyMutations list removals _ =>
      (list ≠ [] ∨ removals ≠ []) → c.HasObserved ∨ c.mutations.replaced = true
  | .remove _ _ => c.HasObserved ∨ c.mutations.replaced = true
  | _ => True

/-- A mutation of some sessions, with its log. -/
theorem Coherent.mutate (h : c.Coherent windows) {changed removed : List String}
    (hmutations : d.mutations = c.mutations) (hcache : d.cache = c.cache)
    (hlog : d.store.mutationLog = ⟨c.store.generation + 1, changed, removed, false⟩)
    (hgeneration : d.store.generation = c.store.generation + 1)
    (husage : Unchanged c.store.usage d.store.usage (changed ++ removed))
    (hclean : c.HasObserved ∨ c.mutations.replaced = true) : d.Coherent windows := by
  have hunobserved : ¬ d.HasObserved := by
    have := h.behind
    unfold HasObserved
    rw [hmutations, hlog]
    push_cast
    omega
  refine ⟨?_, ?_, fun hknown ↦ ?_⟩
  · have := h.behind
    rw [hmutations, hgeneration]
    push_cast
    omega
  · rw [hlog, hgeneration]
  · have hreplaced : c.mutations.replaced ≠ true := by
      intro hreplaced
      exact hknown (.inl (hmutations ▸ hreplaced))
    have hobserved := hclean.resolve_right hreplaced
    have hcurrent := h.current fun hunknown ↦ by
      rcases hunknown with hunknown | ⟨hnot, -⟩
      · exact hreplaced hunknown
      · exact hnot hobserved
    intro key results hkey hresults
    rw [hcache] at hkey hresults ⊢
    refine (hcurrent key results hkey hresults).imp fun {window map} hagrees id ↦ ?_
    refine ⟨(hagrees id).1, fun hmem hclean ↦ ?_⟩
    have hout : id ∉ changed ++ removed := by
      intro hin
      refine hclean (.inr (.inr ⟨hunobserved, ?_⟩))
      rw [hlog]
      exact List.mem_append.mp hin
    rw [husage window id hout]
    refine (hagrees id).2 hmem fun hdirty ↦ hclean ?_
    unfold IsDirty at hdirty ⊢
    rw [hmutations]
    rcases hdirty with hin | hin | ⟨hnot, -⟩
    · exact .inl hin
    · exact .inr (.inl hin)
    · exact absurd hobserved hnot

/-- A mutation which logs nothing changes nothing. -/
theorem Coherent.rewrite (h : c.Coherent windows) {usage : Usage ω τ}
    (husage : Unchanged c.store.usage usage []) :
    { c with store := { c.store with usage } }.Coherent windows := by
  have hsame : usage = c.store.usage := by
    funext window id
    exact husage window id (List.not_mem_nil)
  subst hsame
  exact h

/-- An observation moves the latest log into the accumulator. -/
theorem Coherent.observe (h : c.Coherent windows) :
    { c with mutations := c.mutations.observe c.store.mutationLog }.Coherent windows := by
  by_cases hobserved : c.HasObserved
  · have hsame : c.mutations.observe c.store.mutationLog = c.mutations := if_pos hobserved.symm
    rw [hsame]
    exact h
  have hne : ¬ (c.store.mutationLog.generation : Int) = c.mutations.lastGeneration :=
    fun heq ↦ hobserved heq.symm
  have hlatest := h.latest
  by_cases hreplaced : c.store.mutationLog.replaced = true
  · have heq : c.mutations.observe c.store.mutationLog =
        ⟨c.store.mutationLog.generation, [], [], true⟩ := by
      simp only [MutationAccumulator.observe, hne, hreplaced, if_false, if_true]
    rw [heq]
    refine ⟨?_, hlatest, fun hknown ↦ absurd (.inl rfl) hknown⟩
    exact Int.le_of_eq (congrArg Int.ofNat hlatest)
  · have heq : c.mutations.observe c.store.mutationLog =
        ⟨c.store.mutationLog.generation,
          OrderedSet.deleteAll (OrderedSet.addAll c.mutations.changed c.store.mutationLog.changed)
            c.store.mutationLog.removed,
          OrderedSet.addAll (OrderedSet.deleteAll c.mutations.removed c.store.mutationLog.changed)
            c.store.mutationLog.removed,
          c.mutations.replaced⟩ := by
      simp only [MutationAccumulator.observe, hne, if_false, Bool.not_eq_true] at hreplaced ⊢
      rw [if_neg (by simp [hreplaced])]
    rw [heq]
    refine ⟨?_, hlatest, fun hknown ↦ ?_⟩
    · exact Int.le_of_eq (congrArg Int.ofNat hlatest)
    · have hcurrent := h.current fun hunknown ↦ by
        rcases hunknown with hunknown | ⟨-, hunknown⟩
        · exact hknown (.inl hunknown)
        · exact hreplaced hunknown
      intro key results hkey hresults
      refine (hcurrent key results hkey hresults).imp fun {window map} hagrees id ↦ ?_
      refine ⟨(hagrees id).1, fun hmem hclean ↦ (hagrees id).2 hmem fun hdirty ↦ hclean ?_⟩
      simp only [IsDirty, OrderedSet.mem_deleteAll, OrderedSet.mem_addAll] at hdirty ⊢
      by_cases hlogged : id ∈ c.store.mutationLog.removed
      · exact .inr (.inl (.inr hlogged))
      by_cases hchanged : id ∈ c.store.mutationLog.changed
      · exact .inl ⟨.inr hchanged, hlogged⟩
      rcases hdirty with hin | hin | ⟨-, hin | hin⟩
      · exact .inl ⟨.inl hin, hlogged⟩
      · exact .inr (.inl (.inl ⟨hin, hchanged⟩))
      · exact absurd hin hchanged
      · exact absurd hin hlogged

/-- A full fetch is current, whatever is dirty. -/
theorem isCurrent_applyFull {rangesKey : String} {ids : List String} (dirty : String → Prop)
    (hkey : d.cache = .applyFull rangesKey ids
      (fetchRanges d.store.usage (windows rangesKey) ids)) : d.IsCurrent windows dirty := by
  intro key results hsome hresults
  rw [hkey] at hsome hresults ⊢
  obtain rfl := Option.some.inj hsome
  obtain rfl := Option.some.inj hresults
  rw [fetchRanges, List.forall₂_map_right_iff, List.forall₂_same]
  intro window _
  exact agrees_windowTotals _ (fun id ↦ OrderedSet.mem_ofList) dirty

/-- A plan which does not fetch everything: the history is known, the layout is the same, nothing
known is out of scope, and a changed or uncovered session is fetched. -/
theorem plan_cases (cache : RangeDataCache τ) (rangesKey : String) (ids : List String)
    (drained : MutationAccumulator.Drained) :
    cache.plan rangesKey ids drained = .full ∨
    ∃ results changedIds, cache.results = some results ∧ drained.changedIds = some changedIds ∧
      cache.rangesKey = some rangesKey ∧
      (∀ id ∈ cache.known, id ∈ ids ∨ id ∈ drained.removedIds) ∧
      (cache.plan rangesKey ids drained =
          .delta (cache.fetchIds ids changedIds drained.removedIds) ∨
        cache.plan rangesKey ids drained = .none ∧ drained.removedIds = [] ∧
          cache.fetchIds ids changedIds drained.removedIds = []) := by
  unfold RangeDataCache.plan
  split
  · rename_i results changedIds hresults hchanged
    by_cases hfull : (cache.rangesKey ≠ some rangesKey ||
        cache.known.any (fun id ↦ !ids.contains id && !drained.removedIds.contains id)) = true
    · left
      rw [if_pos hfull]
    · right
      rw [if_neg hfull]
      simp only [ne_eq, decide_not, Bool.or_eq_true, Bool.not_eq_true', decide_eq_false_iff_not,
        List.any_eq_true, Bool.and_eq_true, not_or, not_not, not_exists, not_and,
        List.contains_eq_mem, decide_eq_false_iff_not] at hfull
      refine ⟨results, changedIds, hresults, hchanged, hfull.1, fun id hid ↦ ?_, ?_⟩
      · by_cases hin : id ∈ ids
        · exact .inl hin
        · exact .inr (hfull.2 id hid hin)
      · by_cases hnone : ((cache.fetchIds ids changedIds drained.removedIds).isEmpty &&
            drained.removedIds.isEmpty) = true
        · rw [Bool.and_eq_true, List.isEmpty_iff, List.isEmpty_iff] at hnone
          exact .inr ⟨by rw [hnone.1, hnone.2]; rfl, hnone.2, hnone.1⟩
        · simp only [hnone]
          exact .inl rfl
  · exact .inl rfl

/-- What a delta fetches. -/
theorem mem_fetchIds {cache : RangeDataCache τ} {ids changedIds removedIds : List String}
    {id : String} : id ∈ cache.fetchIds ids changedIds removedIds ↔
      (id ∈ changedIds ∧ id ∈ cache.known ∨ id ∈ ids ∧ id ∉ cache.known) ∧ id ∉ removedIds := by
  simp [RangeDataCache.fetchIds]

/-- The cache after a delta. -/
def deltaCache (c : Consumer σ ω τ) (windows : String → List ω) (rangesKey : String)
    (results : List (ExtTreeMap String τ)) (fetchIds removedIds : List String) :
    RangeDataCache τ :=
  { c.cache with
    known := OrderedSet.deleteAll (OrderedSet.addAll c.cache.known fetchIds) removedIds
    results := some (results.mapIdx fun rangeIndex previous ↦
      RangeDataCache.mergeRange fetchIds removedIds previous
        (fetchRanges c.store.usage (windows rangesKey) fetchIds)[rangeIndex]?) }

/-- A cycle fetches everything, or the sessions which changed or are not covered. -/
theorem cycle_cases {rangesKey : String} {ids : List String}
    (h : c.cycle windows rangesKey ids = some d) :
    d.store = c.store ∧ d.mutations = ⟨c.mutations.lastGeneration, [], [], false⟩ ∧
    (d.cache = .applyFull rangesKey ids (fetchRanges c.store.usage (windows rangesKey) ids) ∨
      ∃ results, c.cache.results = some results ∧ c.cache.rangesKey = some rangesKey ∧
        c.mutations.replaced = false ∧
        (∀ id ∈ c.cache.known, id ∈ ids ∨ id ∈ c.mutations.removed) ∧
        d.cache = c.deltaCache windows rangesKey results
          (c.cache.fetchIds ids c.mutations.changed c.mutations.removed) c.mutations.removed) := by
  unfold cycle at h
  rcases plan_cases c.cache rangesKey ids c.mutations.drain.1 with
    hplan | ⟨results, changedIds, hresults, hchanged, hkey, hscope, hplan⟩
  · simp only [hplan] at h
    cases h
    exact ⟨rfl, rfl, .inl rfl⟩
  · have hreplaced : c.mutations.replaced = false := by
      by_contra hreplaced
      rw [Bool.not_eq_false] at hreplaced
      simp [MutationAccumulator.drain, hreplaced] at hchanged
    have hids : changedIds = c.mutations.changed := by
      simp only [MutationAccumulator.drain, hreplaced, Bool.false_eq_true, if_false,
        Option.some.injEq] at hchanged
      exact hchanged.symm
    subst hids
    rcases hplan with hplan | ⟨hplan, hremoved, hfetch⟩
    · simp only [hplan, RangeDataCache.applyDelta, hresults, Option.map_some] at h
      cases h
      exact ⟨rfl, rfl, .inr ⟨results, hresults, hkey, hreplaced, hscope, rfl⟩⟩
    · simp only [hplan] at h
      cases h
      refine ⟨rfl, rfl, .inr ⟨results, hresults, hkey, hreplaced, hscope, ?_⟩⟩
      have hremoved' : c.mutations.removed = [] := hremoved
      have hfetch' : c.cache.fetchIds ids c.mutations.changed c.mutations.removed = [] := hfetch
      rw [hfetch', hremoved']
      have hsame : (results.mapIdx fun rangeIndex previous ↦
          RangeDataCache.mergeRange [] [] previous
            (fetchRanges c.store.usage (windows rangesKey) [])[rangeIndex]?) = results := by
        apply List.ext_getElem?
        intro n
        simp [RangeDataCache.mergeRange]
      simp only [deltaCache, hsame, OrderedSet.addAll, OrderedSet.deleteAll, List.foldl_nil,
        ← hresults]

/-- After a cycle every known session agrees, apart from what was dirty and not drained. -/
theorem Coherent.isCurrent_cycle (h : c.Coherent windows) {rangesKey : String} {ids : List String}
    (hcycle : c.cycle windows rangesKey ids = some d)
    (hunobserved : ¬ c.HasObserved → c.store.mutationLog.replaced = false) :
    d.IsCurrent windows d.IsDirty := by
  obtain ⟨hstore, hmutations, hcache | ⟨results, hresults, hkey, hreplaced, -, hcache⟩⟩ :=
    cycle_cases hcycle
  · exact isCurrent_applyFull _ (hstore ▸ hcache)
  · have hcurrent := h.current fun hunknown ↦ by
      rcases hunknown with hunknown | ⟨hnot, hunknown⟩
      · exact absurd (hreplaced.symm.trans hunknown) (fun h ↦ nomatch h)
      · exact absurd ((hunobserved hnot).symm.trans hunknown) (fun h ↦ nomatch h)
    intro key results' hsome hresults'
    rw [hcache] at hsome hresults' ⊢
    rw [hstore]
    obtain rfl := Option.some.inj (hkey.symm.trans hsome)
    obtain rfl := Option.some.inj hresults'
    have hagrees := hcurrent rangesKey results hkey hresults
    rw [List.forall₂_iff_get] at hagrees ⊢
    refine ⟨hagrees.1.trans (List.length_mapIdx).symm, fun n hwindow hmap ↦ ?_⟩
    have hn : n < results.length := by simpa using hmap
    have hfetched : (fetchRanges c.store.usage (windows rangesKey)
        (c.cache.fetchIds ids c.mutations.changed c.mutations.removed))[n]? =
        some (windowTotals (c.store.usage ((windows rangesKey).get ⟨n, hwindow⟩))
          (c.cache.fetchIds ids c.mutations.changed c.mutations.removed)) := by
      simp [fetchRanges, hwindow]
    simp only [List.get_eq_getElem, List.getElem_mapIdx] at hfetched ⊢
    rw [hfetched]
    refine (hagrees.2 n hwindow hn).mergeRange fun id hdirty hknown ↦ ?_
    rw [mem_fetchIds]
    by_cases hremoved : id ∈ c.mutations.removed
    · exact .inr (.inl hremoved)
    rcases hdirty with hchanged | hin | ⟨hnot, hlogged⟩
    · exact .inl ⟨.inl ⟨hchanged, hknown⟩, hremoved⟩
    · exact absurd hin hremoved
    · refine .inr (.inr (.inr (.inr ⟨fun hobserved ↦ hnot ?_, ?_⟩)))
      · unfold HasObserved at hobserved ⊢
        rwa [hmutations, hstore] at hobserved
      · rwa [hstore]

/-- A cycle never applies a delta to an empty cache. -/
theorem cycle_isSome (windows : String → List ω) (c : Consumer σ ω τ) (rangesKey : String)
    (ids : List String) :
    ∃ d, c.cycle windows rangesKey ids = some d := by
  unfold cycle
  rcases plan_cases c.cache rangesKey ids c.mutations.drain.1 with
    hplan | ⟨results, changedIds, hresults, -, -, -, hplan | ⟨hplan, -, -⟩⟩
  · exact ⟨_, by simp only [hplan]; rfl⟩
  · exact ⟨_, by simp only [hplan, RangeDataCache.applyDelta, hresults, Option.map_some]; rfl⟩
  · exact ⟨_, by simp only [hplan]; rfl⟩

/-- After a cycle whose latest log was observed nothing is dirty. -/
theorem not_isDirty_cycle (hobserved : c.HasObserved) {rangesKey : String} {ids : List String}
    (hcycle : c.cycle windows rangesKey ids = some d) (id : String) : ¬ d.IsDirty id := by
  obtain ⟨hstore, hmutations, -⟩ := cycle_cases hcycle
  unfold IsDirty HasObserved
  rw [hmutations, hstore]
  rintro (h | h | ⟨h, -⟩)
  · cases h
  · cases h
  · exact h hobserved

/-- A cycle covers exactly the wanted sessions. -/
theorem known_cycle {rangesKey : String} {ids : List String}
    (hwanted : ∀ id ∈ ids, id ∉ c.mutations.removed)
    (hcycle : c.cycle windows rangesKey ids = some d) (id : String) :
    id ∈ d.cache.known ↔ id ∈ ids := by
  obtain ⟨-, -, hcache | ⟨results, -, -, -, hscope, hcache⟩⟩ := cycle_cases hcycle
  · rw [hcache]
    exact OrderedSet.mem_ofList
  · rw [hcache, deltaCache, OrderedSet.mem_deleteAll, OrderedSet.mem_addAll, mem_fetchIds]
    constructor
    · rintro ⟨hknown | ⟨⟨-, hknown⟩ | ⟨hin, -⟩, -⟩, hkept⟩
      · exact (hscope id hknown).resolve_right hkept
      · exact (hscope id hknown).resolve_right hkept
      · exact hin
    · intro hin
      by_cases hknown : id ∈ c.cache.known
      · exact ⟨.inl hknown, hwanted id hin⟩
      · exact ⟨.inr ⟨.inr ⟨hin, hknown⟩, hwanted id hin⟩, hwanted id hin⟩

/-- A cycle keeps the cache coherent. -/
theorem Coherent.cycle (h : c.Coherent windows) {rangesKey : String} {ids : List String}
    (hcycle : c.cycle windows rangesKey ids = some d) : d.Coherent windows := by
  obtain ⟨hstore, hmutations, -⟩ := cycle_cases hcycle
  refine ⟨?_, ?_, fun hknown ↦ h.isCurrent_cycle hcycle fun hnot ↦ ?_⟩
  · rw [hmutations, hstore]
    exact h.behind
  · rw [hstore]
    exact h.latest
  · by_contra hreplaced
    rw [Bool.not_eq_false] at hreplaced
    refine hknown (.inr ⟨fun hobserved ↦ hnot ?_, hstore ▸ hreplaced⟩)
    unfold HasObserved at hobserved ⊢
    rwa [hmutations, hstore] at hobserved

/-- Each admitted step which overwrites no unobserved log keeps the cache coherent. -/
theorem Coherent.step (h : c.Coherent windows) {a : Action σ ω τ} (hadmitted : c.IsAdmitted a)
    (hclean : c.IsClean a) (hstep : c.step windows a = some d) : d.Coherent windows := by
  cases a with
  | replaceAll list usage =>
    obtain rfl := Option.some.inj hstep
    have hbehind := h.behind
    refine ⟨?_, rfl, fun hknown ↦ absurd (.inr ⟨?_, rfl⟩) hknown⟩
    · show c.mutations.lastGeneration ≤ ((c.store.generation + 1 : Nat) : Int)
      omega
    · show ¬ c.mutations.lastGeneration = ((c.store.generation + 1 : Nat) : Int)
      omega
  | upsertMany list usage =>
    obtain rfl := Option.some.inj hstep
    cases list with
    | nil => exact h.rewrite hadmitted
    | cons s list =>
      refine h.mutate rfl rfl rfl rfl ?_ (hclean (List.cons_ne_nil _ _))
      rw [List.append_nil]
      exact hadmitted
  | applyMutations list removals usage =>
    obtain rfl := Option.some.inj hstep
    by_cases hempty : (list.isEmpty && removals.isEmpty) = true
    · have hsame : c.store.applyMutations list removals = c.store := if_pos hempty
      rw [Bool.and_eq_true, List.isEmpty_iff, List.isEmpty_iff] at hempty
      rw [hsame]
      refine h.rewrite ?_
      have hunchanged : Unchanged c.store.usage usage (list.map Prod.fst ++ removals) := hadmitted
      rwa [hempty.1, hempty.2] at hunchanged
    · have hlogged : c.store.applyMutations list removals = _ := if_neg hempty
      refine h.mutate rfl rfl ?_ ?_ hadmitted (hclean ?_)
      · rw [hlogged]
        rfl
      · rw [hlogged]
        rfl
      · rw [Bool.and_eq_true, List.isEmpty_iff, List.isEmpty_iff, not_and_or] at hempty
        exact hempty
  | remove id usage =>
    obtain rfl := Option.some.inj hstep
    exact h.mutate rfl rfl rfl rfl hadmitted hclean
  | observe =>
    obtain rfl := Option.some.inj hstep
    exact h.observe
  | cycle rangesKey ids => exact h.cycle hstep
  | invalidate =>
    obtain rfl := Option.some.inj hstep
    exact ⟨h.behind, h.latest, fun _ _ _ hkey ↦ (nomatch hkey)⟩

/-- In a run which overwrites no unobserved log, a cycle whose latest log was observed leaves the
totals which a full fetch of the wanted sessions would answer. -/
theorem delta_refresh_exact (windows : String → List ω) {usage : Usage ω τ}
    (hrun : Transition.Reaches (step windows) (fun c a ↦ c.IsAdmitted a ∧ c.IsClean a)
      (start usage) c)
    {rangesKey : String} {ids : List String} (hadmitted : c.IsAdmitted (.cycle rangesKey ids))
    (hobserved : c.HasObserved) :
    ∃ d, c.step windows (.cycle rangesKey ids) = some d ∧
      d.cache.results = some (fetchRanges c.store.usage (windows rangesKey) ids) := by
  have hcoherent : c.Coherent windows :=
    hrun.invariant (fun _ _ _ h hok hstep ↦ h.step hok.1 hok.2 hstep) (coherent_start usage)
  obtain ⟨d, hcycle⟩ := c.cycle_isSome windows rangesKey ids
  refine ⟨d, hcycle, ?_⟩
  obtain ⟨hstore, -, hcache | ⟨results, hresults, hkey, -, -, hcache⟩⟩ := cycle_cases hcycle
  · rw [hcache]
    rfl
  · have hcurrent := hcoherent.isCurrent_cycle hcycle fun hnot ↦ absurd hobserved hnot
    have hagrees := hcurrent rangesKey _ (by rw [hcache]; exact hkey) (by rw [hcache]; rfl)
    have hequal : List.Forall₂ (fun window map ↦ windowTotals (c.store.usage window) ids = map)
        (windows rangesKey) _ :=
      hagrees.imp fun _ _ h ↦ (hstore ▸ h.eq_windowTotals (not_isDirty_cycle hobserved hcycle)
        (known_cycle hadmitted hcycle)).symm
    rw [← List.forall₂_map_left_iff, List.forall₂_eq_eq_eq] at hequal
    rw [hcache]
    exact congrArg some hequal.symm

/-! ### A log which is skipped -/

/-- The totals of two sessions. -/
def demoUsage (a b : Nat) : Usage Unit Nat :=
  fun _ id ↦ if id = "a" then some a else if id = "b" then some b else none

/-- The state after a step, or the same state. -/
def next (c : Consumer Unit Unit Nat) (a : Action Unit Unit Nat) : Consumer Unit Unit Nat :=
  (c.step (fun _ ↦ [()]) a).getD c

theorem step_next {c : Consumer Unit Unit Nat} {a : Action Unit Unit Nat}
    (h : (c.step (fun _ ↦ [()]) a).isSome = true) :
    c.step (fun _ ↦ [()]) a = some (c.next a) := by
  obtain ⟨d, hd⟩ := Option.isSome_iff_exists.mp h
  simp [next, hd]

/-- A consumer which has fetched the totals of two sessions. -/
def demoFetched : Consumer Unit Unit Nat :=
  (((start (demoUsage 0 0)).next (.replaceAll [("a", ()), ("b", ())] (demoUsage 1 1))).next
    .observe).next (.cycle "today" ["a", "b"])

theorem reaches_demoFetched (ok : Consumer Unit Unit Nat → Action Unit Unit Nat → Prop)
    (hreplace : ∀ c list usage, ok c (.replaceAll list usage)) (hobserve : ∀ c, ok c .observe)
    (hcycle : ∀ c : Consumer Unit Unit Nat, (∀ id ∈ ["a", "b"], id ∉ c.mutations.removed) →
      ok c (.cycle "today" ["a", "b"])) :
    Transition.Reaches (step fun _ ↦ [()]) ok (start (demoUsage 0 0)) demoFetched :=
  (((Transition.Reaches.refl _).tail (hreplace _ _ _) (step_next (by decide +kernel))).tail
    (hobserve _) (step_next (by decide +kernel))).tail (hcycle _ (by decide +kernel))
      (step_next (by decide +kernel))

/-- The update of one session. -/
theorem isAdmitted_upsert (c : Consumer Unit Unit Nat) (id : String) (usage : Usage Unit Nat)
    (h : ∀ other ≠ id, usage () other = c.store.usage () other) :
    c.IsAdmitted (.upsertMany [(id, ())] usage) := by
  intro _ other hother
  apply h
  simpa using hother

/-- After an update which was observed the delta answers the new totals. -/
theorem update_refreshed :
    ∃ d, ((demoFetched.next (.upsertMany [("a", ())] (demoUsage 2 1))).next .observe).step
      (fun _ ↦ [()]) (.cycle "today" ["a", "b"]) = some d ∧
      d.cache.results = some (fetchRanges (demoUsage 2 1) [()] ["a", "b"]) := by
  have hupsert : demoFetched.IsAdmitted (.upsertMany [("a", ())] (demoUsage 2 1)) := by
    apply isAdmitted_upsert
    intro other hother
    show demoUsage 2 1 () other = demoUsage 1 1 () other
    simp [demoUsage, hother]
  have hclean : demoFetched.IsClean (.upsertMany [("a", ())] (demoUsage 2 1)) :=
    fun _ ↦ .inl (by decide +kernel)
  have hrun := reaches_demoFetched (fun c a ↦ c.IsAdmitted a ∧ c.IsClean a)
    (fun _ _ _ ↦ ⟨trivial, trivial⟩) (fun _ ↦ ⟨trivial, trivial⟩) fun _ h ↦ ⟨h, trivial⟩
  have hupserted := hrun.tail ⟨hupsert, hclean⟩ (step_next (by decide +kernel))
  have hobserve : (demoFetched.next (.upsertMany [("a", ())] (demoUsage 2 1))).IsAdmitted .observe ∧
      (demoFetched.next (.upsertMany [("a", ())] (demoUsage 2 1))).IsClean .observe :=
    ⟨trivial, trivial⟩
  have hobserved := hupserted.tail hobserve (step_next (by decide +kernel))
  refine delta_refresh_exact (fun _ ↦ [()]) hobserved ?_ (by decide +kernel)
  show ∀ id ∈ ["a", "b"], id ∉ _
  decide +kernel

/-- Two updates between two observations: the delta misses the first one. -/
theorem skipped_update_stale :
    ¬ ∀ (usage : Usage Unit Nat) (c : Consumer Unit Unit Nat) (rangesKey : String)
      (ids : List String), Transition.Reaches (step fun _ ↦ [()]) IsAdmitted (start usage) c →
        c.IsAdmitted (.cycle rangesKey ids) → c.HasObserved →
          ∃ d, c.step (fun _ ↦ [()]) (.cycle rangesKey ids) = some d ∧
            d.cache.results = some (fetchRanges c.store.usage [()] ids) := by
  intro hall
  let c₁ := demoFetched.next (.upsertMany [("a", ())] (demoUsage 2 1))
  let c₂ := c₁.next (.upsertMany [("b", ())] (demoUsage 2 2))
  have hfirst : demoFetched.IsAdmitted (.upsertMany [("a", ())] (demoUsage 2 1)) := by
    apply isAdmitted_upsert
    intro other hother
    show demoUsage 2 1 () other = demoUsage 1 1 () other
    simp [demoUsage, hother]
  have hsecond : c₁.IsAdmitted (.upsertMany [("b", ())] (demoUsage 2 2)) := by
    apply isAdmitted_upsert
    intro other hother
    show demoUsage 2 2 () other = demoUsage 2 1 () other
    simp [demoUsage, hother]
  have hobserve : c₂.IsAdmitted .observe := trivial
  have hrun := reaches_demoFetched IsAdmitted (fun _ _ _ ↦ trivial) (fun _ ↦ trivial) fun _ h ↦ h
  have hrun₁ := hrun.tail hfirst (step_next (by decide +kernel))
  have hrun₂ := hrun₁.tail hsecond (step_next (by decide +kernel))
  have hrun₃ := hrun₂.tail hobserve (step_next (by decide +kernel))
  have hwanted : (c₂.next .observe).IsAdmitted (.cycle "today" ["a", "b"]) := by
    show ∀ id ∈ ["a", "b"], id ∉ (c₂.next .observe).mutations.removed
    decide +kernel
  obtain ⟨d, hstep, hresults⟩ := hall _ _ "today" ["a", "b"] hrun₃ hwanted (by decide +kernel)
  have hstale : ((c₂.next .observe).step (fun _ ↦ [()]) (.cycle "today" ["a", "b"])).map
      (fun d ↦ d.cache.results.map (·.map (·["a"]?))) = some (some [some 1]) := by
    decide +kernel
  rw [hstep, Option.map_some, hresults] at hstale
  revert hstale
  decide +kernel

end Consumer

end AgentOdometer.RangeData
