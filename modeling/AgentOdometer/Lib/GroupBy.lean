import AgentOdometer.Lib.OrderedMap
import Mathlib.Algebra.BigOperators.Group.List.Lemmas

/-!
# Grouping

A loop which updates one map entry per item, and its additive instance, the relational
`GROUP BY` with a sum. A grouping is determined by its lookups, so it does not depend on the
order of its items; groups can be regrouped by a coarser key, restricted by a predicate on
the key, or renamed, on the items or on the groups.
-/

namespace AgentOdometer.GroupBy

open Std (ExtTreeMap)
open OrderedMap

variable {α β κ κ' μ σ : Type} [Ord κ] [Std.TransOrd κ]

/-! ### Entry updates -/

/-- `*m.entry(k).or_default()`, updated by `f`. -/
def updateEntry (m : ExtTreeMap κ σ) (k : κ) (orDefault : σ) (f : σ → σ) : ExtTreeMap κ σ :=
  m.alter k fun old ↦ some (f (old.getD orDefault))

/-- The loop which updates the entry of each item that has a key. -/
def groupFold (key : α → Option κ) (orDefault : σ) (f : σ → α → σ) (m : ExtTreeMap κ σ)
    (l : List α) : ExtTreeMap κ σ :=
  l.foldl (fun m a ↦ match key a with
    | none => m
    | some k => updateEntry m k orDefault fun s ↦ f s a) m

/-- `*m.entry(k).or_default() += v` for each entry of a list. -/
def addEntries [AddCommMonoid μ] (m : ExtTreeMap κ μ) (l : List (κ × μ)) : ExtTreeMap κ μ :=
  groupFold (fun e ↦ some e.1) 0 (fun s e ↦ s + e.2) m l

/-- `SELECT key, SUM(value) … GROUP BY key`. -/
def groupSum [AddCommMonoid μ] (l : List (κ × μ)) : ExtTreeMap κ μ :=
  addEntries ∅ l

/-- The sum of the values listed under one key. -/
def sumAt [AddCommMonoid μ] [DecidableEq κ] (k : κ) (l : List (κ × μ)) : μ :=
  ((l.filter fun e ↦ e.1 = k).map Prod.snd).sum

/-- Rename or drop the key of an entry. -/
def rekey (c : κ → Option κ') (e : κ × μ) : Option (κ' × μ) :=
  (c e.1).map fun k ↦ (k, e.2)

section Lookup

variable {key : α → Option κ} {d : σ} {f : σ → α → σ}

@[simp]
theorem groupFold_nil (m : ExtTreeMap κ σ) : groupFold key d f m [] = m :=
  rfl

theorem groupFold_append (m : ExtTreeMap κ σ) (l l' : List α) :
    groupFold key d f m (l ++ l') = groupFold key d f (groupFold key d f m l) l' :=
  List.foldl_append

variable [Std.LawfulEqOrd κ] [DecidableEq κ]

theorem getElem?_updateEntry (m : ExtTreeMap κ σ) (k a : κ) (g : σ → σ) :
    (updateEntry m k d g)[a]? = if k = a then some (g (m[k]?.getD d)) else m[a]? := by
  unfold updateEntry
  rw [ExtTreeMap.getElem?_alter]
  simp only [Std.compare_eq_iff_eq]

/-- Each group folds its own items, in their order. -/
theorem getElem?_groupFold (m : ExtTreeMap κ σ) (l : List α) (k : κ) :
    (groupFold key d f m l)[k]? =
      if ∃ a ∈ l, key a = some k then
        some ((l.filter fun a ↦ key a = some k).foldl f (m[k]?.getD d))
      else m[k]? := by
  induction l generalizing m with
  | nil => simp
  | cons a l ih =>
    have hcons : groupFold key d f m (a :: l) = groupFold key d f (match key a with
      | none => m
      | some k => updateEntry m k d fun s ↦ f s a) l := rfl
    rw [hcons, ih]
    cases hkey : key a with
    | none => simp [hkey]
    | some k' =>
      by_cases hk : k' = k
      · subst hk
        simp only [getElem?_updateEntry, if_true, List.mem_cons, exists_eq_or_imp, hkey, true_or,
          Option.getD_some, decide_true, List.filter_cons_of_pos, List.foldl_cons]
        split
        · rfl
        · next hnone =>
          have hfilter : l.filter (fun a ↦ key a = some k') = [] := by
            rw [List.filter_eq_nil_iff]
            intro b hb hkb
            exact hnone ⟨b, hb, of_decide_eq_true hkb⟩
          rw [hfilter, List.foldl_nil]
      · simp [getElem?_updateEntry, hk, hkey]

end Lookup

section Sum

private theorem nodup_toList (m : ExtTreeMap κ μ) : m.toList.Nodup :=
  nodup_of_pairwise_keyLt ExtTreeMap.ordered_keys_toList

variable [AddCommMonoid μ]

theorem groupSum_append (l l' : List (κ × μ)) :
    groupSum (l ++ l') = addEntries (groupSum l) l' :=
  List.foldl_append

omit [Ord κ] [Std.TransOrd κ] in
/-- A loop which adds a value for each item computes their sum. -/
theorem foldl_add_eq_sum (val : α → μ) (l : List α) (s : μ) :
    l.foldl (fun s a ↦ s + val a) s = s + (l.map val).sum := by
  induction l generalizing s with
  | nil => simp
  | cons a l ih => rw [List.foldl_cons, ih, List.map_cons, List.sum_cons, add_assoc]

section SumAt

variable [DecidableEq κ]

omit [Ord κ] [Std.TransOrd κ]

theorem sumAt_cons (k : κ) (e : κ × μ) (l : List (κ × μ)) :
    sumAt k (e :: l) = (if e.1 = k then e.2 else 0) + sumAt k l := by
  unfold sumAt
  by_cases h : e.1 = k <;> simp [h]

theorem sumAt_eq_sum_map (k : κ) (l : List (κ × μ)) :
    sumAt k l = (l.map fun e ↦ if e.1 = k then e.2 else 0).sum := by
  induction l with
  | nil => rfl
  | cons e l ih => rw [sumAt_cons, List.map_cons, List.sum_cons, ih]

theorem sumAt_perm {l l' : List (κ × μ)} (h : l.Perm l') (k : κ) : sumAt k l = sumAt k l' :=
  ((h.filter _).map _).sum_eq

end SumAt

variable [Std.LawfulEqOrd κ] [DecidableEq κ]

theorem getElem?_addEntries (m : ExtTreeMap κ μ) (l : List (κ × μ)) (k : κ) :
    (addEntries m l)[k]? =
      if ∃ e ∈ l, e.1 = k then some (m[k]?.getD 0 + sumAt k l) else m[k]? := by
  unfold addEntries
  rw [getElem?_groupFold]
  simp only [Option.some.injEq, foldl_add_eq_sum]
  rfl

/-- A group holds the sum of its items, and exists exactly when it has one. -/
theorem getElem?_groupSum (l : List (κ × μ)) (k : κ) :
    (groupSum l)[k]? = if ∃ e ∈ l, e.1 = k then some (sumAt k l) else none := by
  unfold groupSum
  rw [getElem?_addEntries]
  simp

/-- Grouping does not depend on the order of the items. -/
theorem groupSum_perm {l l' : List (κ × μ)} (h : l.Perm l') : groupSum l = groupSum l' := by
  apply ExtTreeMap.ext_getElem?
  intro k
  rw [getElem?_groupSum, getElem?_groupSum, sumAt_perm h]
  simp only [h.mem_iff]

/-! ### Sums over groups -/

omit [AddCommMonoid μ] in
theorem toList_perm_cons_erase {m : ExtTreeMap κ μ} {k : κ} {v : μ}
    (h : m[k]? = some v) : m.toList.Perm ((k, v) :: (m.erase k).toList) := by
  have hnotin : (k, v) ∉ (m.erase k).toList := by
    rw [ExtTreeMap.mem_toList_iff_getElem?_eq_some]
    simp
  rw [List.perm_ext_iff_of_nodup (nodup_toList m)
    (List.nodup_cons.mpr ⟨hnotin, nodup_toList _⟩)]
  rintro ⟨a, w⟩
  rw [List.mem_cons, ExtTreeMap.mem_toList_iff_getElem?_eq_some,
    ExtTreeMap.mem_toList_iff_getElem?_eq_some, ExtTreeMap.getElem?_erase]
  by_cases hak : k = a
  · subst hak
    simp [h, eq_comm]
  · have hne : ¬ a = k := fun h ↦ hak h.symm
    simp [hak, hne]

omit [AddCommMonoid μ] in
theorem erase_of_getElem?_eq_none {m : ExtTreeMap κ μ} {k : κ} (h : m[k]? = none) :
    m.erase k = m := by
  apply ExtTreeMap.ext_getElem?
  intro a
  rw [ExtTreeMap.getElem?_erase]
  by_cases hka : k = a
  · subst hka
    simp [h]
  · simp [hka]

/-- The sum of a weight over the entries grows with the weight of the updated one. -/
theorem sum_map_toList_updateEntry {σ : Type} (w : κ → σ → μ) {m : ExtTreeMap κ σ} {k : κ} {d : σ}
    {f : σ → σ} (c : μ) (hzero : w k d = 0) (hadd : ∀ v, w k (f v) = w k v + c) :
    ((updateEntry m k d f).toList.map fun e ↦ w e.1 e.2).sum =
      (m.toList.map fun e ↦ w e.1 e.2).sum + c := by
  have herase : (updateEntry m k d f).erase k = m.erase k := by
    apply ExtTreeMap.ext_getElem?
    intro a
    rw [ExtTreeMap.getElem?_erase, ExtTreeMap.getElem?_erase, getElem?_updateEntry]
    by_cases hka : k = a <;> simp [hka]
  have hentry : (updateEntry m k d f)[k]? = some (f (m[k]?.getD d)) := by
    rw [getElem?_updateEntry, if_pos rfl]
  rw [((toList_perm_cons_erase hentry).map _).sum_eq, herase, List.map_cons, List.sum_cons, hadd]
  cases hold : m[k]? with
  | none =>
    rw [Option.getD_none, hzero, zero_add, erase_of_getElem?_eq_none hold, add_comm]
  | some v =>
    rw [Option.getD_some, ((toList_perm_cons_erase hold).map _).sum_eq, List.map_cons,
      List.sum_cons]
    exact add_right_comm _ _ _

private theorem erase_addEntries_self (m : ExtTreeMap κ μ) (k : κ) (v : μ) :
    (addEntries m [(k, v)]).erase k = m.erase k := by
  apply ExtTreeMap.ext_getElem?
  intro a
  rw [ExtTreeMap.getElem?_erase, ExtTreeMap.getElem?_erase, getElem?_addEntries]
  by_cases hka : k = a <;> simp [hka]

/-- The groups after one more item. -/
theorem toList_addEntries_perm (m : ExtTreeMap κ μ) (k : κ) (v : μ) :
    (addEntries m [(k, v)]).toList.Perm ((k, m[k]?.getD 0 + v) :: (m.erase k).toList) := by
  have hentry : (addEntries m [(k, v)])[k]? = some (m[k]?.getD 0 + v) := by
    rw [getElem?_addEntries]
    simp [sumAt]
  have hperm := toList_perm_cons_erase hentry
  rwa [erase_addEntries_self] at hperm

/-- Adding entries adds their values to the sum of the map. -/
theorem sum_toList_addEntries (m : ExtTreeMap κ μ) (l : List (κ × μ)) :
    ((addEntries m l).toList.map Prod.snd).sum =
      (m.toList.map Prod.snd).sum + (l.map Prod.snd).sum := by
  induction l generalizing m with
  | nil =>
    rw [List.map_nil, List.sum_nil, add_zero]
    rfl
  | cons e l ih =>
    obtain ⟨k, v⟩ := e
    have hcons : addEntries m ((k, v) :: l) = addEntries (addEntries m [(k, v)]) l := rfl
    rw [hcons, ih, List.map_cons, List.sum_cons, ← add_assoc]
    congr 1
    rw [((toList_addEntries_perm m k v).map Prod.snd).sum_eq, List.map_cons, List.sum_cons]
    cases hold : m[k]? with
    | none => rw [erase_of_getElem?_eq_none hold, Option.getD_none, zero_add, add_comm]
    | some s =>
      rw [((toList_perm_cons_erase hold).map Prod.snd).sum_eq, List.map_cons, List.sum_cons,
        Option.getD_some]
      exact add_right_comm _ _ _

variable {ν : Type} [AddCommMonoid ν]

/-- A weight which is additive in the value has the same sum over groups and over items. -/
theorem sum_map_toList_groupSum (w : κ → μ → ν) (hzero : ∀ k, w k 0 = 0)
    (hadd : ∀ k a b, w k (a + b) = w k a + w k b) (l : List (κ × μ)) :
    ((groupSum l).toList.map fun e ↦ w e.1 e.2).sum = (l.map fun e ↦ w e.1 e.2).sum := by
  induction l using List.reverseRecOn with
  | nil =>
    have hempty : (groupSum ([] : List (κ × μ))).toList = [] :=
      ExtTreeMap.toList_eq_nil_iff.mpr rfl
    rw [hempty, List.map_nil]
  | append_singleton l e ih =>
    obtain ⟨k, v⟩ := e
    rw [groupSum_append, List.map_append, List.sum_append, ← ih]
    have hnew := ((toList_addEntries_perm (groupSum l) k v).map fun e ↦ w e.1 e.2).sum_eq
    rw [hnew, List.map_cons, List.sum_cons, hadd]
    cases hold : (groupSum l)[k]? with
    | none => simp [erase_of_getElem?_eq_none hold, hzero, add_comm]
    | some s =>
      have hprev := ((toList_perm_cons_erase hold).map fun e ↦ w e.1 e.2).sum_eq
      rw [hprev, List.map_cons, List.sum_cons, Option.getD_some, List.map_singleton,
        List.sum_singleton]
      exact add_right_comm _ _ _

theorem exists_mem_toList_groupSum (p : κ → Prop) {l : List (κ × μ)} :
    (∃ e ∈ (groupSum l).toList, p e.1) ↔ ∃ e ∈ l, p e.1 := by
  constructor
  · rintro ⟨⟨k, v⟩, hmem, hp⟩
    rw [ExtTreeMap.mem_toList_iff_getElem?_eq_some, getElem?_groupSum] at hmem
    split at hmem
    · next h =>
      obtain ⟨e, he, rfl⟩ := h
      exact ⟨e, he, hp⟩
    · contradiction
  · rintro ⟨e, he, hp⟩
    refine ⟨(e.1, sumAt e.1 l), ?_, hp⟩
    rw [ExtTreeMap.mem_toList_iff_getElem?_eq_some, getElem?_groupSum, if_pos ⟨e, he, rfl⟩]

section Rekey

variable [Ord κ'] [Std.TransOrd κ'] [Std.LawfulEqOrd κ'] [DecidableEq κ']

omit [Ord κ] [Std.TransOrd κ] [Ord κ'] [Std.TransOrd κ'] [Std.LawfulEqOrd κ]
  [Std.LawfulEqOrd κ'] [DecidableEq κ] in
private theorem sumAt_filterMap_rekey (c : κ → Option κ') (l : List (κ × μ)) (k : κ') :
    sumAt k (l.filterMap (rekey c)) = (l.map fun e ↦ if c e.1 = some k then e.2 else 0).sum := by
  induction l with
  | nil => rfl
  | cons e l ih =>
    cases hc : c e.1 with
    | none => simp [rekey, hc, ← ih]
    | some k' => simp [rekey, hc, ← ih, sumAt_cons]

omit [Ord κ] [Std.TransOrd κ] [Ord κ'] [Std.TransOrd κ'] [Std.LawfulEqOrd κ]
  [Std.LawfulEqOrd κ'] [DecidableEq κ] [DecidableEq κ'] [AddCommMonoid μ] in
private theorem exists_mem_filterMap_rekey {c : κ → Option κ'} {l : List (κ × μ)} {k : κ'} :
    (∃ e ∈ l.filterMap (rekey c), e.1 = k) ↔ ∃ e ∈ l, c e.1 = some k := by
  simp only [List.mem_filterMap, rekey, Option.map_eq_some_iff]
  constructor
  · rintro ⟨_, ⟨e, he, k', hc, rfl⟩, rfl⟩
    exact ⟨e, he, hc⟩
  · rintro ⟨e, he, hc⟩
    exact ⟨(k, e.2), ⟨e, he, k, hc, rfl⟩, rfl⟩

/-- Regrouping groups by a coarser key, or dropping groups by their key, is grouping the
items so. -/
theorem groupSum_regroup (c : κ → Option κ') (l : List (κ × μ)) :
    groupSum ((groupSum l).toList.filterMap (rekey c)) = groupSum (l.filterMap (rekey c)) := by
  apply ExtTreeMap.ext_getElem?
  intro k
  let w : κ → μ → μ := fun k' v ↦ if c k' = some k then v else 0
  have hsum := sum_map_toList_groupSum w (fun k' ↦ ite_self 0)
    (fun k' a b ↦ by by_cases h : c k' = some k <;> simp [w, h]) l
  simp only [w] at hsum
  rw [getElem?_groupSum, getElem?_groupSum, sumAt_filterMap_rekey, sumAt_filterMap_rekey, hsum]
  have hmem : (∃ e ∈ (groupSum l).toList, c e.1 = some k) ↔ ∃ e ∈ l, c e.1 = some k :=
    exists_mem_toList_groupSum fun k' ↦ c k' = some k
  simp only [exists_mem_filterMap_rekey, hmem]

/-- Renaming keys injectively renames the groups and keeps their sums. -/
theorem toList_groupSum_rename {g : κ → κ'} (hg : Function.Injective g) (l : List (κ × μ)) :
    (groupSum (l.map fun e ↦ (g e.1, e.2))).toList.Perm
      ((groupSum l).toList.map fun e ↦ (g e.1, e.2)) := by
  have hinj : Function.Injective fun e : κ × μ ↦ (g e.1, e.2) := by
    rintro ⟨a, v⟩ ⟨b, w⟩ h
    simp only [Prod.mk.injEq] at h
    exact Prod.ext (hg h.1) h.2
  have hsum : ∀ k, sumAt (g k) (l.map fun e ↦ (g e.1, e.2)) = sumAt k l := by
    intro k
    simp [sumAt_eq_sum_map, Function.comp_def, hg.eq_iff]
  rw [List.perm_ext_iff_of_nodup (nodup_toList _) ((nodup_toList _).map hinj)]
  have hmem : ∀ k, (∃ e ∈ l.map (fun e ↦ (g e.1, e.2)), e.1 = g k) ↔ ∃ e ∈ l, e.1 = k := by
    intro k
    simp [hg.eq_iff]
  rintro ⟨k', v⟩
  rw [List.mem_map]
  constructor
  · intro h
    rw [ExtTreeMap.mem_toList_iff_getElem?_eq_some, getElem?_groupSum] at h
    split at h
    · next hex =>
      obtain ⟨e', he', hk'⟩ := hex
      obtain ⟨e, he, rfl⟩ := List.mem_map.mp he'
      refine ⟨(e.1, v), ?_, congrArg (·, v) hk'⟩
      rw [ExtTreeMap.mem_toList_iff_getElem?_eq_some, getElem?_groupSum, if_pos ⟨e, he, rfl⟩,
        ← hsum, ← h, ← hk']
    · contradiction
  · rintro ⟨⟨k, w⟩, h, heq⟩
    obtain ⟨rfl, rfl⟩ := Prod.mk.inj heq
    rw [ExtTreeMap.mem_toList_iff_getElem?_eq_some, getElem?_groupSum] at h ⊢
    simp only [hmem, hsum]
    exact h

end Rekey

/-! ### Loops as groupings -/

omit [Std.LawfulEqOrd κ] [DecidableEq κ] in
/-- A loop which adds a value to the entry of each item is a grouping. -/
theorem groupFold_eq_addEntries {key : α → Option κ} {f : μ → α → μ} {val : α → μ}
    (hf : ∀ s a, f s a = s + val a) (m : ExtTreeMap κ μ) (l : List α) :
    groupFold key 0 f m l =
      addEntries m (l.filterMap fun a ↦ (key a).map fun k ↦ (k, val a)) := by
  induction l generalizing m with
  | nil => rfl
  | cons a l ih =>
    rw [← List.singleton_append, groupFold_append, ih]
    cases hkey : key a with
    | none => simp [groupFold, hkey]
    | some k =>
      have hhead : groupFold key 0 f m [a] = addEntries m [(k, val a)] := by
        simp only [groupFold, addEntries, List.foldl_cons, List.foldl_nil, hkey, hf]
      rw [hhead, List.filterMap_append]
      unfold addEntries
      rw [groupFold_append]
      simp [hkey]

omit [Std.LawfulEqOrd κ] [DecidableEq κ] in
/-- The same loop when every item has a key. -/
theorem foldl_updateEntry_eq_addEntries {key : α → κ} {f : μ → α → μ} {val : α → μ}
    (hf : ∀ s a, f s a = s + val a) (m : ExtTreeMap κ μ) (l : List α) :
    l.foldl (fun m a ↦ updateEntry m (key a) 0 fun s ↦ f s a) m =
      addEntries m (l.map fun a ↦ (key a, val a)) := by
  have h : groupFold (fun a ↦ some (key a)) 0 f m l = _ := groupFold_eq_addEntries hf m l
  simp only [Option.map_some, List.filterMap_eq_map'] at h
  exact h

/-! ### Restricting groups -/

private theorem sum_map_filter (p : α → Bool) (v : α → μ) (l : List α) :
    ((l.filter p).map v).sum = (l.map fun a ↦ if p a then v a else 0).sum := by
  induction l with
  | nil => rfl
  | cons a l ih => by_cases hp : p a = true <;> simp [hp, ih]

/-- The sum over the groups whose key satisfies a predicate is the sum over their items. -/
theorem sum_filter_toList_groupSum (p : κ → Bool) (l : List (κ × μ)) :
    (((groupSum l).toList.filter fun e ↦ p e.1).map Prod.snd).sum =
      ((l.filter fun e ↦ p e.1).map Prod.snd).sum := by
  let w : κ → μ → μ := fun k v ↦ if p k then v else 0
  have hsum := sum_map_toList_groupSum w (fun k ↦ ite_self 0)
    (fun k a b ↦ by by_cases h : p k = true <;> simp [w, h]) l
  rw [sum_map_filter, sum_map_filter]
  exact hsum

/-- Regrouping the groups whose key satisfies a predicate is grouping their items. -/
theorem groupSum_filter_regroup [Ord κ'] [Std.TransOrd κ'] [Std.LawfulEqOrd κ']
    [DecidableEq κ'] (p : κ → Bool) (c : κ → Option κ') (l : List (κ × μ)) :
    groupSum (((groupSum l).toList.filter fun e ↦ p e.1).filterMap (rekey c)) =
      groupSum ((l.filter fun e ↦ p e.1).filterMap (rekey c)) := by
  have hrekey : (fun e : κ × μ ↦ if p e.1 = true then rekey c e else none) =
      rekey fun k ↦ if p k then c k else none := by
    funext e
    by_cases hp : p e.1 = true <;> simp [rekey, hp]
  rw [List.filterMap_filter, List.filterMap_filter, hrekey]
  exact groupSum_regroup _ l

/-- Whole groups of a finer grouping, extended by single items, group the items of those
groups and the single ones. -/
theorem groupSum_merge [Ord κ'] [Std.TransOrd κ'] [Std.LawfulEqOrd κ'] [DecidableEq κ']
    (p : κ → Bool) (c : κ → Option κ') (fine : α → κ × μ) (coarse : α → Option (κ' × μ))
    {whole single : List α} {singles : List (κ' × μ)}
    (hcoarse : ∀ a ∈ whole, rekey c (fine a) = coarse a)
    (hsingles : singles.Perm (single.filterMap coarse)) :
    addEntries (groupSum
        (((groupSum (whole.map fine)).toList.filter fun e ↦ p e.1).filterMap (rekey c))) singles =
      groupSum ((whole.filter (fun a ↦ p (fine a).1) ++ single).filterMap coarse) := by
  have hwhole : ((whole.map fine).filter fun e ↦ p e.1).filterMap (rekey c) =
      (whole.filter fun a ↦ p (fine a).1).filterMap coarse := by
    rw [List.filter_map, List.filterMap_map]
    apply List.filterMap_congr
    intro a ha
    exact hcoarse a (List.mem_filter.mp ha).1
  rw [groupSum_filter_regroup, hwhole, List.filterMap_append, groupSum_append]
  rw [← groupSum_append, ← groupSum_append]
  exact groupSum_perm (hsingles.append_left _)

/-- Inserting entries with distinct keys groups them. -/
theorem foldl_insert_eq_groupSum {l : List (κ × μ)} (hl : (l.map Prod.fst).Nodup) :
    l.foldl (fun m e ↦ m.insert e.1 e.2) (∅ : ExtTreeMap κ μ) = groupSum l := by
  induction l using List.reverseRecOn with
  | nil => rfl
  | append_singleton l e ih =>
    rw [List.map_append, List.map_singleton, List.nodup_append] at hl
    rw [List.foldl_append, List.foldl_cons, List.foldl_nil, ih hl.1, groupSum_append]
    apply ExtTreeMap.ext_getElem?
    intro k
    rw [ExtTreeMap.getElem?_insert, getElem?_addEntries]
    by_cases hk : e.1 = k
    · subst hk
      have hnone : ¬ ∃ e' ∈ l, e'.1 = e.1 := by
        rintro ⟨e', he', heq⟩
        exact hl.2.2 e'.1 (List.mem_map_of_mem he') e.1 (by simp) heq
      simp [getElem?_groupSum, hnone, sumAt]
    · simp [hk]

/-! ### Neutral entries -/

omit [Ord κ] [Std.TransOrd κ] [Std.LawfulEqOrd κ] [DecidableEq κ] in
private theorem eq_zero_of_sum_eq_zero (hzero : ∀ a b : μ, a + b = 0 → a = 0 ∧ b = 0)
    {l : List μ} (h : l.sum = 0) : ∀ a ∈ l, a = 0 := by
  induction l with
  | nil => simp
  | cons b l ih =>
    rw [List.sum_cons] at h
    obtain ⟨hb, hl⟩ := hzero b l.sum h
    exact List.forall_mem_cons.mpr ⟨hb, ih hl⟩

/-- Adding entries leaves a map as it is exactly when they add nothing to existing groups. -/
theorem addEntries_eq_self_iff (hcancel : ∀ a b : μ, a + b = a → b = 0)
    (hzero : ∀ a b : μ, a + b = 0 → a = 0 ∧ b = 0) (m : ExtTreeMap κ μ) (l : List (κ × μ)) :
    addEntries m l = m ↔ ∀ e ∈ l, e.2 = 0 ∧ (m[e.1]?).isSome := by
  constructor
  · intro h e he
    have hget : (addEntries m l)[e.1]? = m[e.1]? := by rw [h]
    rw [getElem?_addEntries, if_pos ⟨e, he, rfl⟩] at hget
    cases hm : m[e.1]? with
    | none => rw [hm] at hget; cases hget
    | some v =>
      rw [hm] at hget
      have hsum : sumAt e.1 l = 0 := hcancel v _ (Option.some.inj hget)
      have hmem : e.2 ∈ (l.filter fun e' ↦ e'.1 = e.1).map Prod.snd :=
        List.mem_map_of_mem (List.mem_filter.mpr ⟨he, decide_eq_true rfl⟩)
      exact ⟨eq_zero_of_sum_eq_zero hzero hsum e.2 hmem, rfl⟩
  · intro h
    apply ExtTreeMap.ext_getElem?
    intro k
    rw [getElem?_addEntries]
    split
    · next hk =>
      obtain ⟨e, he, rfl⟩ := hk
      obtain ⟨v, hv⟩ := Option.isSome_iff_exists.mp (h e he).2
      have hsum : sumAt e.1 l = 0 := by
        unfold sumAt
        apply List.sum_eq_zero
        intro a ha
        obtain ⟨e', he', rfl⟩ := List.mem_map.mp ha
        exact (h e' (List.mem_filter.mp he').1).1
      rw [hv, hsum]
      simp
    · rfl

theorem isSome_getElem?_groupSum (l : List (κ × μ)) (k : κ) :
    ((groupSum l)[k]?).isSome ↔ ∃ e ∈ l, e.1 = k := by
  rw [getElem?_groupSum]
  split
  · next h => simp [h]
  · next h => simp [h]

/-! ### Nested groupings -/

section Nested

variable [Ord κ'] [Std.TransOrd κ'] [Std.LawfulEqOrd κ'] [DecidableEq κ']

/-- `*m.entry(k).or_default().entry(k').or_default() += v` for each entry of a list. -/
def nestSum (m : ExtTreeMap κ (ExtTreeMap κ' μ)) (l : List ((κ × κ') × μ)) :
    ExtTreeMap κ (ExtTreeMap κ' μ) :=
  groupFold (fun e ↦ some e.1.1) ∅ (fun inner e ↦ updateEntry inner e.1.2 0 (· + e.2)) m l

omit [Std.LawfulEqOrd κ] [DecidableEq κ] [Std.LawfulEqOrd κ'] [DecidableEq κ'] in
/-- A loop which adds a value to a nested entry of each item is a nested grouping. -/
theorem groupFold_eq_nestSum {key : α → Option κ} {inner : α → κ'} {f : μ → α → μ}
    {val : α → μ} (hf : ∀ s a, f s a = s + val a) (m : ExtTreeMap κ (ExtTreeMap κ' μ))
    (l : List α) :
    groupFold key ∅ (fun m a ↦ updateEntry m (inner a) 0 fun s ↦ f s a) m l =
      nestSum m (l.filterMap fun a ↦ (key a).map fun k ↦ ((k, inner a), val a)) := by
  induction l generalizing m with
  | nil => rfl
  | cons a l ih =>
    rw [← List.singleton_append, groupFold_append, ih, List.filterMap_append]
    unfold nestSum
    rw [groupFold_append]
    congr 1
    cases hkey : key a with
    | none => simp [groupFold, hkey]
    | some k => simp [groupFold, hkey, hf]

omit [Std.LawfulEqOrd κ'] [DecidableEq κ'] in
/-- An inner grouping groups the entries under its outer key. -/
theorem getElem?_nestSum (l : List ((κ × κ') × μ)) (k : κ) :
    (nestSum ∅ l)[k]? = if ∃ e ∈ l, e.1.1 = k then
      some (groupSum ((l.filter fun e ↦ e.1.1 = k).map fun e ↦ (e.1.2, e.2))) else none := by
  unfold nestSum
  rw [getElem?_groupFold]
  simp only [Option.some.injEq, ExtTreeMap.getElem?_empty, Option.getD_none]
  split
  · have hadd : ∀ (s : μ) (e : (κ × κ') × μ), (fun s e ↦ s + e.2) s e = s + e.2 :=
      fun s e ↦ rfl
    exact congrArg some (foldl_updateEntry_eq_addEntries hadd ∅ _)
  · rfl

omit [Std.LawfulEqOrd κ'] [DecidableEq κ'] in
theorem getD_nestSum (l : List ((κ × κ') × μ)) (k : κ) :
    (nestSum ∅ l).getD k ∅ =
      groupSum ((l.filter fun e ↦ e.1.1 = k).map fun e ↦ (e.1.2, e.2)) := by
  rw [ExtTreeMap.getD_eq_getD_getElem?, getElem?_nestSum]
  split
  · rfl
  · next hnone =>
    have hfilter : l.filter (fun e ↦ e.1.1 = k) = [] := by
      rw [List.filter_eq_nil_iff]
      intro e he hk
      exact hnone ⟨e, he, of_decide_eq_true hk⟩
    rw [hfilter]
    rfl

/-- Inserting the groups of a composite key under their outer key nests the entries. -/
theorem groupFold_insert_groupSum (l : List ((κ × κ') × μ)) :
    groupFold (fun e : (κ × κ') × μ ↦ some e.1.1) ∅ (fun inner e ↦ inner.insert e.1.2 e.2) ∅
      (groupSum l).toList = nestSum (∅ : ExtTreeMap κ (ExtTreeMap κ' μ)) l := by
  apply ExtTreeMap.ext_getElem?
  intro k
  rw [getElem?_groupFold, getElem?_nestSum]
  have hmem : (∃ e ∈ (groupSum l).toList, e.1.1 = k) ↔ ∃ e ∈ l, e.1.1 = k :=
    exists_mem_toList_groupSum fun key : κ × κ' ↦ key.1 = k
  simp only [Option.some.injEq, hmem, ExtTreeMap.getElem?_empty, Option.getD_none]
  split
  · have hregroup := groupSum_filter_regroup (fun key : κ × κ' ↦ decide (key.1 = k))
      (fun key ↦ some key.2) l
    have hrekey : (rekey fun key : κ × κ' ↦ some key.2) =
        fun e : (κ × κ') × μ ↦ some (e.1.2, e.2) := rfl
    rw [hrekey, List.filterMap_eq_map'] at hregroup
    -- Groups under one outer key are told apart by their inner key.
    have hnodup : ((((groupSum l).toList.filter fun e ↦ e.1.1 = k).map fun e ↦
        (e.1.2, e.2)).map Prod.fst).Nodup := by
      rw [List.map_map]
      apply List.Nodup.map_on
      · rintro ⟨⟨a, b⟩, v⟩ ha ⟨⟨a', b'⟩, v'⟩ ha' heq
        rw [List.mem_filter, ExtTreeMap.mem_toList_iff_getElem?_eq_some] at ha ha'
        obtain ⟨ha, hka⟩ := ha
        obtain ⟨ha', hka'⟩ := ha'
        obtain rfl := of_decide_eq_true hka
        obtain rfl := of_decide_eq_true hka'
        obtain rfl : b = b' := heq
        dsimp only at ha ha'
        rw [ha] at ha'
        rw [Option.some.inj ha']
      · exact (nodup_toList _).filter _
    rw [← hregroup, ← foldl_insert_eq_groupSum hnodup, List.foldl_map]
  · rfl

/-- A nested grouping is determined by the flat one. -/
theorem nestSum_eq_of_groupSum_eq {l l' : List ((κ × κ') × μ)} (h : groupSum l = groupSum l') :
    nestSum (∅ : ExtTreeMap κ (ExtTreeMap κ' μ)) l = nestSum ∅ l' := by
  rw [← groupFold_insert_groupSum, h, groupFold_insert_groupSum]

/-- `groupSum_merge` for a nested grouping. -/
theorem nestSum_merge {τ : Type} [Ord τ] [Std.TransOrd τ] [Std.LawfulEqOrd τ] [DecidableEq τ]
    (p : τ → Bool) (c : τ → Option (κ × κ')) (fine : α → τ × μ)
    (coarse : α → Option ((κ × κ') × μ)) {whole single : List α} {singles : List ((κ × κ') × μ)}
    (hcoarse : ∀ a ∈ whole, rekey c (fine a) = coarse a)
    (hsingles : singles.Perm (single.filterMap coarse)) :
    nestSum (nestSum ∅
        (((groupSum (whole.map fine)).toList.filter fun e ↦ p e.1).filterMap (rekey c))) singles =
      nestSum ∅ ((whole.filter (fun a ↦ p (fine a).1) ++ single).filterMap coarse) := by
  have happend : ∀ l l' : List ((κ × κ') × μ),
      nestSum (nestSum ∅ l) l' = nestSum (∅ : ExtTreeMap κ (ExtTreeMap κ' μ)) (l ++ l') :=
    fun l l' ↦ (groupFold_append ∅ l l').symm
  rw [happend]
  apply nestSum_eq_of_groupSum_eq
  rw [groupSum_append]
  exact groupSum_merge p c fine coarse hcoarse hsingles

end Nested

end Sum

end AgentOdometer.GroupBy
