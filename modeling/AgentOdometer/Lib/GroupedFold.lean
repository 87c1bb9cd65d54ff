import AgentOdometer.Lib.GroupBy
import Mathlib.Data.List.Perm.Basic

/-!
# Folds over grouped items

A fold whose steps commute, and whose steps under one key add up, sees only the sum of the values
of each key. It gives the same result on every list with the same groups: in any order, and with
the items of a key merged or split.
-/

namespace AgentOdometer.GroupedFold

open Std (ExtTreeMap)
open GroupBy

variable {σ κ μ : Type} [AddCommMonoid μ] {step : σ → κ × μ → σ} {Valid : μ → Prop}

/-- Steps commute, and two steps under one key are the step of the sum of their values. -/
structure Additive (step : σ → κ × μ → σ) (Valid : μ → Prop) : Prop where
  comm : ∀ s a b, step (step s a) b = step (step s b) a
  merge : ∀ s k u v, Valid u → Valid v → step (step s (k, u)) (k, v) = step s (k, u + v)
  valid : ∀ u v, Valid u → Valid v → Valid (u + v)

/-- The order of the items does not matter. -/
theorem Additive.foldl_perm (hstep : Additive step Valid) {l l' : List (κ × μ)} (h : l.Perm l')
    (s : σ) : l.foldl step s = l'.foldl step s :=
  h.foldl_eq' (fun a _ b _ s ↦ hstep.comm s a b) s

variable [Ord κ] [Std.TransOrd κ] [Std.LawfulEqOrd κ] [DecidableEq κ]

/-- The values of the groups are valid, when those of the items are. -/
theorem Additive.valid_groupSum (hstep : Additive step Valid) {l : List (κ × μ)}
    (hl : ∀ e ∈ l, Valid e.2) : ∀ e ∈ (groupSum l).toList, Valid e.2 := by
  induction l using List.reverseRecOn with
  | nil =>
    intro e he
    have hempty : (groupSum ([] : List (κ × μ))).toList = [] :=
      ExtTreeMap.toList_eq_nil_iff.mpr rfl
    rw [hempty] at he
    exact absurd he List.not_mem_nil
  | append_singleton l item ih =>
    obtain ⟨k, v⟩ := item
    have hold := ih fun e he ↦ hl e (List.mem_append_left _ he)
    have hnew : Valid v := hl (k, v) (List.mem_append_right _ (List.mem_singleton_self _))
    intro e he
    rw [groupSum_append, (toList_addEntries_perm _ k v).mem_iff] at he
    rcases List.mem_cons.mp he with rfl | he
    · cases hgroup : (groupSum l)[k]? with
      | none =>
        rw [Option.getD_none, zero_add]
        exact hnew
      | some u =>
        rw [Option.getD_some]
        exact hstep.valid u v
          (hold (k, u) (ExtTreeMap.mem_toList_iff_getElem?_eq_some.mpr hgroup)) hnew
    · rw [ExtTreeMap.mem_toList_iff_getElem?_eq_some, ExtTreeMap.getElem?_erase] at he
      split at he
      · cases he
      · exact hold e (ExtTreeMap.mem_toList_iff_getElem?_eq_some.mpr he)

/-- The fold over the items is the fold over their groups. -/
theorem Additive.foldl_groupSum (hstep : Additive step Valid) {l : List (κ × μ)}
    (hl : ∀ e ∈ l, Valid e.2) (s : σ) :
    l.foldl step s = (groupSum l).toList.foldl step s := by
  induction l using List.reverseRecOn with
  | nil =>
    have hempty : (groupSum ([] : List (κ × μ))).toList = [] :=
      ExtTreeMap.toList_eq_nil_iff.mpr rfl
    rw [hempty]
  | append_singleton l item ih =>
    obtain ⟨k, v⟩ := item
    have hitems : ∀ e ∈ l, Valid e.2 := fun e he ↦ hl e (List.mem_append_left _ he)
    have hnew : Valid v := hl (k, v) (List.mem_append_right _ (List.mem_singleton_self _))
    -- the new item is brought next to its group, where the two merge
    rw [List.foldl_append, ih hitems, groupSum_append,
      hstep.foldl_perm (toList_addEntries_perm _ k v), ← List.foldl_append,
      hstep.foldl_perm List.perm_append_comm]
    cases hgroup : (groupSum l)[k]? with
    | none =>
      rw [Option.getD_none, zero_add, List.singleton_append, List.foldl_cons, List.foldl_cons]
      rw [erase_of_getElem?_eq_none hgroup]
    | some u =>
      have hold := hstep.valid_groupSum hitems (k, u)
        (ExtTreeMap.mem_toList_iff_getElem?_eq_some.mpr hgroup)
      rw [List.singleton_append, hstep.foldl_perm ((toList_perm_cons_erase hgroup).cons (k, v)),
        List.foldl_cons, List.foldl_cons, List.foldl_cons, hstep.comm, hstep.merge s k u v hold hnew,
        Option.getD_some]

/-- Lists with the same groups have the same fold. -/
theorem Additive.foldl_eq_of_groupSum_eq (hstep : Additive step Valid) {l l' : List (κ × μ)}
    (hl : ∀ e ∈ l, Valid e.2) (hl' : ∀ e ∈ l', Valid e.2) (h : groupSum l = groupSum l') (s : σ) :
    l.foldl step s = l'.foldl step s := by
  rw [hstep.foldl_groupSum hl, hstep.foldl_groupSum hl', h]

end AgentOdometer.GroupedFold
