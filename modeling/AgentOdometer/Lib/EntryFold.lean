import AgentOdometer.Lib.GroupBy

/-!
# Entries made when first met

A loop which updates the entry of each item that has a key, where a missing entry is first made for
its key. Each entry folds the items of its key, and what the steps add up to over the items is what
the entries add up to.
-/

namespace AgentOdometer.EntryFold

open Std (ExtTreeMap)
open GroupBy

variable {α κ μ σ : Type} [Ord κ] [Std.TransOrd κ]

/-- The loop over the items, from the entries made before. -/
def entryFold (key : α → Option κ) (fresh : κ → σ) (f : σ → α → σ) (m : ExtTreeMap κ σ)
    (l : List α) : ExtTreeMap κ σ :=
  l.foldl (fun m a ↦ match key a with
    | none => m
    | some k => updateEntry m k (fresh k) fun s ↦ f s a) m

variable {key : α → Option κ} {fresh : κ → σ} {f : σ → α → σ} {m : ExtTreeMap κ σ}

theorem entryFold_cons_of_none {a : α} (h : key a = none) (l : List α) :
    entryFold key fresh f m (a :: l) = entryFold key fresh f m l := by
  rw [entryFold, List.foldl_cons, h]
  rfl

theorem entryFold_cons_of_some {a : α} {k : κ} (h : key a = some k) (l : List α) :
    entryFold key fresh f m (a :: l) =
      entryFold key fresh f (updateEntry m k (fresh k) fun s ↦ f s a) l := by
  rw [entryFold, List.foldl_cons, h]
  rfl

variable [Std.LawfulEqOrd κ] [DecidableEq κ]

/-- Each entry folds the items of its key, in their order. -/
theorem getElem?_entryFold (m : ExtTreeMap κ σ) (l : List α) (k : κ) :
    (entryFold key fresh f m l)[k]? =
      if ∃ a ∈ l, key a = some k then
        some ((l.filter fun a ↦ key a = some k).foldl f (m[k]?.getD (fresh k)))
      else m[k]? := by
  induction l generalizing m with
  | nil => simp [entryFold]
  | cons a l ih =>
    cases hkey : key a with
    | none =>
      rw [entryFold_cons_of_none hkey, ih]
      simp [hkey]
    | some k' =>
      rw [entryFold_cons_of_some hkey, ih]
      by_cases hk : k' = k
      · subst hk
        simp only [getElem?_updateEntry, if_true, List.mem_cons, exists_eq_or_imp, hkey, true_or,
          Option.getD_some, decide_true, List.filter_cons_of_pos, List.foldl_cons]
        split
        · rfl
        · next hnone =>
          have hfilter : l.filter (fun a ↦ key a = some k') = [] := by
            rw [List.filter_eq_nil_iff]
            intro b hb hkb
            exact hnone ⟨b, hb, of_decide_eq_true hkb⟩
          rw [hfilter, List.foldl_nil]
      · simp [getElem?_updateEntry, hk, hkey]

variable (key fresh f) in
/-- A weight which a fresh entry does not have, and to which each step adds its own, has the same
sum over the entries as over the items which have a key. -/
theorem sum_map_toList_entryFold [AddCommMonoid μ] (w : κ → σ → μ) (v : α → μ)
    (hfresh : ∀ k, w k (fresh k) = 0)
    (hstep : ∀ k s a, key a = some k → w k (f s a) = w k s + v a) (m : ExtTreeMap κ σ)
    (l : List α) :
    ((entryFold key fresh f m l).toList.map fun e ↦ w e.1 e.2).sum =
      (m.toList.map fun e ↦ w e.1 e.2).sum +
        ((l.filter fun a ↦ (key a).isSome).map v).sum := by
  induction l generalizing m with
  | nil => simp [entryFold]
  | cons a l ih =>
    cases hkey : key a with
    | none =>
      rw [entryFold_cons_of_none hkey, ih, List.filter_cons_of_neg (by simp [hkey])]
    | some k =>
      rw [entryFold_cons_of_some hkey, ih, List.filter_cons_of_pos (by simp [hkey]), List.map_cons,
        List.sum_cons, sum_map_toList_updateEntry w (v a) (hfresh k) fun s ↦ hstep k s a hkey]
      exact add_assoc _ _ _

omit [Ord κ] [Std.TransOrd κ] [Std.LawfulEqOrd κ] [DecidableEq κ] in
/-- The items with a key and those without one. -/
theorem sum_filter_isSome_add_isNone [AddCommMonoid μ] (key : α → Option κ) (v : α → μ)
    (l : List α) : ((l.filter fun a ↦ (key a).isSome).map v).sum +
      ((l.filter fun a ↦ (key a).isNone).map v).sum = (l.map v).sum := by
  induction l with
  | nil => exact zero_add _
  | cons a l ih =>
    rw [List.map_cons, List.sum_cons, ← ih]
    cases hkey : key a with
    | none => simp [hkey, add_left_comm]
    | some k => simp [hkey, add_assoc]

variable (key fresh f) in
/-- Entries made from nothing, with the items which have no key, have the weight of all items. -/
theorem sum_toList_entryFold_add_isNone [AddCommMonoid μ] (w : σ → μ) (v : α → μ)
    (hfresh : ∀ k, w (fresh k) = 0) (hstep : ∀ s a, w (f s a) = w s + v a) (l : List α) :
    ((entryFold key fresh f ∅ l).toList.map fun e ↦ w e.2).sum +
      ((l.filter fun a ↦ (key a).isNone).map v).sum = (l.map v).sum := by
  have hempty : (∅ : ExtTreeMap κ σ).toList = [] := ExtTreeMap.toList_eq_nil_iff.mpr rfl
  have hsum := sum_map_toList_entryFold key fresh f (fun _ ↦ w) v hfresh
    (fun _ s a _ ↦ hstep s a) ∅ l
  rw [hempty, List.map_nil, List.sum_nil, zero_add] at hsum
  rw [hsum, sum_filter_isSome_add_isNone]

end AgentOdometer.EntryFold
