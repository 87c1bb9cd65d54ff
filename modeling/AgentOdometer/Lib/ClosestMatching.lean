import AgentOdometer.Lib.GroupBy
import Mathlib.Data.List.Perm.Subperm

/-!
# Greedy matching to the closest item

Items are matched one by one, each to an item of the other side which has the same key and, among
those not yet used, a closest time. `Greedy` is the relation between the two sides and the pairs;
`takeClosest` is the step of an implementation which keeps the unused items in a map by time.
-/

namespace AgentOdometer.ClosestMatching

open Std (ExtTreeMap)

variable {α κ : Type} {key : α → κ} {time : α → Int}

/-! ### The matching -/

section Matching

variable [DecidableEq α] {unused observed : List α} {pairs : List (α × α)}

/-- Each item is matched to a closest unused item of its key, or skipped when there is none. -/
inductive Greedy (key : α → κ) (time : α → Int) : List α → List α → List (α × α) → Prop
  | nil (unused : List α) : Greedy key time unused [] []
  | skip {unused rest : List α} {pairs : List (α × α)} {a : α}
      (hnone : ∀ b ∈ unused, key b ≠ key a) (h : Greedy key time unused rest pairs) :
      Greedy key time unused (a :: rest) pairs
  | take {unused rest : List α} {pairs : List (α × α)} {a b : α} (hmem : b ∈ unused)
      (hkey : key b = key a)
      (hclosest : ∀ c ∈ unused, key c = key a →
        (time a - time b).natAbs ≤ (time a - time c).natAbs)
      (h : Greedy key time (unused.erase b) rest pairs) :
      Greedy key time unused (a :: rest) ((a, b) :: pairs)

namespace Greedy

/-- Pairs have equal keys. -/
theorem key_eq (h : Greedy key time unused observed pairs) :
    ∀ pair ∈ pairs, key pair.2 = key pair.1 := by
  induction h with
  | nil => exact fun _ h ↦ absurd h List.not_mem_nil
  | skip _ _ ih => exact ih
  | take _ hkey _ _ ih => exact List.forall_mem_cons.mpr ⟨hkey, ih⟩

/-- Every matched item is used once, in order. -/
theorem sublist (h : Greedy key time unused observed pairs) :
    (pairs.map Prod.fst).Sublist observed := by
  induction h with
  | nil => exact List.Sublist.refl []
  | skip _ _ ih => exact ih.cons _
  | take _ _ _ _ ih => exact ih.cons_cons _

/-- No item of the other side is used more often than it is there. -/
theorem subperm (h : Greedy key time unused observed pairs) :
    (pairs.map Prod.snd).Subperm unused := by
  induction h with
  | nil unused => exact List.nil_subperm
  | skip _ _ ih => exact ih
  | take hmem _ _ _ ih =>
    rw [List.map_cons]
    exact ((List.subperm_cons _).mpr ih).trans (List.perm_cons_erase hmem).symm.subperm

/-- The first pair is closest among all items of the other side. -/
theorem head_closest (h : Greedy key time unused observed pairs) :
    ∀ pair ∈ pairs.head?, ∀ c ∈ unused, key c = key pair.1 →
      (time pair.1 - time pair.2).natAbs ≤ (time pair.1 - time c).natAbs := by
  induction h with
  | nil => exact fun _ h ↦ nomatch h
  | skip _ _ ih => exact ih
  | take _ _ hclosest _ _ =>
    intro pair hpair
    rw [← Option.some.inj hpair]
    exact hclosest

variable [DecidableEq κ]

/-- Of each key as many items are matched as the smaller side has. -/
theorem countP_eq (h : Greedy key time unused observed pairs) (k : κ) :
    pairs.countP (fun pair ↦ key pair.1 = k) =
      min (observed.countP fun a ↦ key a = k) (unused.countP fun b ↦ key b = k) := by
  induction h with
  | nil => simp
  | @skip unused rest pairs a hnone _ ih =>
    by_cases hk : key a = k
    · have hzero : unused.countP (fun b ↦ key b = k) = 0 :=
        List.countP_eq_zero.mpr fun b hb hbk ↦
          hnone b hb ((of_decide_eq_true hbk).trans hk.symm)
      rw [ih, hzero, Nat.min_zero, Nat.min_zero]
    · rw [ih, List.countP_cons_of_neg (by simpa using hk)]
  | @take unused rest pairs a b hmem hkey _ _ ih =>
    have hsplit := (List.perm_cons_erase hmem).countP_eq fun b ↦ decide (key b = k)
    by_cases hk : key a = k
    · rw [List.countP_cons_of_pos (by simpa using hkey.trans hk)] at hsplit
      rw [List.countP_cons_of_pos (by simpa using hk), List.countP_cons_of_pos (by simpa using hk),
        ih, hsplit]
      omega
    · rw [List.countP_cons_of_neg (by simpa using fun h ↦ hk (hkey.symm.trans h))] at hsplit
      rw [List.countP_cons_of_neg (by simpa using hk), List.countP_cons_of_neg (by simpa using hk),
        ih, hsplit]

end Greedy

end Matching

/-! ### A pool by time -/

/-- The items at each time. -/
abbrev Pool (α : Type) :=
  ExtTreeMap Int (List α)

/-- `pool.entry(time).or_default().push(item)`. -/
def push (time : α → Int) (pool : Pool α) (item : α) : Pool α :=
  GroupBy.updateEntry pool (time item) [] fun items ↦ items ++ [item]

/-- The time of the pool which is closest to a target, the earlier one of two. -/
def closestTime (pool : Pool α) (target : Int) : Option Int :=
  match (pool.keys.filter fun t ↦ t ≤ target).getLast?,
      (pool.keys.filter fun t ↦ target ≤ t).head? with
  | some before, some after => some (if target - before ≤ after - target then before else after)
  | some before, none => some before
  | none, some after => some after
  | none, none => none

/-- Take the last item at the closest time. -/
def takeClosest (pool : Pool α) (target : Int) : Option α × Pool α :=
  match closestTime pool target with
  | none => (none, pool)
  | some t =>
      match pool[t]? with
      | none => (none, pool)
      | some items =>
          let rest := items.dropLast
          (items.getLast?, if rest.isEmpty then pool.erase t else pool.insert t rest)

/-- The pool holds the items, each at its time. -/
structure Holds (time : α → Int) (pool : Pool α) (items : List α) : Prop where
  at_time : ∀ t : Int, (pool[t]?.getD []).Perm (items.filter fun a ↦ time a = t)
  nonempty : ∀ t : Int, pool[t]? ≠ some []

variable {pool : Pool α} {items : List α} {target : Int}

theorem holds_empty : Holds time ∅ [] := by
  constructor <;> intro t <;> simp

theorem holds_push (h : Holds time pool items) (item : α) :
    Holds time (push time pool item) (items ++ [item]) where
  at_time t := by
    unfold push
    rw [GroupBy.getElem?_updateEntry, List.filter_append]
    by_cases ht : time item = t
    · subst ht
      rw [if_pos rfl, Option.getD_some, List.filter_cons_of_pos (by simp), List.filter_nil]
      exact (h.at_time _).append_right _
    · rw [if_neg ht, List.filter_cons_of_neg (by simpa using ht), List.filter_nil, List.append_nil]
      exact h.at_time t
  nonempty t := by
    unfold push
    rw [GroupBy.getElem?_updateEntry]
    split
    · simp
    · exact h.nonempty t

/-- The times of a pool are those of its items. -/
theorem mem_iff_exists_time (h : Holds time pool items) {t : Int} :
    t ∈ pool ↔ ∃ a ∈ items, time a = t := by
  rw [ExtTreeMap.mem_iff_isSome_getElem?]
  have hperm := h.at_time t
  cases hentry : pool[t]? with
  | none =>
    rw [hentry, Option.getD_none, List.nil_perm, List.filter_eq_nil_iff] at hperm
    simpa using hperm
  | some l =>
    rw [hentry, Option.getD_some] at hperm
    cases l with
    | nil => exact absurd hentry (h.nonempty t)
    | cons a l =>
      have hmem := hperm.mem_iff.mp List.mem_cons_self
      rw [List.mem_filter, decide_eq_true_eq] at hmem
      simp only [Option.isSome_some, true_iff]
      exact ⟨a, hmem⟩

/-! ### The closest time -/

private theorem le_getLast_of_pairwise {l : List Int} {m : Int} (hl : l.Pairwise (· < ·))
    (hm : l.getLast? = some m) : ∀ x ∈ l, x ≤ m := by
  obtain ⟨front, rfl⟩ := List.getLast?_eq_some_iff.mp hm
  intro x hx
  rcases List.mem_append.mp hx with hx | hx
  · exact Int.le_of_lt ((List.pairwise_append.mp hl).2.2 x hx m (List.mem_singleton_self m))
  · exact Int.le_of_eq (List.mem_singleton.mp hx)

private theorem head_le_of_pairwise {l : List Int} {m : Int} (hl : l.Pairwise (· < ·))
    (hm : l.head? = some m) : ∀ x ∈ l, m ≤ x := by
  obtain ⟨back, rfl⟩ := List.head?_eq_some_iff.mp hm
  intro x hx
  rcases List.mem_cons.mp hx with rfl | hx
  · exact Int.le_refl x
  · exact Int.le_of_lt ((List.pairwise_cons.mp hl).1 x hx)

private theorem pairwise_keys (pool : Pool α) : pool.keys.Pairwise (· < ·) :=
  ExtTreeMap.ordered_keys.imp fun h ↦ Std.compare_eq_lt.mp h

/-- The times at or before a target are at most the last of them. -/
theorem le_before {before : Int}
    (h : (pool.keys.filter fun t ↦ t ≤ target).getLast? = some before) :
    before ∈ pool ∧ before ≤ target ∧ ∀ t ∈ pool, t ≤ target → t ≤ before := by
  have hmem := List.mem_filter.mp (List.mem_of_getLast? h)
  refine ⟨ExtTreeMap.mem_keys.mp hmem.1, of_decide_eq_true hmem.2, fun t ht hle ↦ ?_⟩
  exact le_getLast_of_pairwise ((pairwise_keys pool).sublist List.filter_sublist) h t
    (List.mem_filter.mpr ⟨ExtTreeMap.mem_keys.mpr ht, decide_eq_true hle⟩)

/-- The times at or after a target are at least the first of them. -/
theorem after_le {after : Int} (h : (pool.keys.filter fun t ↦ target ≤ t).head? = some after) :
    after ∈ pool ∧ target ≤ after ∧ ∀ t ∈ pool, target ≤ t → after ≤ t := by
  have hmem := List.mem_filter.mp (List.mem_of_head? h)
  refine ⟨ExtTreeMap.mem_keys.mp hmem.1, of_decide_eq_true hmem.2, fun t ht hle ↦ ?_⟩
  exact head_le_of_pairwise ((pairwise_keys pool).sublist List.filter_sublist) h t
    (List.mem_filter.mpr ⟨ExtTreeMap.mem_keys.mpr ht, decide_eq_true hle⟩)

/-- Without a time at or before the target all times are after it. -/
theorem lt_of_before_eq_none (h : (pool.keys.filter fun t ↦ t ≤ target).getLast? = none) :
    ∀ t ∈ pool, target < t := by
  rw [List.getLast?_eq_none_iff, List.filter_eq_nil_iff] at h
  intro t ht
  have hnot := h t (ExtTreeMap.mem_keys.mpr ht)
  simpa using hnot

/-- Without a time at or after the target all times are before it. -/
theorem lt_of_after_eq_none (h : (pool.keys.filter fun t ↦ target ≤ t).head? = none) :
    ∀ t ∈ pool, t < target := by
  rw [List.head?_eq_none_iff, List.filter_eq_nil_iff] at h
  intro t ht
  have hnot := h t (ExtTreeMap.mem_keys.mpr ht)
  simpa using hnot

theorem closestTime_eq_some {t : Int} (h : closestTime pool target = some t) :
    t ∈ pool ∧ ∀ u ∈ pool, (target - t).natAbs ≤ (target - u).natAbs := by
  unfold closestTime at h
  cases hbefore : (pool.keys.filter fun t ↦ t ≤ target).getLast? with
  | none =>
    have hlater := lt_of_before_eq_none hbefore
    cases hafter : (pool.keys.filter fun t ↦ target ≤ t).head? with
    | none =>
      rw [hbefore, hafter] at h
      cases h
    | some after =>
      rw [hbefore, hafter] at h
      obtain rfl := Option.some.inj h
      obtain ⟨hmem, hle, hfirst⟩ := after_le hafter
      refine ⟨hmem, fun u hu ↦ ?_⟩
      have hu' := hfirst u hu (Int.le_of_lt (hlater u hu))
      omega
  | some before =>
    obtain ⟨hmem, hle, hlast⟩ := le_before hbefore
    cases hafter : (pool.keys.filter fun t ↦ target ≤ t).head? with
    | none =>
      rw [hbefore, hafter] at h
      obtain rfl := Option.some.inj h
      have hearlier := lt_of_after_eq_none hafter
      refine ⟨hmem, fun u hu ↦ ?_⟩
      have hu' := hlast u hu (Int.le_of_lt (hearlier u hu))
      omega
    | some after =>
      rw [hbefore, hafter] at h
      obtain ⟨hmem', hle', hfirst⟩ := after_le hafter
      -- every time is on one side of the target, behind the chosen one of that side
      have hsides (u : Int) (hu : u ∈ pool) : u ≤ before ∨ after ≤ u :=
        (Int.le_total u target).imp (hlast u hu) (hfirst u hu)
      have ht := Option.some.inj h
      split at ht
      · subst ht
        refine ⟨hmem, fun u hu ↦ ?_⟩
        have hu' := hsides u hu
        omega
      · subst ht
        refine ⟨hmem', fun u hu ↦ ?_⟩
        have hu' := hsides u hu
        omega

theorem closestTime_eq_none (h : closestTime pool target = none) (t : Int) : t ∉ pool := by
  unfold closestTime at h
  cases hbefore : (pool.keys.filter fun t ↦ t ≤ target).getLast? with
  | some before =>
    rw [hbefore] at h
    split at h <;> simp_all
  | none =>
    cases hafter : (pool.keys.filter fun t ↦ target ≤ t).head? with
    | some after =>
      rw [hbefore, hafter] at h
      cases h
    | none =>
      intro ht
      have hlater := lt_of_before_eq_none hbefore t ht
      have hearlier := lt_of_after_eq_none hafter t ht
      omega

/-! ### Taking an item -/

/-- Nothing is taken only from an empty pool, which is left alone. -/
theorem takeClosest_eq_none (hholds : Holds time pool items)
    (h : (takeClosest pool target).1 = none) :
    items = [] ∧ (takeClosest pool target).2 = pool := by
  have hitems (hnone : ∀ t : Int, t ∉ pool) : items = [] := by
    rw [List.eq_nil_iff_forall_not_mem]
    intro a ha
    exact hnone (time a) ((mem_iff_exists_time hholds).mpr ⟨a, ha, rfl⟩)
  unfold takeClosest at h ⊢
  cases ht : closestTime pool target with
  | none => exact ⟨hitems (closestTime_eq_none ht), rfl⟩
  | some t =>
    rw [ht] at h
    have hmem := (closestTime_eq_some ht).1
    rw [ExtTreeMap.mem_iff_isSome_getElem?] at hmem
    obtain ⟨l, hl⟩ := Option.isSome_iff_exists.mp hmem
    simp only [hl, List.getLast?_eq_none_iff] at h
    exact absurd (h ▸ hl) (hholds.nonempty t)

variable [DecidableEq α]

/-- What is taken is a closest item, and the pool holds the others. -/
theorem takeClosest_eq_some {a : α} (hholds : Holds time pool items)
    (h : (takeClosest pool target).1 = some a) :
    a ∈ items ∧ (∀ b ∈ items, (target - time a).natAbs ≤ (target - time b).natAbs) ∧
      Holds time (takeClosest pool target).2 (items.erase a) := by
  unfold takeClosest at h ⊢
  cases ht : closestTime pool target with
  | none => rw [ht] at h; cases h
  | some t =>
    obtain ⟨hmem, hclosest⟩ := closestTime_eq_some ht
    rw [ExtTreeMap.mem_iff_isSome_getElem?] at hmem
    obtain ⟨l, hl⟩ := Option.isSome_iff_exists.mp hmem
    simp only [ht, hl] at h ⊢
    obtain ⟨front, rfl⟩ := List.getLast?_eq_some_iff.mp h
    rw [List.dropLast_concat]
    have hperm := hholds.at_time t
    rw [hl, Option.getD_some] at hperm
    have hitem := hperm.mem_iff.mp (List.mem_append_right front (List.mem_singleton_self a))
    rw [List.mem_filter, decide_eq_true_eq] at hitem
    obtain ⟨ha, rfl⟩ := hitem
    refine ⟨ha, fun b hb ↦ hclosest _ ((mem_iff_exists_time hholds).mpr ⟨b, hb, rfl⟩), ?_⟩
    have hentry (u : Int) : (if front.isEmpty then pool.erase (time a)
        else pool.insert (time a) front)[u]? =
        if time a = u then (if front.isEmpty then none else some front) else pool[u]? := by
      split
      · rw [ExtTreeMap.getElem?_erase]
        simp only [Std.compare_eq_iff_eq]
      · rw [ExtTreeMap.getElem?_insert]
        simp only [Std.compare_eq_iff_eq]
    constructor
    · intro u
      rw [hentry]
      by_cases hu : time a = u
      · subst hu
        have hrest : front.Perm ((items.erase a).filter fun b ↦ time b = time a) := by
          rw [← List.erase_filter]
          refine List.Perm.trans ?_ (hperm.erase a)
          exact (List.perm_cons a).mp (List.perm_append_singleton a front |>.symm.trans
            (List.perm_cons_erase (List.mem_append_right _ (List.mem_singleton_self a))))
        rw [if_pos rfl]
        split
        · next hempty =>
          rw [List.isEmpty_iff.mp hempty] at hrest
          exact hrest
        · exact hrest
      · rw [if_neg hu, ← List.erase_filter, List.erase_of_not_mem]
        · exact hholds.at_time u
        · rw [List.mem_filter]
          exact fun hmem ↦ hu (of_decide_eq_true hmem.2)
    · intro u
      rw [hentry]
      split
      · split
        · simp
        · next hne => simpa using hne
      · exact hholds.nonempty u

end AgentOdometer.ClosestMatching
