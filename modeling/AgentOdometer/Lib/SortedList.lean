import Mathlib.Data.List.Sort

/-!
# Sorted lists

A stable sort by a coarse order already sorts by a finer order whose ties follow the list,
and the newest end of a strictly sorted list does not notice elements missing below it.
-/

namespace AgentOdometer.SortedList

variable {α : Type} {r lt : α → α → Prop} {l : List α}

/-- Of two members of a list one comes before the other. -/
theorem pair_sublist_or {a b : α} (ha : a ∈ l) (hb : b ∈ l) (hne : a ≠ b) :
    [a, b].Sublist l ∨ [b, a].Sublist l := by
  induction l with
  | nil => contradiction
  | cons c l ih =>
    obtain rfl | ha' := List.mem_cons.mp ha
    · obtain rfl | hb' := List.mem_cons.mp hb
      · contradiction
      · exact Or.inl ((List.singleton_sublist.mpr hb').cons_cons a)
    · obtain rfl | hb' := List.mem_cons.mp hb
      · exact Or.inr ((List.singleton_sublist.mpr ha').cons_cons b)
      · exact (ih ha' hb').imp (.cons c) (.cons c)

private theorem not_pair_sublist_swap {a b : α} (hl : l.Nodup) (h : [a, b].Sublist l) :
    ¬ [b, a].Sublist l := by
  induction l with
  | nil => simp at h
  | cons c l ih =>
    rw [List.nodup_cons] at hl
    intro hswap
    cases h with
    | cons _ h =>
      cases hswap with
      | cons _ hswap => exact ih hl.2 h hswap
      | cons_cons _ hswap => exact hl.1 (h.subset (by simp))
    | cons_cons _ h =>
      cases hswap with
      | cons _ hswap => exact hl.1 (hswap.subset (by simp))
      | cons_cons _ hswap => exact hl.1 (h.subset (by simp))

/-- A stable sort by `r` is strictly sorted by a finer strict order `lt` which refines `r`
and orders `r`-ties as the list does. -/
theorem pairwise_insertionSort_of_ties [DecidableRel r] [Std.Total r] [IsTrans α r]
    (hnodup : l.Nodup) (htotal : ∀ a ∈ l, ∀ b ∈ l, a ≠ b → lt a b ∨ lt b a)
    (hrefines : ∀ a ∈ l, ∀ b ∈ l, lt a b → r a b)
    (hties : ∀ a b, [a, b].Sublist l → r a b → r b a → lt a b) :
    (l.insertionSort r).Pairwise lt := by
  have hperm := List.perm_insertionSort r l
  have hnodup' := hperm.nodup_iff.mpr hnodup
  rw [List.pairwise_iff_forall_sublist]
  intro a b hab
  have hr : r a b := List.pairwise_iff_forall_sublist.mp (List.pairwise_insertionSort r l) hab
  have ha : a ∈ l := hperm.subset (hab.subset (by simp))
  have hb : b ∈ l := hperm.subset (hab.subset (by simp))
  have hne : a ≠ b := by simpa using hnodup'.sublist hab
  obtain hlt | hgt := htotal a ha b hb hne
  · exact hlt
  -- Here `a` and `b` tie under `r`, so the sort kept the order in which the list has them.
  have hba : r b a := hrefines b hb a ha hgt
  obtain h | h := pair_sublist_or ha hb hne
  · exact hties a b h hr hba
  · exact absurd (List.pair_sublist_insertionSort hba h) (not_pair_sublist_swap hnodup' hab)

/-- A predicate closed upwards along a sorted list holds on a final segment of it. -/
theorem exists_split_of_upward {p : α → Prop} (hl : l.Pairwise lt)
    (hup : ∀ a b, lt a b → p a → p b) :
    ∃ low high, l = low ++ high ∧ (∀ a ∈ low, ¬ p a) ∧ ∀ a ∈ high, p a := by
  induction l with
  | nil => exact ⟨[], [], rfl, by simp, by simp⟩
  | cons a l ih =>
    rw [List.pairwise_cons] at hl
    by_cases ha : p a
    · refine ⟨[], a :: l, rfl, by simp, ?_⟩
      intro b hb
      obtain rfl | hb := List.mem_cons.mp hb
      · exact ha
      · exact hup a b (hl.1 b hb) ha
    · obtain ⟨low, high, rfl, hlow, hhigh⟩ := ih hl.2
      refine ⟨a :: low, high, rfl, ?_, hhigh⟩
      intro b hb
      obtain rfl | hb := List.mem_cons.mp hb
      · exact ha
      · exact hlow b hb

private theorem drop_append_of_le {low high : List α} {n : Nat} (h : n ≤ high.length) :
    (low ++ high).drop ((low ++ high).length - n) = high.drop (high.length - n) := by
  have hlen : (low ++ high).length - n = low.length + (high.length - n) := by
    rw [List.length_append]
    omega
  rw [hlen, List.drop_append, List.drop_eq_nil_of_le (by omega), List.nil_append]
  congr 1
  omega

/-- Dropping elements from a sorted list keeps its newest `n` elements, provided that `n`
kept elements lie above every dropped one. -/
theorem drop_filter_eq {n : Nat} (keep : α → Bool) (hl : l.Pairwise lt)
    (hirr : ∀ a, ¬ lt a a) (htrans : ∀ a b c, lt a b → lt b c → lt a c)
    (newer : α → Bool)
    (hnewer : ∀ e, newer e = true ↔ ∀ m ∈ l, keep m = false → lt m e)
    (hn : (∃ m ∈ l, keep m = false) → n ≤ ((l.filter keep).filter newer).length) :
    (l.filter keep).drop ((l.filter keep).length - n) = l.drop (l.length - n) := by
  by_cases hmissing : ∃ m ∈ l, keep m = false
  · obtain ⟨low, high, rfl, hlow, hhigh⟩ := exists_split_of_upward (p := fun e ↦ newer e = true)
      hl (by
        intro a b hab ha
        rw [hnewer] at ha ⊢
        exact fun m hm hk ↦ htrans m a b (ha m hm hk) hab)
    have hkept : high.filter keep = high := by
      rw [List.filter_eq_self]
      intro e he
      cases hk : keep e with
      | true => rfl
      | false =>
        have := (hnewer e).mp (hhigh e he) e (List.mem_append_right low he) hk
        exact absurd this (hirr e)
    have hlen : n ≤ high.length := by
      have hlow' : (low.filter keep).filter newer = [] := by
        rw [List.filter_eq_nil_iff]
        exact fun e he ↦ hlow e (List.mem_filter.mp he).1
      have hhigh' : high.filter newer = high := List.filter_eq_self.mpr hhigh
      have := hn hmissing
      rwa [List.filter_append, List.filter_append, hkept, hlow', hhigh', List.nil_append] at this
    rw [List.filter_append, hkept, drop_append_of_le hlen, drop_append_of_le hlen]
  · have hall : l.filter keep = l := by
      rw [List.filter_eq_self]
      intro e he
      by_contra hk
      exact hmissing ⟨e, he, by simpa using hk⟩
    rw [hall]

end AgentOdometer.SortedList
