import Mathlib.Data.List.Nodup
import Std.Data.ExtTreeMap

/-!
# Folds over keyed items

A fold whose step touches only what its item's key can observe. Items with other keys are
framed away, so a fold over items with distinct keys acts on one observation as the single
step of the item with that key.
-/

namespace AgentOdometer.KeyedFold

variable {σ α κ β : Type} {f : σ → α → σ} {obs : σ → β} {key : α → κ} {k : κ}

/-- Steps which leave an observation alone leave it alone together. -/
theorem foldl_frame {p : α → Prop} (hframe : ∀ s a, p a → obs (f s a) = obs s) (l : List α)
    (s : σ) (hl : ∀ a ∈ l, p a) : obs (l.foldl f s) = obs s := by
  induction l generalizing s with
  | nil => rfl
  | cons a l ih =>
    rw [List.foldl_cons, ih (f s a) fun b hb ↦ hl b (List.mem_cons_of_mem a hb)]
    exact hframe s a (hl a List.mem_cons_self)

/-- A property which some items set and none takes away holds in the end when it held before or an
item set it. -/
theorem foldl_iff_exists (seen : σ → Prop) {p : α → Prop}
    (hstep : ∀ s a, seen (f s a) ↔ seen s ∨ p a) (l : List α) (s : σ) :
    seen (l.foldl f s) ↔ seen s ∨ ∃ a ∈ l, p a := by
  induction l generalizing s with
  | nil => simp
  | cons a l ih =>
    rw [List.foldl_cons, ih, hstep]
    simp only [List.mem_cons, exists_eq_or_imp, or_assoc]

/-- With distinct keys, only the item carrying the observed key matters. -/
theorem foldl_unique (hframe : ∀ s a, key a ≠ k → obs (f s a) = obs s)
    (hlocal : ∀ s t a, key a = k → obs s = obs t → obs (f s a) = obs (f t a))
    {l : List α} {a : α} (hl : (l.map key).Nodup) (ha : a ∈ l) (hk : key a = k) (s : σ) :
    obs (l.foldl f s) = obs (f s a) := by
  induction l generalizing s with
  | nil => contradiction
  | cons b l ih =>
    rw [List.map_cons, List.nodup_cons] at hl
    rw [List.foldl_cons]
    obtain rfl | ha := List.mem_cons.mp ha
    · apply foldl_frame hframe l
      intro c hc hkc
      exact hl.1 (List.mem_map.mpr ⟨c, hc, hkc.trans hk.symm⟩)
    · have hb : key b ≠ k := by
        intro hkb
        exact hl.1 (List.mem_map.mpr ⟨a, ha, hk.trans hkb.symm⟩)
      rw [ih hl.2 ha]
      exact hlocal _ _ a hk (hframe s b hb)

/-- A fold over the entries of a map acts on what one key can observe as the step of its entry. -/
theorem foldl_toList [Ord κ] [Std.TransOrd κ] [Std.LawfulEqOrd κ] {g : σ → κ × α → σ}
    (hframe : ∀ s (a : κ × α), a.1 ≠ k → obs (g s a) = obs s)
    (hlocal : ∀ s t (a : κ × α), a.1 = k → obs s = obs t → obs (g s a) = obs (g t a))
    (m : Std.ExtTreeMap κ α) (s : σ) :
    obs (m.toList.foldl g s) = (m[k]?.map fun v ↦ obs (g s (k, v))).getD (obs s) := by
  cases hv : m[k]? with
  | none =>
    apply foldl_frame hframe
    rintro ⟨k', v⟩ hmem rfl
    rw [Std.ExtTreeMap.mem_toList_iff_getElem?_eq_some, hv] at hmem
    cases hmem
  | some v =>
    have hnodup : (m.toList.map Prod.fst).Nodup := by
      rw [List.nodup_iff_pairwise_ne, List.pairwise_map]
      apply Std.ExtTreeMap.distinct_keys_toList.imp
      rintro a b hne heq
      exact hne (Std.compare_eq_iff_eq.mpr heq)
    exact foldl_unique hframe hlocal hnodup
      (Std.ExtTreeMap.mem_toList_iff_getElem?_eq_some.mpr hv) rfl s

end AgentOdometer.KeyedFold
