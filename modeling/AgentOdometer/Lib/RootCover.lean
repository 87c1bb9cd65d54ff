import Mathlib.Data.List.Pairwise

/-!
# Covers of owned roots

Elements contain one another as the nodes of a forest do: two which contain a third contain one
another. A list of them is folded into a cover, where an element absorbs those of its owner which
it contains. The cover does not depend on the order of the list.
-/

namespace AgentOdometer.RootCover

variable {α ω : Type}

/-- A containment whose elements above any one are comparable. -/
structure IsForest (contains : α → α → Bool) : Prop where
  refl : ∀ a, contains a a = true
  trans : ∀ {a b c}, contains a b = true → contains b c = true → contains a c = true
  chain : ∀ {a b c}, contains a c = true → contains b c = true →
    contains a b = true ∨ contains b a = true

section

variable (contains : α → α → Bool) (owner : α → ω)

/-- One of the two contains the other. -/
def overlaps (a b : α) : Bool :=
  contains a b || contains b a

/-- The kept elements are some of the listed ones, each listed one lies in a kept one of its owner,
and no kept one contains another of its owner. -/
structure IsCover (listed kept : List α) : Prop where
  mem_listed : ∀ {b}, b ∈ kept → b ∈ listed
  covered : ∀ {a}, a ∈ listed → ∃ b ∈ kept, owner b = owner a ∧ contains b a = true
  apart : kept.Pairwise fun a b ↦
    owner a = owner b → contains a b = false ∧ contains b a = false

variable [DecidableEq ω]

/-- Two elements of different owners overlap. -/
def conflicts (a b : α) : Bool :=
  overlaps contains a b && owner a != owner b

/-- Add an element to a cover. -/
def absorb (kept : List α) (a : α) : List α :=
  if kept.any fun b ↦ owner b == owner a && contains b a then kept
  else kept.filter (fun b ↦ !(owner b == owner a && contains a b)) ++ [a]

/-- No two elements of a list conflict. -/
def Unambiguous (l : List α) : Prop :=
  ∀ a ∈ l, ∀ b ∈ l, conflicts contains owner a b = false

end

variable {contains : α → α → Bool} {owner : α → ω}

theorem isCover_nil : IsCover contains owner ([] : List α) [] :=
  ⟨id, (fun h ↦ nomatch h), .nil⟩

/-- Two covers of the same elements keep the same ones, up to mutual containment. -/
theorem IsCover.subset (hforest : IsForest contains) {listed listed' kept kept' : List α}
    (h : IsCover contains owner listed kept) (h' : IsCover contains owner listed' kept')
    (hsame : ∀ a, a ∈ listed ↔ a ∈ listed') {a : α} (ha : a ∈ kept) :
    ∃ b ∈ kept', owner b = owner a ∧ contains b a = true ∧ contains a b = true := by
  obtain ⟨b, hb, howner, hba⟩ := h'.covered ((hsame a).mp (h.mem_listed ha))
  obtain ⟨c, hc, howner', hcb⟩ := h.covered ((hsame b).mpr (h'.mem_listed hb))
  have hca := hforest.trans hcb hba
  have heq : c = a := by
    by_contra hne
    have hsymm : Std.Symm fun a b ↦
        owner a = owner b → contains a b = false ∧ contains b a = false :=
      ⟨fun _ _ hab howner ↦ (hab howner.symm).symm⟩
    have hapart := h.apart.forall hc ha hne (howner'.trans howner)
    rw [hca] at hapart
    cases hapart.1
  exact ⟨b, hb, howner, hba, heq ▸ hcb⟩

variable [DecidableEq ω]

theorem conflicts_comm (a b : α) :
    conflicts contains owner a b = conflicts contains owner b a := by
  rw [Bool.eq_iff_iff]
  simp only [conflicts, overlaps, Bool.and_eq_true, Bool.or_eq_true, bne_iff_ne]
  rw [or_comm, ne_comm]

/-- A conflict with a listed element is a conflict with the kept one which contains it. -/
theorem IsCover.conflicts_iff (hforest : IsForest contains) {listed kept : List α}
    (h : IsCover contains owner listed kept) (s : α) :
    (∀ a ∈ listed, conflicts contains owner a s = false) ↔
      ∀ b ∈ kept, conflicts contains owner b s = false := by
  refine ⟨fun hlisted b hb ↦ hlisted b (h.mem_listed hb), fun hkept a ha ↦ ?_⟩
  obtain ⟨b, hb, howner, hba⟩ := h.covered ha
  have hclear := hkept b hb
  simp only [conflicts, overlaps, Bool.and_eq_false_iff, bne_eq_false_iff_eq, ← howner,
    Bool.or_eq_false_iff] at hclear ⊢
  refine hclear.imp_left fun ⟨hbs, hsb⟩ ↦ ⟨?_, ?_⟩
  · by_contra has
    rw [Bool.not_eq_false] at has
    rw [hforest.trans hba has] at hbs
    cases hbs
  · by_contra hsa
    rw [Bool.not_eq_false] at hsa
    rcases hforest.chain hba hsa with hin | hin
    · rw [hin] at hbs
      cases hbs
    · rw [hin] at hsb
      cases hsb

/-- Absorbing one more element keeps the cover. -/
theorem IsCover.absorb (hforest : IsForest contains) {listed kept : List α}
    (h : IsCover contains owner listed kept) (s : α) :
    IsCover contains owner (listed ++ [s]) (absorb contains owner kept s) := by
  unfold RootCover.absorb
  split
  · rename_i hin
    obtain ⟨b, hb, hbs⟩ := List.any_eq_true.mp hin
    rw [Bool.and_eq_true, beq_iff_eq] at hbs
    refine ⟨fun hmem ↦ List.mem_append_left _ (h.mem_listed hmem), fun {a} ha ↦ ?_, h.apart⟩
    rcases List.mem_append.mp ha with ha | ha
    · exact h.covered ha
    · obtain rfl := List.mem_singleton.mp ha
      exact ⟨b, hb, hbs⟩
  · rename_i hout
    simp only [List.any_eq_true, Bool.and_eq_true, beq_iff_eq, not_exists, not_and,
      Bool.not_eq_true] at hout
    refine ⟨fun {b} hmem ↦ ?_, fun {a} ha ↦ ?_, ?_⟩
    · rcases List.mem_append.mp hmem with hb | hb
      · exact List.mem_append_left _ (h.mem_listed (List.mem_filter.mp hb).1)
      · exact List.mem_append_right _ hb
    · rcases List.mem_append.mp ha with ha | ha
      · obtain ⟨b, hb, howner, hba⟩ := h.covered ha
        by_cases hsb : owner b = owner s ∧ contains s b = true
        · exact ⟨s, List.mem_append_right _ (List.mem_singleton_self s),
            hsb.1.symm.trans howner, hforest.trans hsb.2 hba⟩
        · refine ⟨b, List.mem_append_left _ (List.mem_filter.mpr ⟨hb, ?_⟩), howner, hba⟩
          rw [Bool.not_eq_true', Bool.and_eq_false_iff, beq_eq_false_iff_ne]
          rwa [← Bool.not_eq_true, ← not_and_or]
      · exact ⟨s, List.mem_append_right _ (List.mem_singleton_self s),
          by rw [List.mem_singleton.mp ha], by rw [List.mem_singleton.mp ha, hforest.refl]⟩
    · rw [List.pairwise_append]
      refine ⟨h.apart.filter _, List.pairwise_singleton _ _, fun b hb s' hs' howner ↦ ?_⟩
      obtain rfl := List.mem_singleton.mp hs'
      obtain ⟨hb, hkept⟩ := List.mem_filter.mp hb
      rw [Bool.not_eq_true', Bool.and_eq_false_iff, beq_eq_false_iff_ne] at hkept
      exact ⟨hout b hb howner, hkept.resolve_left (not_not_intro howner)⟩

/-- In an unambiguous list no kept element contains another. -/
theorem IsCover.pairwise_apart {listed kept : List α} (h : IsCover contains owner listed kept)
    (hclear : Unambiguous contains owner listed) :
    kept.Pairwise fun a b ↦ contains a b = false ∧ contains b a = false := by
  refine h.apart.imp_of_mem fun {a b} ha hb hapart ↦ ?_
  have hnone := hclear a (h.mem_listed ha) b (h.mem_listed hb)
  simp only [conflicts, overlaps, Bool.and_eq_false_iff, bne_eq_false_iff_eq,
    Bool.or_eq_false_iff] at hnone
  exact hnone.elim id hapart

end AgentOdometer.RootCover
