import Mathlib.Data.List.Nodup

/-!
# First entries

The entries of a list of which each is the first one of its key.
-/

namespace AgentOdometer.FirstByKey

variable {α κ : Type} [DecidableEq κ] (key : α → κ)

/-- The first entry of every key, in order. -/
def firsts : List α → List α
  | [] => []
  | a :: rest => a :: (firsts rest).filter fun b ↦ key b ≠ key a

variable {key}

theorem mem_of_mem_firsts {l : List α} {a : α} (h : a ∈ firsts key l) : a ∈ l := by
  induction l with
  | nil => exact h
  | cons b rest ih =>
    rcases List.mem_cons.mp h with rfl | h
    · exact List.mem_cons_self
    · exact List.mem_cons_of_mem b (ih (List.mem_filter.mp h).1)

/-- Every key has a first entry. -/
theorem mem_map_firsts {l : List α} {k : κ} : k ∈ (firsts key l).map key ↔ k ∈ l.map key := by
  constructor
  · intro h
    obtain ⟨a, ha, rfl⟩ := List.mem_map.mp h
    exact List.mem_map_of_mem (mem_of_mem_firsts ha)
  · intro h
    induction l with
    | nil => exact h
    | cons b rest ih =>
      rw [firsts, List.map_cons]
      by_cases hk : k = key b
      · exact hk ▸ List.mem_cons_self
      · obtain ⟨a, ha, rfl⟩ := List.mem_map.mp (ih ((List.mem_cons.mp h).resolve_left hk))
        apply List.mem_cons_of_mem
        exact List.mem_map_of_mem (List.mem_filter.mpr ⟨ha, decide_eq_true hk⟩)

/-- No key has two of them. -/
theorem nodup_map_firsts (l : List α) : ((firsts key l).map key).Nodup := by
  induction l with
  | nil => exact List.nodup_nil
  | cons a rest ih =>
    rw [firsts, List.map_cons, List.nodup_cons]
    constructor
    · intro h
      obtain ⟨b, hb, hkey⟩ := List.mem_map.mp h
      exact of_decide_eq_true (List.mem_filter.mp hb).2 hkey
    · exact ih.sublist (List.filter_sublist.map key)

/-- One more entry is the first one of its key, or changes nothing. -/
theorem firsts_concat (l : List α) (a : α) :
    firsts key (l ++ [a]) = firsts key l ++ if key a ∈ l.map key then [] else [a] := by
  induction l with
  | nil => rfl
  | cons b rest ih =>
    rw [List.cons_append, firsts, firsts, ih, List.filter_append, List.cons_append, List.map_cons]
    by_cases hmem : key a ∈ rest.map key
    · rw [if_pos hmem, if_pos (List.mem_cons_of_mem _ hmem), List.filter_nil]
    · rw [if_neg hmem]
      by_cases hkey : key a = key b
      · rw [if_pos (hkey ▸ List.mem_cons_self), List.filter_cons_of_neg (by simp [hkey]),
          List.filter_nil]
      · rw [if_neg (by simp [hkey, hmem]), List.filter_cons_of_pos (by simp [hkey]),
          List.filter_nil]

end AgentOdometer.FirstByKey
