import Mathlib.Data.List.Nodup

/-!
# Rows with paths

The rows of a tree, each with the path to it, are grouped by the first step of their paths. The
groups of the subtrees under distinct steps are read back.
-/

namespace AgentOdometer.PathGroups

variable {τ β : Type} [DecidableEq τ]

/-- The rows of a subtree under one more step. -/
def prepend (step : τ) (rows : List (List τ × β)) : List (List τ × β) :=
  rows.map fun row ↦ (step :: row.1, row.2)

/-- Consecutive rows with one first step; a row without a path is dropped. -/
def groupRuns : List (List τ × β) → List (τ × List (List τ × β))
  | [] => []
  | ([], _) :: rows => groupRuns rows
  | (step :: path, b) :: rows =>
      match groupRuns rows with
      | [] => [(step, [(path, b)])]
      | (step', group) :: groups =>
          if step' = step then (step, (path, b) :: group) :: groups
          else (step, [(path, b)]) :: (step', group) :: groups

/-- The rows under one step are a group of their own, unless the next group has that step. -/
theorem groupRuns_prepend (step : τ) {rows : List (List τ × β)} (hne : rows ≠ [])
    {rest : List (List τ × β)} (hrest : ∀ group ∈ (groupRuns rest).head?, group.1 ≠ step) :
    groupRuns (prepend step rows ++ rest) = (step, rows) :: groupRuns rest := by
  induction rows with
  | nil => exact absurd rfl hne
  | cons row rows ih =>
    rw [prepend, List.map_cons, List.cons_append, groupRuns]
    by_cases hnil : rows = []
    · subst hnil
      cases hgroups : groupRuns rest with
      | nil => simp [hgroups]
      | cons group groups =>
        have hstep : group.1 ≠ step := hrest group (by simp [hgroups])
        simp [hgroups, hstep]
    · have hrows := ih hnil
      rw [prepend] at hrows
      simp [hrows]

/-- The groups of subtrees under distinct steps. -/
theorem groupRuns_flatMap {groups : List (τ × List (List τ × β))}
    (hne : ∀ group ∈ groups, group.2 ≠ []) (hnodup : (groups.map Prod.fst).Nodup) :
    groupRuns (groups.flatMap fun group ↦ prepend group.1 group.2) = groups := by
  induction groups with
  | nil => rfl
  | cons group groups ih =>
    rw [List.forall_mem_cons] at hne
    rw [List.map_cons, List.nodup_cons] at hnodup
    rw [List.flatMap_cons]
    have hrest := ih hne.2 hnodup.2
    rw [groupRuns_prepend group.1 hne.1, hrest]
    rw [hrest]
    intro next hnext heq
    exact hnodup.1 (heq ▸ List.mem_map_of_mem (List.mem_of_mem_head? hnext))

end AgentOdometer.PathGroups
