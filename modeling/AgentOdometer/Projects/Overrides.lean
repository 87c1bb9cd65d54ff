import AgentOdometer.Lib.AliasChain

/-!
# Project overrides

The rows by which a reader renames a project or merges it into another, the calls which change
them, and how a merged key is followed to the one it is shown under
(`history_store.rs:1441–1494,6094–6179`).
-/

namespace AgentOdometer.Projects

open Std (ExtTreeMap)
open AliasChain

/-- A row of `project_overrides` under its `project_key`. Follows `history_store.rs:3255–3260`. -/
structure ProjectOverrideRow where
  displayLabel : Option String
  canonicalProjectKey : Option String
  updatedAtMs : Int
deriving Repr, DecidableEq

/-- The table `project_overrides`. -/
abbrev ProjectOverrides := ExtTreeMap String ProjectOverrideRow

/-! ### Following merges -/

/-- The redirect of a key, as both loops look it up. -/
def redirectOf (overrides : ProjectOverrides) (key : String) : Option String :=
  overrides[key]?.bind ProjectOverrideRow.canonicalProjectKey

/-- The loop of `resolve_canonical_project_key` with the keys it has seen. -/
def resolveFrom (overrides : ProjectOverrides) : Nat → List String → String → String
  | 0, _, current => current
  | steps + 1, seen, current =>
      if current ∈ seen then current
      else
        match redirectOf overrides current with
        | some next => if next ≠ current then resolveFrom overrides steps (current :: seen) next
            else current
        | none => current

/-- `resolve_canonical_project_key`, `history_store.rs:6135–6151`. -/
def resolveCanonicalProjectKey (overrides : ProjectOverrides) (start : String) : String :=
  resolveFrom overrides (overrides.size + 1) [] start

/-- The loop of `project_key_reaches` with the keys it has seen. -/
def reachesFrom (overrides : ProjectOverrides) (target : String) :
    Nat → List String → String → Bool
  | 0, _, _ => false
  | steps + 1, seen, current =>
      if current ∈ seen then false
      else if current = target then true
      else
        match redirectOf overrides current with
        | some next =>
            if next ≠ current then reachesFrom overrides target steps (current :: seen) next
            else false
        | none => false

/-- `project_key_reaches`, `history_store.rs:6156–6176`. -/
def projectKeyReaches (overrides : ProjectOverrides) (start target : String) : Bool :=
  reachesFrom overrides target (overrides.size + 1) [] start

/-! ### Calls -/

/-- `prune_empty_project_override`, `history_store.rs:6124–6131`. -/
def pruneEmptyProjectOverride (overrides : ProjectOverrides) (projectKey : String) :
    ProjectOverrides :=
  match overrides[projectKey]? with
  | some row =>
      if row.displayLabel = none ∧ row.canonicalProjectKey = none then overrides.erase projectKey
      else overrides
  | none => overrides

/-- `set_project_alias`, `history_store.rs:1441–1452`. -/
def setProjectAlias (overrides : ProjectOverrides) (projectKey : String)
    (displayLabel : Option String) (now : Int) : ProjectOverrides :=
  let row :=
    match overrides[projectKey]? with
    | none => ⟨displayLabel, none, now⟩
    | some row => { row with displayLabel, updatedAtMs := now }
  pruneEmptyProjectOverride (overrides.insert projectKey row) projectKey

/-- `merge_project`, `history_store.rs:1458–1479`: its result, and the table it leaves. -/
def mergeProject (overrides : ProjectOverrides) (sourceKey canonicalKey : String) (now : Int) :
    Except String Unit × ProjectOverrides :=
  if sourceKey = canonicalKey then (.error "cannot merge a project into itself", overrides)
  else if projectKeyReaches overrides canonicalKey sourceKey then
    (.error ("merging " ++ sourceKey ++ " into " ++ canonicalKey ++ " would create a cycle"),
      overrides)
  else
    let row :=
      match overrides[sourceKey]? with
      | none => ⟨none, some canonicalKey, now⟩
      | some row => { row with canonicalProjectKey := some canonicalKey, updatedAtMs := now }
    (.ok (), overrides.insert sourceKey row)

/-- `unmerge_project`, `history_store.rs:1483–1494`. -/
def unmergeProject (overrides : ProjectOverrides) (projectKey : String) (now : Int) :
    ProjectOverrides :=
  let row :=
    match overrides[projectKey]? with
    | none => ⟨none, none, now⟩
    | some row => { row with canonicalProjectKey := none, updatedAtMs := now }
  pruneEmptyProjectOverride (overrides.insert projectKey row) projectKey

/-- A call, and when it is made. -/
inductive Call where
  | setAlias (projectKey : String) (displayLabel : Option String) (now : Int)
  | merge (sourceKey canonicalKey : String) (now : Int)
  | unmerge (projectKey : String) (now : Int)
deriving Repr, DecidableEq

/-- The table after a call, which may have failed. -/
def apply (overrides : ProjectOverrides) : Call → ProjectOverrides
  | .setAlias projectKey displayLabel now => setProjectAlias overrides projectKey displayLabel now
  | .merge sourceKey canonicalKey now => (mergeProject overrides sourceKey canonicalKey now).2
  | .unmerge projectKey now => unmergeProject overrides projectKey now

/-! ### The merge graph -/

/-- The merges of a table, from each merged key to the one it is merged into. -/
def merges (overrides : ProjectOverrides) : ExtTreeMap String String :=
  overrides.filterMap fun _ row ↦ row.canonicalProjectKey

theorem getElem?_merges (overrides : ProjectOverrides) (key : String) :
    (merges overrides)[key]? = redirectOf overrides key :=
  ExtTreeMap.getElem?_filterMap'

theorem hop_merges_iff {overrides : ProjectOverrides} {key next : String} :
    Hop (merges overrides) key next ↔ redirectOf overrides key = some next := by
  rw [Hop, getElem?_merges]

theorem size_merges_le (overrides : ProjectOverrides) : (merges overrides).size ≤ overrides.size :=
  ExtTreeMap.size_filterMap_le_size

/-- A loop with a step for every row not yet left stops by itself, also on a cyclic table. -/
theorem resolveFrom_succ {overrides : ProjectOverrides} (steps : Nat) {seen : List String}
    (current : String) (hnodup : seen.Nodup) (hseen : ∀ key ∈ seen, key ∈ overrides)
    (hsteps : overrides.size < steps + seen.length) :
    resolveFrom overrides (steps + 1) seen current = resolveFrom overrides steps seen current := by
  induction steps generalizing seen current with
  | zero =>
    have hle := OrderedMap.length_le_size hnodup hseen
    omega
  | succ steps ih =>
    rw [resolveFrom]
    conv_rhs => rw [resolveFrom]
    by_cases hmem : current ∈ seen
    · rw [if_pos hmem, if_pos hmem]
    · rw [if_neg hmem, if_neg hmem]
      cases hnext : redirectOf overrides current with
      | none => rfl
      | some next =>
        simp only
        have hrow : current ∈ overrides := by
          rw [ExtTreeMap.mem_iff_isSome_getElem?]
          obtain ⟨row, hrow, -⟩ := Option.bind_eq_some_iff.mp hnext
          rw [hrow]
          rfl
        rw [ih next (List.nodup_cons.mpr ⟨hmem, hnodup⟩)
          (List.forall_mem_cons.mpr ⟨hrow, hseen⟩) (by rw [List.length_cons]; omega)]

/-- More steps than rows change nothing. -/
theorem resolveFrom_of_size_lt {overrides : ProjectOverrides} {steps : Nat}
    (hsteps : overrides.size < steps) (key : String) :
    resolveFrom overrides steps [] key = resolveCanonicalProjectKey overrides key := by
  obtain ⟨extra, rfl⟩ := Nat.exists_eq_add_of_le hsteps
  induction extra with
  | zero => rfl
  | succ extra ih =>
    have hlt : overrides.size < overrides.size.succ + extra + ([] : List String).length := by
      rw [List.length_nil]
      omega
    have hmore := resolveFrom_succ (overrides.size.succ + extra) key List.nodup_nil
      (fun key h ↦ nomatch h) hlt
    exact hmore.trans (ih (by omega))

/-- The loop follows the merges as a chase of links does. -/
theorem resolveFrom_eq_chase (overrides : ProjectOverrides) (steps : Nat) (seen : List String)
    (current : String) (hopped : Bool) : resolveFrom overrides steps seen current =
      (chase (merges overrides) steps seen current hopped).1 := by
  induction steps generalizing seen current hopped with
  | zero => rfl
  | succ steps ih =>
    rw [resolveFrom, chase, getElem?_merges]
    by_cases hseen : current ∈ seen
    · cases redirectOf overrides current <;> simp [hseen]
    · cases hnext : redirectOf overrides current with
      | none => simp [hseen]
      | some next =>
        simp only [hseen, if_false]
        by_cases hself : next = current
        · -- A key merged into itself is left once and found among the seen ones.
          subst hself
          rw [if_neg (not_not.mpr rfl)]
          cases steps with
          | zero => rfl
          | succ steps => simp [chase, getElem?_merges, hnext]
        · rw [if_pos hself, ih]

/-- A resolved key of an acyclic table is not redirected. -/
theorem redirectOf_resolve {overrides : ProjectOverrides} (hacyclic : Acyclic (merges overrides))
    (start : String) :
    redirectOf overrides (resolveCanonicalProjectKey overrides start) = none := by
  rw [← getElem?_merges, resolveCanonicalProjectKey, resolveFrom_eq_chase _ _ _ _ false]
  refine getElem?_chase hacyclic _ _ _ _ List.nodup_nil (fun name h ↦ nomatch h) ?_
  rw [List.length_nil, Nat.add_zero]
  exact Nat.lt_succ_of_le (size_merges_le overrides)

/-- A key which is not redirected is resolved to itself. -/
theorem resolve_of_redirectOf {overrides : ProjectOverrides} {key : String}
    (h : redirectOf overrides key = none) : resolveCanonicalProjectKey overrides key = key := by
  simp [resolveCanonicalProjectKey, resolveFrom, h]

theorem reflTransGen_of_reachesFrom {overrides : ProjectOverrides} {target : String} {steps : Nat}
    {seen : List String} {current : String}
    (h : reachesFrom overrides target steps seen current = true) :
    Relation.ReflTransGen (Hop (merges overrides)) current target := by
  induction steps generalizing seen current with
  | zero => cases h
  | succ steps ih =>
    rw [reachesFrom] at h
    split at h
    · cases h
    · split at h
      next heq => exact heq ▸ .refl
      · split at h
        next next hnext =>
          split at h
          · exact .head (hop_merges_iff.mpr hnext) (ih h)
          · cases h
        · cases h

/-- A search with a step for every merge not yet left finds what the merges lead to. -/
theorem reachesFrom_of_reflTransGen {overrides : ProjectOverrides}
    (hacyclic : Acyclic (merges overrides)) {target : String} {steps : Nat} {seen : List String}
    {current : String} (hnodup : seen.Nodup)
    (hseen : ∀ key ∈ seen, key ∈ merges overrides ∧
      Relation.TransGen (Hop (merges overrides)) key current)
    (hsteps : (merges overrides).size < steps + seen.length)
    (hpath : Relation.ReflTransGen (Hop (merges overrides)) current target) :
    reachesFrom overrides target steps seen current = true := by
  induction steps generalizing seen current with
  | zero =>
    have hle := OrderedMap.length_le_size hnodup fun key hkey ↦ (hseen key hkey).1
    omega
  | succ steps ih =>
    have hnew : current ∉ seen := fun hmem ↦ hacyclic current (hseen current hmem).2
    rw [reachesFrom, if_neg hnew]
    by_cases htarget : current = target
    · rw [if_pos htarget]
    · obtain heq | ⟨next, hhop, hrest⟩ := hpath.cases_head
      · exact absurd heq htarget
      · have hne : next ≠ current := fun h ↦ hacyclic current (.single (h ▸ hhop))
        rw [if_neg htarget, hop_merges_iff.mp hhop]
        simp only [ne_eq, hne, not_false_eq_true, if_true]
        apply ih
        · exact List.nodup_cons.mpr ⟨hnew, hnodup⟩
        · intro key hkey
          obtain rfl | hkey := List.mem_cons.mp hkey
          · exact ⟨mem_of_hop hhop, .single hhop⟩
          · exact ⟨(hseen key hkey).1, (hseen key hkey).2.tail hhop⟩
        · rw [List.length_cons]
          omega
        · exact hrest

/-- On an acyclic table the search decides whether the merges lead from one key to another. -/
theorem projectKeyReaches_iff {overrides : ProjectOverrides}
    (hacyclic : Acyclic (merges overrides)) (start target : String) :
    projectKeyReaches overrides start target = true ↔
      Relation.ReflTransGen (Hop (merges overrides)) start target := by
  refine ⟨reflTransGen_of_reachesFrom, fun hpath ↦ ?_⟩
  refine reachesFrom_of_reflTransGen hacyclic List.nodup_nil (fun key h ↦ nomatch h) ?_ hpath
  rw [List.length_nil, Nat.add_zero]
  exact Nat.lt_succ_of_le (size_merges_le overrides)

/-! ### What a call does to the merges -/

theorem redirectOf_insert (overrides : ProjectOverrides) (key : String) (row : ProjectOverrideRow)
    (other : String) : redirectOf (overrides.insert key row) other =
      if other = key then row.canonicalProjectKey else redirectOf overrides other := by
  rw [redirectOf, ExtTreeMap.getElem?_insert]
  by_cases hkey : other = key
  · rw [hkey, Std.compare_self, if_pos rfl, if_pos rfl, Option.bind_some]
  · have hcompare : ¬ compare key other = .eq := fun h ↦ hkey (Std.compare_eq_iff_eq.mp h).symm
    rw [if_neg hcompare, if_neg hkey, redirectOf]

/-- A pruned row redirected nothing. -/
theorem redirectOf_prune (overrides : ProjectOverrides) (key other : String) :
    redirectOf (pruneEmptyProjectOverride overrides key) other = redirectOf overrides other := by
  unfold pruneEmptyProjectOverride
  split
  next row hrow =>
    split
    next hempty =>
      rw [redirectOf, ExtTreeMap.getElem?_erase]
      split
      next hcompare =>
        rw [← Std.compare_eq_iff_eq.mp hcompare, redirectOf, hrow, Option.bind_none,
          Option.bind_some, hempty.2]
      · rfl
    · rfl
  · rfl

theorem redirectOf_setProjectAlias (overrides : ProjectOverrides) (key : String)
    (displayLabel : Option String) (now : Int) (other : String) :
    redirectOf (setProjectAlias overrides key displayLabel now) other =
      redirectOf overrides other := by
  rw [setProjectAlias, redirectOf_prune, redirectOf_insert]
  split
  next hkey =>
    rw [hkey, redirectOf]
    cases overrides[key]? <;> rfl
  · rfl

theorem redirectOf_unmergeProject (overrides : ProjectOverrides) (key : String) (now : Int)
    (other : String) : redirectOf (unmergeProject overrides key now) other =
      if other = key then none else redirectOf overrides other := by
  rw [unmergeProject, redirectOf_prune, redirectOf_insert]
  cases overrides[key]? <;> rfl

/-- A merge leaves the table alone, or adds its link where the target does not lead back. -/
theorem mergeProject_cases {overrides : ProjectOverrides} (hacyclic : Acyclic (merges overrides))
    (source canonical : String) (now : Int) :
    (∃ message, mergeProject overrides source canonical now = (.error message, overrides)) ∧
        Relation.ReflTransGen (Hop (merges overrides)) canonical source ∨
      (mergeProject overrides source canonical now).1 = .ok () ∧
        ¬ Relation.ReflTransGen (Hop (merges overrides)) canonical source ∧
        ∀ other, redirectOf (mergeProject overrides source canonical now).2 other =
          if other = source then some canonical else redirectOf overrides other := by
  unfold mergeProject
  split
  next heq => exact Or.inl ⟨⟨_, rfl⟩, heq ▸ .refl⟩
  · split
    next hreaches =>
      exact Or.inl ⟨⟨_, rfl⟩, (projectKeyReaches_iff hacyclic _ _).mp hreaches⟩
    next hreaches =>
      refine Or.inr ⟨rfl, fun hpath ↦ hreaches ((projectKeyReaches_iff hacyclic _ _).mpr hpath), ?_⟩
      intro other
      rw [redirectOf_insert]
      cases overrides[source]? <;> rfl

theorem merges_mergeProject {overrides : ProjectOverrides} {source canonical : String}
    {overrides' : ProjectOverrides}
    (h : ∀ other, redirectOf overrides' other =
      if other = source then some canonical else redirectOf overrides other) :
    merges overrides' = (merges overrides).insert source canonical := by
  refine ExtTreeMap.ext_getElem? fun key ↦ ?_
  rw [getElem?_merges, h, ExtTreeMap.getElem?_insert, getElem?_merges]
  by_cases hkey : key = source
  · rw [hkey, Std.compare_self, if_pos rfl, if_pos rfl]
  · have hcompare : ¬ compare source key = .eq := fun h ↦ hkey (Std.compare_eq_iff_eq.mp h).symm
    rw [if_neg hcompare, if_neg hkey]

/-- No call closes a cycle. -/
theorem acyclic_apply {overrides : ProjectOverrides} (hacyclic : Acyclic (merges overrides))
    (call : Call) : Acyclic (merges (apply overrides call)) := by
  cases call with
  | setAlias key displayLabel now =>
    refine hacyclic.of_hop fun name next hhop ↦ ?_
    rw [hop_merges_iff] at hhop ⊢
    rwa [apply, redirectOf_setProjectAlias] at hhop
  | merge source canonical now =>
    obtain ⟨⟨message, herror⟩, -⟩ | ⟨-, hpath, hredirect⟩ :=
      mergeProject_cases hacyclic source canonical now
    · rw [apply, herror]
      exact hacyclic
    · rw [apply, merges_mergeProject hredirect]
      exact (acyclic_insert_iff hacyclic).mpr hpath
  | unmerge key now =>
    refine hacyclic.of_hop fun name next hhop ↦ ?_
    rw [hop_merges_iff] at hhop ⊢
    rw [apply, redirectOf_unmergeProject] at hhop
    split at hhop
    · cases hhop
    · exact hhop

/-- No sequence of calls closes a cycle. -/
theorem acyclic_foldl {overrides : ProjectOverrides} (hacyclic : Acyclic (merges overrides))
    (calls : List Call) : Acyclic (merges (calls.foldl apply overrides)) := by
  induction calls generalizing overrides with
  | nil => exact hacyclic
  | cons call calls ih => exact ih (acyclic_apply hacyclic call)

theorem merges_empty : merges ∅ = ∅ :=
  ExtTreeMap.ext_getElem? fun key ↦ by
    rw [getElem?_merges, redirectOf, ExtTreeMap.getElem?_empty, ExtTreeMap.getElem?_empty,
      Option.bind_none]

/-- After every sequence of calls the merges are acyclic, every key is resolved to one which is not
redirected, and a further merge fails exactly when it would close a cycle, leaving the table. -/
theorem merges_stay_acyclic (calls : List Call) :
    Acyclic (merges (calls.foldl apply ∅)) ∧
      (∀ key, redirectOf (calls.foldl apply ∅)
          (resolveCanonicalProjectKey (calls.foldl apply ∅) key) = none ∧
        resolveCanonicalProjectKey (calls.foldl apply ∅)
            (resolveCanonicalProjectKey (calls.foldl apply ∅) key) =
          resolveCanonicalProjectKey (calls.foldl apply ∅) key) ∧
      ∀ source canonical now,
        (¬ Acyclic ((merges (calls.foldl apply ∅)).insert source canonical) ∧
          ∃ message, mergeProject (calls.foldl apply ∅) source canonical now =
            (.error message, calls.foldl apply ∅)) ∨
        (Acyclic ((merges (calls.foldl apply ∅)).insert source canonical) ∧
          (mergeProject (calls.foldl apply ∅) source canonical now).1 = .ok () ∧
          merges (mergeProject (calls.foldl apply ∅) source canonical now).2 =
            (merges (calls.foldl apply ∅)).insert source canonical) := by
  have hacyclic : Acyclic (merges (calls.foldl apply ∅)) :=
    acyclic_foldl (merges_empty ▸ acyclic_empty) calls
  refine ⟨hacyclic, fun key ↦ ?_, fun source canonical now ↦ ?_⟩
  · have hend := redirectOf_resolve hacyclic key
    exact ⟨hend, resolve_of_redirectOf hend⟩
  · obtain ⟨herror, hpath⟩ | ⟨hok, hpath, hredirect⟩ :=
      mergeProject_cases hacyclic source canonical now
    · exact Or.inl ⟨fun hinsert ↦ (acyclic_insert_iff hacyclic).mp hinsert hpath, herror⟩
    · exact Or.inr ⟨(acyclic_insert_iff hacyclic).mpr hpath, hok, merges_mergeProject hredirect⟩

end AgentOdometer.Projects
