import AgentOdometer.Report.Paths
import Std.Data.String.ToNat

/-!
# What the leaves determine

The visited leaves are the paths of the value, and the paths determine it up to objects whose keys
are positions.
-/

namespace AgentOdometer.Report

open PathGroups

variable {ν : Type}

/-! ### Induction on a value -/

theorem Value.IsValid.of_mem_members {v : Value ν} (h : v.IsValid) :
    ∀ e ∈ v.members, e.2.IsValid := by
  cases h with
  | array hentries =>
    intro e he
    obtain ⟨i, hi, rfl⟩ := List.mem_mapIdx.mp he
    exact hentries _ (List.getElem_mem hi)
  | object _ hentries => exact hentries
  | _ => exact fun _ h ↦ nomatch h

/-- A property which passes from the members of a value to the value. -/
@[elab_as_elim]
theorem Value.IsValid.induct {P : Value ν → Prop} {v : Value ν} (h : v.IsValid)
    (step : ∀ v : Value ν, v.IsValid → (∀ e ∈ v.members, P e.2) → P v) : P v := by
  induction h with
  | array hentries ih =>
    refine step _ (.array hentries) fun e he ↦ ?_
    obtain ⟨i, hi, rfl⟩ := List.mem_mapIdx.mp he
    exact ih _ (List.getElem_mem hi)
  | object hkeys hentries ih => exact step _ (.object hkeys hentries) ih
  | null => exact step _ .null fun _ h ↦ nomatch h
  | bool b => exact step _ (.bool b) fun _ h ↦ nomatch h
  | number n => exact step _ (.number n) fun _ h ↦ nomatch h
  | string s => exact step _ (.string s) fun _ h ↦ nomatch h

theorem nodup_indices (n : Nat) : (indices n).Nodup :=
  List.nodup_range.map fun _ _ h ↦ Nat.repr_injective h

theorem Value.IsValid.nodup_members {v : Value ν} (h : v.IsValid) :
    (v.members.map Prod.fst).Nodup := by
  cases h with
  | @array entries hentries =>
    rw [Value.members, map_fst_mapIdx]
    exact nodup_indices _
  | @object entries hkeys _ =>
    show (entries.map Prod.fst).Pairwise (· ≠ ·)
    refine hkeys.imp fun {a b} hlt heq ↦ ?_
    subst heq
    exact String.lt_irrefl a hlt
  | _ => exact .nil

/-! ### The visited leaves -/

theorem replaceChar_eq_self {s : String} {c : Char} (h : c ∉ s.toList) (replacement : String) :
    replaceChar s c replacement = s := by
  have hflat : ∀ cs : List Char, c ∉ cs →
      (cs.flatMap fun d ↦ if d = c then replacement.toList else [d]) = cs := by
    intro cs hcs
    induction cs with
    | nil => rfl
    | cons d cs ih =>
      rw [List.mem_cons, not_or] at hcs
      rw [List.flatMap_cons, ih hcs.2, if_neg fun heq ↦ hcs.1 heq.symm, List.singleton_append]
  rw [replaceChar, hflat _ h, String.ofList_toList]

theorem not_mem_repr {c : Char} (hc : c.isDigit = false) (n : Nat) : c ∉ n.repr.toList := by
  intro hmem
  have hdigits : c ∈ Nat.toDigits 10 n := by
    rwa [← Nat.toList_repr]
  rw [Nat.isDigit_of_mem_toDigits (by decide) (by decide) hdigits] at hc
  cases hc

/-- A position is its own segment. -/
theorem escapeKey_repr (n : Nat) : escapeKey n.repr = n.repr := by
  rw [escapeKey, replaceChar_eq_self (not_mem_repr rfl n),
    replaceChar_eq_self (not_mem_repr rfl n)]

variable [JsonNumber ν]

/-- The text of a path. -/
def pathText : List String → String
  | [] => ""
  | key :: keys => "/" ++ escapeKey key ++ pathText keys

/-- The visit of a leaf. -/
def leafOf (path : String) : Value ν → Leaf
  | .null => ⟨path, "null", "null"⟩
  | .bool b => ⟨path, "boolean", if b then "true" else "false"⟩
  | .number n => ⟨path, "number", JsonNumber.text n⟩
  | .string s => ⟨path, "string", stringText s⟩
  | .array _ => ⟨path, "array", "[]"⟩
  | .object _ => ⟨path, "object", "\x7b\x7d"⟩

theorem objectLeaves_eq (entries : List (String × Value ν)) (path : String) :
    objectLeaves entries path =
      entries.flatMap fun e ↦ leaves e.2 (path ++ "/" ++ escapeKey e.1) := by
  induction entries with
  | nil => rfl
  | cons e entries ih => rw [objectLeaves, ih, List.flatMap_cons]

theorem arrayLeaves_eq (entries : List (Value ν)) (index : Nat) (path : String) :
    arrayLeaves entries index path =
      (entries.mapIdx fun i child ↦ (toString (index + i), child)).flatMap
        fun e ↦ leaves e.2 (path ++ "/" ++ escapeKey e.1) := by
  induction entries generalizing index with
  | nil => rfl
  | cons child entries ih =>
    rw [arrayLeaves, ih, List.mapIdx_cons, List.flatMap_cons]
    simp [Nat.add_assoc, Nat.add_comm 1, escapeKey_repr]

theorem leaves_of_members {v : Value ν} (h : v.members ≠ []) (path : String) :
    leaves v path = v.members.flatMap fun e ↦ leaves e.2 (path ++ "/" ++ escapeKey e.1) := by
  cases v with
  | array entries =>
    cases entries with
    | nil => exact absurd rfl h
    | cons child entries => simp [leaves, arrayLeaves_eq, Value.members]
  | object entries =>
    cases entries with
    | nil => exact absurd rfl h
    | cons e entries => rw [leaves, objectLeaves_eq]; rfl
  | _ => exact absurd rfl h

theorem leaves_of_no_members {v : Value ν} (h : v.members = []) (path : String) :
    leaves v path = [leafOf path v] := by
  cases v with
  | array entries =>
    have hnil : entries = [] := by simpa [Value.members] using h
    rw [hnil]
    rfl
  | object entries =>
    have hnil : entries = [] := h
    rw [hnil]
    rfl
  | _ => rfl

/-- The visited leaves are the paths of the value. -/
theorem leaves_eq {v : Value ν} (hv : v.IsValid) (path : String) :
    leaves v path = v.paths.map fun row ↦ leafOf (path ++ pathText row.1) row.2 := by
  revert path
  refine hv.induct fun v _ ih path ↦ ?_
  by_cases hmembers : v.members = []
  · rw [leaves_of_no_members hmembers, paths_of_no_members hmembers]
    simp [pathText]
  · rw [leaves_of_members hmembers, paths_of_members hmembers, List.map_flatMap]
    apply List.flatMap_congr
    intro e he
    rw [ih e he, prepend, List.map_map]
    apply List.map_congr_left
    intro row _
    simp [pathText, String.append_assoc]

omit [JsonNumber ν] in
theorem paths_ne_nil {v : Value ν} (hv : v.IsValid) : v.paths ≠ [] := by
  refine hv.induct fun v _ ih ↦ ?_
  by_cases hmembers : v.members = []
  · rw [paths_of_no_members hmembers]
    exact List.cons_ne_nil _ _
  · rw [paths_of_members hmembers]
    obtain ⟨e, he⟩ := List.exists_mem_of_ne_nil _ hmembers
    obtain ⟨row, hrow⟩ := List.exists_mem_of_ne_nil _ (ih e he)
    exact List.ne_nil_of_mem (List.mem_flatMap.mpr ⟨e, he, List.mem_map_of_mem hrow⟩)

omit [JsonNumber ν] in
/-- A leaf has no members. -/
theorem members_of_mem_paths {v : Value ν} (hv : v.IsValid) :
    ∀ row ∈ v.paths, row.2.members = [] := by
  refine hv.induct fun v _ ih ↦ ?_
  by_cases hmembers : v.members = []
  · rw [paths_of_no_members hmembers]
    intro row hrow
    rwa [List.mem_singleton.mp hrow]
  · rw [paths_of_members hmembers]
    intro row hrow
    obtain ⟨e, he, hrow⟩ := List.mem_flatMap.mp hrow
    obtain ⟨below, hbelow, rfl⟩ := List.mem_map.mp hrow
    exact ih e he below hbelow

/-! ### Rebuilding -/

/-- The value of some leaves with their paths. -/
def rebuild : Nat → List (List String × Value ν) → Option (Value ν)
  | 0, _ => none
  | _ + 1, [] => none
  | _ + 1, ([], leaf) :: _ => some leaf
  | fuel + 1, (step :: path, leaf) :: rows =>
      ((groupRuns ((step :: path, leaf) :: rows)).mapM fun group ↦
        (rebuild fuel group.2).map (group.1, ·)).map container

omit [JsonNumber ν] in
theorem rebuild_of_paths {fuel : Nat} {rows : List (List String × Value ν)} (hne : rows ≠ [])
    (hpaths : ∀ row ∈ rows, row.1 ≠ []) : rebuild (fuel + 1) rows =
      ((groupRuns rows).mapM fun group ↦
        (rebuild fuel group.2).map (group.1, ·)).map container := by
  match rows, hne, hpaths with
  | (step :: path, leaf) :: rows, _, _ => rw [rebuild]
  | ([], _) :: _, _, hpaths => exact absurd rfl (hpaths _ List.mem_cons_self)

/-- A loop which gives something for each element. -/
theorem mapM_eq_some {α β : Type} {f : α → Option β} {g : α → β} {l : List α}
    (h : ∀ a ∈ l, f a = some (g a)) : l.mapM f = some (l.map g) := by
  induction l with
  | nil => rfl
  | cons a l ih =>
    rw [List.forall_mem_cons] at h
    rw [List.mapM_cons, h.1, ih h.2]
    rfl

omit [JsonNumber ν] in
/-- The paths of a value determine it, up to objects whose keys are positions. -/
theorem rebuild_paths {v : Value ν} (hv : v.IsValid) (fuel : Nat)
    (hfuel : ∀ row ∈ v.paths, row.1.length < fuel) : rebuild fuel v.paths = some v.canonical := by
  revert fuel
  refine hv.induct fun v hv ih fuel hfuel ↦ ?_
  cases fuel with
  | zero =>
    obtain ⟨row, hrow⟩ := List.exists_mem_of_ne_nil _ (paths_ne_nil hv)
    exact absurd (hfuel row hrow) (Nat.not_lt_zero _)
  | succ fuel =>
    by_cases hmembers : v.members = []
    · rw [paths_of_no_members hmembers, canonical_of_no_members hmembers]
      rfl
    · have hpaths := paths_of_members hmembers
      have hgroups : groupRuns v.paths = v.members.map fun e ↦ (e.1, e.2.paths) := by
        rw [hpaths]
        have hflat : (v.members.flatMap fun e ↦ prepend e.1 e.2.paths) =
            (v.members.map fun e ↦ (e.1, e.2.paths)).flatMap
              fun group ↦ prepend group.1 group.2 := by
          rw [List.flatMap_map]
        rw [hflat]
        apply groupRuns_flatMap
        · intro group hgroup
          obtain ⟨e, he, rfl⟩ := List.mem_map.mp hgroup
          exact paths_ne_nil (hv.of_mem_members e he)
        · rw [List.map_map]
          exact hv.nodup_members
      have hsteps : ∀ row ∈ v.paths, row.1 ≠ [] := by
        rw [hpaths]
        intro row hrow
        obtain ⟨e, -, hrow⟩ := List.mem_flatMap.mp hrow
        obtain ⟨below, -, rfl⟩ := List.mem_map.mp hrow
        exact List.cons_ne_nil _ _
      have hbelow : ∀ e ∈ v.members, rebuild fuel e.2.paths = some e.2.canonical := by
        intro e he
        refine ih e he fuel fun row hrow ↦ ?_
        have hlong : (e.1 :: row.1, row.2) ∈ v.paths := by
          rw [hpaths]
          exact List.mem_flatMap.mpr ⟨e, he, List.mem_map_of_mem hrow⟩
        exact Nat.lt_of_succ_lt_succ (hfuel _ hlong)
      rw [rebuild_of_paths (paths_ne_nil hv) hsteps, hgroups, List.mapM_map,
        mapM_eq_some (g := fun e ↦ (e.1, e.2.canonical)) fun e he ↦ by
          show (rebuild fuel e.2.paths).map _ = _
          rw [hbelow e he]
          rfl,
        Option.map_some, canonical_of_members hmembers]

end AgentOdometer.Report
