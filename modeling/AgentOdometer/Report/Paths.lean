import AgentOdometer.Lib.PathGroups
import AgentOdometer.Report.Output
import Mathlib.Data.List.Enum

/-!
# The leaves of a value

The leaves with the steps which lead to them, and the value which they determine: an object whose
keys are the positions of an array is read as that array.
-/

namespace AgentOdometer.Report

open PathGroups

variable {ν : Type}

mutual

/-- The leaves of a value, each with the keys and positions above it. -/
def Value.paths : Value ν → List (List String × Value ν)
  | .null => [([], .null)]
  | .bool b => [([], .bool b)]
  | .number n => [([], .number n)]
  | .string s => [([], .string s)]
  | .array [] => [([], .array [])]
  | .array (entry :: entries) => arrayPaths (entry :: entries) 0
  | .object [] => [([], .object [])]
  | .object (entry :: entries) => objectPaths (entry :: entries)

def arrayPaths : List (Value ν) → Nat → List (List String × Value ν)
  | [], _ => []
  | child :: entries, index =>
      prepend (toString index) child.paths ++ arrayPaths entries (index + 1)

def objectPaths : List (String × Value ν) → List (List String × Value ν)
  | [] => []
  | (key, child) :: entries => prepend key child.paths ++ objectPaths entries

end

/-- The positions of an array, as they stand in paths. -/
def indices (n : Nat) : List String :=
  (List.range n).map toString

/-- The container whose entries stand under some keys. -/
def container (members : List (String × Value ν)) : Value ν :=
  if members ≠ [] ∧ members.map Prod.fst = indices members.length then
    .array (members.map Prod.snd)
  else .object members

mutual

/-- The value with every object whose keys are positions read as an array. -/
def Value.canonical : Value ν → Value ν
  | .null => .null
  | .bool b => .bool b
  | .number n => .number n
  | .string s => .string s
  | .array entries => .array (arrayCanonical entries)
  | .object entries => container (objectCanonical entries)

def arrayCanonical : List (Value ν) → List (Value ν)
  | [] => []
  | child :: entries => child.canonical :: arrayCanonical entries

def objectCanonical : List (String × Value ν) → List (String × Value ν)
  | [] => []
  | (key, child) :: entries => (key, child.canonical) :: objectCanonical entries

end

/-- No object has entries under the positions of an array. -/
inductive Value.IsPlain : Value ν → Prop
  | null : IsPlain .null
  | bool (b : Bool) : IsPlain (.bool b)
  | number (n : ν) : IsPlain (.number n)
  | string (s : String) : IsPlain (.string s)
  | array {entries : List (Value ν)} (hentries : ∀ e ∈ entries, IsPlain e) :
      IsPlain (.array entries)
  | object {entries : List (String × Value ν)}
      (hkeys : entries ≠ [] → entries.map Prod.fst ≠ indices entries.length)
      (hentries : ∀ e ∈ entries, IsPlain e.2) : IsPlain (.object entries)

/-- The members of a container, by position or key. -/
def Value.members : Value ν → List (String × Value ν)
  | .array entries => entries.mapIdx fun index child ↦ (toString index, child)
  | .object entries => entries
  | _ => []

theorem arrayCanonical_eq (entries : List (Value ν)) :
    arrayCanonical entries = entries.map Value.canonical := by
  induction entries with
  | nil => rfl
  | cons child entries ih => rw [arrayCanonical, ih, List.map_cons]

theorem objectCanonical_eq (entries : List (String × Value ν)) :
    objectCanonical entries = entries.map fun e ↦ (e.1, e.2.canonical) := by
  induction entries with
  | nil => rfl
  | cons e entries ih => rw [objectCanonical, ih, List.map_cons]

theorem objectPaths_eq (entries : List (String × Value ν)) :
    objectPaths entries = entries.flatMap fun e ↦ prepend e.1 e.2.paths := by
  induction entries with
  | nil => rfl
  | cons e entries ih => rw [objectPaths, ih, List.flatMap_cons]

theorem arrayPaths_eq (entries : List (Value ν)) (index : Nat) :
    arrayPaths entries index =
      (entries.mapIdx fun i child ↦ (toString (index + i), child)).flatMap
        fun e ↦ prepend e.1 e.2.paths := by
  induction entries generalizing index with
  | nil => rfl
  | cons child entries ih =>
    rw [arrayPaths, ih, List.mapIdx_cons, List.flatMap_cons]
    simp [Nat.add_assoc, Nat.add_comm 1]

theorem paths_of_members {v : Value ν} (h : v.members ≠ []) :
    v.paths = v.members.flatMap fun e ↦ prepend e.1 e.2.paths := by
  cases v with
  | array entries =>
    cases entries with
    | nil => exact absurd rfl h
    | cons child entries => simp [Value.paths, arrayPaths_eq, Value.members]
  | object entries =>
    cases entries with
    | nil => exact absurd rfl h
    | cons e entries => rw [Value.paths, objectPaths_eq]; rfl
  | _ => exact absurd rfl h

theorem paths_of_no_members {v : Value ν} (h : v.members = []) : v.paths = [([], v)] := by
  cases v with
  | array entries =>
    have hnil : entries = [] := by simpa [Value.members] using h
    rw [hnil]
    rfl
  | object entries =>
    have hnil : entries = [] := h
    rw [hnil]
    rfl
  | _ => rfl

theorem canonical_of_no_members {v : Value ν} (h : v.members = []) : v.canonical = v := by
  cases v with
  | array entries =>
    have hnil : entries = [] := by simpa [Value.members] using h
    rw [hnil]
    rfl
  | object entries =>
    have hnil : entries = [] := h
    rw [hnil]
    rfl
  | _ => rfl

theorem map_fst_mapIdx (entries : List (Value ν)) :
    (entries.mapIdx fun index child ↦ (toString index, child)).map Prod.fst =
      indices entries.length := by
  apply List.ext_getElem
  · simp [indices]
  · intro n _ _
    simp [indices]

theorem canonical_of_members {v : Value ν} (h : v.members ≠ []) :
    v.canonical = container (v.members.map fun e ↦ (e.1, e.2.canonical)) := by
  cases v with
  | array entries =>
    have hne : entries ≠ [] := by
      simpa [Value.members] using h
    rw [Value.canonical, arrayCanonical_eq, container, if_pos]
    · congr 1
      apply List.ext_getElem <;> simp [Value.members]
    · refine ⟨by simpa [Value.members] using hne, ?_⟩
      rw [List.map_map, List.length_map, Value.members, List.length_mapIdx]
      exact map_fst_mapIdx entries
  | object entries => rw [Value.canonical, objectCanonical_eq]; rfl
  | _ => exact absurd rfl h

end AgentOdometer.Report
