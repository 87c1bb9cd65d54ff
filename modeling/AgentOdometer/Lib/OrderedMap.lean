import AgentOdometer.Lib.Keys
import Mathlib.Data.List.Perm.Subperm

/-!
# Ordered maps as sorted lists

Support for reading an ordered map through its ascending entry list, and for removing its
smallest entries.
-/

namespace AgentOdometer.OrderedMap

open Std (ExtTreeMap)

variable {α β : Type} [Ord α] [Std.TransOrd α]

/-- Order of entries by key. -/
def keyLt (a b : α × β) : Prop :=
  compare a.1 b.1 = .lt

theorem keyLt_irrefl (a : α × β) : ¬ keyLt a a := by
  simp [keyLt]

theorem keyLt_trans {a b c : α × β} (hab : keyLt a b) (hbc : keyLt b c) : keyLt a c :=
  Std.TransCmp.lt_trans hab hbc

theorem keyLt_asymm {a b : α × β} (hab : keyLt a b) : ¬ keyLt b a :=
  fun hba ↦ keyLt_irrefl a (keyLt_trans hab hba)

theorem nodup_of_pairwise_keyLt {l : List (α × β)} (hl : l.Pairwise keyLt) : l.Nodup := by
  apply hl.imp
  rintro a b hab rfl
  exact keyLt_irrefl a hab

variable {m : ExtTreeMap α β}

/-- Remove the `n` smallest keys in ascending order, stopping when the map is empty. -/
def popFirst : Nat → ExtTreeMap α β → List α × ExtTreeMap α β
  | 0, m => ([], m)
  | n + 1, m =>
      match m.minKey? with
      | none => ([], m)
      | some k =>
          let (popped, rest) := popFirst n (m.erase k)
          (k :: popped, rest)

theorem popFirst_of_minKey?_none {n : Nat} (h : m.minKey? = none) :
    popFirst (n + 1) m = ([], m) := by
  simp only [popFirst, h]

theorem popFirst_of_minKey?_some {n : Nat} {a : α} (h : m.minKey? = some a) :
    popFirst (n + 1) m = (a :: (popFirst n (m.erase a)).1, (popFirst n (m.erase a)).2) := by
  simp only [popFirst, h]

/-- `popFirst` pops keys of the map. -/
theorem mem_of_mem_popFirst (n : Nat) (m : ExtTreeMap α β) {k : α}
    (h : k ∈ (popFirst n m).1) : k ∈ m := by
  induction n generalizing m with
  | zero => simp [popFirst] at h
  | succ n ih =>
    cases hmin : m.minKey? with
    | none => simp [popFirst_of_minKey?_none hmin] at h
    | some a =>
      rw [popFirst_of_minKey?_some hmin, List.mem_cons] at h
      obtain rfl | h := h
      · exact ExtTreeMap.minKey?_mem hmin
      · exact (ExtTreeMap.mem_erase.mp (ih _ h)).2

/-- The smallest key is popped first. -/
theorem minKey_mem_popFirst {n : Nat} {a : α} (h : m.minKey? = some a) (hn : 0 < n) :
    a ∈ (popFirst n m).1 := by
  obtain ⟨n, rfl⟩ := Nat.exists_eq_add_of_lt hn
  rw [Nat.zero_add, popFirst_of_minKey?_some h]
  exact List.mem_cons_self

/-- Each popped key makes the map smaller by one. -/
theorem size_popFirst (n : Nat) (m : ExtTreeMap α β) : (popFirst n m).2.size = m.size - n := by
  induction n generalizing m with
  | zero => rfl
  | succ n ih =>
    cases hmin : m.minKey? with
    | none =>
      rw [popFirst_of_minKey?_none hmin]
      rw [ExtTreeMap.minKey?_eq_none_iff] at hmin
      rw [hmin, ExtTreeMap.size_empty, Nat.zero_sub]
    | some a =>
      have hmem : m.contains a = true := ExtTreeMap.minKey?_mem hmin
      rw [popFirst_of_minKey?_some hmin, ih, ExtTreeMap.size_erase, if_pos hmem]
      omega

variable [Std.LawfulEqOrd α]

/-- A strictly ascending list with the entries of a map is its entry list. -/
theorem toList_eq_of_pairwise {l : List (α × β)} (hl : l.Pairwise keyLt)
    (hmem : ∀ e, e ∈ l ↔ m[e.1]? = some e.2) : m.toList = l := by
  have hm : m.toList.Pairwise keyLt := ExtTreeMap.ordered_keys_toList
  have hperm : m.toList.Perm l := by
    rw [List.perm_ext_iff_of_nodup (nodup_of_pairwise_keyLt hm) (nodup_of_pairwise_keyLt hl)]
    rintro ⟨k, v⟩
    rw [ExtTreeMap.mem_toList_iff_getElem?_eq_some, hmem]
  exact hperm.eq_of_pairwise (fun a b _ _ hab hba ↦ absurd hba (keyLt_asymm hab)) hm hl

/-- What remains after `popFirst` is the map without the popped keys. -/
theorem getElem?_popFirst [DecidableEq α] (n : Nat) (m : ExtTreeMap α β) (k : α) :
    (popFirst n m).2[k]? = if k ∈ (popFirst n m).1 then none else m[k]? := by
  induction n generalizing m with
  | zero => simp [popFirst]
  | succ n ih =>
    cases hmin : m.minKey? with
    | none => simp [popFirst_of_minKey?_none hmin]
    | some a =>
      rw [popFirst_of_minKey?_some hmin]
      simp only [List.mem_cons]
      rw [ih, ExtTreeMap.getElem?_erase]
      by_cases hka : k = a
      · simp [hka]
      · have hak : ¬ a = k := fun h ↦ hka h.symm
        simp [hka, hak]

/-- A map has at least as many entries as any list of distinct keys of it. -/
theorem length_le_size {keys : List α} (hnodup : keys.Nodup) (hkeys : ∀ k ∈ keys, k ∈ m) :
    keys.length ≤ m.size := by
  rw [← ExtTreeMap.length_keys]
  exact (hnodup.subperm fun k hk ↦ ExtTreeMap.mem_keys.mpr (hkeys k hk)).length_le

/-- A map has at most as many entries as a list which contains all its keys. -/
theorem size_le_length {keys : List α} (hkeys : ∀ k ∈ m, k ∈ keys) : m.size ≤ keys.length := by
  rw [← ExtTreeMap.length_keys]
  have hnodup : m.keys.Nodup := by
    apply ExtTreeMap.distinct_keys.imp
    rintro a b hab rfl
    simp at hab
  exact (hnodup.subperm fun k hk ↦ hkeys k (ExtTreeMap.mem_keys.mp hk)).length_le

/-- The last entry of the entry list is the entry with the greatest key. -/
theorem getLast?_toList {e : α × β} (h : m.toList.getLast? = some e) :
    m[e.1]? = some e.2 ∧ ∀ k ∈ m, k ≠ e.1 → compare k e.1 = .lt := by
  have hmem : e ∈ m.toList := List.mem_of_getLast? h
  refine ⟨ExtTreeMap.mem_toList_iff_getElem?_eq_some.mp hmem, ?_⟩
  intro k hk hne
  obtain ⟨init, hinit⟩ := List.getLast?_eq_some_iff.mp h
  have hpair : m.toList.Pairwise keyLt := ExtTreeMap.ordered_keys_toList
  rw [hinit, List.pairwise_append] at hpair
  have hget : m[k]? = some m[k] := ExtTreeMap.getElem?_eq_some_getElem hk
  have hmem' : (k, m[k]) ∈ m.toList := ExtTreeMap.mem_toList_iff_getElem?_eq_some.mpr hget
  rw [hinit, List.mem_append, List.mem_singleton] at hmem'
  obtain h | h := hmem'
  · exact hpair.2.2 _ h e (List.mem_singleton_self e)
  · exact absurd (congrArg Prod.fst h) hne

end AgentOdometer.OrderedMap
