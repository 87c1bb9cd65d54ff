import AgentOdometer.Report.Decode

/-!
# What an export loses

Two values have one export exactly when they differ in objects whose keys are the positions of an
array.
-/

namespace AgentOdometer.Report

variable {ν : Type}

/-! ### The canonical form -/

theorem map_eq_self_iff {α : Type} {f : α → α} {l : List α} :
    l.map f = l ↔ ∀ a ∈ l, f a = a := by
  induction l with
  | nil => simp
  | cons a l ih => simp [ih]

theorem map_fst_canonical (entries : List (String × Value ν)) :
    (entries.map fun e ↦ (e.1, e.2.canonical)).map Prod.fst = entries.map Prod.fst := by
  rw [List.map_map]
  rfl

theorem container_of_keys {members : List (String × Value ν)}
    (h : members ≠ [] → members.map Prod.fst ≠ indices members.length) :
    container members = .object members :=
  if_neg fun hlist ↦ h hlist.1 hlist.2

theorem members_container (members : List (String × Value ν)) :
    (container members).members = members := by
  unfold container
  split
  · rename_i hlist
    apply List.ext_getElem
    · simp [Value.members]
    · intro n hn hn'
      have hkey : (members.map Prod.fst)[n]? = (indices members.length)[n]? := by rw [hlist.2]
      simp only [indices, List.getElem?_map, List.getElem?_eq_getElem hn', Option.map_some,
        List.getElem?_range hn', Option.some.injEq] at hkey
      refine Prod.ext ?_ ?_
      · simpa [Value.members] using hkey.symm
      · simp [Value.members]
  · rfl

theorem members_canonical (v : Value ν) :
    v.canonical.members = v.members.map fun e ↦ (e.1, e.2.canonical) := by
  by_cases hmembers : v.members = []
  · rw [canonical_of_no_members hmembers, hmembers]
    rfl
  · rw [canonical_of_members hmembers, members_container]

/-- The canonical form has the leaves of the value. -/
theorem paths_canonical {v : Value ν} (hv : v.IsValid) : v.canonical.paths = v.paths := by
  refine hv.induct fun v _ ih ↦ ?_
  by_cases hmembers : v.members = []
  · rw [canonical_of_no_members hmembers]
  · have hne : v.canonical.members ≠ [] := by
      rw [members_canonical]
      simpa using hmembers
    rw [paths_of_members hne, paths_of_members hmembers, members_canonical, List.flatMap_map]
    apply List.flatMap_congr
    intro e he
    show PathGroups.prepend e.1 e.2.canonical.paths = _
    rw [ih e he]

theorem isValid_canonical {v : Value ν} (hv : v.IsValid) : v.canonical.IsValid := by
  induction hv with
  | array _ ih =>
    rw [Value.canonical, arrayCanonical_eq]
    exact .array (List.forall_mem_map.mpr ih)
  | @object entries hkeys _ ih =>
    rw [Value.canonical, objectCanonical_eq, container]
    split
    · rw [List.map_map]
      exact .array (List.forall_mem_map.mpr ih)
    · refine .object ?_ (List.forall_mem_map.mpr ih)
      rwa [map_fst_canonical]
  | null => exact .null
  | bool b => exact .bool b
  | number n => exact .number n
  | string s => exact .string s

theorem isPlain_canonical {v : Value ν} (hv : v.IsValid) : v.canonical.IsPlain := by
  induction hv with
  | array _ ih =>
    rw [Value.canonical, arrayCanonical_eq]
    exact .array (List.forall_mem_map.mpr ih)
  | @object entries _ _ ih =>
    rw [Value.canonical, objectCanonical_eq, container]
    split
    · rw [List.map_map]
      exact .array (List.forall_mem_map.mpr ih)
    · rename_i hkeys
      exact .object (fun hne heq ↦ hkeys ⟨hne, heq⟩) (List.forall_mem_map.mpr ih)
  | null => exact .null
  | bool b => exact .bool b
  | number n => exact .number n
  | string s => exact .string s

/-- A plain value is its own canonical form. -/
theorem canonical_of_isPlain {v : Value ν} (h : v.IsPlain) : v.canonical = v := by
  induction h with
  | array _ ih => rw [Value.canonical, arrayCanonical_eq, map_eq_self_iff.mpr ih]
  | @object entries hkeys _ ih =>
    have hmembers : (entries.map fun e ↦ (e.1, e.2.canonical)) = entries :=
      map_eq_self_iff.mpr fun e he ↦ Prod.ext rfl (ih e he)
    rw [Value.canonical, objectCanonical_eq, hmembers, container_of_keys hkeys]
  | _ => rfl

theorem canonical_eq_self_iff {v : Value ν} (hv : v.IsValid) : v.canonical = v ↔ v.IsPlain :=
  ⟨fun h ↦ h ▸ isPlain_canonical hv, canonical_of_isPlain⟩

variable [JsonNumber ν]

/-- The canonical form has the export of the value. -/
theorem csv_canonical (report : String) {v : Value ν} (hv : v.IsValid) :
    csv report v.canonical = csv report v := by
  rw [csv, csv, leaves_eq hv, leaves_eq (isValid_canonical hv), paths_canonical hv]

/-- The wrapping of a report adds no ambiguity. -/
theorem isPlain_envelope (report : String) {data : Value ν} (h : data.IsPlain) :
    (envelope report data).IsPlain := by
  refine .object (fun _ ↦ ?_) ?_
  · show ["data", "report", "schema_version"] ≠ indices 3
    decide
  · simp only [List.forall_mem_cons]
    exact ⟨h, .string report, .number _, fun _ h ↦ nomatch h⟩

/-- A value is read back from its export exactly when no object of it has entries under the
positions of an array; another value has the same export when one has. -/
theorem csv_lossless_iff (parse : String → Option ν)
    (hparse : ∀ n, parse (JsonNumber.text n) = some n) (report : String) {v : Value ν}
    (hv : v.IsValid) :
    (decode parse (csv report v) = some (report, v) ↔ v.IsPlain) ∧
      (¬ v.IsPlain → ∃ w : Value ν, w ≠ v ∧ w.IsValid ∧ csv report w = csv report v) := by
  rw [decode_csv hparse report hv, Option.some.injEq, Prod.mk.injEq, canonical_eq_self_iff hv]
  refine ⟨⟨And.right, fun h ↦ ⟨rfl, h⟩⟩, fun h ↦ ?_⟩
  exact ⟨v.canonical, fun heq ↦ h ((canonical_eq_self_iff hv).mp heq), isValid_canonical hv,
    csv_canonical report hv⟩

/-- The whole numbers which a report can hold. -/
instance : JsonNumber Nat :=
  ⟨id, toString⟩

/-- An object with a key which is no position is read back. -/
theorem keyed_object_lossless :
    decode String.toNat? (csv "tools" (.object [("a/b", .array [.number 7, .string "x,y"])])) =
      some ("tools", .object [("a/b", .array [.number 7, .string "x,y"])]) := by
  have hplain : (Value.object [("a/b", .array [.number 7, .string "x,y"])] :
    Value Nat).IsPlain := by
    refine .object (fun _ ↦ ?_) ?_
    · show ["a/b"] ≠ indices 1
      decide
    · simp only [List.forall_mem_cons]
      exact ⟨.array (by simpa using ⟨.number 7, .string "x,y"⟩), fun _ h ↦ nomatch h⟩
  have hvalid : (Value.object [("a/b", .array [.number 7, .string "x,y"])] :
    Value Nat).IsValid := by
    refine .object (List.pairwise_singleton _ _) ?_
    simp only [List.forall_mem_cons]
    exact ⟨.array (by simpa using ⟨.number 7, .string "x,y"⟩), fun _ h ↦ nomatch h⟩
  exact (csv_lossless_iff String.toNat? Nat.toNat?_repr "tools" hvalid).1.mpr hplain

/-- An object with the key `0` has the export of an array of one entry. -/
theorem indexed_object_lost : ¬ ∃ decoder : String → Value Nat,
    ∀ report (v : Value Nat), v.IsValid → decoder (csv report v) = v := by
  rintro ⟨decoder, hdecoder⟩
  have harray : (Value.array [.null] : Value Nat).IsValid := .array (by simpa using .null)
  have hobject : (Value.object [("0", .null)] : Value Nat).IsValid :=
    .object (List.pairwise_singleton _ _) (by simpa using .null)
  have hsame : csv "tools" (.object [("0", .null)] : Value Nat) =
      csv "tools" (.array [.null] : Value Nat) := by
    decide
  have hlost := hdecoder "tools" _ hobject
  rw [hsame, hdecoder "tools" _ harray] at hlost
  cases hlost

end AgentOdometer.Report
