import Mathlib.Data.List.Nodup

/-!
# Tables as lists of rows

A table is the list of its rows in insertion order; each row carries its own key. An update
rewrites the rows it selects in place, and an upsert inserts a row whose key is new and
merges it into the stored row otherwise.
-/

namespace AgentOdometer.Table

variable {κ ρ : Type} [DecidableEq κ] (key : ρ → κ)

/-- `SELECT … WHERE key = k`. -/
def lookup (k : κ) (rows : List ρ) : Option ρ :=
  rows.find? fun row ↦ key row = k

/-- `UPDATE … SET f WHERE p`. -/
def updateWhere (p : ρ → Bool) (f : ρ → ρ) (rows : List ρ) : List ρ :=
  rows.map fun row ↦ if p row then f row else row

/-- `UPDATE … SET f WHERE key = k`. -/
def update (k : κ) (f : ρ → ρ) (rows : List ρ) : List ρ :=
  updateWhere (fun row ↦ key row = k) f rows

/-- `INSERT … ON CONFLICT(key) DO UPDATE SET merge`; the first argument of `merge` is the
row to insert. -/
def upsert (merge : ρ → ρ → ρ) (rows : List ρ) (row : ρ) : List ρ :=
  if key row ∈ rows.map key then update key (key row) (merge row) rows else rows ++ [row]

/-- The rows which upserting a list inserts, where the keys `seen` are stored already. -/
def inserted (seen : List κ) : List ρ → List ρ
  | [] => []
  | row :: rest =>
      if key row ∈ seen then inserted seen rest else row :: inserted (key row :: seen) rest

/-- The rows which upserting a list merges, where the keys `seen` are stored already. -/
def merged (seen : List κ) : List ρ → List ρ
  | [] => []
  | row :: rest =>
      if key row ∈ seen then row :: merged seen rest else merged (key row :: seen) rest

variable {key} {p : ρ → Bool} {f : ρ → ρ} {k k' : κ} {row : ρ} {rows : List ρ}

/-! ### Lookup -/

theorem mem_of_lookup (h : lookup key k rows = some row) : row ∈ rows :=
  List.mem_of_find?_eq_some h

theorem key_of_lookup (h : lookup key k rows = some row) : key row = k := by
  simpa using List.find?_some h

theorem lookup_eq_none_iff : lookup key k rows = none ↔ k ∉ rows.map key := by
  unfold lookup
  simp [List.find?_eq_none]

theorem exists_lookup (h : k ∈ rows.map key) : ∃ row, lookup key k rows = some row := by
  cases hrow : lookup key k rows with
  | none => exact absurd h (lookup_eq_none_iff.mp hrow)
  | some row => exact ⟨row, rfl⟩

theorem mem_keys_of_lookup (h : lookup key k rows = some row) : k ∈ rows.map key := by
  rw [← key_of_lookup h]
  exact List.mem_map_of_mem (mem_of_lookup h)

theorem lookup_append : lookup key k (rows ++ [row]) =
    (lookup key k rows).or (if key row = k then some row else none) := by
  unfold lookup
  rw [List.find?_append]
  by_cases h : key row = k <;> simp [h]

/-! ### Updates -/

theorem mem_updateWhere :
    row ∈ updateWhere p f rows ↔ ∃ r ∈ rows, (if p r then f r else r) = row :=
  List.mem_map

theorem mem_update :
    row ∈ update key k f rows ↔ ∃ r ∈ rows, (if key r = k then f r else r) = row := by
  unfold update
  simp [mem_updateWhere]

omit [DecidableEq κ] in
theorem keys_updateWhere (hf : ∀ row, key (f row) = key row) :
    (updateWhere p f rows).map key = rows.map key := by
  unfold updateWhere
  rw [List.map_map]
  apply List.map_congr_left
  intro r _
  simp only [Function.comp_apply]
  split
  · exact hf r
  · rfl

theorem keys_update (hf : ∀ row, key (f row) = key row) :
    (update key k f rows).map key = rows.map key :=
  keys_updateWhere hf

theorem lookup_updateWhere (hf : ∀ row, key (f row) = key row) :
    lookup key k (updateWhere p f rows) =
      (lookup key k rows).map fun row ↦ if p row then f row else row := by
  unfold lookup updateWhere
  rw [List.find?_map]
  congr 2
  funext r
  simp only [Function.comp_apply]
  split
  · rw [hf r]
  · rfl

theorem lookup_update_self (hf : ∀ row, key (f row) = key row) :
    lookup key k (update key k f rows) = (lookup key k rows).map f := by
  unfold update
  rw [lookup_updateWhere hf]
  cases h : lookup key k rows with
  | none => rfl
  | some r => simp [key_of_lookup h]

theorem lookup_update_ne (hf : ∀ row, key (f row) = key row) (hne : k' ≠ k) :
    lookup key k' (update key k f rows) = lookup key k' rows := by
  unfold update
  rw [lookup_updateWhere hf]
  cases h : lookup key k' rows with
  | none => rfl
  | some r => simp [key_of_lookup h, hne]

/-! ### Upserts -/

section Upsert

variable {merge : ρ → ρ → ρ} {seen seen' : List κ} {new : List ρ}

theorem upsert_of_notMem (h : key row ∉ rows.map key) :
    upsert key merge rows row = rows ++ [row] :=
  if_neg h

theorem upsert_of_mem (h : key row ∈ rows.map key) :
    upsert key merge rows row = update key (key row) (merge row) rows :=
  if_pos h

/-- The row of an upserted key. -/
theorem lookup_upsert_self (hkey : ∀ new old, key (merge new old) = key old) :
    lookup key (key row) (upsert key merge rows row) =
      some (((lookup key (key row) rows).map (merge row)).getD row) := by
  by_cases hmem : key row ∈ rows.map key
  · obtain ⟨old, hold⟩ := exists_lookup hmem
    rw [upsert_of_mem hmem, lookup_update_self (hkey row), hold]
    rfl
  · rw [upsert_of_notMem hmem, lookup_append, lookup_eq_none_iff.mpr hmem]
    simp

/-- Upserting leaves the rows of other keys. -/
theorem lookup_upsert_ne (hkey : ∀ new old, key (merge new old) = key old) (hne : k ≠ key row) :
    lookup key k (upsert key merge rows row) = lookup key k rows := by
  by_cases hmem : key row ∈ rows.map key
  · rw [upsert_of_mem hmem, lookup_update_ne (hkey row) hne]
  · rw [upsert_of_notMem hmem, lookup_append, if_neg (Ne.symm hne), Option.or_none]

/-- Upserting adds the key of the row. -/
theorem mem_keys_upsert (hkey : ∀ new old, key (merge new old) = key old) :
    k ∈ (upsert key merge rows row).map key ↔ k ∈ rows.map key ∨ k = key row := by
  by_cases hmem : key row ∈ rows.map key
  · rw [upsert_of_mem hmem, keys_update (hkey row)]
    constructor
    · exact Or.inl
    · rintro (h | rfl)
      · exact h
      · exact hmem
  · rw [upsert_of_notMem hmem]
    simp

theorem inserted_congr (hseen : ∀ k, k ∈ seen ↔ k ∈ seen') :
    inserted key seen new = inserted key seen' new := by
  induction new generalizing seen seen' with
  | nil => rfl
  | cons row rest ih =>
    have hcons : inserted key (key row :: seen) rest = inserted key (key row :: seen') rest := by
      apply ih
      intro k
      simp only [List.mem_cons, hseen]
    simp only [inserted, hseen]
    rw [ih hseen, hcons]

/-- Every row is either inserted or merged. -/
theorem inserted_append_merged_perm :
    (inserted key seen new ++ merged key seen new).Perm new := by
  induction new generalizing seen with
  | nil => exact List.Perm.refl []
  | cons row rest ih =>
    unfold inserted merged
    split
    · exact List.perm_middle.trans (ih.cons row)
    · exact ih.cons row

/-- Rows with new and distinct keys are all inserted. -/
theorem inserted_eq_self (hnodup : (new.map key).Nodup) (hnew : ∀ row ∈ new, key row ∉ seen) :
    inserted key seen new = new := by
  induction new generalizing seen with
  | nil => rfl
  | cons row rest ih =>
    rw [List.map_cons, List.nodup_cons] at hnodup
    unfold inserted
    rw [if_neg (hnew row List.mem_cons_self), ih hnodup.2]
    intro r hr
    rw [List.mem_cons, not_or]
    refine ⟨?_, hnew r (List.mem_cons_of_mem row hr)⟩
    intro hkey
    rw [← hkey] at hnodup
    exact hnodup.1 (List.mem_map_of_mem hr)

/-- A column which merging keeps is extended by the inserted rows. -/
theorem map_foldl_upsert {γ : Type} (g : ρ → γ) (hg : ∀ new old, g (merge new old) = g old)
    (hkey : ∀ new old, key (merge new old) = key old) (rows new : List ρ) :
    (new.foldl (upsert key merge) rows).map g =
      rows.map g ++ (inserted key (rows.map key) new).map g := by
  induction new generalizing rows with
  | nil => simp [inserted]
  | cons row rest ih =>
    rw [List.foldl_cons, ih]
    by_cases hmem : key row ∈ rows.map key
    · rw [upsert_of_mem hmem, keys_update (hkey row)]
      have hcolumn : (update key (key row) (merge row) rows).map g = rows.map g := by
        unfold update updateWhere
        rw [List.map_map]
        apply List.map_congr_left
        intro r _
        simp only [Function.comp_apply]
        split
        · exact hg row r
        · rfl
      rw [hcolumn, inserted, if_pos hmem]
    · rw [upsert_of_notMem hmem, inserted, if_neg hmem, List.map_append, List.append_assoc]
      congr 1
      have hseen : ∀ k, k ∈ (rows ++ [row]).map key ↔ k ∈ key row :: rows.map key := by
        intro k
        simp only [List.map_append, List.mem_append, List.map_cons, List.map_nil,
          List.mem_cons, List.not_mem_nil, or_false]
        exact or_comm
      rw [inserted_congr hseen]
      rfl

/-- Rows with new and distinct keys are appended. -/
theorem foldl_upsert_of_fresh (hnodup : (new.map key).Nodup)
    (hnew : ∀ row ∈ new, key row ∉ rows.map key) :
    new.foldl (upsert key merge) rows = rows ++ new := by
  induction new generalizing rows with
  | nil => simp
  | cons row rest ih =>
    rw [List.map_cons, List.nodup_cons] at hnodup
    rw [List.foldl_cons, upsert_of_notMem (hnew row List.mem_cons_self), ih hnodup.2]
    · simp
    · intro r hr
      simp only [List.map_append, List.mem_append, List.map_cons, List.map_nil,
        List.mem_singleton, not_or]
      refine ⟨hnew r (List.mem_cons_of_mem row hr), ?_⟩
      intro hkey
      rw [← hkey] at hnodup
      exact hnodup.1 (List.mem_map_of_mem hr)

end Upsert

end AgentOdometer.Table
