import AgentOdometer.Pricing.Upgrade

/-!
# The tables of an upgraded card

What a merge of tables does to one id, and which ids it leaves for review
(`rates.rs:1137–1220,1326–1359`).
-/

namespace AgentOdometer.Pricing

open Std (ExtTreeMap)

variable {ν τ : Type}

/-! ### Keys -/

theorem toList_key (kind id : String) :
    (kind ++ "/" ++ id).toList = kind.toList ++ '/' :: id.toList := by
  rw [String.toList_append, String.toList_append, List.append_assoc]
  rfl

theorem key_inj {kind id id' : String} : kind ++ "/" ++ id = kind ++ "/" ++ id' ↔ id = id' := by
  rw [← String.toList_inj, toList_key, toList_key, List.append_cancel_left_eq, List.cons.injEq,
    String.toList_inj]
  exact and_iff_right rfl

/-- The keys of two tables differ when the names of the tables start differently. -/
theorem key_ne {kind kind' : String} (h : kind.toList.head? ≠ kind'.toList.head?)
    (hkind : kind.toList ≠ []) (hkind' : kind'.toList ≠ []) (id id' : String) :
    kind ++ "/" ++ id ≠ kind' ++ "/" ++ id' := by
  intro heq
  have hhead := congrArg (fun s : String ↦ s.toList.head?) heq
  simp only [toList_key, List.head?_append_of_ne_nil _ hkind,
    List.head?_append_of_ne_nil _ hkind'] at hhead
  exact h hhead

/-! ### Lists to review -/

theorem mem_pushNew {review : List String} {key new : String} :
    key ∈ pushNew review new ↔ key ∈ review ∨ key = new := by
  unfold pushNew
  split
  · next h =>
    constructor
    · exact Or.inl
    · rintro (h' | rfl)
      · exact h'
      · exact h
  · simp

theorem mem_foldl_pushNew {α : Type} {f : α → String} {items : List α} {review : List String}
    {key : String} : key ∈ items.foldl (fun review item ↦ pushNew review (f item)) review ↔
      key ∈ review ∨ ∃ item ∈ items, f item = key := by
  induction items generalizing review with
  | nil => simp
  | cons item rest ih =>
    rw [List.foldl_cons, ih, mem_pushNew, or_assoc]
    simp only [List.mem_cons, exists_eq_or_imp, eq_comm (a := key)]

theorem mem_sortDedup {review : List String} {key : String} :
    key ∈ sortDedup review ↔ key ∈ review := by
  unfold sortDedup
  rw [List.mem_dedup, (List.perm_insertionSort _ _).mem_iff]

/-! ### Merged tables -/

section Merge

variable [BEq τ] {bundled : ExtTreeMap String τ} {previous : Option (ExtTreeMap String τ)}
  {kind : String} {evidence : ExtTreeMap String PricingProvenance} {disk state : EntryMerge τ}
  {id key : String}

/-- The row of an id, and whether its key is to be reviewed. -/
def EntryMerge.status (kind id : String) (state : EntryMerge τ) : Option τ × Bool :=
  (state.table[id]?, decide (kind ++ "/" ++ id ∈ state.review))

omit [BEq τ] in
theorem EntryMerge.of_status {row : Option τ} {named : Bool}
    (h : state.status kind id = (row, named)) :
    state.table[id]? = row ∧ (named = true → kind ++ "/" ++ id ∈ state.review) := by
  refine ⟨congrArg Prod.fst h, ?_⟩
  rintro rfl
  exact of_decide_eq_true (congrArg Prod.snd h)

theorem status_mergeEntry_of_ne (entry : String × τ) (hne : entry.1 ≠ id) :
    (mergeEntry kind previous evidence state entry).status kind id = state.status kind id := by
  have hkey : kind ++ "/" ++ id ≠ kind ++ "/" ++ entry.1 := by
    intro h
    exact hne (key_inj.mp h).symm
  unfold mergeEntry EntryMerge.status
  simp only
  split
  · rw [ExtTreeMap.getElem?_insert, if_neg]
    · simp [hkey]
    · rw [Std.compare_eq_iff_eq]
      exact hne
  · simp only [mem_pushNew, or_iff_left hkey]

/-- The entry of an id: a default is replaced, an edit stays and is to be reviewed. -/
theorem status_mergeEntry_self (value : τ) :
    (mergeEntry kind previous evidence state (id, value)).status kind id =
      if isDefaultEntry previous state.table id then (some value, false)
      else (state.table[id]?, true) := by
  unfold mergeEntry EntryMerge.status
  cases isDefaultEntry previous state.table id with
  | true => simp
  | false => simp [mem_pushNew]

theorem isDefaultEntry_congr {table table' : ExtTreeMap String τ} (h : table[id]? = table'[id]?) :
    isDefaultEntry previous table id = isDefaultEntry previous table' id := by
  unfold isDefaultEntry
  rw [h]

theorem status_foldl_mergeEntry :
    (bundled.toList.foldl (mergeEntry kind previous evidence) disk).status kind id =
      (bundled[id]?.map fun value ↦
        if isDefaultEntry previous disk.table id then (some value, false)
        else (disk.table[id]?, true)).getD (disk.status kind id) := by
  have hlocal : ∀ (s t : EntryMerge τ) (entry : String × τ), entry.1 = id →
      s.status kind id = t.status kind id →
      (mergeEntry kind previous evidence s entry).status kind id =
        (mergeEntry kind previous evidence t entry).status kind id := by
    rintro s t ⟨entryId, value⟩ rfl hstatus
    have htable : s.table[entryId]? = t.table[entryId]? := congrArg Prod.fst hstatus
    rw [status_mergeEntry_self, status_mergeEntry_self, isDefaultEntry_congr htable, htable]
  rw [KeyedFold.foldl_toList (fun _ entry ↦ status_mergeEntry_of_ne entry) hlocal]
  simp only [status_mergeEntry_self]

theorem mem_review_mergeDefaultEntries : key ∈
    (mergeDefaultEntries bundled previous kind evidence disk).review ↔
      key ∈ (bundled.toList.foldl (mergeEntry kind previous evidence) disk).review ∨
        ∃ id, (bundled.toList.foldl (mergeEntry kind previous evidence) disk).table[id]? ≠ none ∧
          bundled[id]? = none ∧ kind ++ "/" ++ id = key := by
  unfold mergeDefaultEntries
  simp only
  rw [mem_foldl_pushNew]
  simp only [List.mem_filter, ExtTreeMap.mem_keys, ExtTreeMap.mem_iff_isSome_getElem?,
    ExtTreeMap.contains_eq_isSome_getElem?, Option.isSome_iff_ne_none, Bool.not_eq_true',
    Option.isSome_eq_false_iff, Option.isNone_iff_eq_none, and_assoc]

/-- An id after the merge: the bundle's row in the place of a default, a kept row for review. -/
theorem status_mergeDefaultEntries :
    (mergeDefaultEntries bundled previous kind evidence disk).status kind id =
      (bundled[id]?.map fun value ↦
        if isDefaultEntry previous disk.table id then (some value, false)
        else (disk.table[id]?, true)).getD
          (disk.table[id]?, (disk.status kind id).2 || disk.table[id]?.isSome) := by
  have hstatus : (mergeDefaultEntries bundled previous kind evidence disk).status kind id =
      let merged := (bundled.toList.foldl (mergeEntry kind previous evidence) disk).status kind id
      (merged.1, merged.2 || (merged.1.isSome && bundled[id]?.isNone)) := by
    apply Prod.ext
    · rfl
    · rw [Bool.eq_iff_iff]
      simp only [EntryMerge.status, mem_review_mergeDefaultEntries, key_inj, Bool.or_eq_true,
        Bool.and_eq_true, decide_eq_true_eq, Option.isSome_iff_ne_none, Option.isNone_iff_eq_none]
      apply or_congr_right
      constructor
      · rintro ⟨_, hrow, hnew, rfl⟩
        exact ⟨hrow, hnew⟩
      · rintro ⟨hrow, hnew⟩
        exact ⟨id, hrow, hnew, rfl⟩
  rw [hstatus, status_foldl_mergeEntry]
  cases bundled[id]? with
  | none => simp [EntryMerge.status]
  | some value =>
    simp only [Option.map_some, Option.getD_some, Option.isNone_some, Bool.and_false,
      Bool.or_false]

theorem mem_review_foldl_mergeEntry_of_ne {entries : List (String × τ)}
    (hne : ∀ id, key ≠ kind ++ "/" ++ id) :
    key ∈ (entries.foldl (mergeEntry kind previous evidence) state).review ↔
      key ∈ state.review := by
  induction entries generalizing state with
  | nil => exact Iff.rfl
  | cons entry rest ih =>
    rw [List.foldl_cons, ih]
    unfold mergeEntry
    simp only
    split
    · simp [hne entry.1]
    · simp [mem_pushNew, hne entry.1]

/-- The row of an id after the merge. -/
theorem getElem?_mergeDefaultEntries :
    (mergeDefaultEntries bundled previous kind evidence disk).table[id]? =
      (bundled[id]?.map fun value ↦
        if isDefaultEntry previous disk.table id then some value
        else disk.table[id]?).getD disk.table[id]? := by
  have hstatus : (mergeDefaultEntries bundled previous kind evidence disk).status kind id = _ :=
    status_mergeDefaultEntries
  have hrow := congrArg Prod.fst hstatus
  unfold EntryMerge.status at hrow
  simp only at hrow
  rw [hrow]
  cases bundled[id]? with
  | none => rfl
  | some value =>
    simp only [Option.map_some, Option.getD_some]
    split
    · rfl
    · rfl

/-- The keys of other tables stay as they are. -/
theorem mem_review_mergeDefaultEntries_of_ne (hne : ∀ id, key ≠ kind ++ "/" ++ id) :
    key ∈ (mergeDefaultEntries bundled previous kind evidence disk).review ↔
      key ∈ disk.review := by
  rw [mem_review_mergeDefaultEntries, or_iff_left]
  · exact mem_review_foldl_mergeEntry_of_ne hne
  · rintro ⟨id, -, -, hkey⟩
    exact hne id hkey.symm

end Merge

/-- A table which only gains the ids it does not have. -/
theorem getElem?_orInsertAll {disk bundled : ExtTreeMap String τ} {id : String} :
    (orInsertAll disk bundled)[id]? = disk[id]?.or bundled[id]? := by
  have hframe : ∀ (table : ExtTreeMap String τ) (entry : String × τ), entry.1 ≠ id →
      (table.insertIfNew entry.1 entry.2)[id]? = table[id]? := by
    intro table entry hne
    rw [ExtTreeMap.getElem?_insertIfNew, if_neg]
    rw [Std.compare_eq_iff_eq]
    exact fun h ↦ hne h.1
  have hself : ∀ (table : ExtTreeMap String τ) (value : τ),
      (table.insertIfNew id value)[id]? = table[id]?.or (some value) := by
    intro table value
    rw [ExtTreeMap.getElem?_insertIfNew]
    cases hrow : table[id]? with
    | none => simp [ExtTreeMap.mem_iff_isSome_getElem?, hrow]
    | some row => simp [ExtTreeMap.mem_iff_isSome_getElem?, hrow]
  have hlocal : ∀ (s t : ExtTreeMap String τ) (entry : String × τ), entry.1 = id →
      s[id]? = t[id]? →
      (s.insertIfNew entry.1 entry.2)[id]? = (t.insertIfNew entry.1 entry.2)[id]? := by
    rintro s t ⟨entryId, value⟩ rfl hrow
    rw [hself, hself, hrow]
  unfold orInsertAll
  rw [KeyedFold.foldl_toList hframe hlocal]
  cases bundled[id]? with
  | none => simp
  | some value => exact hself disk value

/-! ### Cache creation rates -/

section Backfill

variable {table bundled : ExtTreeMap String (ModelRate ν)} {id : String}

/-- A saved rate with the cache creation rate of the bundle where it has none. -/
def ModelRate.backfilled (bundled : Option (ModelRate ν)) (row : ModelRate ν) : ModelRate ν :=
  { row with
    cacheCreationInput := row.cacheCreationInput.or (bundled.bind (·.cacheCreationInput)) }

theorem ModelRate.backfilled_self (row : ModelRate ν) : row.backfilled (some row) = row := by
  unfold backfilled
  simp

theorem ModelRate.backfilled_none (row : ModelRate ν) : row.backfilled none = row := by
  unfold backfilled
  simp

theorem getElem?_backfillEntry_self (rate : ModelRate ν) :
    (backfillEntry table (id, rate))[id]? = table[id]?.map (ModelRate.backfilled (some rate)) := by
  unfold backfillEntry
  cases hrow : table[id]? with
  | none => simp only [hrow, Option.map_none]
  | some row =>
    simp only [Option.map_some]
    cases hown : row.cacheCreationInput with
    | some value =>
      simp [ModelRate.backfilled, hown, hrow]
      rw [← hown]
    | none =>
      cases hbundled : rate.cacheCreationInput with
      | none =>
        simp [ModelRate.backfilled, hown, hbundled, hrow]
        rw [← hown]
      | some value => simp [ModelRate.backfilled, hown, hbundled]

theorem getElem?_backfillEntry_of_ne (entry : String × ModelRate ν) (hne : entry.1 ≠ id) :
    (backfillEntry table entry)[id]? = table[id]? := by
  unfold backfillEntry
  split
  · rfl
  · split
    · rw [ExtTreeMap.getElem?_insert, if_neg]
      rw [Std.compare_eq_iff_eq]
      exact hne
    · rfl

/-- The backfill adds the bundle's cache creation rate to the rows without one. -/
theorem getElem?_backfillCacheCreation :
    (backfillCacheCreation table bundled)[id]? =
      table[id]?.map (ModelRate.backfilled bundled[id]?) := by
  have hlocal : ∀ (s t : ExtTreeMap String (ModelRate ν)) (entry : String × ModelRate ν),
      entry.1 = id → s[id]? = t[id]? →
      (backfillEntry s entry)[id]? = (backfillEntry t entry)[id]? := by
    rintro s t ⟨entryId, rate⟩ rfl hrow
    rw [getElem?_backfillEntry_self, getElem?_backfillEntry_self, hrow]
  unfold backfillCacheCreation
  rw [KeyedFold.foldl_toList (fun _ entry ↦ getElem?_backfillEntry_of_ne entry) hlocal]
  simp only [getElem?_backfillEntry_self]
  cases bundled[id]? with
  | none =>
    cases table[id]? with
    | none => rfl
    | some row => simp [ModelRate.backfilled_none]
  | some rate => rfl

end Backfill

/-! ### Static aliases -/

section Aliases

variable {version : Nat} {bundled : ExtTreeMap String FloatingAlias}
  {previous : Option (ExtTreeMap String FloatingAlias)} {static : ExtTreeMap String String}
  {state : AliasMerge} {id key : String}

/-- The default and the saved floating alias of an id. -/
def AliasMerge.status (id : String) (state : AliasMerge) :
    Option FloatingAlias × Option FloatingAlias :=
  (state.floatingDefaults[id]?, state.floatingModelAliases[id]?)

theorem status_keepStaticAlias_of_ne (entry : String × String) (hne : entry.1 ≠ id) :
    (keepStaticAlias version bundled previous state entry).status id = state.status id := by
  have hcompare : compare entry.1 id ≠ .eq := by
    rw [ne_eq, Std.compare_eq_iff_eq]
    exact hne
  unfold keepStaticAlias AliasMerge.status
  split
  · rfl
  · split
    · rfl
    · simp only
      split
      · simp only [ExtTreeMap.getElem?_erase, if_neg hcompare]
      · simp only [ExtTreeMap.getElem?_erase, if_neg hcompare]

/-- A static alias stands in the way of the default, and of a saved copy of the archived one. -/
theorem status_keepStaticAlias_self (hversion : ¬ version < 11) (target : String) :
    (keepStaticAlias version bundled previous state (id, target)).status id =
      if state.floatingDefaults[id]? = none then state.status id
      else (none, if (previous.bind fun table ↦ table[id]?) = state.floatingModelAliases[id]?
        then none else state.floatingModelAliases[id]?) := by
  unfold keepStaticAlias AliasMerge.status
  cases hdefault : state.floatingDefaults[id]? with
  | none => simp [ExtTreeMap.contains_eq_isSome_getElem?, hdefault]
  | some floating =>
    simp only [ExtTreeMap.contains_eq_isSome_getElem?, hdefault, hversion]
    by_cases hsaved : (previous.bind fun table ↦ table[id]?) = state.floatingModelAliases[id]?
    · simp [hsaved]
    · simp [hsaved]

/-- Every static alias of a card from version 11 on. -/
theorem status_foldl_keepStaticAlias (hversion : ¬ version < 11) :
    (static.toList.foldl (keepStaticAlias version bundled previous) state).status id =
      if static[id]? = none ∨ state.floatingDefaults[id]? = none then state.status id
      else (none, if (previous.bind fun table ↦ table[id]?) = state.floatingModelAliases[id]?
        then none else state.floatingModelAliases[id]?) := by
  have hlocal : ∀ (s t : AliasMerge) (entry : String × String), entry.1 = id →
      s.status id = t.status id →
      (keepStaticAlias version bundled previous s entry).status id =
        (keepStaticAlias version bundled previous t entry).status id := by
    rintro s t ⟨entryId, target⟩ rfl hstatus
    have hdefault : s.floatingDefaults[entryId]? = t.floatingDefaults[entryId]? :=
      congrArg Prod.fst hstatus
    have hsaved : s.floatingModelAliases[entryId]? = t.floatingModelAliases[entryId]? :=
      congrArg Prod.snd hstatus
    rw [status_keepStaticAlias_self hversion, status_keepStaticAlias_self hversion, hdefault,
      hsaved, hstatus]
  rw [KeyedFold.foldl_toList (fun _ entry ↦ status_keepStaticAlias_of_ne entry) hlocal]
  cases static[id]? with
  | none => simp
  | some target => simp [status_keepStaticAlias_self hversion]

/-- From version 11 on no static alias is a copy of a floating one. -/
theorem dropSuperseded_of_not_lt (hversion : ¬ version < 11) :
    dropSuperseded version bundled static = static := by
  unfold dropSuperseded
  simp only [hversion, decide_false, Bool.false_and, Bool.false_eq_true, if_false]
  exact List.foldl_fixed' (fun _ ↦ rfl) bundled.toList

/-- Entries to review stay to be reviewed. -/
theorem mem_review_foldl_keepStaticAlias {entries : List (String × String)}
    (h : key ∈ state.review) :
    key ∈ (entries.foldl (keepStaticAlias version bundled previous) state).review := by
  induction entries generalizing state with
  | nil => exact h
  | cons entry rest ih =>
    apply ih
    unfold keepStaticAlias
    split
    · exact h
    · split
      · exact h
      · simp only
        split
        · exact List.mem_append_left _ h
        · exact List.mem_append_left _ h

end Aliases

end AgentOdometer.Pricing
