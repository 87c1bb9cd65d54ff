import AgentOdometer.History.Organization
import AgentOdometer.Lib.Versioned
import Mathlib.Data.Int.ConditionallyCompleteOrder
import Mathlib.Order.ConditionallyCompleteLattice.Basic

/-!
# Annotation edits lose no update

The revision of an annotation is the version of its content: every call keeps both or raises the
revision. So an edit which carries the stored revision replaces what its client read
(`history_organization.rs:246–357,418–514`).
-/

namespace AgentOdometer.History

/-- What an annotation holds, its revision apart. -/
structure AnnotationContent where
  pinned : Bool
  note : String
  outcome : Option HumanOutcome
  tags : List String
deriving Repr, DecidableEq

/-- Revisions in their order; one which no longer reads is above the others. -/
def StoredRevision.rank : StoredRevision → WithTop Int
  | .integer value => value
  | .real => ⊤

theorem StoredRevision.rank_lt_next {value : Int} :
    (StoredRevision.integer value).rank < (StoredRevision.integer value).next.rank := by
  by_cases hvalue : value = i64Max
  · simp only [next, if_pos hvalue]
    exact WithTop.coe_lt_top value
  · simp only [next, if_neg hvalue]
    exact WithTop.coe_lt_coe.mpr (Int.lt_succ value)

/-- A call of a client. -/
inductive AnnotationCall where
  | edit (edit : AnnotationEdit)
  | bookmark (edit : RecordBookmark)
  | changeTag (label : String) (replacement : Option String)
deriving Repr, DecidableEq

namespace Organization

variable {sessions : String → Option String} {store store' : Organization}
  {key k : String × String} {label : String}

/-- What a call commits. -/
def commit (sessions : String → Option String) (store : Organization) :
    AnnotationCall → Except String Organization
  | .edit edit => ( store.editAnnotation sessions edit).map (·.2)
  | .bookmark edit => (store.editRecordBookmark sessions edit).map (·.2)
  | .changeTag label replacement => store.changeOrganizationTag label replacement

/-- The tables after a call: a refused call is rolled back. -/
def call (sessions : String → Option String) (store : Organization) (call : AnnotationCall) :
    Organization :=
  match store.commit sessions call with
  | .ok committed => committed
  | .error _ => store

/-- The content of an annotation; one without a row is empty. -/
def contentOf (store : Organization) (key : String × String) : AnnotationContent where
  pinned := ((store.row? key).map (·.pinned)).getD false
  note := ((store.row? key).map (·.note)).getD ""
  outcome := (store.row? key).bind (·.outcome)
  tags := store.tagsOf key

/-- Annotations with their revisions as versions. -/
def versioned : Versioned Organization (String × String) (WithTop Int) AnnotationContent where
  version store key := (store.revisionOf key).rank
  content := contentOf

/-- Every tag belongs to a stored annotation: the foreign key of `annotation_tags`. -/
def TagsOwned (store : Organization) : Prop :=
  ∀ tag ∈ store.annotationTags, tag.key ∈ store.annotations.map AnnotationRow.key

/-! ### Frames -/

theorem revisionOf_congr (hrow : store'.row? k = store.row? k) :
    store'.revisionOf k = store.revisionOf k := by
  unfold revisionOf
  rw [hrow]

theorem contentOf_congr (hrow : store'.row? k = store.row? k)
    (htags : store'.tagsOf k = store.tagsOf k) : store'.contentOf k = store.contentOf k := by
  unfold contentOf
  rw [hrow, htags]

theorem tagsOf_congr
    (h : store'.annotationTags.filter (·.key = k) = store.annotationTags.filter (·.key = k)) :
    store'.tagsOf k = store.tagsOf k := by
  unfold tagsOf
  rw [h]

/-- A call advances when it leaves every other annotation and raises the revision of one. -/
theorem advances_of_raised (hother : ∀ k, k ≠ key → store'.row? k = store.row? k ∧
      store'.annotationTags.filter (·.key = k) = store.annotationTags.filter (·.key = k))
    (hraised : (store.revisionOf key).rank < (store'.revisionOf key).rank) :
    versioned.Advances store store' := by
  intro k
  by_cases hk : k = key
  · subst hk
    exact .inl hraised
  · obtain ⟨hrow, htags⟩ := hother k hk
    exact .inr ⟨(congrArg StoredRevision.rank (revisionOf_congr hrow)).symm,
      .inr (contentOf_congr hrow (tagsOf_congr htags)).symm⟩

/-! ### Edits -/

section Upsert

variable {merge : AnnotationRow → AnnotationRow → AnnotationRow} {row : AnnotationRow}

theorem row?_upsertRow_of_ne (hkey : ∀ new old, (merge new old).key = old.key)
    (hne : k ≠ row.key) : (store.upsertRow merge row).row? k = store.row? k :=
  Table.lookup_upsert_ne hkey hne

theorem revisionOf_upsertRow (hkey : ∀ new old, (merge new old).key = old.key)
    (hrevision : ∀ new old, (merge new old).revision = new.revision) :
    (store.upsertRow merge row).revisionOf row.key = row.revision := by
  have hrow : (store.upsertRow merge row).row? row.key =
      some (((store.row? row.key).map (merge row)).getD row) := Table.lookup_upsert_self hkey
  unfold revisionOf
  rw [hrow]
  cases store.row? row.key with
  | none => rfl
  | some old => exact hrevision row old

theorem mem_keys_upsertRow (hkey : ∀ new old, (merge new old).key = old.key) :
    k ∈ (store.upsertRow merge row).annotations.map AnnotationRow.key ↔
      k ∈ store.annotations.map AnnotationRow.key ∨ k = row.key :=
  Table.mem_keys_upsert hkey

end Upsert

theorem annotations_replaceTags (labels : List String) :
    (store.replaceTags key labels).annotations = store.annotations := by
  have hfold : ∀ start : Organization,
      (labels.foldl (addTag key) start).annotations = start.annotations := by
    induction labels with
    | nil => exact fun _ ↦ rfl
    | cons label rest ih => exact fun start ↦ ih (addTag key start label)
  exact hfold _

theorem filter_addTag (hne : k ≠ key) :
    (addTag key store label).annotationTags.filter (·.key = k) =
      store.annotationTags.filter (·.key = k) := by
  unfold addTag
  simp only
  split
  · rfl
  · rw [List.filter_append, List.filter_cons_of_neg, List.filter_nil, List.append_nil]
    unfold AnnotationTag.key
    simpa using Ne.symm hne

/-- Replacing the labels of an annotation leaves those of the others. -/
theorem filter_replaceTags (labels : List String) (hne : k ≠ key) :
    (store.replaceTags key labels).annotationTags.filter (·.key = k) =
      store.annotationTags.filter (·.key = k) := by
  have hfold : ∀ start : Organization,
      (labels.foldl (addTag key) start).annotationTags.filter (·.key = k) =
        start.annotationTags.filter (·.key = k) := by
    induction labels with
    | nil => exact fun _ ↦ rfl
    | cons label rest ih => exact fun start ↦
      (ih (addTag key start label)).trans (filter_addTag hne)
  unfold replaceTags
  rw [hfold, List.filter_filter]
  apply List.filter_congr
  intro tag _
  by_cases htag : tag.key = k
  · simp [htag, hne]
  · simp [htag]

theorem mem_replaceTags {labels : List String} {tag : AnnotationTag}
    (h : tag ∈ (store.replaceTags key labels).annotationTags) :
    tag ∈ store.annotationTags ∨ tag.key = key := by
  have hfold : ∀ start : Organization, tag ∈ (labels.foldl (addTag key) start).annotationTags →
      tag ∈ start.annotationTags ∨ tag.key = key := by
    clear h
    induction labels with
    | nil => exact fun _ ↦ Or.inl
    | cons label rest ih =>
      intro start htag
      rcases ih (addTag key start label) htag with htag | hkey
      · unfold addTag at htag
        simp only at htag
        split at htag
        · exact .inl htag
        · rcases List.mem_append.mp htag with htag | htag
          · exact .inl htag
          · rw [List.mem_singleton.mp htag]
            exact .inr rfl
      · exact .inr hkey
  rcases hfold _ h with htag | hkey
  · exact .inl (List.mem_of_mem_filter htag)
  · exact .inr hkey

theorem key_outcome (outcome : HumanOutcome) (row : AnnotationRow) :
    ({ row with outcome := some outcome } : AnnotationRow).key = row.key :=
  rfl

theorem row?_recordOutcome_of_ne {outcome : Option HumanOutcome} (hne : k ≠ key) :
    (store.recordOutcome key outcome).row? k = store.row? k := by
  cases outcome with
  | none => rfl
  | some outcome => exact Table.lookup_update_ne (key_outcome outcome) hne

theorem revisionOf_recordOutcome {outcome : Option HumanOutcome} :
    (store.recordOutcome key outcome).revisionOf key = store.revisionOf key := by
  cases outcome with
  | none => rfl
  | some outcome =>
    unfold recordOutcome revisionOf row?
    simp only
    rw [Table.lookup_update_self (key_outcome outcome), Option.map_map]
    rfl

theorem keys_recordOutcome {outcome : Option HumanOutcome} :
    (store.recordOutcome key outcome).annotations.map AnnotationRow.key =
      store.annotations.map AnnotationRow.key := by
  cases outcome with
  | none => rfl
  | some outcome => exact Table.keys_update (key_outcome outcome)

theorem row?_replaceTags (labels : List String) :
    (store.replaceTags key labels).row? k = store.row? k := by
  unfold row?
  rw [annotations_replaceTags]

/-- An edit leaves the other annotations. -/
theorem writeEdit_of_ne (edit : AnnotationEdit) (revision : Int)
    (hne : k ≠ (edit.identity.sessionKey, edit.identity.anchor)) :
    (store.writeEdit edit revision).row? k = store.row? k ∧
      (store.writeEdit edit revision).annotationTags.filter (·.key = k) =
        store.annotationTags.filter (·.key = k) := by
  unfold writeEdit
  constructor
  · simp only
    rw [row?_replaceTags, row?_recordOutcome_of_ne hne]
    apply row?_upsertRow_of_ne _ hne
    exact fun _ _ ↦ rfl
  · simp only
    rw [filter_replaceTags _ hne]
    cases edit.outcome with
    | none => rfl
    | some outcome => rfl

/-- An edit stores its revision. -/
theorem revisionOf_writeEdit (edit : AnnotationEdit) (revision : Int) :
    (store.writeEdit edit revision).revisionOf (edit.identity.sessionKey, edit.identity.anchor) =
      .integer revision := by
  unfold writeEdit
  simp only
  rw [revisionOf_congr (row?_replaceTags _), revisionOf_recordOutcome]
  apply revisionOf_upsertRow
  · exact fun _ _ ↦ rfl
  · exact fun _ _ ↦ rfl

theorem tagsOwned_writeEdit (edit : AnnotationEdit) (revision : Int) (h : store.TagsOwned) :
    (store.writeEdit edit revision).TagsOwned := by
  intro tag htag
  unfold writeEdit at htag ⊢
  simp only at htag ⊢
  rw [annotations_replaceTags, keys_recordOutcome]
  refine (mem_keys_upsertRow ?_).mpr ?_
  · exact fun _ _ ↦ rfl
  rcases mem_replaceTags htag with htag | hkey
  · refine .inl (h tag ?_)
    revert htag
    cases edit.outcome with
    | none => exact id
    | some outcome => exact id
  · exact .inr hkey

/-- A bookmark is the edit of one row. -/
theorem writeBookmark_of_ne (edit : RecordBookmark) (revision : Int)
    (hne : k ≠ (edit.identity.sessionKey, edit.identity.anchor)) :
    (store.writeBookmark edit revision).row? k = store.row? k := by
  apply row?_upsertRow_of_ne _ hne
  exact fun _ _ ↦ rfl

theorem revisionOf_writeBookmark (edit : RecordBookmark) (revision : Int) :
    (store.writeBookmark edit revision).revisionOf
      (edit.identity.sessionKey, edit.identity.anchor) = .integer revision := by
  unfold writeBookmark
  apply revisionOf_upsertRow
  · exact fun _ _ ↦ rfl
  · exact fun _ _ ↦ rfl

theorem tagsOwned_writeBookmark (edit : RecordBookmark) (revision : Int) (h : store.TagsOwned) :
    (store.writeBookmark edit revision).TagsOwned := by
  intro tag htag
  refine (mem_keys_upsertRow ?_).mpr (.inl (h tag htag))
  exact fun _ _ ↦ rfl

/-! ### Tags -/

/-- A label which an annotation does not have can be taken from the tables unnoticed. -/
theorem filter_map_of_notMem {f : AnnotationTag → AnnotationTag} {tags : List AnnotationTag}
    (hkey : ∀ tag, (f tag).key = tag.key) (hf : ∀ tag ∈ tags, tag.key = k → f tag = tag) :
    (tags.map f).filter (·.key = k) = tags.filter (·.key = k) := by
  induction tags with
  | nil => rfl
  | cons tag rest ih =>
    have hrest := ih fun other hother ↦ hf other (List.mem_cons_of_mem tag hother)
    rw [List.map_cons, List.filter_cons, List.filter_cons, hrest, hkey]
    split
    · next h => rw [hf tag List.mem_cons_self (of_decide_eq_true h)]
    · rfl

/-- The tags afterwards of an annotation without the label. -/
theorem filter_renameTag {replacement : String} {renamed : Organization}
    (h : store.renameTag label replacement = .ok renamed)
    (hlabel : ∀ tag ∈ store.annotationTags, tag.key = k → tag.label ≠ label) :
    renamed.annotationTags.filter (·.key = k) = store.annotationTags.filter (·.key = k) := by
  unfold renameTag at h
  split at h
  · simp only [bind_eq_ok, require_eq_ok, pure, Except.pure, Except.ok.injEq] at h
    obtain ⟨_, -, rfl⟩ := h
    apply filter_map_of_notMem
    · intro tag
      split
      · rfl
      · rfl
    · intro tag htag hk
      rw [if_neg (hlabel tag htag hk)]
  · cases h
    rfl

theorem filter_deleteTag
    (hlabel : ∀ tag ∈ store.annotationTags, tag.key = k → tag.label ≠ label) :
    (store.deleteTag label).annotationTags.filter (·.key = k) =
      store.annotationTags.filter (·.key = k) := by
  unfold deleteTag
  rw [List.filter_filter]
  apply List.filter_congr
  intro tag htag
  by_cases hk : tag.key = k
  · simp [hk, hlabel tag htag hk]
  · simp [hk]

theorem annotations_renameTag {replacement : String} {renamed : Organization}
    (h : store.renameTag label replacement = .ok renamed) :
    renamed.annotations = store.annotations := by
  unfold renameTag at h
  split at h
  · simp only [bind_eq_ok, require_eq_ok, pure, Except.pure, Except.ok.injEq] at h
    obtain ⟨_, -, rfl⟩ := h
    rfl
  · cases h
    rfl

theorem mem_renameTag {replacement : String} {renamed : Organization} {tag : AnnotationTag}
    (h : store.renameTag label replacement = .ok renamed) (htag : tag ∈ renamed.annotationTags) :
    ∃ old ∈ store.annotationTags, old.key = tag.key := by
  unfold renameTag at h
  split at h
  · simp only [bind_eq_ok, require_eq_ok, pure, Except.pure, Except.ok.injEq] at h
    obtain ⟨_, -, rfl⟩ := h
    obtain ⟨old, hold, rfl⟩ := List.mem_map.mp htag
    refine ⟨old, hold, ?_⟩
    split
    · rfl
    · rfl
  · cases h
    exact ⟨tag, htag, rfl⟩

theorem key_next (row : AnnotationRow) :
    ({ row with revision := row.revision.next } : AnnotationRow).key = row.key :=
  rfl

theorem row?_bumpLabelled : (store.bumpLabelled label).row? k =
    (store.row? k).map fun row ↦
      if store.annotationTags.any (fun tag ↦ tag.key = k && tag.label = label) then
        { row with revision := row.revision.next }
      else row := by
  unfold bumpLabelled row?
  simp only
  rw [Table.lookup_updateWhere key_next]
  cases hrow : Table.lookup AnnotationRow.key k store.annotations with
  | none => rfl
  | some row => simp only [Option.map_some, Table.key_of_lookup hrow]

/-- What a change of a label does to the annotations: those with the label are bumped, and the
others keep their labels. -/
theorem advances_of_labelled (howned : store.TagsOwned)
    (hannotations : store'.annotations = (store.bumpLabelled label).annotations)
    (hfilter : ∀ k, (∀ tag ∈ store.annotationTags, tag.key = k → tag.label ≠ label) →
      store'.annotationTags.filter (·.key = k) = store.annotationTags.filter (·.key = k)) :
    versioned.Advances store store' := by
  intro k
  have hrow : store'.row? k = (store.bumpLabelled label).row? k := by
    unfold row?
    rw [hannotations]
  rw [row?_bumpLabelled] at hrow
  cases hlabelled : store.annotationTags.any fun tag ↦ tag.key = k && tag.label = label with
  | false =>
    have hnone : ∀ tag ∈ store.annotationTags, tag.key = k → tag.label ≠ label := by
      intro tag htag hk hlabel
      rw [List.any_eq_false] at hlabelled
      exact hlabelled tag htag (by simp [hk, hlabel])
    have hsame : store'.row? k = store.row? k := by
      rw [hrow, hlabelled]
      simp
    exact .inr ⟨(congrArg StoredRevision.rank (revisionOf_congr hsame)).symm,
      .inr (contentOf_congr hsame (tagsOf_congr (hfilter k hnone))).symm⟩
  | true =>
    obtain ⟨tag, htag, hkey⟩ := List.any_eq_true.mp hlabelled
    rw [Bool.and_eq_true, decide_eq_true_eq] at hkey
    obtain ⟨row, hstored⟩ := Table.exists_lookup (howned tag htag)
    rw [hkey.1] at hstored
    have hversion : store.revisionOf k = row.revision := by
      unfold revisionOf row?
      rw [hstored]
      rfl
    have hversion' : store'.revisionOf k = row.revision.next := by
      unfold revisionOf
      rw [hrow, hlabelled]
      unfold row?
      rw [hstored]
      rfl
    cases hrevision : row.revision with
    | integer value =>
      refine .inl ?_
      change (store.revisionOf k).rank < (store'.revisionOf k).rank
      rw [hversion, hversion', hrevision]
      exact StoredRevision.rank_lt_next
    | real =>
      refine .inr ⟨?_, .inl ?_⟩
      · change (store.revisionOf k).rank = (store'.revisionOf k).rank
        rw [hversion, hversion', hrevision]
        rfl
      · change (store.revisionOf k).rank = ⊤
        rw [hversion, hrevision]
        rfl

/-! ### Calls -/

theorem readRevision_eq_ok {revision : StoredRevision} {value : Int} :
    readRevision revision = .ok value ↔ revision = .integer value := by
  cases revision with
  | integer stored => simp [readRevision]
  | real => simp [readRevision]

/-- An annotation is read with its stored revision. -/
theorem revisionOf_of_read {identity : AnnotationIdentity} {current : SessionAnnotation}
    (h : store.readAnnotation sessions identity = .ok current) :
    store.revisionOf (identity.sessionKey, identity.anchor) = .integer current.revision := by
  unfold readAnnotation at h
  simp only [bind_eq_ok, readRevision_eq_ok, pure, Except.pure, Except.ok.injEq] at h
  obtain ⟨_, -, revision, hrevision, _, -, rfl⟩ := h
  exact hrevision

theorem checkedNext_eq_ok {revision next : Int} {message : String} :
    checkedNext revision message = .ok next ↔ revision ≠ i64Max ∧ next = revision + 1 := by
  unfold checkedNext
  by_cases h : revision = i64Max
  · simp [h]
  · simp [h, eq_comm]

/-- A committed edit carried the stored revision, and leaves the next one. -/
theorem editAnnotation_committed {edit : AnnotationEdit}
    {result : SessionAnnotation × Organization}
    (h : store.editAnnotation sessions edit = .ok result) :
    store.revisionOf (edit.identity.sessionKey, edit.identity.anchor) = .integer edit.revision ∧
      result.2 = (store.writeEdit edit (edit.revision + 1)).changedAnnotations := by
  unfold editAnnotation at h
  simp only [bind_eq_ok, require_eq_ok, decide_eq_true_eq, checkedNext_eq_ok, pure, Except.pure,
    Except.ok.injEq] at h
  obtain ⟨_, -, current, hcurrent, _, hrevision, _, ⟨-, rfl⟩, _, -, _, -, rfl⟩ := h
  rw [← hrevision]
  exact ⟨revisionOf_of_read hcurrent, rfl⟩

theorem editRecordBookmark_committed {edit : RecordBookmark}
    {result : RecordBookmark × Organization}
    (h : store.editRecordBookmark sessions edit = .ok result) :
    store.revisionOf (edit.identity.sessionKey, edit.identity.anchor) = .integer edit.revision ∧
      result.2 = (store.writeBookmark edit (edit.revision + 1)).changedAnnotations := by
  unfold editRecordBookmark at h
  simp only [bind_eq_ok, require_eq_ok, decide_eq_true_eq, checkedNext_eq_ok, pure, Except.pure,
    Except.ok.injEq] at h
  obtain ⟨_, -, _, -, current, hcurrent, _, hrevision, _, -, _, ⟨-, rfl⟩, _, -, rfl⟩ := h
  rw [← hrevision]
  exact ⟨revisionOf_of_read hcurrent, rfl⟩

/-- A committed change bumped the labelled annotations and changed labels of those only. -/
theorem changeOrganizationTag_committed {replacement : Option String}
    (h : store.changeOrganizationTag label replacement = .ok store') :
    store'.annotations = (store.bumpLabelled label).annotations ∧
      (∀ tag ∈ store'.annotationTags, ∃ old ∈ store.annotationTags, old.key = tag.key) ∧
      ∀ k, (∀ tag ∈ store.annotationTags, tag.key = k → tag.label ≠ label) →
        store'.annotationTags.filter (·.key = k) = store.annotationTags.filter (·.key = k) := by
  unfold changeOrganizationTag at h
  simp only [bind_eq_ok, pure, Except.pure, Except.ok.injEq] at h
  obtain ⟨_, -, _, -, changed, hchanged, rfl⟩ := h
  cases replacement with
  | none =>
    cases hchanged
    refine ⟨rfl, ?_, ?_⟩
    · intro tag htag
      exact ⟨tag, List.mem_of_mem_filter htag, rfl⟩
    · intro k hlabel
      exact filter_deleteTag hlabel
  | some replacement =>
    unfold replaceTag at hchanged
    simp only at hchanged
    split at hchanged
    · have hannotations := annotations_renameTag hchanged
      have hmem : ∀ tag ∈ changed.annotationTags,
          ∃ old ∈ (store.bumpLabelled label).annotationTags, old.key = tag.key :=
        fun tag htag ↦ mem_renameTag hchanged htag
      refine ⟨hannotations, hmem, ?_⟩
      intro k hlabel
      have hfilter := filter_renameTag hchanged hlabel
      exact hfilter
    · cases hchanged
      exact ⟨rfl, fun tag htag ↦ ⟨tag, htag, rfl⟩, fun _ _ ↦ rfl⟩

theorem keys_bumpLabelled : (store.bumpLabelled label).annotations.map AnnotationRow.key =
    store.annotations.map AnnotationRow.key :=
  Table.keys_updateWhere key_next

/-- A committed call keeps the foreign key of the tags. -/
theorem tagsOwned_commit {call : AnnotationCall} (h : store.commit sessions call = .ok store')
    (howned : store.TagsOwned) : store'.TagsOwned := by
  cases call with
  | edit edit =>
    obtain ⟨result, hresult, rfl⟩ := map_eq_ok.mp h
    rw [(editAnnotation_committed hresult).2]
    exact tagsOwned_writeEdit edit _ howned
  | bookmark edit =>
    obtain ⟨result, hresult, rfl⟩ := map_eq_ok.mp h
    rw [(editRecordBookmark_committed hresult).2]
    exact tagsOwned_writeBookmark edit _ howned
  | changeTag label replacement =>
    obtain ⟨hannotations, hold, -⟩ := changeOrganizationTag_committed h
    intro tag htag
    obtain ⟨old, hmem, hkey⟩ := hold tag htag
    rw [hannotations, keys_bumpLabelled, ← hkey]
    exact howned old hmem

/-- A committed call keeps the revision and the content of an annotation, or raises its
revision. -/
theorem advances_commit {call : AnnotationCall} (h : store.commit sessions call = .ok store')
    (howned : store.TagsOwned) : versioned.Advances store store' := by
  cases call with
  | edit edit =>
    obtain ⟨result, hresult, rfl⟩ := map_eq_ok.mp h
    obtain ⟨hrevision, hstore⟩ := editAnnotation_committed hresult
    rw [hstore]
    refine advances_of_raised (fun k hne ↦ writeEdit_of_ne edit _ hne) ?_
    have hstored : (store.writeEdit edit (edit.revision + 1)).changedAnnotations.revisionOf _ = _ :=
      revisionOf_writeEdit edit (edit.revision + 1)
    rw [hrevision, hstored]
    exact WithTop.coe_lt_coe.mpr (Int.lt_succ edit.revision)
  | bookmark edit =>
    obtain ⟨result, hresult, rfl⟩ := map_eq_ok.mp h
    obtain ⟨hrevision, hstore⟩ := editRecordBookmark_committed hresult
    rw [hstore]
    refine advances_of_raised (fun k hne ↦ ⟨writeBookmark_of_ne edit _ hne, rfl⟩) ?_
    have hstored : (store.writeBookmark edit (edit.revision + 1)).changedAnnotations.revisionOf _ =
        _ := revisionOf_writeBookmark edit (edit.revision + 1)
    rw [hrevision, hstored]
    exact WithTop.coe_lt_coe.mpr (Int.lt_succ edit.revision)
  | changeTag label replacement =>
    obtain ⟨hannotations, -, hfilter⟩ := changeOrganizationTag_committed h
    exact advances_of_labelled howned hannotations hfilter

theorem commit_of_call (sessions : String → Option String) (store : Organization)
    (call : AnnotationCall) :
    store.commit sessions call = .ok (store.call sessions call) ∨
      store.call sessions call = store := by
  unfold Organization.call
  cases store.commit sessions call with
  | ok committed => exact .inl rfl
  | error message => exact .inr rfl

/-- One call of any client. -/
def step (sessions : String → Option String) (store : Organization) (call : AnnotationCall) :
    Option Organization :=
  some (store.call sessions call)

theorem tagsOwned_step {call : AnnotationCall} (howned : store.TagsOwned)
    (h : store.step sessions call = some store') : store'.TagsOwned := by
  cases h
  rcases commit_of_call sessions store call with hcommit | hsame
  · exact tagsOwned_commit hcommit howned
  · rw [hsame]
    exact howned

theorem advances_step {call : AnnotationCall} (howned : store.TagsOwned)
    (h : store.step sessions call = some store') : versioned.Advances store store' := by
  cases h
  rcases commit_of_call sessions store call with hcommit | hsame
  · exact advances_commit hcommit howned
  · rw [hsame]
    exact Versioned.Advances.refl store

/-- After any calls, an annotation whose stored revision a client has read has the content which
it had then. -/
theorem contentOf_eq_of_run {revision : Int} (howned : store.TagsOwned)
    (hrun : Transition.Reaches (step sessions) Transition.always store store')
    (hread : store.revisionOf key = .integer revision)
    (hstored : store'.revisionOf key = .integer revision) :
    store'.contentOf key = store.contentOf key := by
  have hadvances : versioned.Advances store store' :=
    Versioned.advances_of_reaches (fun _ _ _ hs _ ht ↦ tagsOwned_step hs ht)
      (fun _ _ _ hs _ ht ↦ advances_step hs ht) hrun howned
  have hsame : versioned.version store key = versioned.version store' key :=
    congrArg StoredRevision.rank (hread.trans hstored.symm)
  have htop : versioned.version store' key ≠ ⊤ := by
    change (store'.revisionOf key).rank ≠ ⊤
    rw [hstored]
    exact WithTop.coe_ne_top
  exact (hadvances.content_eq hsame htop).symm

/-- For any calls of any clients between a read and an edit: the edit commits only if the content
it replaces is the one which the read revision had, and a refused call writes nothing. -/
theorem edits_lose_no_update (howned : store.TagsOwned)
    (hrun : Transition.Reaches (step sessions) Transition.always store store') :
    (∀ (edit : AnnotationEdit) (result : SessionAnnotation × Organization),
      store.revisionOf (edit.identity.sessionKey, edit.identity.anchor) = .integer edit.revision →
        store'.editAnnotation sessions edit = .ok result →
          store'.contentOf (edit.identity.sessionKey, edit.identity.anchor) =
            store.contentOf (edit.identity.sessionKey, edit.identity.anchor)) ∧
    (∀ (edit : RecordBookmark) (result : RecordBookmark × Organization),
      store.revisionOf (edit.identity.sessionKey, edit.identity.anchor) = .integer edit.revision →
        store'.editRecordBookmark sessions edit = .ok result →
          store'.contentOf (edit.identity.sessionKey, edit.identity.anchor) =
            store.contentOf (edit.identity.sessionKey, edit.identity.anchor)) ∧
    ∀ (call : AnnotationCall) (message : String), store'.commit sessions call = .error message →
      store'.call sessions call = store' := by
  refine ⟨?_, ?_, ?_⟩
  · intro edit result hread hcommit
    exact contentOf_eq_of_run howned hrun hread (editAnnotation_committed hcommit).1
  · intro edit result hread hcommit
    exact contentOf_eq_of_run howned hrun hread (editRecordBookmark_committed hcommit).1
  · intro call message hrefused
    unfold Organization.call
    rw [hrefused]

/-- Tables without annotations. -/
def empty : Organization where
  annotations := []
  tags := []
  annotationTags := []
  revision := 0
  recovered := false

/-- The fingerprint of one session. -/
def oneSession (key : String) : Option String :=
  if key = "s" then some "f" else none

/-- An edit of the note and the tag of the session. -/
def noteEdit (revision : Int) (note tag : String) : AnnotationEdit :=
  ⟨⟨"s", "f", ""⟩, revision, false, note, [tag], none⟩

/-- A first edit has given the session a note and a tag. -/
def noted : Organization :=
  empty.call oneSession (.edit (noteEdit 0 "first" "Review"))

/-- Another client bookmarks a record of the session. -/
def bookmarkCall : AnnotationCall :=
  .bookmark ⟨⟨"s", "f", "record"⟩, 0, true⟩

/-- Another client renames the tag. -/
def renameCall : AnnotationCall :=
  .changeTag "Review" (some "Done")

theorem tagsOwned_empty : empty.TagsOwned :=
  fun _ h ↦ absurd h List.not_mem_nil

theorem tagsOwned_noted : noted.TagsOwned := by
  have hstep : empty.step oneSession (.edit (noteEdit 0 "first" "Review")) = some noted := rfl
  exact tagsOwned_step tagsOwned_empty hstep

/-- After a bookmark the next edit of the first client commits, and replaces what it read. After the
rename the revision is another, and the same edit is refused without a write. -/
theorem edits_lose_no_update_noted :
    (∃ result, editAnnotation oneSession (noted.call oneSession bookmarkCall)
        (noteEdit 1 "second" "Review") = .ok result) ∧
      (noted.call oneSession bookmarkCall).contentOf ("s", "") = noted.contentOf ("s", "") ∧
      (noted.call oneSession renameCall).revisionOf ("s", "") = .integer 2 ∧
      (noted.call oneSession renameCall).contentOf ("s", "") ≠ noted.contentOf ("s", "") ∧
      (noted.call oneSession renameCall).call oneSession
        (.edit (noteEdit 1 "second" "Review")) = noted.call oneSession renameCall := by
  have hread : noted.revisionOf ("s", "") = .integer 1 := by
    decide +kernel
  have hfresh : ( editAnnotation oneSession (noted.call oneSession bookmarkCall)
      (noteEdit 1 "second" "Review")).isOk = true := by
    decide +kernel
  have hstale : (noted.call oneSession renameCall).commit oneSession
      (.edit (noteEdit 1 "second" "Review")) =
        .error "Organization changed; reload before saving" := by
    rfl
  have hresult : ∃ result, editAnnotation oneSession (noted.call oneSession bookmarkCall)
      (noteEdit 1 "second" "Review") = .ok result := by
    cases hedit : editAnnotation oneSession (noted.call oneSession bookmarkCall)
        (noteEdit 1 "second" "Review") with
    | ok result => exact ⟨result, rfl⟩
    | error message =>
      rw [hedit] at hfresh
      cases hfresh
  obtain ⟨result, hresult⟩ := hresult
  refine ⟨⟨result, hresult⟩, ?_, by decide +kernel, by decide +kernel, ?_⟩
  · exact (edits_lose_no_update tagsOwned_noted
      (.tail (a := bookmarkCall) (.refl _) trivial rfl)).1 _ result hread hresult
  · exact (edits_lose_no_update tagsOwned_noted
      (.tail (a := renameCall) (.refl _) trivial rfl)).2.2 _ _ hstale

end Organization

end AgentOdometer.History
