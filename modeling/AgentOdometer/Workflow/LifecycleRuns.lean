import AgentOdometer.Workflow.Lifecycle

/-!
# Runs of the finding lifecycle

What each operation does to a record, and what holds of all records after any sequence of
operations.
-/

namespace AgentOdometer.Workflow

open Std (ExtTreeMap)

/-! ### Runs -/

/-- An operation on the table. -/
inductive Operation where
  | observe (observation : Observation)
  | suppress (edit : FindingSuppressionEdit)
  | invalidate (analyzer comparison : Nat)
deriving Repr, DecidableEq

/-- The table after an operation; one which is refused changes nothing. -/
def applyOperation (table : LifecycleTable) : Operation → LifecycleTable
  | .observe observation => (observe table observation).2
  | .suppress edit => (suppress table edit).toOption.getD table
  | .invalidate analyzer comparison => invalidateOlderAnalyzers table analyzer comparison

/-- The state of a record mirrors its flag. -/
def Mirrored (row : LifecycleRow) : Prop :=
  row.state = .suppressed ↔ row.suppressed = true

/-- All records mirror their flags. -/
def AllMirrored (table : LifecycleTable) : Prop :=
  ∀ (key : FindingKey) row, table[key]? = some row → Mirrored row

/-- No record was last observed before it was first observed. -/
def AllOrdered (table : LifecycleTable) : Prop :=
  ∀ (key : FindingKey) row, table[key]? = some row → row.firstObservedMs ≤ row.lastObservedMs

/-- What an operation may do to a record. -/
structure Progress (before after : LifecycleRow) : Prop where
  first : after.firstObservedMs = before.firstObservedMs
  last : before.lastObservedMs ≤ after.lastObservedMs
  revision : after ≠ before → before.revision < after.revision

/-- Every operation keeps the records, with progress; only an edit changes a flag, and an accepted
observation with other versions records neither an improvement nor a resolution. -/
structure StepSound (table : LifecycleTable) (operation : Operation) : Prop where
  progress : ∀ (key : FindingKey) row, table[key]? = some row →
    ∃ row', (applyOperation table operation)[key]? = some row' ∧ Progress row row' ∧
      ((∀ edit, operation ≠ .suppress edit) → row'.suppressed = row.suppressed)
  versions : ∀ observation, operation = .observe observation →
    ∀ row, table[observation.key]? = some row →
      row.versionsDiffer observation.analyzerVersion observation.comparisonVersion = true →
      ∀ row', observedRow (some row) observation = .ok row' →
        (applyOperation table operation)[observation.key]? = some row' ∧
          row'.state ≠ .improving ∧ row'.state ≠ .resolved

/-- An observation would write the state of a suppressed finding to a record without the flag. -/
def Mislabels (table : LifecycleTable) : Operation → Prop
  | .observe observation =>
      observation.state = .suppressed ∧
        match table[observation.key]? with
        | none => True
        | some row =>
            row.suppressed = false ∧
              row.versionsDiffer observation.analyzerVersion observation.comparisonVersion = false ∧
              row.lastObservedMs ≤ observation.measuredAtMs ∧
              0 < row.revision + 1 ∧ row.revision + 1 ≤ maxRevision
  | .suppress _ => False
  | .invalidate _ _ => False

instance (table : LifecycleTable) (operation : Operation) : Decidable (Mislabels table operation) :=
  match operation with
  | .suppress _ => isFalse id
  | .invalidate _ _ => isFalse id
  | .observe observation =>
      match h : table[observation.key]? with
      | none => decidable_of_iff (observation.state = .suppressed) (by simp [Mislabels, h])
      | some row => decidable_of_iff (observation.state = .suppressed ∧ row.suppressed = false ∧
          row.versionsDiffer observation.analyzerVersion observation.comparisonVersion = false ∧
          row.lastObservedMs ≤ observation.measuredAtMs ∧
          0 < row.revision + 1 ∧ row.revision + 1 ≤ maxRevision) (by simp [Mislabels, h])

/-! ### One record -/

/-- The record after an edit. -/
def editedRow (edit : FindingSuppressionEdit) (row : LifecycleRow) : LifecycleRow :=
  { row with
    suppressed := edit.suppressed
    state := if edit.suppressed then .suppressed else .notApplicable
    revision := row.revision + 1 }

section Row

variable {row row' : LifecycleRow} {observation : Observation} {analyzer comparison : Nat}

theorem progress_observedRow (h : observedRow (some row) observation = .ok row') :
    Progress row row' ∧ row'.suppressed = row.suppressed := by
  unfold observedRow at h
  simp only [Option.any_some, Option.map_some, Option.getD_some] at h
  split at h
  · cases h
  next hclock =>
  split at h
  · next hrevision =>
    injection h with h
    subst h
    refine ⟨⟨rfl, ?_, fun _ ↦ ?_⟩, rfl⟩
    · simpa using hclock
    · exact Int.lt_add_one_of_le le_rfl
  · cases h

theorem state_observedRow_of_versionsDiffer
    (hversions : row.versionsDiffer observation.analyzerVersion observation.comparisonVersion =
      true)
    (h : observedRow (some row) observation = .ok row') :
    row'.state ≠ .improving ∧ row'.state ≠ .resolved := by
  unfold observedRow at h
  simp only [Option.any_some, Option.map_some, Option.getD_some, hversions, if_true] at h
  split at h
  · cases h
  split at h
  · injection h with h
    subst h
    dsimp only
    split <;> exact ⟨by decide, by decide⟩
  · cases h

theorem ordered_observedRow {previous : Option LifecycleRow}
    (hprevious : ∀ row ∈ previous, row.firstObservedMs ≤ row.lastObservedMs)
    (h : observedRow previous observation = .ok row') :
    row'.firstObservedMs ≤ row'.lastObservedMs := by
  cases previous with
  | none =>
    unfold observedRow at h
    split at h
    · cases h
    dsimp only at h
    split at h
    · injection h with h
      subst h
      exact le_rfl
    · cases h
  | some row =>
    obtain ⟨⟨hfirst, hlast, -⟩, -⟩ := progress_observedRow h
    rw [hfirst]
    exact (hprevious row rfl).trans hlast

/-- The record of an observation carries its own state when neither the flag nor the versions
overrule it. -/
theorem mirrored_observedRow_iff {previous : Option LifecycleRow}
    (h : observedRow previous observation = .ok row') :
    Mirrored row' ↔ ¬ (observation.state = .suppressed ∧
      previous.any (·.suppressed) = false ∧ previous.any (fun previous ↦
        previous.versionsDiffer observation.analyzerVersion observation.comparisonVersion) =
          false) := by
  unfold observedRow at h
  split at h
  · cases h
  dsimp only at h
  split at h
  · injection h with h
    subst h
    unfold Mirrored
    dsimp only
    split
    · next hflag => simp [hflag]
    · next hflag =>
      split
      · next hversions => simp [hflag, hversions]
      · next hversions => simp [hflag, hversions]
  · cases h

theorem observedRow_isOk {previous : Option LifecycleRow}
    (hclock : ∀ row ∈ previous, row.lastObservedMs ≤ observation.measuredAtMs)
    (hrevision : ∀ row ∈ previous, 0 < row.revision + 1 ∧ row.revision + 1 ≤ maxRevision) :
    ∃ row', observedRow previous observation = .ok row' := by
  unfold observedRow
  cases previous with
  | none => exact ⟨_, rfl⟩
  | some row =>
    have hfresh : ¬ observation.measuredAtMs < row.lastObservedMs := not_lt.mpr (hclock row rfl)
    simp only [Option.any_some, decide_eq_true_eq, Option.map_some, Option.getD_some,
      if_neg hfresh, if_pos (hrevision row rfl)]
    exact ⟨_, rfl⟩

theorem accepted_of_observedRow (h : observedRow (some row) observation = .ok row') :
    row.lastObservedMs ≤ observation.measuredAtMs ∧
      0 < row.revision + 1 ∧ row.revision + 1 ≤ maxRevision := by
  unfold observedRow at h
  simp only [Option.any_some, Option.map_some, Option.getD_some] at h
  split at h
  · cases h
  next hclock =>
  split at h
  · next hrevision => exact ⟨by simpa using hclock, hrevision⟩
  · cases h

theorem mirrored_editedRow {edit : FindingSuppressionEdit} : Mirrored (editedRow edit row) := by
  unfold Mirrored editedRow
  dsimp only
  split <;> simp [*]

theorem progress_invalidatedRow : Progress row (invalidatedRow analyzer comparison row) ∧
    (invalidatedRow analyzer comparison row).suppressed = row.suppressed := by
  unfold invalidatedRow
  split
  · exact ⟨⟨rfl, le_rfl, fun _ ↦ Int.lt_add_one_of_le le_rfl⟩, rfl⟩
  · exact ⟨⟨rfl, le_rfl, fun h ↦ absurd rfl h⟩, rfl⟩

theorem mirrored_invalidatedRow (h : Mirrored row) :
    Mirrored (invalidatedRow analyzer comparison row) := by
  unfold invalidatedRow
  split
  · unfold Mirrored
    dsimp only
    split <;> simp_all
  · exact h

end Row

/-! ### One operation -/

section Step

variable {table : LifecycleTable} {operation : Operation} {key : FindingKey} {row : LifecycleRow}

/-- An observation writes the record of its key, or nothing. -/
theorem getElem?_observe {observation : Observation} :
    (applyOperation table (.observe observation))[key]? =
      if observation.key = key then
        match observedRow table[observation.key]? observation with
        | .error _ => table[key]?
        | .ok row => some row
      else table[key]? := by
  have happly : applyOperation table (.observe observation) = (observe table observation).2 := rfl
  rw [happly]
  unfold observe
  cases observedRow table[observation.key]? observation with
  | error e => exact (ite_self _).symm
  | ok row =>
    dsimp only
    rw [ExtTreeMap.getElem?_insert]
    simp only [Std.compare_eq_iff_eq]

/-- An edit writes the record of its key, or nothing. -/
theorem applyOperation_suppress (table : LifecycleTable) (edit : FindingSuppressionEdit) :
    applyOperation table (.suppress edit) = table ∨ ∃ row, table[edit.key]? = some row ∧
      applyOperation table (.suppress edit) = table.insert edit.key (editedRow edit row) := by
  have happly : applyOperation table (.suppress edit) = (suppress table edit).toOption.getD table :=
    rfl
  rw [happly]
  unfold suppress
  split
  · exact .inl rfl
  split
  · exact .inl rfl
  · next row hrow =>
    split
    · exact .inr ⟨row, hrow, rfl⟩
    · exact .inl rfl

theorem getElem?_invalidate {analyzer comparison : Nat} :
    (applyOperation table (.invalidate analyzer comparison))[key]? =
      table[key]?.map (invalidatedRow analyzer comparison) :=
  ExtTreeMap.getElem?_map

theorem progress_refl : Progress row row :=
  ⟨rfl, le_rfl, fun h ↦ absurd rfl h⟩

theorem progress_editedRow {edit : FindingSuppressionEdit} : Progress row (editedRow edit row) :=
  ⟨rfl, le_rfl, fun _ ↦ Int.lt_add_one_of_le le_rfl⟩

/-- Which records an operation leaves: the same ones, changed as their own operation says. -/
theorem progress_applyOperation (hrow : table[key]? = some row) :
    ∃ row', (applyOperation table operation)[key]? = some row' ∧ Progress row row' ∧
      ((∀ edit, operation ≠ .suppress edit) → row'.suppressed = row.suppressed) := by
  cases operation with
  | observe observation =>
    rw [getElem?_observe]
    by_cases hkey : observation.key = key
    · rw [if_pos hkey, hkey, hrow]
      cases hobserved : observedRow (some row) observation with
      | error e => exact ⟨row, rfl, progress_refl, fun _ ↦ rfl⟩
      | ok row' =>
        obtain ⟨hprogress, hflag⟩ := progress_observedRow hobserved
        exact ⟨row', rfl, hprogress, fun _ ↦ hflag⟩
    · rw [if_neg hkey]
      exact ⟨row, hrow, progress_refl, fun _ ↦ rfl⟩
  | suppress edit =>
    rcases applyOperation_suppress table edit with hsame | ⟨old, hold, hinsert⟩
    · rw [hsame]
      exact ⟨row, hrow, progress_refl, fun _ ↦ rfl⟩
    · rw [hinsert, ExtTreeMap.getElem?_insert]
      by_cases hkey : edit.key = key
      · obtain rfl : old = row := Option.some.inj (hold.symm.trans (hkey ▸ hrow))
        rw [if_pos (Std.compare_eq_iff_eq.mpr hkey)]
        exact ⟨_, rfl, progress_editedRow, fun h ↦ absurd rfl (h edit)⟩
      · rw [if_neg fun h ↦ hkey (Std.compare_eq_iff_eq.mp h)]
        exact ⟨row, hrow, progress_refl, fun _ ↦ rfl⟩
  | invalidate analyzer comparison =>
    have hprogress : Progress row (invalidatedRow analyzer comparison row) ∧ _ :=
      progress_invalidatedRow
    refine ⟨invalidatedRow analyzer comparison row, ?_, hprogress.1, fun _ ↦ hprogress.2⟩
    rw [getElem?_invalidate, hrow, Option.map_some]

theorem stepSound : StepSound table operation where
  progress _ _ hrow := progress_applyOperation hrow
  versions observation hoperation row hrow hversions row' hobserved := by
    subst hoperation
    refine ⟨?_, state_observedRow_of_versionsDiffer hversions hobserved⟩
    rw [getElem?_observe, if_pos rfl, hrow, hobserved]

/-- Where the record of a key comes from: it is the one before, or what an observation, an edit or
an upgrade made of it. -/
theorem getElem?_applyOperation {row' : LifecycleRow}
    (h : (applyOperation table operation)[key]? = some row') :
    table[key]? = some row' ∨
      (∃ observation, operation = .observe observation ∧ observation.key = key ∧
        observedRow table[key]? observation = .ok row') ∨
      (∃ edit row, operation = .suppress edit ∧ table[key]? = some row ∧
        row' = editedRow edit row) ∨
      ∃ analyzer comparison row, operation = .invalidate analyzer comparison ∧
        table[key]? = some row ∧ row' = invalidatedRow analyzer comparison row := by
  cases operation with
  | observe observation =>
    rw [getElem?_observe] at h
    split at h
    · next hkey =>
      rw [hkey] at h
      split at h
      · exact .inl h
      · next observed hobserved =>
        exact .inr (.inl ⟨observation, rfl, hkey,
          hobserved.trans (congrArg _ (Option.some.inj h))⟩)
    · exact .inl h
  | suppress edit =>
    rcases applyOperation_suppress table edit with hsame | ⟨row, hrow, hinsert⟩
    · exact .inl (hsame ▸ h)
    · rw [hinsert, ExtTreeMap.getElem?_insert] at h
      split at h
      · next hkey =>
        rw [Std.compare_eq_iff_eq.mp hkey] at hrow
        exact .inr (.inr (.inl ⟨edit, row, rfl, hrow, (Option.some.inj h).symm⟩))
      · exact .inl h
  | invalidate analyzer comparison =>
    rw [getElem?_invalidate, Option.map_eq_some_iff] at h
    obtain ⟨row, hrow, hmap⟩ := h
    exact .inr (.inr (.inr ⟨analyzer, comparison, row, rfl, hrow, hmap.symm⟩))

theorem AllOrdered.applyOperation (h : AllOrdered table) :
    AllOrdered (applyOperation table operation) := by
  intro key row' hrow'
  rcases getElem?_applyOperation hrow' with hsame | ⟨observation, -, -, hobserved⟩ |
    ⟨edit, row, -, hrow, rfl⟩ | ⟨analyzer, comparison, row, -, hrow, rfl⟩
  · exact h key row' hsame
  · exact ordered_observedRow (h key) hobserved
  · exact h key row hrow
  · have hprogress : Progress row (invalidatedRow analyzer comparison row) :=
      progress_invalidatedRow.1
    rw [hprogress.first]
    exact (h key row hrow).trans hprogress.last

/-- An operation on mirrored records leaves them mirrored exactly when it does not mislabel one. -/
theorem allMirrored_applyOperation_iff (h : AllMirrored table) :
    AllMirrored (applyOperation table operation) ↔ ¬ Mislabels table operation := by
  constructor
  · intro hafter hmislabels
    cases operation with
    | suppress edit => exact hmislabels
    | invalidate analyzer comparison => exact hmislabels
    | observe observation =>
      obtain ⟨hstate, hrecord⟩ := hmislabels
      -- the record is accepted and keeps the state of the observation
      cases hrow : table[observation.key]? with
      | none =>
        obtain ⟨row', hok⟩ : ∃ row', observedRow none observation = .ok row' :=
          observedRow_isOk (fun _ h ↦ nomatch h) (fun _ h ↦ nomatch h)
        have hwritten : (applyOperation table (.observe observation))[observation.key]? = _ :=
          getElem?_observe
        rw [if_pos rfl, hrow, hok] at hwritten
        exact (mirrored_observedRow_iff hok).mp (hafter _ row' hwritten) ⟨hstate, rfl, rfl⟩
      | some row =>
        rw [hrow] at hrecord
        obtain ⟨hflag, hversions, hclock, hrevision⟩ := hrecord
        obtain ⟨row', hok⟩ : ∃ row', observedRow (some row) observation = .ok row' :=
          observedRow_isOk (fun _ h ↦ Option.some.inj h ▸ hclock)
            (fun _ h ↦ Option.some.inj h ▸ hrevision)
        have hwritten : (applyOperation table (.observe observation))[observation.key]? = _ :=
          getElem?_observe
        rw [if_pos rfl, hrow, hok] at hwritten
        exact (mirrored_observedRow_iff hok).mp (hafter _ row' hwritten)
          ⟨hstate, hflag, hversions⟩
  · intro hlabels key row' hrow'
    rcases getElem?_applyOperation hrow' with hsame | ⟨observation, rfl, rfl, hobserved⟩ |
      ⟨edit, row, -, hrow, rfl⟩ | ⟨analyzer, comparison, row, -, hrow, rfl⟩
    · exact h key row' hsame
    · rw [mirrored_observedRow_iff hobserved]
      rintro ⟨hstate, hflag, hversions⟩
      refine hlabels ⟨hstate, ?_⟩
      cases hrow : table[observation.key]? with
      | none => trivial
      | some row =>
        rw [hrow] at hobserved hflag hversions
        exact ⟨hflag, hversions, accepted_of_observedRow hobserved⟩
    · exact mirrored_editedRow
    · exact mirrored_invalidatedRow (h key row hrow)

end Step

/-! ### Every run -/

/-- Along every run from the empty table the records stay ordered and every step is sound; the
states mirror the flags throughout exactly when no observation mislabels a record. -/
theorem lifecycle_runs (operations : List Operation) :
    Along applyOperation StepSound ∅ operations ∧
      Along applyOperation (fun table operation ↦ AllOrdered (applyOperation table operation)) ∅
        operations ∧
      (Along applyOperation (fun table operation ↦ AllMirrored (applyOperation table operation)) ∅
        operations ↔
        Along applyOperation (fun table operation ↦ ¬ Mislabels table operation) ∅ operations) := by
  have hempty (key : FindingKey) (row : LifecycleRow) :
      (∅ : LifecycleTable)[key]? = some row → False := by
    rw [ExtTreeMap.getElem?_empty]
    exact fun h ↦ nomatch h
  have hordered : AllOrdered ∅ := fun key row h ↦ (hempty key row h).elim
  refine ⟨?_, ?_, ?_⟩
  · exact Along.of_invariant (fun _ _ _ _ ↦ trivial) (fun _ _ (_ : True) _ ↦ stepSound) trivial
      (Along.trivial _ _)
  · exact Along.of_invariant (fun _ _ h _ ↦ h.applyOperation)
      (fun _ _ (h : AllOrdered _) _ ↦ h.applyOperation) hordered (Along.trivial _ _)
  · exact Along.everywhere_iff AllMirrored (fun _ _ h ↦ allMirrored_applyOperation_iff h)
      fun key row h ↦ (hempty key row h).elim

/-- Recording a report is the run of an upgrade and of its observations. -/
theorem recordWorkflowMeasurement_eq_run {table table' : LifecycleTable} {report : WorkflowReport}
    (h : recordWorkflowMeasurement table report = .ok table') :
    table' = (Operation.invalidate report.analyzerVersion report.version ::
      report.findings.map fun finding ↦ .observe (report.observation finding)).foldl
        applyOperation table := by
  have hobserve (observations : List Observation) : ∀ table, observeAll table observations =
      .ok table' → table' = (observations.map Operation.observe).foldl applyOperation table := by
    induction observations with
    | nil => exact fun table h ↦ (Except.ok.inj h).symm
    | cons observation rest ih =>
      intro table h
      unfold observeAll at h
      split at h
      · cases h
      · next hobserved =>
        have happly : applyOperation table (.observe observation) = _ := congrArg Prod.snd hobserved
        rw [List.map_cons, List.foldl_cons, happly]
        exact ih _ h
  unfold recordWorkflowMeasurement at h
  split at h
  · cases h
  split at h
  · cases h
  · have hrun := hobserve _ _ h
    rw [List.map_map] at hrun
    exact hrun

/-! ### A stale report -/

/-- A report of one finding. -/
def sampleReport (generatedAtMs : Int) (state : FindingState) : WorkflowReport where
  version := 1
  generatedAtMs := generatedAtMs
  analyzerVersion := 3
  findings := [⟨"codex", none, "repeated-read", state⟩]

/-- An edit of its record. -/
def sampleEdit (expectedRevision : Int) (suppressed : Bool) : FindingSuppressionEdit :=
  ⟨"codex", none, "repeated-read", expectedRevision, suppressed⟩

/-- A report is loaded while its finding is suppressed, and recorded after the flag was cleared. -/
def staleMeasurement : Except String LifecycleTable := do
  let recorded ← recordWorkflowMeasurement ∅ (sampleReport 1000 .new)
  let hidden ← suppress recorded (sampleEdit 1 true)
  let report ← loadWorkflowLifecycle hidden (sampleReport 2000 .persistent)
  let shown ← suppress hidden (sampleEdit 2 false)
  recordWorkflowMeasurement shown report

/-- The operations of the last recording and of those before it. -/
def staleOperations : List Operation :=
  [.observe ((sampleReport 1000 .new).observation ⟨"codex", none, "repeated-read", .new⟩),
    .suppress (sampleEdit 1 true), .suppress (sampleEdit 2 false),
    .observe ((sampleReport 2000 .new).observation ⟨"codex", none, "repeated-read", .suppressed⟩)]

theorem not_mirrored_staleMeasurement :
    staleMeasurement.map (fun table ↦ table[(("codex", "", "repeated-read") : FindingKey)]?) =
        .ok (some ⟨1000, 2000, 3, 1, .suppressed, false, 4⟩) ∧
      ¬ ∀ operations : List Operation, Along applyOperation
        (fun table operation ↦ AllMirrored (applyOperation table operation)) ∅ operations := by
  refine ⟨by decide +kernel, fun h ↦ ?_⟩
  have hrun : Along applyOperation
      (fun table operation ↦ AllMirrored (applyOperation table operation)) ∅
      (staleOperations.take 3 ++ .observe ((sampleReport 2000 .new).observation
        ⟨"codex", none, "repeated-read", .suppressed⟩) :: []) := h staleOperations
  have hlast := Along.of_append hrun
  have hrow := hlast ("codex", "", "repeated-read") ⟨1000, 2000, 3, 1, .suppressed, false, 4⟩
    (by decide +kernel)
  exact Bool.false_ne_true (hrow.mp rfl)

end AgentOdometer.Workflow
