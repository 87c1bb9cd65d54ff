import AgentOdometer.Base.Checked
import AgentOdometer.Ledger.Observe

/-!
# What a call changes

The contents of a ledger are the stored contents of its sessions, by key. Reconciliation and
the bookkeeping of a call keep them; a successful observation rewrites the content of one
key, which reconciliation may have inserted.
-/

namespace AgentOdometer.Ledger

/-! ### Fallible steps -/

theorem ensure_eq_ok {holds : Bool} {error : LedgerError} {u : Unit} :
    ensure holds error = .ok u ↔ holds = true := by
  cases holds with
  | false => exact ⟨(fun h ↦ nomatch h), fun h ↦ nomatch h⟩
  | true => exact ⟨fun _ ↦ rfl, fun _ ↦ rfl⟩

namespace HistoryStore

variable {codec : Codec} {store store' reconciled : HistoryStore} {key : String}

/-- The stored contents by session key, in insertion order. -/
def contents (store : HistoryStore) : List (String × SessionContent) :=
  store.sessions.map fun row ↦ (row.sessionKey, row.content)

/-- Replace the content of a key. -/
def setContent (key : String) (content : SessionContent)
    (contents : List (String × SessionContent)) : List (String × SessionContent) :=
  contents.map fun entry ↦ if entry.1 = key then (entry.1, content) else entry

/-! ### Bookkeeping -/

theorem contents_updateWhere {p : DurableSession → Bool} {f : DurableSession → DurableSession}
    (hkey : ∀ row, (f row).sessionKey = row.sessionKey)
    (hcontent : ∀ row, (f row).content = row.content) (rows : List DurableSession) :
    (Table.updateWhere p f rows).map (fun row ↦ (row.sessionKey, row.content)) =
      rows.map fun row ↦ (row.sessionKey, row.content) := by
  unfold Table.updateWhere
  rw [List.map_map]
  apply List.map_congr_left
  intro row _
  simp only [Function.comp_apply]
  split
  · rw [hkey, hcontent]
  · rfl

theorem contents_updateRow {f : DurableSession → DurableSession}
    (hkey : ∀ row, (f row).sessionKey = row.sessionKey)
    (hcontent : ∀ row, (f row).content = row.content) :
    (store.updateRow key f).contents = store.contents :=
  contents_updateWhere hkey hcontent store.sessions

theorem contents_updateRow_content {f : DurableSession → DurableSession}
    {content : SessionContent} (hkey : ∀ row, (f row).sessionKey = row.sessionKey)
    (hcontent : ∀ row, (f row).content = content) :
    (store.updateRow key f).contents = setContent key content store.contents := by
  unfold contents setContent updateRow Table.update Table.updateWhere
  rw [List.map_map, List.map_map]
  apply List.map_congr_left
  intro row _
  simp only [Function.comp_apply, decide_eq_true_eq]
  split
  · rw [hkey, hcontent]
  · rfl

@[simp]
theorem contents_upsertArtifact (artifactKey : String) (row : DurableSession) (now : Int) :
    (store.upsertArtifact artifactKey row now).contents = store.contents :=
  rfl

@[simp]
theorem contents_upsertLocation (path artifactKey key : String) (now generation : Int) :
    (store.upsertLocation path artifactKey key now generation).contents = store.contents :=
  rfl

@[simp]
theorem contents_markRollupsStale : (store.markRollupsStale key).contents = store.contents :=
  rfl

@[simp]
theorem contents_supersede (previous : Option String) :
    (store.supersede previous).contents = store.contents := by
  unfold supersede
  split
  · rfl
  · split
    · rfl
    · exact contents_updateRow (fun _ ↦ rfl) fun _ ↦ rfl

@[simp]
theorem contents_refreshCollisionFlags (identity : String) :
    (store.refreshCollisionFlags identity).contents = store.contents := by
  unfold refreshCollisionFlags contents
  apply contents_updateWhere
  · intro row
    rfl
  · intro row
    rfl

theorem mem_contents_of_row? {row : DurableSession} (h : store.row? key = some row) :
    (key, row.content) ∈ store.contents := by
  rw [← Table.key_of_lookup h]
  exact List.mem_map_of_mem (Table.mem_of_lookup h)

theorem sessionKey_recordProject (row : DurableSession) (project : Option ProjectIdentity)
    (session : Session) : (row.recordProject project session).sessionKey = row.sessionKey := by
  unfold DurableSession.recordProject
  split <;> rfl

/-- The writes of an observation replace the content of one key. -/
theorem contents_recordObservation (observation : Observation) (row : DurableSession)
    (artifactKey : String) (displaced : Option String) (content : SessionContent)
    (rollupsDeferred : Bool) :
    (store.recordObservation observation row artifactKey displaced content
        rollupsDeferred).contents = setContent row.sessionKey content store.contents := by
  unfold recordObservation
  simp only [contents_refreshCollisionFlags]
  have hrow : ∀ store : HistoryStore,
      (store.updateRow row.sessionKey (observedRow observation content)).contents =
        setContent row.sessionKey content store.contents := fun store ↦
    contents_updateRow_content (fun row ↦ sessionKey_recordProject row _ _) fun _ ↦ rfl
  split
  · rw [contents_markRollupsStale, contents_supersede, hrow, contents_upsertLocation,
      contents_upsertArtifact]
  · rw [contents_supersede, hrow, contents_upsertLocation, contents_upsertArtifact]

theorem rollupMarkers_supersede (store : HistoryStore) (previous : Option String) :
    (store.supersede previous).rollupsStale = store.rollupsStale ∧
      (store.supersede previous).rollupsPending = store.rollupsPending := by
  unfold supersede
  split
  · exact ⟨rfl, rfl⟩
  · split
    · exact ⟨rfl, rfl⟩
    · exact ⟨rfl, rfl⟩

/-- A deferred observation marks the rollups stale and records its key. -/
theorem rollupMarkers_recordObservation (observation : Observation) (row : DurableSession)
    (artifactKey : String) (displaced : Option String) (content : SessionContent)
    (rollupsDeferred : Bool) :
    let store' := store.recordObservation observation row artifactKey displaced content
      rollupsDeferred
    store'.rollupsStale = (store.rollupsStale || rollupsDeferred) ∧
      store'.rollupsPending =
        if rollupsDeferred then store.rollupsPending.insert row.sessionKey
        else store.rollupsPending := by
  unfold recordObservation refreshCollisionFlags
  cases rollupsDeferred with
  | false =>
    obtain ⟨hstale, hpending⟩ := rollupMarkers_supersede
      (((store.upsertArtifact artifactKey row observation.now).upsertLocation observation.path
        artifactKey row.sessionKey observation.now observation.generation).updateRow
          row.sessionKey (observedRow observation content)) displaced
    exact ⟨hstale.trans (Bool.or_false store.rollupsStale).symm, hpending⟩
  | true =>
    obtain ⟨-, hpending⟩ := rollupMarkers_supersede
      (((store.upsertArtifact artifactKey row observation.now).upsertLocation observation.path
        artifactKey row.sessionKey observation.now observation.generation).updateRow
          row.sessionKey (observedRow observation content)) displaced
    refine ⟨(Bool.or_true store.rollupsStale).symm, ?_⟩
    exact congrArg (List.insert row.sessionKey) hpending

/-! ### Reconciliation -/

theorem applyReconciliation_insert_eq_ok {incoming : Incoming} :
    applyReconciliation store incoming (.insert key) = .ok reconciled ↔
      store.row? key = none ∧
        { store with sessions := store.sessions ++ [newRow incoming key] } = reconciled := by
  simp only [applyReconciliation]
  cases hrow : store.row? key with
  | none => simp
  | some row => simp

/-- Reconciliation keeps the contents, or adds a new key without content. -/
theorem contents_applyReconciliation {incoming : Incoming} {choice : Reconciliation}
    (h : applyReconciliation store incoming choice = .ok reconciled) :
    reconciled.contents = store.contents ∨
      (reconciled.contents = store.contents ++ [(choice.key, .fresh)] ∧
        store.row? choice.key = none) := by
  cases choice with
  | gainFirstTurn key =>
    cases h
    exact .inl (contents_updateRow (fun _ ↦ rfl) fun _ ↦ rfl)
  | touch key =>
    cases h
    exact .inl (contents_updateRow (fun _ ↦ rfl) fun _ ↦ rfl)
  | finalize key =>
    cases h
    exact .inl (contents_updateRow (fun _ ↦ rfl) fun _ ↦ rfl)
  | insert key =>
    obtain ⟨hnew, rfl⟩ := applyReconciliation_insert_eq_ok.mp h
    exact .inr ⟨List.map_append, hnew⟩

theorem reconcileSession_eq_ok {incoming : Incoming} :
    store.reconcileSession codec incoming = .ok (key, reconciled) ↔
      ∃ choice, chooseSession codec store incoming = .ok choice ∧ choice.key = key ∧
        applyReconciliation store incoming choice = .ok reconciled := by
  unfold reconcileSession
  simp only [bind_eq_ok, pure, Except.pure, Except.ok.injEq, Prod.mk.injEq]
  constructor
  · rintro ⟨choice, hchoice, _, happly, hkey, rfl⟩
    exact ⟨choice, hchoice, hkey, happly⟩
  · rintro ⟨choice, hchoice, hkey, happly⟩
    exact ⟨choice, hchoice, reconciled, happly, hkey, rfl⟩

theorem rollupMarkers_applyReconciliation {incoming : Incoming} {choice : Reconciliation}
    (h : applyReconciliation store incoming choice = .ok reconciled) :
    reconciled.rollupsStale = store.rollupsStale ∧
      reconciled.rollupsPending = store.rollupsPending := by
  cases choice with
  | gainFirstTurn key => cases h; exact ⟨rfl, rfl⟩
  | touch key => cases h; exact ⟨rfl, rfl⟩
  | finalize key => cases h; exact ⟨rfl, rfl⟩
  | insert key =>
    obtain ⟨-, rfl⟩ := applyReconciliation_insert_eq_ok.mp h
    exact ⟨rfl, rfl⟩

/-! ### Observations -/

theorem requireRow_eq_ok {row : DurableSession} :
    store.requireRow key = .ok row ↔ store.row? key = some row := by
  unfold requireRow
  split
  · next h => simp [h]
  · next r h => simp [h]

/-- What a successful observation checked and wrote. -/
theorem observeOne_eq_ok {maintainRollups : Bool} {observation : Observation}
    {observed : Observed} :
    observeOne codec maintainRollups store observation = .ok (observed, store') ↔
      hasProviderId observation.session = true ∧
      store.isExcluded (effectiveStorageId observation.session)
        (firstEventFingerprint codec observation.session) = false ∧
      ∃ key reconciled row artifactKey content factsChanged,
        store.reconcileSession codec (observation.incoming codec) = .ok (key, reconciled) ∧
        reconciled.row? key = some row ∧
        reconciled.sourceArtifactKey codec (effectiveStorageId observation.session)
          observation.session key = .ok artifactKey ∧
        reconciled.artifactFree artifactKey key = true ∧
        observeContent codec maintainRollups observation.session
          (applyProjectIdentity row observation.project (observation.archived key))
          row.content = .ok (content, factsChanged) ∧
        observed = ⟨key, ((store.locations[observation.path]?).map (·.sessionKey)).filter
          (· ≠ key), !maintainRollups && factsChanged⟩ ∧
        store' = reconciled.recordObservation observation row artifactKey observed.displaced
          content observed.rollupsDeferred := by
  unfold observeOne
  simp only [bind_eq_ok, ensure_eq_ok, requireRow_eq_ok, Prod.exists, pure, Except.pure,
    Except.ok.injEq, Prod.mk.injEq, Bool.not_eq_true']
  constructor
  · rintro ⟨_, hid, _, hexcluded, key, reconciled, hreconcile, row, hrow, artifactKey, hartifact,
      _, hfree, content, factsChanged, hcontent, rfl, rfl⟩
    exact ⟨hid, hexcluded, key, reconciled, row, artifactKey, content, factsChanged, hreconcile,
      hrow, hartifact, hfree, hcontent, rfl, rfl⟩
  · rintro ⟨hid, hexcluded, key, reconciled, row, artifactKey, content, factsChanged, hreconcile,
      hrow, hartifact, hfree, hcontent, rfl, rfl⟩
    exact ⟨(), hid, (), hexcluded, key, reconciled, hreconcile, row, hrow, artifactKey, hartifact,
      (), hfree, content, factsChanged, hcontent, rfl, rfl⟩

end HistoryStore

end AgentOdometer.Ledger
