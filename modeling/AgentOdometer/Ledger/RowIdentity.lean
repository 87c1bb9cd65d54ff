import AgentOdometer.Ledger.Calls

/-!
# Identities of stored rows

A row is known by its session key, its identity key and its first-event fingerprint. The calls
of the store change them only by reconciliation: a row which receives a new pair of identity and
fingerprint receives that of a transcript which is not excluded.
-/

namespace AgentOdometer.Ledger

/-- A session key, an identity key and a first-event fingerprint. -/
abbrev ExclusionIdentity :=
  String × String × String

/-- The identity of a row. -/
def DurableSession.exclusionIdentity (row : DurableSession) : ExclusionIdentity :=
  (row.sessionKey, row.identityKey, row.firstEventFingerprint)

namespace HistoryStore

variable {codec : Codec} {store store' middle : HistoryStore} {incoming : Incoming} {key : String}

/-- The identities of the rows. -/
def identities (store : HistoryStore) : List ExclusionIdentity :=
  store.sessions.map (·.exclusionIdentity)

/-- Session keys are a primary key. -/
def KeysDistinct (store : HistoryStore) : Prop :=
  (store.identities.map (·.1)).Nodup

theorem keys_eq : store.identities.map (·.1) = store.sessions.map (·.sessionKey) := by
  unfold identities
  rw [List.map_map]
  rfl

theorem row_unique {row other : DurableSession} (h : store.KeysDistinct)
    (hrow : row ∈ store.sessions) (hother : other ∈ store.sessions)
    (hkey : row.sessionKey = other.sessionKey) : row = other := by
  unfold KeysDistinct at h
  rw [keys_eq] at h
  exact List.inj_on_of_nodup_map h hrow hother hkey

/-! ### What a call may do -/

/-- The store after a call: no tombstone is added or lost, the keys stay distinct, and a row whose
identity is new has one which is not excluded. -/
structure Respects (store store' : HistoryStore) : Prop where
  purged : store'.purged = store.purged
  keysDistinct : store.KeysDistinct → store'.KeysDistinct
  identities : store.KeysDistinct → ∀ identity ∈ store'.identities,
    identity ∈ store.identities ∨ store.isExcluded identity.2.1 identity.2.2 = false

theorem isExcluded_congr (h : store'.purged = store.purged) :
    store'.isExcluded = store.isExcluded := by
  unfold isExcluded
  rw [h]

theorem Respects.of_eq (hpurged : store'.purged = store.purged)
    (hidentities : store'.identities = store.identities) : store.Respects store' where
  purged := hpurged
  keysDistinct := by
    unfold KeysDistinct
    rw [hidentities]
    exact id
  identities := by
    intro _ identity hmem
    rw [hidentities] at hmem
    exact .inl hmem

theorem Respects.refl (store : HistoryStore) : store.Respects store :=
  .of_eq rfl rfl

theorem Respects.trans (h : store.Respects middle) (h' : middle.Respects store') :
    store.Respects store' where
  purged := h'.purged.trans h.purged
  keysDistinct := fun hkeys ↦ h'.keysDistinct (h.keysDistinct hkeys)
  identities := by
    intro hkeys identity hmem
    rcases h'.identities (h.keysDistinct hkeys) identity hmem with hold | hfree
    · exact h.identities hkeys identity hold
    · rw [isExcluded_congr h.purged] at hfree
      exact .inr hfree

/-! ### Writes which keep every identity -/

theorem identities_updateWhere {p : DurableSession → Bool} {f : DurableSession → DurableSession}
    (hf : ∀ row, (f row).exclusionIdentity = row.exclusionIdentity) :
    (Table.updateWhere p f store.sessions).map (·.exclusionIdentity) = store.identities := by
  unfold Table.updateWhere identities
  rw [List.map_map]
  apply List.map_congr_left
  intro row _
  simp only [Function.comp_apply]
  split
  · exact hf row
  · rfl

theorem identities_updateRow {f : DurableSession → DurableSession}
    (hf : ∀ row, (f row).exclusionIdentity = row.exclusionIdentity) :
    (store.updateRow key f).identities = store.identities :=
  identities_updateWhere hf

theorem exclusionIdentity_recordProject (row : DurableSession) (project : Option ProjectIdentity)
    (session : Session) :
    (row.recordProject project session).exclusionIdentity = row.exclusionIdentity := by
  unfold DurableSession.recordProject
  split <;> rfl

theorem Respects.updateRow {f : DurableSession → DurableSession}
    (hf : ∀ row, (f row).exclusionIdentity = row.exclusionIdentity) :
    store.Respects (store.updateRow key f) :=
  .of_eq rfl (identities_updateRow hf)

theorem Respects.supersede (previous : Option String) :
    store.Respects (store.supersede previous) := by
  unfold HistoryStore.supersede
  cases previous with
  | none => exact .refl _
  | some previous =>
    simp only
    split
    · exact .refl _
    · exact .updateRow fun _ ↦ rfl

theorem Respects.refreshCollisionFlags (identity : String) :
    store.Respects (store.refreshCollisionFlags identity) :=
  .of_eq rfl (identities_updateWhere fun _ ↦ rfl)

theorem Respects.recordObservation (observation : Observation) (row : DurableSession)
    (artifactKey : String) (displaced : Option String) (content : SessionContent)
    (rollupsDeferred : Bool) :
    store.Respects (store.recordObservation observation row artifactKey displaced content
      rollupsDeferred) := by
  have hlocated : store.Respects ((store.upsertArtifact artifactKey row observation.now
      ).upsertLocation observation.path artifactKey row.sessionKey observation.now
        observation.generation) := .of_eq rfl rfl
  have hupdate : ∀ store : HistoryStore,
      store.Respects (store.updateRow row.sessionKey (observedRow observation content)) :=
    fun _ ↦ .updateRow fun row ↦ exclusionIdentity_recordProject row _ _
  have hwritten := hlocated.trans (hupdate _)
  have hsuperseded := hwritten.trans (.supersede displaced)
  unfold HistoryStore.recordObservation
  simp only
  apply Respects.trans _ (.refreshCollisionFlags _)
  split
  · exact hsuperseded.trans (.of_eq rfl rfl)
  · exact hsuperseded

theorem Respects.refreshMissing : store.Respects store.refreshMissing :=
  .of_eq rfl (identities_updateWhere fun _ ↦ rfl)

theorem Respects.markPathMissing (path : String) : store.Respects (store.markPathMissing path) := by
  unfold HistoryStore.markPathMissing
  split
  · exact .refl _
  · refine Respects.trans ?_ .refreshMissing
    exact .of_eq rfl rfl

theorem Respects.rebuildRollupsScoped (scope : RollupScope) :
    store.Respects (store.rebuildRollupsScoped scope) :=
  .of_eq rfl (identities_updateWhere fun _ ↦ rfl)

theorem Respects.updateSnapshot {session : Session} {now : Int} {project : Option ProjectIdentity}
    (h : updateSnapshot codec store session now project = .ok store') : store.Respects store' := by
  unfold HistoryStore.updateSnapshot at h
  simp only [bind_eq_ok, pure, Except.pure, Except.ok.injEq] at h
  obtain ⟨row, -, rfl⟩ := h
  exact .updateRow fun row ↦ exclusionIdentity_recordProject row _ _

theorem Respects.overlayThreadNames {updates : List (String × Option String)}
    (h : overlayThreadNames store updates = .ok store') : store.Respects store' := by
  induction updates generalizing store with
  | nil =>
    cases h
    exact .refl _
  | cons update rest ih =>
    obtain ⟨key, threadName⟩ := update
    simp only [HistoryStore.overlayThreadNames, bind_eq_ok] at h
    obtain ⟨_, -, h⟩ := h
    refine Respects.trans ?_ (ih h)
    exact .updateRow fun _ ↦ rfl

/-! ### Reconciliation -/

theorem identity_of_priorFromPath {row : DurableSession} {stored : Session} {bound : String}
    (h : store.priorFromPath incoming = some (row, stored, bound)) :
    row ∈ store.sessions ∧ row.identityKey = incoming.identity := by
  unfold priorFromPath at h
  simp only [Option.bind_eq_bind, Option.bind_eq_some_iff] at h
  obtain ⟨location, -, found, hfound, artifact, -, snapshot, -, h⟩ := h
  split at h
  · next hcond =>
    cases h
    exact ⟨Table.mem_of_lookup hfound, hcond.2.1⟩
  · cases h

theorem identity_of_provisionalFromPath (h : store.provisionalFromPath incoming = some key) :
    ∃ row ∈ store.sessions, row.sessionKey = key ∧ row.identityKey = incoming.identity := by
  unfold provisionalFromPath at h
  simp only [Option.bind_eq_bind, Option.bind_eq_some_iff] at h
  obtain ⟨location, -, row, hrow, h⟩ := h
  split at h
  · next hcond =>
    cases h
    exact ⟨row, Table.mem_of_lookup hrow, rfl, hcond.1⟩
  · cases h

theorem identity_of_provisionalOfIdentity (h : store.provisionalOfIdentity incoming = some key) :
    ∃ row ∈ store.sessions, row.sessionKey = key ∧ row.identityKey = incoming.identity := by
  unfold provisionalOfIdentity at h
  simp only at h
  split at h
  · next row hcandidates =>
    have hmem : row ∈ store.sessions.filter fun row ↦ row.identityKey = incoming.identity &&
        !row.fingerprintIsFinal && row.content.snapshot.isSome := by
      rw [hcandidates]
      exact List.mem_singleton_self row
    rw [List.mem_filter] at hmem
    simp only [Bool.and_eq_true, decide_eq_true_eq] at hmem
    split at h
    · cases h
      exact ⟨row, hmem.1, rfl, hmem.2.1.1⟩
    · cases h
  · cases h

/-- The choice gives a stored row of the transcript's identity its fingerprint, unless it gives no
row a fingerprint. -/
def KeepsIdentity (store : HistoryStore) (incoming : Incoming) (choice : Reconciliation) : Prop :=
  (∃ key, choice = .touch key ∨ choice = .insert key) ∨
    ∃ row ∈ store.sessions, row.sessionKey = choice.key ∧ row.identityKey = incoming.identity

theorem keepsIdentity_reconcileFromPath {choice : Reconciliation}
    (h : reconcileFromPath codec store incoming = .ok (some choice)) :
    store.KeepsIdentity incoming choice := by
  unfold reconcileFromPath at h
  split at h
  · cases h
  · next row stored bound hprior =>
    split at h
    · cases h
      obtain ⟨hmem, hidentity⟩ := identity_of_priorFromPath hprior
      exact .inr ⟨row, hmem, rfl, hidentity⟩
    · obtain ⟨artifactKey, -, h⟩ := bind_eq_ok.mp h
      split at h
      · cases h
        exact .inl ⟨_, .inl rfl⟩
      · cases h

theorem keepsIdentity_find? {p : DurableSession → Bool} {choice : Reconciliation}
    (h : (store.sessions.find? p).map (Reconciliation.touch ·.sessionKey) = some choice) :
    store.KeepsIdentity incoming choice := by
  obtain ⟨row, -, rfl⟩ := Option.map_eq_some_iff.mp h
  exact .inl ⟨_, .inl rfl⟩

theorem keepsIdentity_reconcileRenamedSubagent {choice : Reconciliation}
    (h : store.reconcileRenamedSubagent incoming = some choice) :
    store.KeepsIdentity incoming choice := by
  unfold reconcileRenamedSubagent at h
  split at h
  · exact keepsIdentity_find? h
  · cases h

theorem keepsIdentity_reconcileProvisional {choice : Reconciliation}
    (h : store.reconcileProvisional incoming = some choice) :
    store.KeepsIdentity incoming choice := by
  unfold reconcileProvisional at h
  split at h
  · obtain ⟨key, hkey, rfl⟩ := Option.map_eq_some_iff.mp h
    rcases Option.or_eq_some_iff.mp hkey with hpath | ⟨-, hidentity⟩
    · exact .inr (identity_of_provisionalFromPath hpath)
    · exact .inr (identity_of_provisionalOfIdentity hidentity)
  · cases h

theorem keepsIdentity_chooseSession {choice : Reconciliation}
    (h : chooseSession codec store incoming = .ok choice) :
    store.KeepsIdentity incoming choice := by
  unfold chooseSession at h
  simp only [bind_eq_ok, pure, Except.pure, Except.ok.injEq] at h
  obtain ⟨fromPath, hpath, rfl⟩ := h
  cases hrule : ((fromPath.or (reconcileByLineage store incoming)).or
      (reconcileRenamedSubagent store incoming)).or (reconcileProvisional store incoming) with
  | none => exact .inl ⟨_, .inr rfl⟩
  | some rule =>
    simp only [Option.or_eq_some_iff] at hrule
    rcases hrule with ((hrule | ⟨-, hrule⟩) | ⟨-, hrule⟩) | ⟨-, hrule⟩
    · subst hrule
      exact keepsIdentity_reconcileFromPath hpath
    · exact keepsIdentity_find? hrule
    · exact keepsIdentity_reconcileRenamedSubagent hrule
    · exact keepsIdentity_reconcileProvisional hrule

/-- A row of the transcript's identity receives its fingerprint. -/
theorem Respects.refingerprint {f : DurableSession → DurableSession} {row : DurableSession}
    (hexcluded : store.isExcluded incoming.identity incoming.fingerprint = false)
    (hrow : row ∈ store.sessions) (hkey : row.sessionKey = key)
    (hidentity : row.identityKey = incoming.identity)
    (hf : ∀ row, (f row).exclusionIdentity =
      (row.sessionKey, row.identityKey, incoming.fingerprint)) :
    store.Respects (refingerprintArtifacts (store.updateRow key f) incoming key) where
  purged := rfl
  keysDistinct := by
    have hkeys : (refingerprintArtifacts (store.updateRow key f) incoming key).sessions.map
        (·.sessionKey) = store.sessions.map (·.sessionKey) :=
      Table.keys_update fun row ↦ congrArg Prod.fst (hf row)
    unfold KeysDistinct
    rw [keys_eq, keys_eq, hkeys]
    exact id
  identities := by
    intro hkeys identity hmem
    obtain ⟨written, hwritten, rfl⟩ := List.mem_map.mp hmem
    obtain ⟨old, hold, rfl⟩ := List.mem_map.mp hwritten
    split
    · next hmatch =>
      have hsame : old = row := row_unique hkeys hold hrow
        ((of_decide_eq_true hmatch).trans hkey.symm)
      rw [hf, hsame, hidentity]
      exact .inr hexcluded
    · exact .inl (List.mem_map_of_mem hold)

theorem Respects.reconcileSession {reconciled : HistoryStore}
    (hexcluded : store.isExcluded incoming.identity incoming.fingerprint = false)
    (h : store.reconcileSession codec incoming = .ok (key, reconciled)) :
    store.Respects reconciled := by
  obtain ⟨choice, hchoose, -, happly⟩ := reconcileSession_eq_ok.mp h
  have hkeeps := keepsIdentity_chooseSession hchoose
  cases choice with
  | gainFirstTurn k =>
    rcases hkeeps with ⟨_, hkeeps | hkeeps⟩ | ⟨row, hrow, hkey, hidentity⟩
    · cases hkeeps
    · cases hkeeps
    · cases happly
      exact .refingerprint hexcluded hrow hkey hidentity fun _ ↦ rfl
  | touch k =>
    cases happly
    exact .updateRow fun _ ↦ rfl
  | finalize k =>
    rcases hkeeps with ⟨_, hkeeps | hkeeps⟩ | ⟨row, hrow, hkey, hidentity⟩
    · cases hkeeps
    · cases hkeeps
    · cases happly
      exact .refingerprint hexcluded hrow hkey hidentity fun _ ↦ rfl
  | insert k =>
    obtain ⟨hnew, rfl⟩ := applyReconciliation_insert_eq_ok.mp happly
    have hidentities : ({ store with sessions := store.sessions ++ [newRow incoming k] } :
        HistoryStore).identities = store.identities ++ [(newRow incoming k).exclusionIdentity] :=
      List.map_append
    refine ⟨rfl, ?_, ?_⟩
    · intro hkeys
      unfold KeysDistinct
      rw [hidentities, List.map_append, List.nodup_append_comm]
      refine List.nodup_cons.mpr ⟨?_, hkeys⟩
      rw [keys_eq]
      exact Table.lookup_eq_none_iff.mp hnew
    · intro _ identity hmem
      rw [hidentities, List.mem_append, List.mem_singleton] at hmem
      rcases hmem with hmem | rfl
      · exact .inl hmem
      · exact .inr hexcluded

/-! ### Calls -/

theorem Respects.observeOne {maintainRollups : Bool} {observation : Observation}
    {observed : Observed}
    (h : observeOne codec maintainRollups store observation = .ok (observed, store')) :
    store.Respects store' := by
  obtain ⟨-, hexcluded, key, reconciled, row, artifactKey, content, factsChanged, hreconcile, -,
    -, -, -, -, rfl⟩ := observeOne_eq_ok.mp h
  have hreconciled : store.Respects reconciled := .reconcileSession hexcluded hreconcile
  exact hreconciled.trans (.recordObservation _ _ _ _ _ _)

/-- Every call of the store respects the tombstones. -/
theorem Respects.call (c : StoreCall) : store.Respects (store.call codec c) := by
  cases c with
  | observe observation => exact committed_invariant (.refl _) fun _ _ h ↦ .observeOne h
  | observeBulk observation => exact committed_invariant (.refl _) fun _ _ h ↦ .observeOne h
  | observeBulkBatch observations =>
    apply committed_invariant (.refl _)
    intro written store' h
    have hbatch : EachObserved codec (fun _ _ ↦ True) store observations :=
      eachObserved_of_forall (fun _ _ ↦ trivial) _ _
    refine observeBulkBatch_invariant ?_ h hbatch (.refl _)
    intro _ _ _ _ hs _ hobserve
    exact hs.trans (.observeOne hobserve)
  | updateSnapshotBatch now sessions =>
    apply committed_invariant (.refl _)
    intro u store' h
    have hbatch : EachUpdated codec now (fun _ _ _ ↦ True) store sessions :=
      eachUpdated_of_forall (fun _ _ _ ↦ trivial) _ _
    refine updateSnapshotBatch_invariant ?_ (of_map_pair h) hbatch (.refl _)
    intro _ _ _ _ hs _ hupdate
    exact hs.trans (.updateSnapshot hupdate)
  | overlayThreadNames updates =>
    exact committed_invariant (.refl _) fun _ _ h ↦ .overlayThreadNames (of_map_pair h)
  | rebuildRollups => exact .rebuildRollupsScoped _
  | rebuildRollupsIfStale =>
    unfold HistoryStore.call HistoryStore.rebuildRollupsIfStale
    simp only
    split
    · exact .refl _
    · split <;> exact .rebuildRollupsScoped _
  | reopen =>
    unfold HistoryStore.call HistoryStore.reopen
    simp only
    split
    · exact .rebuildRollupsScoped _
    · exact .refl _

end HistoryStore

end AgentOdometer.Ledger
