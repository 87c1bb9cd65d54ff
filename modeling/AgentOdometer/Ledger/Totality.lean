import AgentOdometer.Ledger.Calls

/-!
# When an observation succeeds

The failures of `observe_one_in_transaction` behind its checks of the provider id and of the
purge list: an insert of a session key which exists (`history_store.rs:4660–4679`), an
artifact key of another session (`history_store.rs:6053–6061`), and a count out of SQLite's
range.
-/

namespace AgentOdometer.Ledger

open Transition

namespace HistoryStore

variable (codec : Codec) (store : HistoryStore) (incoming : Incoming)

/-- Neither artifact key of a history is free for a session. -/
def ArtifactsTaken (identity : String) (session : Session) (key : String) : Prop :=
  store.artifactFree (baseArtifactKey codec identity session) key = false ∧
    store.artifactFree (distinctArtifactKey codec identity session key) key = false

/-- The stored session which a reconciliation rule matches, where the rule of the source path
does not fail. -/
def matchedRule : Option Reconciliation :=
  let fromPath := match reconcileFromPath codec store incoming with
    | .ok rule => rule
    | .error _ => none
  ((fromPath.or (reconcileByLineage store incoming)).or
    (reconcileRenamedSubagent store incoming)).or (reconcileProvisional store incoming)

/-- The session key of the transcript. -/
def chosenKey : String :=
  ((matchedRule codec store incoming).getD
    (.insert (newSessionKey codec store incoming))).key

/-- A rule matches, or the identity or its collision key is unused. -/
def KeyAvailable : Prop :=
  (matchedRule codec store incoming).isSome ∨ store.row? incoming.identity = none ∨
    store.row? (collisionKey codec incoming) = none

/-- The artifact keys which the call computes are not both taken: for the session which the path
last led to, unless it gains its first turn, and for the chosen session. -/
def ArtifactAvailable : Prop :=
  (∀ row stored bound, store.priorFromPath incoming = some (row, stored, bound) →
      gainsFirstTurn incoming.session stored = false →
        ¬ store.ArtifactsTaken codec incoming.identity incoming.session row.sessionKey) ∧
    ¬ store.ArtifactsTaken codec incoming.identity incoming.session
      (chosenKey codec store incoming)

/-- The row of the transcript before its content is written: the stored one or a new one. -/
def chosenRow : DurableSession :=
  (store.row? (chosenKey codec store incoming)).getD
    (newRow incoming (chosenKey codec store incoming))

/-- The counts which the call converts are in SQLite's range, if it writes facts. -/
def CountsAvailable (maintainRollups : Bool) (observation : Observation) : Prop :=
  let row := chosenRow codec store (observation.incoming codec)
  storesSnapshot codec .source (observation.archivedIn row) row.content →
    ∀ count ∈ convertedCounts codec maintainRollups observation.session row.content,
      (count : Int) ≤ i64Max

variable {codec store incoming} {store' reconciled : HistoryStore} {key : String}

/-! ### Artifacts -/

theorem exists_sourceArtifactKey_iff {identity : String} {session : Session} :
    (∃ artifactKey, store.sourceArtifactKey codec identity session key = .ok artifactKey) ↔
      ¬ store.ArtifactsTaken codec identity session key := by
  unfold sourceArtifactKey ArtifactsTaken
  cases hbase : store.artifactFree (baseArtifactKey codec identity session) key with
  | true => simp [hbase]
  | false =>
    cases hdistinct : store.artifactFree (distinctArtifactKey codec identity session key) key with
    | true => simp [hbase, hdistinct]
    | false => simp [hbase, hdistinct]

/-- The artifact which is computed for a session is never that of another one. -/
theorem artifactFree_of_sourceArtifactKey {identity artifactKey : String} {session : Session}
    (h : store.sourceArtifactKey codec identity session key = .ok artifactKey) :
    store.artifactFree artifactKey key = true := by
  unfold sourceArtifactKey at h
  simp only at h
  split at h
  · next hbase =>
    cases h
    exact hbase
  · split at h
    · next hdistinct =>
      cases h
      exact hdistinct
    · cases h

/-- Reconciliation changes no owner of an artifact. -/
theorem artifactFree_applyReconciliation {choice : Reconciliation}
    (h : applyReconciliation store incoming choice = .ok reconciled) (artifactKey key : String) :
    reconciled.artifactFree artifactKey key = store.artifactFree artifactKey key := by
  have hmap : ∀ (store : HistoryStore) (k : String),
      (refingerprintArtifacts store incoming k).artifactFree artifactKey key =
        store.artifactFree artifactKey key := by
    intro store k
    unfold artifactFree refingerprintArtifacts
    rw [Std.ExtTreeMap.getElem?_map]
    cases store.artifacts[artifactKey]? with
    | none => rfl
    | some artifact =>
      simp only [Option.map_some, Option.all_some]
      split <;> rfl
  cases choice with
  | gainFirstTurn k => cases h; exact hmap _ k
  | touch k => cases h; rfl
  | finalize k => cases h; exact hmap _ k
  | insert k =>
    obtain ⟨-, rfl⟩ := applyReconciliation_insert_eq_ok.mp h
    rfl

/-! ### Choices -/

/-- The rule of the source path fails only where it computes an artifact key and both are
taken. -/
theorem exists_reconcileFromPath_iff :
    (∃ rule, reconcileFromPath codec store incoming = .ok rule) ↔
      ∀ row stored bound, store.priorFromPath incoming = some (row, stored, bound) →
        gainsFirstTurn incoming.session stored = false →
          ¬ store.ArtifactsTaken codec incoming.identity incoming.session row.sessionKey := by
  unfold reconcileFromPath
  cases hprior : store.priorFromPath incoming with
  | none =>
    constructor
    · intro _ row stored bound h
      cases h
    · intro _
      exact ⟨none, rfl⟩
  | some prior =>
    obtain ⟨row, stored, bound⟩ := prior
    cases hgains : gainsFirstTurn incoming.session stored with
    | true =>
      simp only [hgains, if_true]
      constructor
      · intro _ row' stored' bound' h hnot
        cases h
        rw [hgains] at hnot
        cases hnot
      · intro _
        exact ⟨_, rfl⟩
    | false =>
      simp only [hgains, Bool.false_eq_true, if_false, bind_eq_ok]
      constructor
      · rintro ⟨rule, artifactKey, hartifact, -⟩ row' stored' bound' h -
        cases h
        exact exists_sourceArtifactKey_iff.mp ⟨artifactKey, hartifact⟩
      · intro h
        obtain ⟨artifactKey, hartifact⟩ :=
          exists_sourceArtifactKey_iff.mpr (h row stored bound rfl hgains)
        by_cases hstale : bound = artifactKey ∧ isStaleCopy incoming.session stored = true
        · exact ⟨_, artifactKey, hartifact, if_pos hstale⟩
        · exact ⟨_, artifactKey, hartifact, if_neg hstale⟩

/-- A choice of a stored session, which inserts nothing. -/
def Stored (store : HistoryStore) (choice : Reconciliation) : Prop :=
  (store.row? choice.key).isSome ∧ ∀ key, choice ≠ .insert key

theorem isSome_row?_of_mem {row : DurableSession} (h : row ∈ store.sessions) :
    (store.row? row.sessionKey).isSome := by
  have hkey : row.sessionKey ∈ store.sessions.map DurableSession.sessionKey :=
    List.mem_map_of_mem h
  obtain ⟨found, hfound⟩ := Table.exists_lookup hkey
  exact Option.isSome_of_eq_some hfound

theorem isSome_row?_of_row? {row : DurableSession} (h : store.row? key = some row) :
    (store.row? row.sessionKey).isSome :=
  isSome_row?_of_mem (Table.mem_of_lookup h)

theorem priorFromPath_eq_some {row : DurableSession} {stored : Session} {bound : String}
    (h : store.priorFromPath incoming = some (row, stored, bound)) :
    (store.row? row.sessionKey).isSome := by
  unfold priorFromPath at h
  simp only [Option.bind_eq_bind, Option.bind_eq_some_iff] at h
  obtain ⟨location, -, found, hfound, artifact, -, snapshot, -, h⟩ := h
  split at h
  · cases h
    exact isSome_row?_of_row? hfound
  · cases h

theorem stored_reconcileFromPath {choice : Reconciliation}
    (h : reconcileFromPath codec store incoming = .ok (some choice)) : store.Stored choice := by
  unfold reconcileFromPath at h
  cases hprior : store.priorFromPath incoming with
  | none =>
    rw [hprior] at h
    cases h
  | some prior =>
    obtain ⟨row, stored, bound⟩ := prior
    have hrow := priorFromPath_eq_some hprior
    rw [hprior] at h
    simp only at h
    split at h
    · cases h
      exact ⟨hrow, fun _ h ↦ nomatch h⟩
    · obtain ⟨artifactKey, -, h⟩ := bind_eq_ok.mp h
      split at h
      · cases h
        exact ⟨hrow, fun _ h ↦ nomatch h⟩
      · cases h

/-- A touched row which a search of the sessions found is stored. -/
theorem stored_find? {p : DurableSession → Bool} {choice : Reconciliation}
    (h : (store.sessions.find? p).map (Reconciliation.touch ·.sessionKey) = some choice) :
    store.Stored choice := by
  obtain ⟨row, hfound, rfl⟩ := Option.map_eq_some_iff.mp h
  exact ⟨isSome_row?_of_mem (List.mem_of_find?_eq_some hfound), fun _ h ↦ nomatch h⟩

theorem stored_reconcileRenamedSubagent {choice : Reconciliation}
    (h : reconcileRenamedSubagent store incoming = some choice) : store.Stored choice := by
  unfold reconcileRenamedSubagent at h
  split at h
  · exact stored_find? h
  · cases h

theorem provisionalFromPath_eq_some (h : store.provisionalFromPath incoming = some key) :
    (store.row? key).isSome := by
  unfold provisionalFromPath at h
  simp only [Option.bind_eq_bind, Option.bind_eq_some_iff] at h
  obtain ⟨location, -, row, hrow, h⟩ := h
  split at h
  · cases h
    exact isSome_row?_of_row? hrow
  · cases h

theorem provisionalOfIdentity_eq_some (h : store.provisionalOfIdentity incoming = some key) :
    (store.row? key).isSome := by
  unfold provisionalOfIdentity at h
  simp only at h
  split at h
  · next row hcandidates =>
    have hmem : row ∈ store.sessions := by
      apply List.mem_of_mem_filter
      rw [hcandidates]
      exact List.mem_singleton_self row
    split at h
    · cases h
      exact isSome_row?_of_mem hmem
    · cases h
  · cases h

theorem stored_reconcileProvisional {choice : Reconciliation}
    (h : reconcileProvisional store incoming = some choice) : store.Stored choice := by
  unfold reconcileProvisional at h
  split at h
  · obtain ⟨key, hkey, rfl⟩ := Option.map_eq_some_iff.mp h
    refine ⟨?_, fun _ h ↦ nomatch h⟩
    rcases Option.or_eq_some_iff.mp hkey with hpath | ⟨-, hidentity⟩
    · exact provisionalFromPath_eq_some hpath
    · exact provisionalOfIdentity_eq_some hidentity
  · cases h

/-- The rules choose a stored session. -/
theorem stored_matchedRule {choice : Reconciliation}
    (h : matchedRule codec store incoming = some choice) : store.Stored choice := by
  unfold matchedRule at h
  simp only [Option.or_eq_some_iff] at h
  rcases h with ((hpath | ⟨-, hlineage⟩) | ⟨-, hrenamed⟩) | ⟨-, hprovisional⟩
  · split at hpath
    · next rule hrule =>
      rw [hpath] at hrule
      exact stored_reconcileFromPath hrule
    · cases hpath
  · exact stored_find? hlineage
  · exact stored_reconcileRenamedSubagent hrenamed
  · exact stored_reconcileProvisional hprovisional

/-- A choice is made exactly when the rule of the source path does not fail. -/
theorem chooseSession_eq_ok {choice : Reconciliation} :
    chooseSession codec store incoming = .ok choice ↔
      (∃ rule, reconcileFromPath codec store incoming = .ok rule) ∧
        choice = (matchedRule codec store incoming).getD
          (.insert (newSessionKey codec store incoming)) := by
  unfold chooseSession matchedRule
  cases hpath : reconcileFromPath codec store incoming with
  | error e =>
    constructor
    · intro h
      cases h
    · rintro ⟨⟨rule, h⟩, -⟩
      cases h
  | ok rule =>
    constructor
    · intro h
      cases h
      exact ⟨⟨rule, rfl⟩, rfl⟩
    · rintro ⟨-, rfl⟩
      rfl

theorem row?_newSessionKey_eq_none_iff :
    store.row? (newSessionKey codec store incoming) = none ↔
      store.row? incoming.identity = none ∨ store.row? (collisionKey codec incoming) = none := by
  unfold newSessionKey
  cases hidentity : store.row? incoming.identity with
  | none => simp [hidentity]
  | some row => simp

/-- The choice is carried out exactly when the key is stored already or unused. -/
theorem exists_applyReconciliation_iff :
    (∃ reconciled, applyReconciliation store incoming ((matchedRule codec store incoming).getD
        (.insert (newSessionKey codec store incoming))) = .ok reconciled) ↔
      KeyAvailable codec store incoming := by
  unfold KeyAvailable
  cases hrule : matchedRule codec store incoming with
  | none =>
    simp only [Option.getD_none, applyReconciliation_insert_eq_ok, Option.isSome_none,
      Bool.false_eq_true, false_or, ← row?_newSessionKey_eq_none_iff]
    constructor
    · rintro ⟨_, h, -⟩
      exact h
    · intro h
      exact ⟨_, h, rfl⟩
  | some choice =>
    obtain ⟨-, hinsert⟩ := stored_matchedRule hrule
    simp only [Option.getD_some, Option.isSome_some, true_or, iff_true]
    cases choice with
    | gainFirstTurn key => exact ⟨_, rfl⟩
    | touch key => exact ⟨_, rfl⟩
    | finalize key => exact ⟨_, rfl⟩
    | insert key => exact absurd rfl (hinsert key)

/-- After reconciliation the chosen session has a row: the stored one or a new one, up to its
fingerprint and the time it was seen. -/
theorem row?_applyReconciliation {choice : Reconciliation}
    (h : applyReconciliation store incoming choice = .ok reconciled)
    (hchoice : store.Stored choice ∨ choice = .insert key) :
    ∃ fingerprint isFinal lastSeen, reconciled.row? choice.key =
      some { (store.row? choice.key).getD (newRow incoming choice.key) with
        firstEventFingerprint := fingerprint
        fingerprintIsFinal := isFinal
        lastSeenAtMs := lastSeen } := by
  have hupdate : ∀ (k : String) (f : DurableSession → DurableSession),
      (∀ row, (f row).sessionKey = row.sessionKey) → (store.row? k).isSome →
        (store.updateRow k f).row? k =
          some (f ((store.row? k).getD (newRow incoming k))) := by
    intro k f hf hsome
    obtain ⟨row, hrow⟩ := Option.isSome_iff_exists.mp hsome
    unfold updateRow row?
    rw [Table.lookup_update_self hf, show Table.lookup _ k store.sessions = some row from hrow]
    rfl
  rcases hchoice with ⟨hsome, -⟩ | rfl
  · cases choice with
    | gainFirstTurn k =>
      cases h
      exact ⟨incoming.fingerprint, _, incoming.now, hupdate k _ (fun _ ↦ rfl) hsome⟩
    | touch k =>
      cases h
      exact ⟨_, _, incoming.now, hupdate k _ (fun _ ↦ rfl) hsome⟩
    | finalize k =>
      cases h
      exact ⟨incoming.fingerprint, true, incoming.now, hupdate k _ (fun _ ↦ rfl) hsome⟩
    | insert k =>
      obtain ⟨hnone, -⟩ := applyReconciliation_insert_eq_ok.mp h
      rw [show store.row? (Reconciliation.insert k).key = none from hnone] at hsome
      cases hsome
  · obtain ⟨hnone, rfl⟩ := applyReconciliation_insert_eq_ok.mp h
    refine ⟨incoming.fingerprint, incoming.fingerprintIsFinal, incoming.now, ?_⟩
    unfold row? at hnone ⊢
    rw [show (Reconciliation.insert key).key = key from rfl, Table.lookup_append, hnone]
    simp [newRow]

/-- The row of the chosen session after a reconciliation which is carried out. -/
theorem row?_chosenKey (h : applyReconciliation store incoming
      ((matchedRule codec store incoming).getD (.insert (newSessionKey codec store incoming))) =
        .ok reconciled) :
    ∃ fingerprint isFinal lastSeen, reconciled.row? (chosenKey codec store incoming) =
      some { chosenRow codec store incoming with
        firstEventFingerprint := fingerprint
        fingerprintIsFinal := isFinal
        lastSeenAtMs := lastSeen } := by
  have hchoice : store.Stored ((matchedRule codec store incoming).getD
        (.insert (newSessionKey codec store incoming))) ∨
      (matchedRule codec store incoming).getD (.insert (newSessionKey codec store incoming)) =
        .insert (newSessionKey codec store incoming) := by
    cases hrule : matchedRule codec store incoming with
    | none => exact .inr rfl
    | some choice => exact .inl (stored_matchedRule hrule)
  exact row?_applyReconciliation h hchoice

theorem sessionKey_chosenRow :
    (chosenRow codec store incoming).sessionKey = chosenKey codec store incoming := by
  unfold chosenRow
  cases hrow : store.row? (chosenKey codec store incoming) with
  | none => rfl
  | some row => exact Table.key_of_lookup hrow

theorem artifactsTaken_applyReconciliation {choice : Reconciliation} {identity : String}
    {session : Session} (h : applyReconciliation store incoming choice = .ok reconciled) :
    reconciled.ArtifactsTaken codec identity session key ↔
      store.ArtifactsTaken codec identity session key := by
  unfold ArtifactsTaken
  rw [artifactFree_applyReconciliation h, artifactFree_applyReconciliation h]

/-- The content of the chosen row is written exactly when its counts are in range. -/
theorem exists_observeContent_iff {maintainRollups : Bool} {observation : Observation}
    {row : DurableSession} {fingerprint : String} {isFinal : Bool} {lastSeen : Int}
    (hrow : row = { chosenRow codec store (observation.incoming codec) with
      firstEventFingerprint := fingerprint
      fingerprintIsFinal := isFinal
      lastSeenAtMs := lastSeen }) :
    (∃ written, observeContent codec maintainRollups observation.session
        (applyProjectIdentity row observation.project (observation.archived
          (chosenKey codec store (observation.incoming codec)))) row.content = .ok written) ↔
      CountsAvailable codec store maintainRollups observation := by
  subst hrow
  simp only [Prod.exists, observeContent_eq_ok, CountsAvailable, Observation.archivedIn,
    sessionKey_chosenRow]
  constructor
  · rintro ⟨content, changed, hchanged, hrange, -⟩ hstores
    exact hrange (hchanged.symm.trans hstores)
  · intro hrange
    exact ⟨_, _, rfl, hrange, rfl⟩

/-- An observation of a session with an id which is not excluded succeeds exactly when its
session key, its artifact keys and its counts can be written. -/
theorem observe_succeeds_iff {maintainRollups : Bool} {observation : Observation}
    (hid : hasProviderId observation.session = true)
    (hexcluded : store.isExcluded (effectiveStorageId observation.session)
      (firstEventFingerprint codec observation.session) = false) :
    (∃ result, observeOne codec maintainRollups store observation = .ok result) ↔
      KeyAvailable codec store (observation.incoming codec) ∧
        ArtifactAvailable codec store (observation.incoming codec) ∧
        CountsAvailable codec store maintainRollups observation := by
  constructor
  · rintro ⟨⟨observed, store'⟩, h⟩
    obtain ⟨-, -, key, reconciled, row, artifactKey, content, changed, hreconcile, hrow,
      hartifact, -, hcontent, -, -⟩ := observeOne_eq_ok.mp h
    obtain ⟨choice, hchoose, rfl, happly⟩ := reconcileSession_eq_ok.mp hreconcile
    obtain ⟨hpath, rfl⟩ := chooseSession_eq_ok.mp hchoose
    obtain ⟨fingerprint, isFinal, lastSeen, hchosen⟩ := row?_chosenKey happly
    refine ⟨exists_applyReconciliation_iff.mp ⟨reconciled, happly⟩,
      ⟨exists_reconcileFromPath_iff.mp hpath, ?_⟩, ?_⟩
    · rw [← artifactsTaken_applyReconciliation happly]
      exact exists_sourceArtifactKey_iff.mp ⟨artifactKey, hartifact⟩
    · exact (exists_observeContent_iff (Option.some.inj (hrow.symm.trans hchosen))).mp
        ⟨(content, changed), hcontent⟩
  · rintro ⟨hkey, ⟨hprior, hfree⟩, hrange⟩
    obtain ⟨reconciled, happly⟩ := exists_applyReconciliation_iff.mpr hkey
    obtain ⟨fingerprint, isFinal, lastSeen, hchosen⟩ := row?_chosenKey happly
    rw [← artifactsTaken_applyReconciliation happly] at hfree
    obtain ⟨artifactKey, hartifact⟩ := exists_sourceArtifactKey_iff.mpr hfree
    obtain ⟨⟨content, changed⟩, hcontent⟩ := (exists_observeContent_iff rfl).mpr hrange
    exact ⟨⟨_, _⟩, observeOne_eq_ok.mpr ⟨hid, hexcluded, _, reconciled, _, artifactKey, content,
      changed, reconcileSession_eq_ok.mpr ⟨_, chooseSession_eq_ok.mpr
        ⟨exists_reconcileFromPath_iff.mpr hprior, rfl⟩, rfl, happly⟩, hchosen, hartifact,
      artifactFree_of_sourceArtifactKey hartifact, hcontent, rfl, rfl⟩⟩

/-! ### A third transcript of one identity -/

/-- Hashes without collisions. -/
def transparentCodec : Codec :=
  { sampleCodec with stableHash := id }

/-- A transcript of the thread with one event and the given start. -/
def startedAtMillis (millis : Int) : Session :=
  { sampleSession [sampleEvent 5] with
    startedAt := (DateTime.ofMillis? millis).getD .epoch }

/-- The observation of the transcript with the given start, from a path of its own. -/
def observeStartedAt (millis : Int) : Observation :=
  { sampleObservation (startedAtMillis millis) with
    path := "rollout-" ++ toString millis ++ ".jsonl" }

/-- A ledger which observed two transcripts of one identity with equal events. -/
def observedTwoStarts : HistoryStore :=
  (HistoryStore.empty.call transparentCodec (.observe (observeStartedAt 1))).call transparentCodec
    (.observe (observeStartedAt 2))

theorem observe_third_start : (observeOne transparentCodec true observedTwoStarts
    (observeStartedAt 3)).toOption = none := by
  decide +kernel

/-- The ledger can write the second transcript once more, and has no place for a third. -/
theorem observe_succeeds_iff_two_starts :
    (KeyAvailable transparentCodec observedTwoStarts
          ((observeStartedAt 2).incoming transparentCodec) ∧
        ArtifactAvailable transparentCodec observedTwoStarts
          ((observeStartedAt 2).incoming transparentCodec) ∧
        CountsAvailable transparentCodec observedTwoStarts true (observeStartedAt 2)) ∧
      ¬ (KeyAvailable transparentCodec observedTwoStarts
          ((observeStartedAt 3).incoming transparentCodec) ∧
        ArtifactAvailable transparentCodec observedTwoStarts
          ((observeStartedAt 3).incoming transparentCodec) ∧
        CountsAvailable transparentCodec observedTwoStarts true (observeStartedAt 3)) := by
  refine ⟨?_, fun havailable ↦ ?_⟩
  · have hsecond : (observeOne transparentCodec true observedTwoStarts
        (observeStartedAt 2)).isOk = true := by
      decide +kernel
    refine (observe_succeeds_iff (by decide +kernel) (by decide +kernel)).mp ?_
    cases hobserve : observeOne transparentCodec true observedTwoStarts (observeStartedAt 2) with
    | ok result => exact ⟨result, rfl⟩
    | error message =>
      rw [hobserve] at hsecond
      cases hsecond
  · obtain ⟨result, hresult⟩ :=
      (observe_succeeds_iff (by decide +kernel) (by decide +kernel)).mpr havailable
    have hthird := observe_third_start
    rw [hresult] at hthird
    cases hthird

/-- The collision key tells two transcripts of an identity apart by their events only, so a third
start with the same events finds its key taken. -/
theorem third_start_not_observed :
    ¬ ∀ codec : Codec, codec.stableHash.Injective → ∀ store : HistoryStore,
      store.ReachableVia codec (fun _ call ↦ ∃ observation, call = .observe observation) →
        ∀ observation, hasProviderId observation.session = true →
          store.isExcluded (effectiveStorageId observation.session)
              (firstEventFingerprint codec observation.session) = false →
            ∃ result, observeOne codec true store observation = .ok result := by
  intro h
  have hreach : observedTwoStarts.ReachableVia transparentCodec
      (fun _ call ↦ ∃ observation, call = .observe observation) :=
    Reaches.tail (Reaches.tail (Reaches.refl _) ⟨_, rfl⟩ rfl) ⟨_, rfl⟩ rfl
  obtain ⟨result, hresult⟩ := h transparentCodec Function.injective_id observedTwoStarts hreach
    (observeStartedAt 3) (by decide +kernel) (by decide +kernel)
  have hthird := observe_third_start
  rw [hresult] at hthird
  cases hthird

end HistoryStore

end AgentOdometer.Ledger
