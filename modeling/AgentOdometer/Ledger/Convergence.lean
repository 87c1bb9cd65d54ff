import AgentOdometer.Ledger.DirtyFlag
import AgentOdometer.Ledger.RollupMaintenance
import Mathlib.Logic.Equiv.List
import Std.Data.String.ToNat

/-!
# Copies and prefixes of one transcript

Observations of prefixes of one growing transcript, from any paths and in any order, lead to
one durable session whose token rows are those of the longest prefix observed
(`history_store.rs:4478–4681,5341–5523,6079–6084`).
-/

namespace AgentOdometer.Ledger

/-- A growing transcript, as far as reconciliation looks at it. -/
structure Transcript where
  harness : ProviderId
  id : String
  identity : String
  startedAt : DateTime
  firstTurnId : String
  events : List TokenHistoryPoint
  idNotBlank : Text.isBlank id = false
  signaturesDistinct : (events.map tokenEventSignature).Nodup

namespace Transcript

variable {codec : Codec} {transcript : Transcript} {session archived : Session} {n : Nat}

/-- A state of the transcript which has its first turn and its first token event. -/
structure HasPrefix (transcript : Transcript) (session : Session) : Prop where
  harness : session.harness = transcript.harness
  id : session.id = transcript.id
  identity : effectiveStorageId session = transcript.identity
  startedAt : session.startedAt = transcript.startedAt
  firstTurn : session.turns.head?.map (·.turnId) = some transcript.firstTurnId
  nonempty : session.tokensHistory ≠ []
  isPrefix : session.tokensHistory <+: transcript.events

theorem HasPrefix.tokensHistory_eq (h : transcript.HasPrefix session) :
    session.tokensHistory = transcript.events.take session.tokensHistory.length :=
  List.prefix_iff_eq_take.mp h.isPrefix

theorem HasPrefix.head?_tokensHistory (h : transcript.HasPrefix session) :
    session.tokensHistory.head? = transcript.events.head? := by
  obtain ⟨rest, hrest⟩ := h.isPrefix
  cases hevents : session.tokensHistory with
  | nil => exact absurd hevents h.nonempty
  | cons event events =>
    rw [hevents] at hrest
    rw [← hrest]
    rfl

/-- The states of a transcript share its fingerprint. -/
theorem HasPrefix.firstEventFingerprint_eq {other : Session} (h : transcript.HasPrefix session)
    (hother : transcript.HasPrefix other) :
    firstEventFingerprint codec session = firstEventFingerprint codec other := by
  unfold firstEventFingerprint
  simp only [h.startedAt, hother.startedAt, h.firstTurn, hother.firstTurn,
    h.head?_tokensHistory, hother.head?_tokensHistory]

/-- Two histories of the transcript continue each other. -/
theorem historiesShareLineage_take (events : List TokenHistoryPoint) (m n : Nat) :
    historiesShareLineage (events.take m) (events.take n) = true := by
  unfold historiesShareLineage
  rw [List.all_eq_true]
  intro pair hpair
  obtain ⟨i, hi⟩ := List.getElem?_of_mem hpair
  obtain ⟨hleft, hright⟩ := List.getElem?_zip_eq_some.mp hi
  rw [List.getElem?_take] at hleft hright
  split at hleft
  · split at hright
    · rw [decide_eq_true_eq, Option.some.inj (hleft.symm.trans hright)]
    · cases hright
  · cases hleft

/-! ### Event keys -/

section Keys

variable (hhash : codec.stableHash.Injective)
include hhash

theorem nodup_eventKeys (transcript : Transcript) :
    (transcript.events.map (tokenEventKey codec)).Nodup := by
  have hkeys : transcript.events.map (tokenEventKey codec) =
      (transcript.events.map tokenEventSignature).map codec.stableHash := by
    rw [List.map_map]
    rfl
  rw [hkeys]
  exact transcript.signaturesDistinct.map hhash

omit hhash in
theorem map_eventKey_tokenRows (events : List TokenHistoryPoint) :
    (tokenRows codec events).map TokenFact.eventKey = events.map (tokenEventKey codec) := by
  apply List.ext_getElem?
  intro i
  unfold tokenRows
  rw [List.getElem?_map, List.getElem?_mapIdx, List.getElem?_map, Option.map_map]
  rfl

omit hhash in
theorem nextEventIndex_tokenRows (events : List TokenHistoryPoint) :
    nextEventIndex (tokenRows codec events) = events.length := by
  induction events using List.reverseRecOn with
  | nil => rfl
  | append_singleton events event ih =>
    unfold nextEventIndex tokenRows at ih ⊢
    rw [List.mapIdx_concat, List.foldl_append, ih, List.length_append]
    change max events.length (events.length + 1) = events.length + 1
    omega

/-- The rows of the transcript are stored once each. -/
theorem distinctTokenFacts_take (transcript : Transcript) (n : Nat) :
    distinctTokenFacts codec (transcript.events.take n) =
      tokenRows codec (transcript.events.take n) := by
  unfold distinctTokenFacts insertTokenFact
  rw [Table.foldl_upsert_of_fresh]
  · exact List.nil_append _
  · rw [map_eventKey_tokenRows, List.map_take]
    exact (nodup_eventKeys hhash transcript).sublist (List.take_sublist n _)
  · intro row _
    exact List.not_mem_nil

/-- A stored row has the request input of the event with its key. -/
theorem backfillEvent_tokenRows {event : TokenHistoryPoint}
    (hevent : event ∈ transcript.events.take n) :
    backfillEvent codec (tokenRows codec (transcript.events.take n)) event =
      tokenRows codec (transcript.events.take n) := by
  unfold backfillEvent
  split
  · rfl
  · next requestInput hrequest =>
    have hsame : ∀ fact ∈ tokenRows codec (transcript.events.take n),
        (decide (fact.eventKey = tokenEventKey codec event) && fact.requestInputTokens.isNone) =
          false := by
      intro fact hfact
      obtain ⟨i, hi, rfl⟩ := List.mem_mapIdx.mp hfact
      by_cases hkey : tokenEventKey codec (transcript.events.take n)[i] = tokenEventKey codec event
      · have hother : (transcript.events.take n)[i] = event :=
          List.inj_on_of_nodup_map (nodup_eventKeys hhash transcript)
            (List.mem_of_mem_take (List.getElem_mem hi)) (List.mem_of_mem_take hevent) hkey
        have hinput : (TokenFact.ofEvent (tokenEventKey codec) i
            (transcript.events.take n)[i]).requestInputTokens = some requestInput := by
          rw [hother]
          exact hrequest
        rw [hinput, Option.isNone_some, Bool.and_false]
      · have hne : (TokenFact.ofEvent (tokenEventKey codec) i
            (transcript.events.take n)[i]).eventKey ≠ tokenEventKey codec event := hkey
        rw [decide_eq_false hne, Bool.false_and]
    unfold Table.updateWhere
    refine (List.map_congr_left ?_).trans (List.map_id _)
    intro fact hfact
    rw [if_neg]
    · rfl
    · exact Bool.eq_false_iff.mp (hsame fact hfact)

/-- The rows of a prefix are extended by every state of the transcript which is as long. -/
theorem extendsStored_take {m : Nat} (hm : n ≤ m) (hlength : n ≤ transcript.events.length) :
    ExtendsStored codec (transcript.events.take m)
      (tokenRows codec (transcript.events.take n)) := by
  have hnext : nextEventIndex (tokenRows codec (transcript.events.take n)) = n := by
    rw [nextEventIndex_tokenRows, List.length_take]
    omega
  have hfold : ∀ events : List TokenHistoryPoint, (∀ event ∈ events,
      event ∈ transcript.events.take n) →
        events.foldl (backfillEvent codec) (tokenRows codec (transcript.events.take n)) =
          tokenRows codec (transcript.events.take n) := by
    intro events hevents
    induction events with
    | nil => rfl
    | cons event rest ih =>
      rw [List.foldl_cons, backfillEvent_tokenRows hhash (hevents event List.mem_cons_self)]
      apply ih
      intro other hother
      exact hevents other (List.mem_cons_of_mem event hother)
  unfold ExtendsStored backfilledRows backfill
  rw [hnext, List.take_take, Nat.min_eq_left hm, distinctTokenFacts_take hhash,
    hfold _ fun _ h ↦ h, ite_self]

end Keys

/-! ### The content -/

/-- A content which holds the first `n` events of the transcript. -/
structure Holds (codec : Codec) (transcript : Transcript) (n : Nat) (content : SessionContent) :
    Prop where
  bound : n ≤ transcript.events.length
  snapshot : ((content.snapshot.map (·.tokensHistory)).getD []) = transcript.events.take n
  hash : content.currentSnapshotHash = content.snapshot.map (snapshotHash codec)
  tokens : content.facts.tokens = tokenRows codec (transcript.events.take n)

theorem holds_fresh : transcript.Holds codec 0 .fresh where
  bound := Nat.zero_le _
  snapshot := rfl
  hash := rfl
  tokens := rfl

/-- What is assumed of the hash and of the snapshot text. -/
structure Faithful (codec : Codec) : Prop where
  hash : codec.stableHash.Injective
  encode : ∀ a b : Session, codec.encode a = codec.encode b → a.tokensHistory = b.tokensHistory

/-- An observation of a prefix extends the content to the longer of the two. -/
theorem Holds.observedContent {maintainRollups : Bool} {content : SessionContent}
    (hcodec : Faithful codec) (h : transcript.Holds codec n content)
    (hextends : transcript.HasPrefix session)
    (harchived : archived.tokensHistory = session.tokensHistory) :
    transcript.Holds codec (max n session.tokensHistory.length)
      (observedContent codec maintainRollups session archived content) := by
  have hhistory := hextends.tokensHistory_eq
  have hlength : session.tokensHistory.length ≤ transcript.events.length :=
    hextends.isPrefix.length_le
  have hbound := h.bound
  have hstored : ((content.snapshot.map (·.tokensHistory)).getD []).length = n := by
    rw [h.snapshot, List.length_take]
    omega
  unfold Ledger.observedContent
  cases hstores : storesSnapshot codec .source archived content with
  | true =>
    have hle : n ≤ session.tokensHistory.length := by
      unfold storesSnapshot at hstores
      split at hstores
      · cases hstores
      · cases hsnapshot : content.snapshot with
        | none =>
          rw [hsnapshot] at hstored
          exact hstored ▸ Nat.zero_le _
        | some current =>
          rw [hsnapshot] at hstores hstored
          simp only [sourceSnapshotIsMonotonic, harchived, Bool.or_eq_true, Bool.and_eq_true,
            decide_eq_true_eq] at hstores
          change current.tokensHistory.length = n at hstored
          omega
    rw [Nat.max_eq_right hle]
    refine ⟨hlength, harchived.trans hhistory, rfl, ?_⟩
    have hextends : ExtendsStored codec session.tokensHistory content.facts.tokens := by
      rw [h.tokens, hhistory]
      exact extendsStored_take hcodec.hash hle hbound
    change (factsAfter codec session content.facts.tokens).tokens = _
    rw [factsAfter_eq_factsOf hextends]
    exact (congrArg (distinctTokenFacts codec) hhistory).trans
      (distinctTokenFacts_take hcodec.hash transcript _)
  | false =>
    have hle : session.tokensHistory.length ≤ n := by
      unfold storesSnapshot at hstores
      split at hstores
      · next hhash =>
        rw [h.hash] at hhash
        obtain ⟨current, hcurrent, hhash⟩ := Option.map_eq_some_iff.mp hhash
        have hsame : current.tokensHistory = archived.tokensHistory :=
          hcodec.encode current archived (hcodec.hash hhash)
        rw [hcurrent, Option.map_some, Option.getD_some, hsame, harchived] at hstored
        exact Nat.le_of_eq hstored
      · cases hsnapshot : content.snapshot with
        | none =>
          rw [hsnapshot] at hstores
          cases hstores
        | some current =>
          rw [hsnapshot] at hstores hstored
          simp only [sourceSnapshotIsMonotonic, harchived, Bool.or_eq_false_iff,
            decide_eq_false_iff_not] at hstores
          change current.tokensHistory.length = n at hstored
          omega
    rw [Nat.max_eq_left hle]
    exact ⟨hbound, h.snapshot, h.hash, h.tokens⟩

/-! ### Counts -/

/-- The counts of a session which its fact and rollup rows hold. -/
def storedCounts (codec : Codec) (session : Session) : List Nat :=
  (tokenRows codec session.tokensHistory).flatMap TokenFact.counts ++
    session.toolObservations.map (·.outputBytes) ++
    (replaceToolRollups .empty session.toolObservations).toolCounts ++
    session.optimizationFindings.map (·.avoidableCalls)

/-- The counts fit SQLite's integers. -/
def CountsFit (codec : Codec) (session : Session) : Prop :=
  ∀ count ∈ storedCounts codec session, (count : Int) ≤ i64Max

instance : Decidable (CountsFit codec session) :=
  inferInstanceAs (Decidable (∀ count ∈ storedCounts codec session, (count : Int) ≤ i64Max))

theorem toolCounts_rollupsAfter (content : SessionContent) :
    (rollupsAfter codec session content).toolCounts =
      (replaceToolRollups .empty session.toolObservations).toolCounts := by
  unfold rollupsAfter
  rw [replaceToolRollups_eq, replaceToolRollups_eq]
  rfl

/-- Whatever is stored already, an observation converts counts of its session only. -/
theorem convertedCounts_fit {maintainRollups : Bool} (h : CountsFit codec session)
    (content : SessionContent) :
    ∀ count ∈ convertedCounts codec maintainRollups session content,
      (count : Int) ≤ i64Max := by
  intro count hcount
  apply h
  unfold convertedCounts at hcount
  unfold storedCounts
  simp only [List.mem_append] at hcount ⊢
  rcases hcount with (((hbackfill | hsuffix) | houtput) | htools) | hfindings
  · refine .inl (.inl (.inl ?_))
    unfold backfillCounts at hbackfill
    split at hbackfill
    · obtain ⟨event, hevent, hrequest⟩ := List.mem_filterMap.mp hbackfill
      obtain ⟨i, hi, hget⟩ := List.getElem_of_mem (List.mem_of_mem_take hevent)
      refine List.mem_flatMap.mpr ⟨TokenFact.ofEvent (tokenEventKey codec) i event,
        List.mem_mapIdx.mpr ⟨i, hi, by rw [hget]⟩, ?_⟩
      have hinput : (TokenFact.ofEvent (tokenEventKey codec) i event).requestInputTokens =
          some count := hrequest
      unfold TokenFact.counts
      rw [hinput]
      exact List.mem_cons_self
    · cases hbackfill
  · obtain ⟨fact, hfact, hmem⟩ := List.mem_flatMap.mp hsuffix
    exact .inl (.inl (.inl (List.mem_flatMap.mpr ⟨fact, List.mem_of_mem_drop hfact, hmem⟩)))
  · exact .inl (.inl (.inr houtput))
  · split at htools
    · rw [toolCounts_rollupsAfter] at htools
      exact .inl (.inr htools)
    · cases htools
  · exact .inr hfindings

end Transcript

/-! ### Rows -/

/-- What reconciliation by lineage reads of a row, apart from its snapshot. -/
def DurableSession.owner (row : DurableSession) : String × String × String :=
  (row.sessionKey, row.identityKey, row.firstEventFingerprint)

namespace HistoryStore

variable {codec : Codec} {store store' reconciled : HistoryStore} {key : String}

/-- The owners of the rows, in insertion order. -/
def owners (store : HistoryStore) : List (String × String × String) :=
  store.sessions.map DurableSession.owner

theorem owners_updateWhere {p : DurableSession → Bool} {f : DurableSession → DurableSession}
    (hf : ∀ row, (f row).owner = row.owner) (rows : List DurableSession) :
    (Table.updateWhere p f rows).map DurableSession.owner = rows.map DurableSession.owner := by
  unfold Table.updateWhere
  rw [List.map_map]
  apply List.map_congr_left
  intro row _
  simp only [Function.comp_apply]
  split
  · exact hf row
  · rfl

theorem owners_updateRow {f : DurableSession → DurableSession}
    (hf : ∀ row, (f row).owner = row.owner) : (store.updateRow key f).owners = store.owners :=
  owners_updateWhere hf store.sessions

theorem owner_observedRow (observation : Observation) (content : SessionContent)
    (row : DurableSession) : (observedRow observation content row).owner = row.owner := by
  unfold observedRow DurableSession.recordProject
  split <;> rfl

theorem owners_supersede (previous : Option String) :
    (store.supersede previous).owners = store.owners := by
  unfold supersede
  split
  · rfl
  · split
    · rfl
    · apply owners_updateRow
      intro row
      rfl

/-- The writes of an observation keep the owners of the rows. -/
theorem owners_recordObservation (observation : Observation) (row : DurableSession)
    (artifactKey : String) (displaced : Option String) (content : SessionContent)
    (rollupsDeferred : Bool) :
    (store.recordObservation observation row artifactKey displaced content
      rollupsDeferred).owners = store.owners := by
  have hflags : ∀ (store : HistoryStore) (identity : String),
      (store.refreshCollisionFlags identity).owners = store.owners := by
    intro store identity
    apply owners_updateWhere
    intro row
    rfl
  have hrow : ∀ store : HistoryStore,
      (store.updateRow row.sessionKey (observedRow observation content)).owners =
        store.owners := fun _ ↦ owners_updateRow (owner_observedRow observation content)
  unfold recordObservation
  simp only [hflags]
  split
  · exact (owners_supersede displaced).trans (hrow _)
  · exact (owners_supersede displaced).trans (hrow _)

theorem artifacts_supersede (previous : Option String) :
    (store.supersede previous).artifacts = store.artifacts := by
  unfold supersede
  split
  · rfl
  · split <;> rfl

theorem purged_recordObservation (observation : Observation) (row : DurableSession)
    (artifactKey : String) (displaced : Option String) (content : SessionContent)
    (rollupsDeferred : Bool) :
    (store.recordObservation observation row artifactKey displaced content
      rollupsDeferred).purged = store.purged := by
  have hsupersede : ∀ store : HistoryStore,
      (store.supersede displaced).purged = store.purged := by
    intro store
    unfold supersede
    split
    · rfl
    · split <;> rfl
  unfold recordObservation
  cases rollupsDeferred with
  | false => exact hsupersede _
  | true => exact hsupersede _

/-- An observation writes no artifact but its own. -/
theorem getElem?_artifacts_recordObservation (observation : Observation) (row : DurableSession)
    (artifactKey : String) (displaced : Option String) (content : SessionContent)
    (rollupsDeferred : Bool) {other : String} {artifact : SourceArtifact}
    (h : (store.recordObservation observation row artifactKey displaced content
      rollupsDeferred).artifacts[other]? = some artifact) :
    artifact.sessionKey = row.sessionKey ∨
      ∃ stored, store.artifacts[other]? = some stored ∧
        stored.sessionKey = artifact.sessionKey := by
  have hartifacts : (store.recordObservation observation row artifactKey displaced content
      rollupsDeferred).artifacts =
        (store.upsertArtifact artifactKey row observation.now).artifacts := by
    unfold recordObservation
    cases rollupsDeferred with
    | false => exact artifacts_supersede displaced
    | true => exact artifacts_supersede displaced
  rw [hartifacts] at h
  unfold upsertArtifact at h
  rw [Std.ExtTreeMap.getElem?_insert] at h
  split at h
  · next hkey =>
    cases hstored : store.artifacts[artifactKey]? with
    | none =>
      rw [hstored] at h
      cases h
      exact .inl rfl
    | some stored =>
      rw [hstored] at h
      cases h
      rw [← Std.compare_eq_iff_eq.mp hkey]
      exact .inr ⟨stored, hstored, rfl⟩
  · exact .inr ⟨artifact, h, rfl⟩

/-! ### One observation -/

theorem tokensHistory_applyProjectIdentity (row : DurableSession)
    (project : Option ProjectIdentity) (session : Session) :
    (applyProjectIdentity row project session).tokensHistory = session.tokensHistory := by
  unfold applyProjectIdentity
  split <;> rfl

/-- The row of the transcript continues or repeats every state of it. -/
theorem sharesLineage_of_holds {transcript : Transcript} {n : Nat} {row : DurableSession}
    {session : Session} (h : transcript.Holds codec n row.content) (hpos : 0 < n)
    (hextends : transcript.HasPrefix session) :
    DurableSession.sharesLineage row session = true := by
  unfold DurableSession.sharesLineage
  have hhistory := h.snapshot
  cases hsnapshot : row.content.snapshot with
  | none =>
    rw [hsnapshot] at hhistory
    have hlength : (transcript.events.take n).length = 0 := by
      rw [← hhistory]
      rfl
    have hbound := h.bound
    rw [List.length_take] at hlength
    omega
  | some stored =>
    rw [hsnapshot] at hhistory
    change stored.tokensHistory = _ at hhistory
    rw [Option.any_some, hhistory, hextends.tokensHistory_eq]
    exact Transcript.historiesShareLineage_take _ _ _

/-- A ledger which holds the first `n` events of a transcript, and nothing else. -/
structure Holds (codec : Codec) (transcript : Transcript) (n : Nat) (store : HistoryStore) :
    Prop where
  purged : store.purged = []
  artifacts : ∀ (key : String) (artifact : SourceArtifact),
    store.artifacts[key]? = some artifact → artifact.sessionKey = transcript.identity
  row : (store.sessions = [] ∧ n = 0) ∨ 0 < n ∧ ∃ row, store.sessions = [row] ∧
    row.sessionKey = transcript.identity ∧ row.identityKey = transcript.identity ∧
    (∀ session, transcript.HasPrefix session →
      row.firstEventFingerprint = firstEventFingerprint codec session) ∧
    transcript.Holds codec n row.content

theorem holds_empty {transcript : Transcript} : HistoryStore.empty.Holds codec transcript 0 where
  purged := rfl
  artifacts := by
    intro key artifact h
    rw [show HistoryStore.empty.artifacts[key]? = none from Std.ExtTreeMap.getElem?_empty] at h
    cases h
  row := .inl ⟨rfl, rfl⟩

variable {transcript : Transcript} {n : Nat} {incoming : Incoming}

/-- The row of a one-row table. -/
theorem eq_of_row?_singleton {row found : DurableSession} (hsessions : store.sessions = [row])
    (h : store.row? key = some found) : found = row := by
  have hmem : found ∈ store.sessions := Table.mem_of_lookup h
  rw [hsessions] at hmem
  exact List.mem_singleton.mp hmem

/-- A path which led to a row of the same fingerprint decides nothing. -/
theorem reconcileFromPath_eq_none
    (h : ∀ row ∈ store.sessions, row.firstEventFingerprint = incoming.fingerprint) :
    reconcileFromPath codec store incoming = .ok none := by
  have hprior : store.priorFromPath incoming = none := by
    rw [Option.eq_none_iff_forall_not_mem]
    intro prior hprior
    unfold priorFromPath at hprior
    simp only [Option.mem_def, Option.bind_eq_bind, Option.bind_eq_some_iff] at hprior
    obtain ⟨location, -, row, hrow, artifact, -, stored, -, hprior⟩ := hprior
    split at hprior
    · next hcondition => exact hcondition.2.2.2 (h row (Table.mem_of_lookup hrow))
    · cases hprior
  unfold reconcileFromPath
  rw [hprior]

/-- The rule of the lineage finds the row of the transcript. -/
theorem chooseSession_touch {row : DurableSession} (hsessions : store.sessions = [row])
    (hidentity : row.identityKey = incoming.identity)
    (hfingerprint : row.firstEventFingerprint = incoming.fingerprint)
    (hlineage : DurableSession.sharesLineage row incoming.session = true) :
    chooseSession codec store incoming = .ok (.touch row.sessionKey) := by
  have hpath : reconcileFromPath codec store incoming = .ok none := by
    apply reconcileFromPath_eq_none
    intro other hother
    rw [hsessions] at hother
    rw [List.mem_singleton.mp hother, hfingerprint]
  have hfound : reconcileByLineage store incoming = some (.touch row.sessionKey) := by
    unfold reconcileByLineage
    rw [hsessions]
    simp [hidentity, hfingerprint, hlineage]
  unfold chooseSession
  rw [hpath]
  change Except.ok _ = _
  rw [hfound]
  rfl

/-- A ledger without sessions inserts the identity. -/
theorem chooseSession_insert (hsessions : store.sessions = []) :
    chooseSession codec store incoming = .ok (.insert incoming.identity) := by
  have hrow : ∀ key, store.row? key = none := by
    intro key
    unfold row?
    rw [hsessions]
    rfl
  have hpath : reconcileFromPath codec store incoming = .ok none := by
    apply reconcileFromPath_eq_none
    intro row h
    rw [hsessions] at h
    cases h
  have hlineage : reconcileByLineage store incoming = none := by
    unfold reconcileByLineage
    rw [hsessions]
    rfl
  have hrenamed : reconcileRenamedSubagent store incoming = none := by
    unfold reconcileRenamedSubagent
    rw [hsessions]
    exact ite_self _
  have hprovisional : reconcileProvisional store incoming = none := by
    have hpath : store.provisionalFromPath incoming = none := by
      unfold provisionalFromPath
      cases store.locations[incoming.path]? with
      | none => rfl
      | some location => simp [hrow]
    have hidentity : store.provisionalOfIdentity incoming = none := by
      unfold provisionalOfIdentity
      rw [hsessions]
      rfl
    unfold reconcileProvisional
    rw [hpath, hidentity]
    exact ite_self _
  unfold chooseSession
  rw [hpath]
  change Except.ok _ = _
  rw [hlineage, hrenamed, hprovisional]
  unfold newSessionKey
  rw [hrow]
  rfl

/-- Reconciliation leads every state of the transcript to its identity. -/
theorem Holds.reconcileSession {observation : Observation} (h : store.Holds codec transcript n)
    (hextends : transcript.HasPrefix observation.session) :
    ∃ reconciled row, store.reconcileSession codec (observation.incoming codec) =
        .ok (transcript.identity, reconciled) ∧
      reconciled.purged = store.purged ∧ reconciled.artifacts = store.artifacts ∧
      reconciled.sessions = [row] ∧ row.sessionKey = transcript.identity ∧
      row.identityKey = transcript.identity ∧
      row.firstEventFingerprint = firstEventFingerprint codec observation.session ∧
      transcript.Holds codec n row.content := by
  have hidentity : (observation.incoming codec).identity = transcript.identity := hextends.identity
  rcases h.row with ⟨hsessions, rfl⟩ |
    ⟨hpos, row, hsessions, hkey, hrowIdentity, hfingerprint, hcontent⟩
  · have happly : applyReconciliation store (observation.incoming codec)
        (.insert (observation.incoming codec).identity) = .ok { store with
          sessions := store.sessions ++
            [newRow (observation.incoming codec) (observation.incoming codec).identity] } := by
      apply applyReconciliation_insert_eq_ok.mpr
      unfold row?
      rw [hsessions]
      exact ⟨rfl, rfl⟩
    refine ⟨_, newRow (observation.incoming codec) (observation.incoming codec).identity,
      reconcileSession_eq_ok.mpr ⟨_, chooseSession_insert hsessions, hidentity, happly⟩, rfl, rfl,
      ?_, hidentity, hidentity, rfl, Transcript.holds_fresh⟩
    change store.sessions ++ _ = _
    rw [hsessions]
    rfl
  · have hlineage := sharesLineage_of_holds hcontent hpos hextends
    have hchoose : chooseSession codec store (observation.incoming codec) =
        .ok (.touch row.sessionKey) :=
      chooseSession_touch hsessions (hrowIdentity.trans hidentity.symm)
        (hfingerprint _ hextends) hlineage
    refine ⟨_, { row with lastSeenAtMs := observation.now },
      reconcileSession_eq_ok.mpr ⟨_, hchoose, hkey, rfl⟩, rfl, rfl, ?_, hkey, hrowIdentity,
      hfingerprint _ hextends, hcontent⟩
    change Table.update _ _ _ store.sessions = _
    rw [hsessions]
    simp [Table.update, Table.updateWhere, Observation.incoming]

/-- An observation rewrites the content of the only row and keeps its owner. -/
theorem sessions_recordObservation {row : DurableSession} (hsessions : store.sessions = [row])
    (observation : Observation) (artifactKey : String) (displaced : Option String)
    (content : SessionContent) (rollupsDeferred : Bool) :
    ∃ written, (store.recordObservation observation row artifactKey displaced content
        rollupsDeferred).sessions = [written] ∧
      written.content = content ∧ written.owner = row.owner := by
  have hcontents := store.contents_recordObservation observation row artifactKey
    displaced content rollupsDeferred
  have howners := store.owners_recordObservation observation row artifactKey
    displaced content rollupsDeferred
  unfold contents setContent at hcontents
  unfold owners at howners
  rw [hsessions] at hcontents howners
  obtain ⟨written, hwritten, hcontent⟩ := List.map_eq_singleton_iff.mp
    (hcontents.trans List.map_singleton)
  rw [hwritten] at howners
  refine ⟨written, hwritten, ?_, List.singleton_inj.mp howners⟩
  rw [if_pos rfl] at hcontent
  exact congrArg Prod.snd hcontent

/-- An observation of a state of the transcript succeeds under its identity and extends what the
ledger holds. -/
theorem Holds.observeOne {observation : Observation} (maintainRollups : Bool)
    (hcodec : Transcript.Faithful codec) (h : store.Holds codec transcript n)
    (hextends : transcript.HasPrefix observation.session)
    (hcounts : Transcript.CountsFit codec observation.session) :
    ∃ observed store', observeOne codec maintainRollups store observation =
        .ok (observed, store') ∧ observed.key = transcript.identity ∧
      store'.Holds codec transcript (max n observation.session.tokensHistory.length) := by
  obtain ⟨reconciled, row, hreconcile, hpurged, hartifacts, hsessions, hkey, hidentity,
    hfingerprint, hcontent⟩ := h.reconcileSession hextends
  have hrow : reconciled.row? transcript.identity = some row := by
    unfold row?
    rw [hsessions]
    simp [Table.lookup, hkey]
  have hfree : ∀ artifactKey : String,
      reconciled.artifactFree artifactKey transcript.identity = true := by
    intro artifactKey
    unfold artifactFree
    rw [hartifacts]
    cases hartifact : store.artifacts[artifactKey]? with
    | none => rfl
    | some artifact => exact decide_eq_true (h.artifacts artifactKey artifact hartifact)
  let artifactKey := baseArtifactKey codec (effectiveStorageId observation.session)
    observation.session
  have hartifact : reconciled.sourceArtifactKey codec (effectiveStorageId observation.session)
      observation.session transcript.identity = .ok artifactKey := by
    unfold sourceArtifactKey
    exact if_pos (hfree _)
  let archived := applyProjectIdentity row observation.project
    (observation.archived transcript.identity)
  let content := observedContent codec maintainRollups observation.session archived row.content
  let factsChanged := storesSnapshot codec .source archived row.content
  have hwrite : observeContent codec maintainRollups observation.session archived row.content =
      .ok (content, factsChanged) :=
    observeContent_eq_ok.mpr
      ⟨rfl, fun _ ↦ Transcript.convertedCounts_fit hcounts row.content, rfl⟩
  let displaced := ((store.locations[observation.path]?).map (·.sessionKey)).filter
    (· ≠ transcript.identity)
  let rollupsDeferred := !maintainRollups && factsChanged
  have hid : hasProviderId observation.session = true := by
    unfold hasProviderId
    rw [hextends.id, transcript.idNotBlank]
    rfl
  have hexcluded : store.isExcluded (effectiveStorageId observation.session)
      (firstEventFingerprint codec observation.session) = false := by
    unfold isExcluded
    rw [h.purged]
    rfl
  refine ⟨⟨transcript.identity, displaced, rollupsDeferred⟩, reconciled.recordObservation observation
      row artifactKey displaced content rollupsDeferred,
    observeOne_eq_ok.mpr ⟨hid, hexcluded, transcript.identity, reconciled, row, artifactKey,
      content, factsChanged, hreconcile, hrow, hartifact, hfree _, hwrite, rfl, rfl⟩,
    rfl, ?_, ?_, .inr ⟨?_, ?_⟩⟩
  · rw [purged_recordObservation, hpurged, h.purged]
  · intro key artifact hartifact
    rcases getElem?_artifacts_recordObservation observation row _ _ _ _ hartifact with
      howner | ⟨stored, hstored, howner⟩
    · exact howner.trans hkey
    · rw [hartifacts] at hstored
      exact howner.symm.trans (h.artifacts key stored hstored)
  · have hpos : 0 < observation.session.tokensHistory.length :=
      List.length_pos_iff.mpr hextends.nonempty
    omega
  · obtain ⟨written, hwritten, hcontent', howner⟩ := sessions_recordObservation hsessions
      observation artifactKey displaced content rollupsDeferred
    refine ⟨written, hwritten, (congrArg (·.1) howner).trans hkey,
      (congrArg (·.2.1) howner).trans hidentity, ?_, ?_⟩
    · intro other hother
      exact (congrArg (·.2.2) howner).trans
        (hfingerprint.trans (hextends.firstEventFingerprint_eq hother))
    · rw [hcontent']
      exact hcontent.observedContent hcodec hextends (tokensHistory_applyProjectIdentity row _ _)

/-! ### Any number of observations -/

/-- Observations one after the other, each in its own transaction and with or without rollup
maintenance: the outcomes, and the ledger they leave. -/
def observeEach (codec : Codec) (store : HistoryStore) :
    List (Bool × Observation) → List (Except LedgerError Observed) × HistoryStore
  | [] => ([], store)
  | (maintainRollups, observation) :: rest =>
      let result := observeOne codec maintainRollups store observation
      let (outcomes, final) := observeEach codec (committed store result) rest
      (result.map Prod.fst :: outcomes, final)

/-- The number of events of the longest history. -/
def longestHistory (calls : List (Bool × Observation)) (n : Nat) : Nat :=
  calls.foldl (fun longest call ↦ max longest call.2.session.tokensHistory.length) n

theorem longestHistory_le_iff {calls : List (Bool × Observation)} {m : Nat} :
    longestHistory calls n ≤ m ↔
      n ≤ m ∧ ∀ call ∈ calls, call.2.session.tokensHistory.length ≤ m := by
  induction calls generalizing n with
  | nil => simp [longestHistory]
  | cons call rest ih =>
    change longestHistory rest (max n call.2.session.tokensHistory.length) ≤ m ↔ _
    rw [ih, Nat.max_le, List.forall_mem_cons, and_assoc]

/-- Observations of states of the transcript succeed under its identity and leave a ledger which
holds the longest of them. -/
theorem Holds.observeEach {calls : List (Bool × Observation)}
    (hcodec : Transcript.Faithful codec) (h : store.Holds codec transcript n)
    (hextends : ∀ call ∈ calls, transcript.HasPrefix call.2.session)
    (hcounts : ∀ call ∈ calls, Transcript.CountsFit codec call.2.session) :
    (∀ outcome ∈ (observeEach codec store calls).1, ∃ observed, outcome = .ok observed ∧
        observed.key = transcript.identity) ∧
      (observeEach codec store calls).2.Holds codec transcript (longestHistory calls n) := by
  induction calls generalizing store n with
  | nil => exact ⟨(fun _ h ↦ nomatch h), h⟩
  | cons call rest ih =>
    obtain ⟨maintainRollups, observation⟩ := call
    obtain ⟨observed, store', hobserve, hkey, hholds⟩ := h.observeOne maintainRollups hcodec
      (hextends _ List.mem_cons_self) (hcounts _ List.mem_cons_self)
    obtain ⟨hrest, hfinal⟩ := ih hholds
      (fun call hcall ↦ hextends call (List.mem_cons_of_mem _ hcall))
      (fun call hcall ↦ hcounts call (List.mem_cons_of_mem _ hcall))
    unfold HistoryStore.observeEach
    rw [hobserve]
    refine ⟨?_, hfinal⟩
    intro outcome houtcome
    rcases List.mem_cons.mp houtcome with rfl | houtcome
    · exact ⟨observed, rfl, hkey⟩
    · exact hrest outcome houtcome

/-- Whatever the order, the paths and the repetitions, observations of states of one transcript
return its identity and leave one session, whose token rows are those of the longest state. -/
theorem observations_converge (hcodec : Transcript.Faithful codec)
    {calls : List (Bool × Observation)} (hcalls : calls ≠ [])
    (hextends : ∀ call ∈ calls, transcript.HasPrefix call.2.session)
    (hcounts : ∀ call ∈ calls, Transcript.CountsFit codec call.2.session) :
    (∀ outcome ∈ (observeEach codec .empty calls).1, ∃ observed, outcome = .ok observed ∧
        observed.key = transcript.identity) ∧
      ∃ row, (observeEach codec .empty calls).2.sessions = [row] ∧
        row.sessionKey = transcript.identity ∧ row.identityKey = transcript.identity ∧
        ∀ call ∈ calls, (∀ other ∈ calls, other.2.session.tokensHistory.length ≤
            call.2.session.tokensHistory.length) →
          row.content.facts.tokens = tokenRows codec call.2.session.tokensHistory := by
  obtain ⟨houtcomes, hfinal⟩ := holds_empty.observeEach hcodec hextends hcounts
  refine ⟨houtcomes, ?_⟩
  obtain ⟨-, hmax⟩ := longestHistory_le_iff.mp (Nat.le_refl (longestHistory calls 0))
  rcases hfinal.row with ⟨-, hzero⟩ | ⟨-, row, hsessions, hkey, hidentity, -, hcontent⟩
  · obtain ⟨call, hcall⟩ := List.exists_mem_of_ne_nil calls hcalls
    have hpos : 0 < call.2.session.tokensHistory.length :=
      List.length_pos_iff.mpr (hextends call hcall).nonempty
    have hle := hmax call hcall
    omega
  · refine ⟨row, hsessions, hkey, hidentity, ?_⟩
    intro call hcall hlongest
    have heq : longestHistory calls 0 = call.2.session.tokensHistory.length :=
      Nat.le_antisymm (longestHistory_le_iff.mpr ⟨Nat.zero_le _, hlongest⟩) (hmax call hcall)
    rw [hcontent.tokens, heq, ← (hextends call hcall).tokensHistory_eq]

end HistoryStore

/-! ### A small thread -/

/-- The fields of a token event. -/
def eventFields (event : TokenHistoryPoint) :
    Int × Option (List Nat) × Option (List Nat) × Option Nat × List Nat :=
  (event.timestamp.nanos, event.model.map fun text ↦ text.toList.map Char.toNat,
    event.serviceTier.map fun text ↦ text.toList.map Char.toNat, event.requestInputTokens,
    [event.totalTokens, event.delta.inputTokens, event.delta.cachedInputTokens,
      event.delta.cacheCreationInputTokens, event.delta.outputTokens,
      event.delta.reasoningOutputTokens, event.delta.totalTokens])

theorem eventFields_injective : eventFields.Injective := by
  have htext : (fun text : String ↦ text.toList.map Char.toNat).Injective := by
    intro a b h
    exact String.toList_inj.mp (List.map_injective_iff.mpr (fun _ _ ↦ Char.toNat_inj.mp) h)
  rintro ⟨_, _, _, _, _, ⟨_, _, _, _, _, _⟩⟩ ⟨_, _, _, _, _, ⟨_, _, _, _, _, _⟩⟩ h
  simp only [eventFields, Prod.mk.injEq, List.cons.injEq] at h
  obtain ⟨htime, hmodel, htier, hrequest, htotal, hinput, hcached, hcreation, houtput, hreasoning,
    hdelta, -⟩ := h
  rw [TokenHistoryPoint.mk.injEq, TokenTotals.mk.injEq]
  exact ⟨DateTime.ext htime, Option.map_injective htext hmodel, Option.map_injective htext htier,
    hrequest, htotal, hinput, hcached, hcreation, houtput, hreasoning, hdelta⟩

/-- Hashes without collisions, and snapshots written as a number of their token history. -/
def historyCodec : Codec where
  stableHash := id
  encode session := Nat.repr (Encodable.encode (session.tokensHistory.map eventFields))

theorem faithful_historyCodec : Transcript.Faithful historyCodec where
  hash := Function.injective_id
  encode a b h := by
    apply List.map_injective_iff.mpr eventFields_injective
    exact Encodable.encode_injective (Nat.repr_injective h)

/-- A turn with the given id. -/
def sampleTurn (turnId : String) : TurnInfo :=
  { turnId
    index := 0
    model := none
    reasoningEffort := none
    collaborationMode := none
    serviceTier := none
    status := .inProgress
    abortReason := none
    startedAt := none
    completedAt := none
    durationMs := none
    timeToFirstTokenMs := none
    userMessage := none
    lastAgentMessage := none
    tokens := .zero
    toolMetrics := .zero
    classification := ⟨0, .other, 0, []⟩ }

/-- A thread with the given events. -/
def sampleTranscript (events : List TokenHistoryPoint)
    (distinct : (events.map tokenEventSignature).Nodup) : Transcript where
  harness := .codex
  id := "thread"
  identity := "codex:thread:thread"
  startedAt := .epoch
  firstTurnId := "turn"
  events := events
  idNotBlank := by decide +kernel
  signaturesDistinct := distinct

/-- The observation of a state of the thread, from the given path. -/
def observeState (path : String) (events : List TokenHistoryPoint) : Observation :=
  { sampleObservation { sampleSession events with turns := [sampleTurn "turn"] } with path }

/-- The sample states are states of the sample thread. -/
theorem hasPrefix_observeState {path : String} {events state : List TokenHistoryPoint}
    {distinct : (events.map tokenEventSignature).Nodup} (hstate : state ≠ [])
    (hextends : state <+: events) :
    (sampleTranscript events distinct).HasPrefix (observeState path state).session where
  harness := rfl
  id := rfl
  identity := by
    change effectiveStorageId (sampleSession []) = "codex:thread:thread"
    decide +kernel
  startedAt := rfl
  firstTurn := rfl
  nonempty := hstate
  isPrefix := hextends

namespace HistoryStore

/-- The whole thread, and then a shorter copy of it at another path. -/
def observeCopy : List (Bool × Observation) :=
  [(false, observeState "rollout.jsonl" [sampleEvent 5, sampleEvent 10]),
    (true, observeState "copy.jsonl" [sampleEvent 5])]

theorem observations_converge_copy :
    (∀ outcome ∈ (observeEach historyCodec .empty observeCopy).1, ∃ observed,
        outcome = .ok observed ∧ observed.key = "codex:thread:thread") ∧
      ∃ row, (observeEach historyCodec .empty observeCopy).2.sessions = [row] ∧
        row.content.facts.tokens = tokenRows historyCodec [sampleEvent 5, sampleEvent 10] := by
  have hdistinct : ([sampleEvent 5, sampleEvent 10].map tokenEventSignature).Nodup := by
    decide +kernel
  have hextends : ∀ call ∈ observeCopy,
      (sampleTranscript _ hdistinct).HasPrefix call.2.session := by
    intro call hcall
    rcases List.mem_pair.mp hcall with rfl | rfl
    · exact hasPrefix_observeState (List.cons_ne_nil _ _) (List.prefix_refl _)
    · exact hasPrefix_observeState (List.cons_ne_nil _ _) (List.prefix_append _ _)
  have hcounts : ∀ call ∈ observeCopy, Transcript.CountsFit historyCodec call.2.session := by
    decide +kernel
  obtain ⟨houtcomes, row, hsessions, -, -, htokens⟩ :=
    observations_converge faithful_historyCodec (List.cons_ne_nil _ _) hextends hcounts
  exact ⟨houtcomes, row, hsessions, htokens _ List.mem_cons_self (by decide +kernel)⟩

/-- A count beyond SQLite's integers is not stored. -/
theorem count_out_of_range_not_observed :
    ¬ ∀ codec : Codec, Transcript.Faithful codec → ∀ (transcript : Transcript)
      (calls : List (Bool × Observation)), calls ≠ [] →
        (∀ call ∈ calls, transcript.HasPrefix call.2.session) →
          ∀ outcome ∈ (observeEach codec .empty calls).1, ∃ observed, outcome = .ok observed ∧
            observed.key = transcript.identity := by
  intro h
  have hdistinct : ([sampleEvent (2 ^ 63)].map tokenEventSignature).Nodup := by
    decide +kernel
  have hextends : ∀ call ∈ [(true, observeState "rollout.jsonl" [sampleEvent (2 ^ 63)])],
      (sampleTranscript _ hdistinct).HasPrefix call.2.session := by
    intro call hcall
    rw [List.mem_singleton.mp hcall]
    exact hasPrefix_observeState (List.cons_ne_nil _ _) (List.prefix_refl _)
  have hfails : (observeEach historyCodec .empty
      [(true, observeState "rollout.jsonl" [sampleEvent (2 ^ 63)])]).1.map Except.toOption =
        [none] := by decide +kernel
  obtain ⟨outcome, houtcome, hnone⟩ := List.map_eq_singleton_iff.mp hfails
  obtain ⟨observed, rfl, -⟩ := h historyCodec faithful_historyCodec (sampleTranscript _ hdistinct)
    _ (List.cons_ne_nil _ _) hextends outcome (houtcome ▸ List.mem_singleton_self outcome)
  cases hnone

end HistoryStore

end AgentOdometer.Ledger
