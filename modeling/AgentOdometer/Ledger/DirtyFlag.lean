import AgentOdometer.Ledger.Calls

/-!
# The dirty flag

`ledger_dirty` marks a session whose snapshot has moved past its facts. Observations clear it
(`history_store.rs:4987–4992`), overlays set it by a comparison of history lengths and last
timestamps (`history_store.rs:5026–5069`).
-/

namespace AgentOdometer.Ledger

open Transition

/-- The token rows of a history stored from its start: one for each event key. -/
def distinctTokenFacts (codec : Codec) (events : List TokenHistoryPoint) : List TokenFact :=
  (tokenRows codec events).foldl insertTokenFact []

/-- The facts of a session whose events are stored once for each signature. -/
def factsOf (codec : Codec) (session : Session) : SessionFacts where
  tokens := distinctTokenFacts codec session.tokensHistory
  tools := session.toolObservations.map ToolFact.ofObservation
  dimensions := session.toolObservations.flatMap DimensionFact.ofObservation
  findings := session.optimizationFindings.map FindingFact.ofFinding

/-- A session which is not flagged has the facts of its snapshot. -/
def SessionContent.FlagHonest (codec : Codec) (content : SessionContent) : Prop :=
  content.ledgerDirty = false → ∀ snapshot, content.snapshot = some snapshot →
    content.facts = factsOf codec snapshot

/-- The stored rows, with their request inputs filled in, are those of the events which the
incoming history stores them for: of its first `MAX(event_index) + 1` events. -/
def ExtendsStored (codec : Codec) (events : List TokenHistoryPoint) (stored : List TokenFact) :
    Prop :=
  backfilledRows codec events stored =
    distinctTokenFacts codec (events.take (nextEventIndex stored))

instance (codec : Codec) (events : List TokenHistoryPoint) (stored : List TokenFact) :
    Decidable (ExtendsStored codec events stored) :=
  inferInstanceAs (Decidable (_ = _))

variable {codec : Codec} {session archived : Session} {content : SessionContent}

/-! ### One write -/

/-- Appending to the stored rows of a prefix stores the rows of the whole history. -/
theorem factsAfter_eq_factsOf {stored : List TokenFact}
    (h : ExtendsStored codec session.tokensHistory stored) :
    factsAfter codec session stored = factsOf codec session := by
  have hrows : tokenRows codec session.tokensHistory =
      tokenRows codec (session.tokensHistory.take (nextEventIndex stored)) ++
        suffixRows codec session.tokensHistory stored := by
    rw [tokenRows_take]
    exact (List.take_append_drop (nextEventIndex stored) _).symm
  unfold factsAfter factsOf
  rw [h]
  unfold distinctTokenFacts
  rw [hrows, List.foldl_append]

/-- The archived session has the facts of the observed one. -/
theorem factsOf_applyProjectIdentity (row : DurableSession) (project : Option ProjectIdentity) :
    factsOf codec (applyProjectIdentity row project session) = factsOf codec session := by
  unfold applyProjectIdentity
  split <;> rfl

/-- The overlaid session has the facts of the one it is made from. -/
theorem factsOf_overlaidSession (row : DurableSession) (project : Option ProjectIdentity) :
    factsOf codec (HistoryStore.overlaidSession row project session) = factsOf codec session :=
  factsOf_applyProjectIdentity row project

/-- The facts of a content are those of its snapshot. -/
def SessionContent.FactsCurrent (codec : Codec) (content : SessionContent) : Prop :=
  ∀ snapshot, content.snapshot = some snapshot → content.facts = factsOf codec snapshot

/-- Clearing the flag is right: the history is appended to the stored rows of its prefix, or
nothing is stored and a flagged content has the facts of its snapshot already. -/
def ClearsRightly (codec : Codec) (session archived : Session) (content : SessionContent) :
    Prop :=
  if storesSnapshot codec .source archived content then
    ExtendsStored codec session.tokensHistory content.facts.tokens
  else content.ledgerDirty = true → content.FactsCurrent codec

theorem flagHonest_fresh : SessionContent.fresh.FlagHonest codec := by
  intro _ snapshot h
  cases h

/-- An observation which clears the flag rightly keeps it honest. -/
theorem flagHonest_observedContent {maintainRollups : Bool}
    (harchived : factsOf codec archived = factsOf codec session)
    (hclears : ClearsRightly codec session archived content) (h : content.FlagHonest codec) :
    (observedContent codec maintainRollups session archived content).FlagHonest codec := by
  intro _ snapshot hsnapshot
  unfold ClearsRightly at hclears
  unfold observedContent at hsnapshot ⊢
  cases hstores : storesSnapshot codec .source archived content with
  | false =>
    rw [hstores, if_neg Bool.false_ne_true] at hclears
    rw [hstores] at hsnapshot
    show content.facts = factsOf codec snapshot
    cases hdirty : content.ledgerDirty with
    | false => exact h hdirty snapshot hsnapshot
    | true => exact hclears hdirty snapshot hsnapshot
  | true =>
    rw [hstores, if_pos rfl] at hclears
    rw [hstores] at hsnapshot
    cases hsnapshot
    rw [harchived]
    exact factsAfter_eq_factsOf hclears

/-- Histories which an overlay does not tell apart: as many events of each kind, and the same last
timestamp of tokens. -/
def Indistinct (current archived : Session) : Prop :=
  current.tokensHistory.length = archived.tokensHistory.length ∧
    current.tokensHistory.getLast?.map (·.timestamp) =
      archived.tokensHistory.getLast?.map (·.timestamp) ∧
    current.toolObservations.length = archived.toolObservations.length ∧
    current.optimizationFindings.length = archived.optimizationFindings.length

theorem historyMatchesDurable_iff {current : Session} :
    historyMatchesDurable current archived = true ↔ Indistinct current archived := by
  unfold historyMatchesDurable Indistinct
  simp only [Bool.and_eq_true, decide_eq_true_eq, and_assoc]

/-- A stored overlay whose history is not told apart from the current one has the same rows. -/
def SameRows (codec : Codec) (archived : Session) (content : SessionContent) : Prop :=
  ∀ current, content.snapshot = some current → Indistinct current archived →
    storesSnapshot codec .metadataOverlay archived content = true →
      factsOf codec archived = factsOf codec current

/-- The comparison of an overlay is right: where it does not tell the histories apart, the session
is not flagged yet and the histories have the same rows. -/
def ComparesRightly (codec : Codec) (archived : Session) (content : SessionContent) : Prop :=
  (∀ current, content.snapshot = some current → Indistinct current archived →
    content.ledgerDirty = false) ∧ SameRows codec archived content

/-- The flag which an overlay leaves. -/
theorem ledgerDirty_overlayContent :
    (overlayContent codec archived content).ledgerDirty = false ↔
      ∃ current, content.snapshot = some current ∧ Indistinct current archived := by
  show (!content.snapshot.any fun durable ↦ historyMatchesDurable durable archived) = false ↔ _
  rw [Bool.not_eq_false', Option.any_eq_true]
  exact exists_congr fun current ↦ and_congr_right fun _ ↦ historyMatchesDurable_iff

theorem facts_overlayContent : (overlayContent codec archived content).facts = content.facts := by
  unfold overlayContent storeSnapshot
  split <;> rfl

/-- The snapshot which an overlay leaves. -/
theorem snapshot_overlayContent : (overlayContent codec archived content).snapshot =
    if storesSnapshot codec .metadataOverlay archived content then some archived
    else content.snapshot := by
  unfold overlayContent storeSnapshot
  split <;> rfl

/-- An overlay of a session which is not flagged keeps the flag honest exactly when it brings no
other rows under the same lengths and last timestamp. -/
theorem flagHonest_overlayContent_iff (h : content.FlagHonest codec)
    (hclear : content.ledgerDirty = false) :
    (overlayContent codec archived content).FlagHonest codec ↔
      SameRows codec archived content := by
  unfold SessionContent.FlagHonest
  rw [ledgerDirty_overlayContent, facts_overlayContent, snapshot_overlayContent]
  constructor
  · intro hhonest current hcurrent hsame hstores
    rw [if_pos hstores] at hhonest
    exact (hhonest ⟨current, hcurrent, hsame⟩ archived rfl).symm.trans (h hclear current hcurrent)
  · rintro hrows ⟨current, hcurrent, hsame⟩ snapshot hsnapshot
    have hfacts := h hclear current hcurrent
    split at hsnapshot
    next hstores =>
      cases hsnapshot
      exact hfacts.trans (hrows current hcurrent hsame hstores).symm
    next => exact h hclear snapshot hsnapshot

/-- An overlay whose comparison is right keeps the flag honest. -/
theorem flagHonest_overlayContent (hcompares : ComparesRightly codec archived content)
    (h : content.FlagHonest codec) : (overlayContent codec archived content).FlagHonest codec := by
  intro hdirty
  obtain ⟨current, hcurrent, hsame⟩ := ledgerDirty_overlayContent.mp hdirty
  have hclear := hcompares.1 current hcurrent hsame
  exact (flagHonest_overlayContent_iff h hclear).mpr hcompares.2 hdirty

theorem flagHonest_overlayThreadName (threadName : Option String) (h : content.FlagHonest codec) :
    (overlayThreadName threadName content).FlagHonest codec :=
  h

theorem flagHonest_rebuildContent (h : content.FlagHonest codec) :
    (rebuildContent content).FlagHonest codec :=
  h

/-! ### Runs -/

namespace HistoryStore

variable {store store' : HistoryStore}

/-- Every session's flag is honest. -/
def FlagsHonest (codec : Codec) (store : HistoryStore) : Prop :=
  store.AllContents fun _ content ↦ content.FlagHonest codec

/-- An observation which commits clears the flag of its session rightly. -/
def ObservationClearsRightly (codec : Codec) (maintainRollups : Bool) (store : HistoryStore)
    (observation : Observation) : Prop :=
  ∀ result, observeOne codec maintainRollups store observation = .ok result →
    ∀ row, store.target codec observation = some row →
      ClearsRightly codec observation.session (observation.archivedIn row) row.content

/-- An overlay compares its session rightly. -/
def OverlayComparesRightly (codec : Codec) (store : HistoryStore) (session : Session)
    (project : Option ProjectIdentity) : Prop :=
  ∀ row, store.row? (effectiveStorageId session) = some row →
    ComparesRightly codec (overlaidSession row project session) row.content

/-- The calls which keep the flags honest. The members of a batch are judged in the state each
is processed in, and only where the batch commits. -/
def KeepsFlagsHonest (codec : Codec) (store : HistoryStore) : StoreCall → Prop
  | .observe observation => store.ObservationClearsRightly codec true observation
  | .observeBulk observation => store.ObservationClearsRightly codec false observation
  | .observeBulkBatch observations =>
      ∀ result, observeBulkBatch codec store observations = .ok result →
        EachObserved codec (ObservationClearsRightly codec false) store observations
  | .updateSnapshotBatch now sessions =>
      ∀ result, updateSnapshotBatch codec store now sessions = .ok result →
        EachUpdated codec now (OverlayComparesRightly codec) store sessions
  | _ => True

theorem FlagsHonest.observeOne {maintainRollups : Bool} {observation : Observation}
    {observed : Observed} (hhonest : store.FlagsHonest codec)
    (hclears : store.ObservationClearsRightly codec maintainRollups observation)
    (hobserve : observeOne codec maintainRollups store observation = .ok (observed, store')) :
    store'.FlagsHonest codec := by
  refine AllContents.observeOne hobserve hhonest (fun _ ↦ flagHonest_fresh) ?_
  intro row hrow h
  exact flagHonest_observedContent (factsOf_applyProjectIdentity row observation.project)
    (hclears _ hobserve row hrow) h

theorem FlagsHonest.updateSnapshot {session : Session} {project : Option ProjectIdentity}
    {now : Int} (hhonest : store.FlagsHonest codec)
    (hcompares : store.OverlayComparesRightly codec session project)
    (hupdate : updateSnapshot codec store session now project = .ok store') :
    store'.FlagsHonest codec := by
  refine AllContents.updateSnapshot hupdate hhonest ?_
  intro row hrow h
  exact flagHonest_overlayContent (hcompares row hrow) h

/-- A rebuild leaves the facts, snapshots and flags as they are. -/
theorem FlagsHonest.rebuildRollupsScoped (hhonest : store.FlagsHonest codec)
    (scope : RollupScope) : (store.rebuildRollupsScoped scope).FlagsHonest codec := by
  intro key content hmem
  have hcontents : (store.rebuildRollupsScoped scope).contents =
      (store.rebuildRollupsIn scope).contents := rfl
  rw [hcontents, contents_rebuildRollupsIn] at hmem
  obtain ⟨⟨key', old⟩, hold, heq⟩ := List.mem_map.mp hmem
  cases heq
  have hold' : old.FlagHonest codec := hhonest _ old hold
  split
  · exact flagHonest_rebuildContent hold'
  · exact hold'

/-- One call keeps the flags honest. -/
theorem FlagsHonest.step {c : StoreCall} (hhonest : store.FlagsHonest codec)
    (hkeeps : store.KeepsFlagsHonest codec c) (hstep : step codec store c = some store') :
    store'.FlagsHonest codec := by
  cases hstep
  cases c with
  | observe observation =>
    apply committed_invariant hhonest
    intro observed store' hobserve
    exact hhonest.observeOne hkeeps hobserve
  | observeBulk observation =>
    apply committed_invariant hhonest
    intro observed store' hobserve
    exact hhonest.observeOne hkeeps hobserve
  | observeBulkBatch observations =>
    apply committed_invariant hhonest
    intro written store' hbatch
    refine observeBulkBatch_invariant ?_ hbatch (hkeeps _ hbatch) hhonest
    intro store observation observed store' hstore hclears hobserve
    exact hstore.observeOne hclears hobserve
  | updateSnapshotBatch now sessions =>
    apply committed_invariant hhonest
    intro _ store' hbatch
    have hupdate := of_map_pair hbatch
    refine updateSnapshotBatch_invariant ?_ hupdate (hkeeps _ hupdate) hhonest
    intro store session project store' hstore hcompares hupdate
    exact hstore.updateSnapshot hcompares hupdate
  | overlayThreadNames updates =>
    apply committed_invariant hhonest
    intro _ store' hoverlay
    exact AllContents.overlayThreadNames (of_map_pair hoverlay) hhonest
      fun _ threadName _ h ↦ flagHonest_overlayThreadName threadName h
  | rebuildRollups => exact hhonest.rebuildRollupsScoped .entireLedger
  | rebuildRollupsIfStale =>
    show store.rebuildRollupsIfStale.FlagsHonest codec
    unfold rebuildRollupsIfStale
    split
    · exact hhonest
    · split
      · exact hhonest.rebuildRollupsScoped .entireLedger
      · exact hhonest.rebuildRollupsScoped .deferredSessions
  | reopen =>
    show store.reopen.FlagsHonest codec
    unfold reopen
    split
    · exact hhonest.rebuildRollupsScoped .entireLedger
    · exact hhonest

/-- The observed history under another thread name. -/
def renamedTwoEvents : Session :=
  { sampleSession [sampleEvent 5, sampleEvent 10] with threadName := some "name" }

/-- An overlay of the observed history under another thread name. -/
def renameTwoEvents : StoreCall :=
  .updateSnapshotBatch 1 [(renamedTwoEvents, none)]

end HistoryStore

end AgentOdometer.Ledger
