import AgentOdometer.Ledger.Contents
import AgentOdometer.Lib.Transition

/-!
# Runs of the ledger

The calls of the store as one step function, each in its own transaction
(`history_store.rs:713–963,1327–1421`), and the rule by which a property of every stored
content survives a call.
-/

namespace AgentOdometer.Ledger

open Transition

/-- A call of the store, or a crash followed by opening the database again. -/
inductive StoreCall where
  | observe (observation : Observation)
  | observeBulk (observation : Observation)
  | observeBulkBatch (observations : List Observation)
  | updateSnapshotBatch (now : Int) (sessions : List (Session × Option ProjectIdentity))
  | overlayThreadNames (updates : List (String × Option String))
  | rebuildRollups
  | rebuildRollupsIfStale
  | reopen

/-- The state a transaction leaves: its result, or the state before it. -/
def committed {α : Type} (store : HistoryStore) :
    Except LedgerError (α × HistoryStore) → HistoryStore
  | .ok (_, store') => store'
  | .error _ => store

namespace HistoryStore

/-- The ledger after a call. A single `update_snapshot` is a batch of one. -/
def call (codec : Codec) (store : HistoryStore) : StoreCall → HistoryStore
  | .observe observation => committed store (observeOne codec true store observation)
  | .observeBulk observation => committed store (observeOne codec false store observation)
  | .observeBulkBatch observations => committed store (observeBulkBatch codec store observations)
  | .updateSnapshotBatch now sessions =>
      committed store ((updateSnapshotBatch codec store now sessions).map ((), ·))
  | .overlayThreadNames updates =>
      committed store ((overlayThreadNames store updates).map ((), ·))
  | .rebuildRollups => store.rebuildRollupsScoped .entireLedger
  | .rebuildRollupsIfStale => store.rebuildRollupsIfStale
  | .reopen => store.reopen

/-- Every call returns. -/
def step (codec : Codec) (store : HistoryStore) (c : StoreCall) : Option HistoryStore :=
  some (store.call codec c)

/-- The ledgers which a new installation reaches through calls that meet a condition. -/
def ReachableVia (codec : Codec) (ok : HistoryStore → StoreCall → Prop) (store : HistoryStore) :
    Prop :=
  Reaches (step codec) ok .empty store

/-- The row which a transcript is reconciled to, as it stands before its content is written. -/
def target (codec : Codec) (store : HistoryStore) (observation : Observation) :
    Option DurableSession :=
  match store.reconcileSession codec (observation.incoming codec) with
  | .ok (key, reconciled) => reconciled.row? key
  | .error _ => none

end HistoryStore

/-- The session which an observation archives in a row. -/
def Observation.archivedIn (observation : Observation) (row : DurableSession) : Session :=
  applyProjectIdentity row observation.project (observation.archived row.sessionKey)

namespace HistoryStore

variable {codec : Codec} {store store' : HistoryStore} {maintainRollups : Bool}
  {observation : Observation} {observed : Observed}

/-- A property of every stored content. -/
def AllContents (store : HistoryStore) (P : String → SessionContent → Prop) : Prop :=
  ∀ key content, (key, content) ∈ store.contents → P key content

section Invariant

variable {P Q : String → SessionContent → Prop}

theorem AllContents.imp (h : store.AllContents P)
    (himp : ∀ key content, P key content → Q key content) :
    store.AllContents Q :=
  fun key content hmem ↦ himp key content (h key content hmem)

theorem allContents_empty : HistoryStore.empty.AllContents P := by
  intro key content hmem
  cases hmem

theorem forall_mem_setContent {contents : List (String × SessionContent)} {key : String}
    {content : SessionContent} (h : ∀ k c, (k, c) ∈ contents → P k c)
    (hcontent : P key content) :
    ∀ k c, (k, c) ∈ setContent key content contents → P k c := by
  intro k c hmem
  obtain ⟨⟨k', c'⟩, hmem', heq⟩ := List.mem_map.mp hmem
  split at heq
  · next hk =>
    cases heq
    rw [show k' = key from hk]
    exact hcontent
  · cases heq
    exact h k c hmem'

/-- The content which a successful observation writes, and where. -/
theorem observeOne_target
    (h : observeOne codec maintainRollups store observation = .ok (observed, store')) :
    ∃ row, store.target codec observation = some row ∧ row.sessionKey = observed.key ∧
      observed.rollupsDeferred = (!maintainRollups &&
        storesSnapshot codec .source (observation.archivedIn row) row.content) ∧
      ((store'.rollupsStale = (store.rollupsStale || observed.rollupsDeferred)) ∧
        (store'.rollupsPending = if observed.rollupsDeferred then
          store.rollupsPending.insert observed.key else store.rollupsPending)) ∧
      ∃ base, (observed.key, row.content) ∈ base ∧
        (base = store.contents ∨ base = store.contents ++ [(observed.key, .fresh)]) ∧
        store'.contents = HistoryStore.setContent observed.key
          (observedContent codec maintainRollups observation.session (observation.archivedIn row)
            row.content) base := by
  obtain ⟨-, -, key, reconciled, row, artifactKey, content, factsChanged, hreconcile, hrow, -, -,
    hcontent, rfl, rfl⟩ := observeOne_eq_ok.mp h
  have hkey : row.sessionKey = key := Table.key_of_lookup hrow
  obtain ⟨hchanged, -, rfl⟩ := observeContent_eq_ok.mp hcontent
  obtain ⟨choice, -, hchoice, happly⟩ := reconcileSession_eq_ok.mp hreconcile
  obtain ⟨hstale, hpending⟩ := rollupMarkers_applyReconciliation happly
  have htarget : store.target codec observation = some row := by
    unfold target
    rw [hreconcile]
    exact hrow
  have harchived : observation.archivedIn row =
      applyProjectIdentity row observation.project (observation.archived key) := by
    rw [← hkey]
    rfl
  refine ⟨row, htarget, hkey, ?_, ?_, reconciled.contents, mem_contents_of_row? hrow, ?_, ?_⟩
  · rw [harchived, hchanged]
  · rw [← hstale, ← hpending, ← hkey]
    exact rollupMarkers_recordObservation observation row artifactKey _ _ _
  · rw [← hchoice]
    obtain hbase | ⟨hbase, -⟩ := contents_applyReconciliation happly
    · exact .inl hbase
    · exact .inr hbase
  · rw [contents_recordObservation, hkey, harchived]

/-- A property of every content survives an observation which keeps it of the content it
writes. -/
theorem AllContents.observeOne
    (h : observeOne codec maintainRollups store observation = .ok (observed, store'))
    (hstore : store.AllContents P) (hfresh : ∀ key, P key .fresh)
    (hwrite : ∀ row, store.target codec observation = some row → P row.sessionKey row.content →
      P row.sessionKey (observedContent codec maintainRollups observation.session
        (observation.archivedIn row) row.content)) :
    store'.AllContents P := by
  obtain ⟨row, htarget, hkey, -, -, base, hmem, hbase, hcontents⟩ := observeOne_target h
  have hP : ∀ k c, (k, c) ∈ base → P k c := by
    intro k c hkc
    obtain rfl | rfl := hbase
    · exact hstore k c hkc
    · rw [List.mem_append, List.mem_singleton] at hkc
      obtain hkc | hkc := hkc
      · exact hstore k c hkc
      · cases hkc
        exact hfresh _
  unfold AllContents
  rw [hcontents]
  apply forall_mem_setContent hP
  rw [← hkey]
  apply hwrite row htarget
  rw [hkey]
  exact hP _ _ hmem

/-- A property of every content survives the overlay of a session which keeps it of the content
it writes. -/
theorem AllContents.updateSnapshot {session : Session} {now : Int}
    {project : Option ProjectIdentity}
    (h : updateSnapshot codec store session now project = .ok store')
    (hstore : store.AllContents P)
    (hwrite : ∀ row, store.row? (effectiveStorageId session) = some row →
      P row.sessionKey row.content → P row.sessionKey (overlayContent codec
        (overlaidSession row project session) row.content)) :
    store'.AllContents P := by
  unfold HistoryStore.updateSnapshot at h
  simp only [bind_eq_ok, requireRow_eq_ok, pure, Except.pure, Except.ok.injEq] at h
  obtain ⟨row, hrow, rfl⟩ := h
  have hkey : row.sessionKey = effectiveStorageId session := Table.key_of_lookup hrow
  unfold AllContents
  have hcontents : (store.updateRow row.sessionKey (overlaidRow project session now
      (overlayContent codec (overlaidSession row project session) row.content))).contents =
        HistoryStore.setContent row.sessionKey
          (overlayContent codec (overlaidSession row project session) row.content)
          store.contents :=
    contents_updateRow_content (fun row ↦ sessionKey_recordProject row _ _) fun _ ↦ rfl
  rw [← hkey, hcontents]
  apply forall_mem_setContent hstore
  apply hwrite row hrow
  rw [hkey]
  exact hstore _ _ (mem_contents_of_row? hrow)

/-- A property of every content survives thread-name overlays which keep it. -/
theorem AllContents.overlayThreadNames {updates : List (String × Option String)}
    (h : overlayThreadNames store updates = .ok store') (hstore : store.AllContents P)
    (hwrite : ∀ key threadName content, P key content →
      P key (overlayThreadName threadName content)) :
    store'.AllContents P := by
  induction updates generalizing store with
  | nil =>
    cases h
    exact hstore
  | cons update rest ih =>
    obtain ⟨key, threadName⟩ := update
    simp only [HistoryStore.overlayThreadNames, bind_eq_ok] at h
    obtain ⟨_, -, h⟩ := h
    apply ih h
    intro k c hmem
    unfold contents updateRow Table.update Table.updateWhere at hmem
    rw [List.map_map] at hmem
    obtain ⟨row, hrow, heq⟩ := List.mem_map.mp hmem
    have hP : P row.sessionKey row.content := hstore _ _ (List.mem_map_of_mem hrow)
    simp only [Function.comp_apply] at heq
    split at heq
    · cases heq
      exact hwrite _ threadName _ hP
    · cases heq
      exact hP

/-- A rebuild recomputes the rollup rows of the sessions it covers. -/
theorem contents_rebuildRollupsIn (scope : RollupScope) :
    (store.rebuildRollupsIn scope).contents = store.contents.map fun entry ↦
      (entry.1, if store.covers scope entry.1 then rebuildContent entry.2 else entry.2) := by
  unfold HistoryStore.rebuildRollupsIn contents Table.updateWhere
  rw [List.map_map, List.map_map]
  apply List.map_congr_left
  intro row _
  simp only [Function.comp_apply]
  split <;> rfl

end Invariant

/-! ### Overlays and the rollup markers -/

theorem rollupMarkers_updateSnapshot {session : Session} {now : Int}
    {project : Option ProjectIdentity}
    (h : updateSnapshot codec store session now project = .ok store') :
    store'.rollupsStale = store.rollupsStale ∧
      store'.rollupsPending = store.rollupsPending := by
  unfold updateSnapshot at h
  simp only [bind_eq_ok, pure, Except.pure, Except.ok.injEq] at h
  obtain ⟨row, -, rfl⟩ := h
  exact ⟨rfl, rfl⟩

theorem rollupMarkers_overlayThreadNames {updates : List (String × Option String)}
    (h : overlayThreadNames store updates = .ok store') :
    store'.rollupsStale = store.rollupsStale ∧
      store'.rollupsPending = store.rollupsPending := by
  induction updates generalizing store with
  | nil =>
    cases h
    exact ⟨rfl, rfl⟩
  | cons update rest ih =>
    obtain ⟨key, threadName⟩ := update
    simp only [overlayThreadNames, bind_eq_ok] at h
    obtain ⟨_, -, h⟩ := h
    obtain ⟨hstale, hpending⟩ := ih h
    exact ⟨hstale, hpending⟩

/-! ### Batches -/

section Batch

variable {inv : HistoryStore → Prop}

/-- Every observation of a batch meets a condition in the state it is processed in. -/
def EachObserved (codec : Codec) (ok : HistoryStore → Observation → Prop) :
    HistoryStore → List Observation → Prop
  | _, [] => True
  | store, observation :: rest =>
      ok store observation ∧ ∀ observed store',
        observeOne codec false store observation = .ok (observed, store') →
          EachObserved codec ok store' rest

theorem eachObserved_of_forall {ok : HistoryStore → Observation → Prop}
    (hok : ∀ store observation, ok store observation) (store : HistoryStore)
    (observations : List Observation) : EachObserved codec ok store observations := by
  induction observations generalizing store with
  | nil => trivial
  | cons observation rest ih => exact ⟨hok store observation, fun _ store' _ ↦ ih store'⟩

/-- What each observation preserves, a batch preserves. -/
theorem observeBulkBatch_invariant {ok : HistoryStore → Observation → Prop}
    {observations : List Observation} {written : List Observed}
    (hstep : ∀ store observation observed store', inv store → ok store observation →
      observeOne codec false store observation = .ok (observed, store') → inv store')
    (h : observeBulkBatch codec store observations = .ok (written, store'))
    (hok : EachObserved codec ok store observations) (hstore : inv store) : inv store' := by
  induction observations generalizing store written with
  | nil =>
    cases h
    exact hstore
  | cons observation rest ih =>
    simp only [observeBulkBatch, bind_eq_ok, Prod.exists, pure, Except.pure, Except.ok.injEq,
      Prod.mk.injEq] at h
    obtain ⟨observed, middle, hobserve, written', final, hrest, -, rfl⟩ := h
    have hmiddle : inv middle := hstep store observation observed middle hstore hok.1 hobserve
    exact ih hrest (hok.2 observed middle hobserve) hmiddle

/-- Every overlay of a batch meets a condition in the state it is processed in. -/
def EachUpdated (codec : Codec) (now : Int)
    (ok : HistoryStore → Session → Option ProjectIdentity → Prop) :
    HistoryStore → List (Session × Option ProjectIdentity) → Prop
  | _, [] => True
  | store, (session, project) :: rest =>
      ok store session project ∧ ∀ store',
        updateSnapshot codec store session now project = .ok store' →
          EachUpdated codec now ok store' rest

theorem eachUpdated_of_forall {now : Int}
    {ok : HistoryStore → Session → Option ProjectIdentity → Prop}
    (hok : ∀ store session project, ok store session project) (store : HistoryStore)
    (sessions : List (Session × Option ProjectIdentity)) :
    EachUpdated codec now ok store sessions := by
  induction sessions generalizing store with
  | nil => trivial
  | cons update rest ih => exact ⟨hok store update.1 update.2, fun store' _ ↦ ih store'⟩

/-- What each overlay preserves, a batch preserves. -/
theorem updateSnapshotBatch_invariant
    {ok : HistoryStore → Session → Option ProjectIdentity → Prop} {now : Int}
    {sessions : List (Session × Option ProjectIdentity)}
    (hstep : ∀ store session project store', inv store → ok store session project →
      updateSnapshot codec store session now project = .ok store' → inv store')
    (h : updateSnapshotBatch codec store now sessions = .ok store')
    (hok : EachUpdated codec now ok store sessions) (hstore : inv store) : inv store' := by
  induction sessions generalizing store with
  | nil =>
    cases h
    exact hstore
  | cons update rest ih =>
    obtain ⟨session, project⟩ := update
    simp only [updateSnapshotBatch, bind_eq_ok] at h
    obtain ⟨middle, hupdate, hrest⟩ := h
    have hmiddle : inv middle := hstep store session project middle hstore hok.1 hupdate
    exact ih hrest (hok.2 middle hupdate) hmiddle

end Batch

theorem of_map_pair {result : Except LedgerError HistoryStore} {u : Unit}
    (h : result.map ((), ·) = .ok (u, store')) : result = .ok store' := by
  cases result with
  | error e => cases h
  | ok s => cases h; rfl

/-- A committed transaction leaves what its success and its failure both leave. -/
theorem committed_invariant {α : Type} {inv : HistoryStore → Prop}
    {result : Except LedgerError (α × HistoryStore)} (hstore : inv store)
    (hok : ∀ a store', result = .ok (a, store') → inv store') : inv (committed store result) := by
  cases result with
  | error e => exact hstore
  | ok r => exact hok r.1 r.2 rfl

end HistoryStore

/-! ### A small transcript -/

/-- The stable hash of the source, and snapshots written by what the samples differ in. -/
def sampleCodec : Codec where
  stableHash := stableHash
  encode session := String.intercalate unitSeparator
    [session.storageId, session.filePath, lineageText session.tokensHistory]

/-- A token event of five tokens at the epoch. -/
def sampleEvent (totalTokens : Nat) : TokenHistoryPoint :=
  ⟨.epoch, some "gpt-5", none, none, totalTokens, ⟨5, 0, 0, 0, 0, 5⟩⟩

/-- A transcript of one thread. -/
def sampleSession (events : List TokenHistoryPoint) : Session :=
  { Session.blank .codex "thread" .epoch with tokensHistory := events }

/-- The observation of a transcript. -/
def sampleObservation (session : Session) : Observation where
  path := "rollout.jsonl"
  session := session
  generation := 1
  now := 0
  project := none

/-- A ledger which observed two different events. -/
def HistoryStore.observedTwoEvents : HistoryStore :=
  HistoryStore.empty.call sampleCodec
    (.observe (sampleObservation (sampleSession [sampleEvent 5, sampleEvent 10])))

end AgentOdometer.Ledger
