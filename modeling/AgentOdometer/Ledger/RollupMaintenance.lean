import AgentOdometer.Ledger.Calls

/-!
# Incremental rollup maintenance

The rollup rows which the write path adds, compared with those which
`rebuild_rollups_in_transaction` recomputes from the facts. The tool tables are replaced and
always agree. The token table is added to for every event of the unstored suffix, also for
one whose insert meets `ON CONFLICT` (`history_store.rs:5463–5464,5507–5520`).
-/

namespace AgentOdometer.Ledger

open GroupBy Telemetry Transition

/-! ### Tool tables -/

private theorem addEntries_cons {κ μ : Type} [Ord κ] [Std.TransOrd κ] [AddCommMonoid μ]
    (m : Std.ExtTreeMap κ μ) (e : κ × μ) (l : List (κ × μ)) :
    addEntries m (e :: l) = addEntries (updateEntry m e.1 0 (· + e.2)) l :=
  rfl

/-- The token rows are not touched by the loop over the observations. -/
theorem tokens_foldl_accumulateRollups (rollups : Rollups) (items : List ToolObservation) :
    (items.foldl accumulateRollups rollups).tokens = rollups.tokens := by
  induction items generalizing rollups with
  | nil => rfl
  | cons item items ih => exact ih (accumulateRollups rollups item)

/-- The loop adds the tool entries which the rebuild groups. -/
theorem tools_foldl_accumulateRollups (rollups : Rollups) (items : List ToolObservation) :
    (items.foldl accumulateRollups rollups).tools =
      addEntries rollups.tools (toolEntries (items.map ToolFact.ofObservation)) := by
  induction items generalizing rollups with
  | nil => rfl
  | cons item items ih =>
    have hentries : toolEntries ((item :: items).map ToolFact.ofObservation) =
        ((hourBucket item.timestamp.timestampMillis, keySentinel item.model),
          observationCounters item) :: toolEntries (items.map ToolFact.ofObservation) := by
      unfold toolEntries
      rw [List.map_cons, List.map_cons, counters_ofObservation]
      rfl
    have hstep : (accumulateObservation · item) = (· + observationCounters item) := by
      funext counters
      exact accumulateObservation_eq_add counters item
    rw [List.foldl_cons, ih, hentries, addEntries_cons, ← hstep]
    rfl

/-- The loop adds the chain entries which the rebuild groups. -/
theorem chains_foldl_accumulateRollups (rollups : Rollups) (items : List ToolObservation) :
    (items.foldl accumulateRollups rollups).chains =
      addEntries rollups.chains (chainFactEntries (items.map ToolFact.ofObservation)) := by
  induction items generalizing rollups with
  | nil => rfl
  | cons item items ih =>
    have hstep : (accumulateRollups rollups item).chains =
        if item.kind = .mutation then
          updateEntry rollups.chains (ToolFact.ofObservation item).chainKey 0 (· + 1)
        else rollups.chains := rfl
    rw [List.foldl_cons, ih, hstep]
    unfold chainFactEntries
    by_cases hkind : item.kind = .mutation
    · have hrow : (ToolFact.ofObservation item).kind = .mutation := hkind
      rw [if_pos hkind, List.map_cons, List.filter_cons, if_pos (decide_eq_true hrow),
        List.map_cons, addEntries_cons]
    · have hrow : ¬ (ToolFact.ofObservation item).kind = .mutation := hkind
      rw [if_neg hkind, List.map_cons, List.filter_cons_of_neg (by simp [hrow])]

private theorem dimensionFactEntries_ofObservation (item : ToolObservation) :
    dimensionFactEntries (DimensionFact.ofObservation item) = (dimensionKeys item).map fun key ↦
      ((hourBucket item.timestamp.timestampMillis, key.1, key.2),
        accumulateDimensionCall 0 item.outcome item.outputBytes item.durationMs) := by
  unfold dimensionFactEntries DimensionFact.ofObservation
  rw [List.map_map]
  apply List.map_congr_left
  intro key _
  simp only [Function.comp_apply, DimensionFact.counters_eq]
  rfl

/-- The loop adds the dimension entries which the rebuild groups. -/
theorem dimensions_foldl_accumulateRollups (rollups : Rollups) (items : List ToolObservation) :
    (items.foldl accumulateRollups rollups).dimensions =
      addEntries rollups.dimensions
        (dimensionFactEntries (items.flatMap DimensionFact.ofObservation)) := by
  induction items generalizing rollups with
  | nil => rfl
  | cons item items ih =>
    have hentries : dimensionFactEntries ((item :: items).flatMap DimensionFact.ofObservation) =
        dimensionFactEntries (DimensionFact.ofObservation item) ++
          dimensionFactEntries (items.flatMap DimensionFact.ofObservation) := by
      unfold dimensionFactEntries
      rw [List.flatMap_cons, List.map_append]
    have hstep : (accumulateRollups rollups item).dimensions =
        addEntries rollups.dimensions
          (dimensionFactEntries (DimensionFact.ofObservation item)) := by
      rw [dimensionFactEntries_ofObservation]
      exact foldl_updateEntry_eq_addEntries
        (fun s _ ↦ accumulateDimensionCall_eq_add s item.outcome item.outputBytes item.durationMs)
        rollups.dimensions (dimensionKeys item)
    rw [List.foldl_cons, ih, hstep, hentries]
    exact (groupFold_append _ _ _).symm

/-- The replaced tool tables are those of a rebuild from the replaced facts. -/
theorem replaceToolRollups_eq (rollups : Rollups) (items : List ToolObservation) :
    replaceToolRollups rollups items =
      { tokens := rollups.tokens
        tools := groupSum (toolEntries (items.map ToolFact.ofObservation))
        chains := groupSum (chainFactEntries (items.map ToolFact.ofObservation))
        dimensions :=
          groupSum (dimensionFactEntries (items.flatMap DimensionFact.ofObservation)) } := by
  unfold replaceToolRollups
  apply Rollups.ext
  · exact tokens_foldl_accumulateRollups _ items
  · exact tools_foldl_accumulateRollups _ items
  · exact chains_foldl_accumulateRollups _ items
  · exact dimensions_foldl_accumulateRollups _ items

/-! ### The token table -/

/-- The suffix rows whose insert meets a stored row. -/
def conflictingRows (codec : Codec) (events : List TokenHistoryPoint) (stored : List TokenFact) :
    List TokenFact :=
  Table.merged TokenFact.eventKey (stored.map TokenFact.eventKey) (suffixRows codec events stored)

/-- The suffix rows which are inserted. -/
def insertedRows (codec : Codec) (events : List TokenHistoryPoint) (stored : List TokenFact) :
    List TokenFact :=
  Table.inserted TokenFact.eventKey (stored.map TokenFact.eventKey)
    (suffixRows codec events stored)

/-- Every event whose insert meets a stored row has no tokens, and a stored or inserted row is in
its rollup group. -/
def ConflictsAddNothing (codec : Codec) (events : List TokenHistoryPoint)
    (stored : List TokenFact) : Prop :=
  ∀ row ∈ conflictingRows codec events stored, row.delta = 0 ∧
    ∃ fact ∈ stored ++ insertedRows codec events stored, fact.rollupKey = row.rollupKey

instance (codec : Codec) (events : List TokenHistoryPoint) (stored : List TokenFact) :
    Decidable (ConflictsAddNothing codec events stored) :=
  inferInstanceAs (Decidable (∀ row ∈ conflictingRows codec events stored, row.delta = 0 ∧
    ∃ fact ∈ stored ++ insertedRows codec events stored, fact.rollupKey = row.rollupKey))

/-- Backfilling changes request inputs only. -/
theorem map_backfill {γ : Type} {g : TokenFact → γ}
    (hg : ∀ fact requestInputTokens, g { fact with requestInputTokens } = g fact) (codec : Codec)
    (events : List TokenHistoryPoint) (tokens : List TokenFact) :
    (backfill codec events tokens).map g = tokens.map g := by
  have hevent : ∀ tokens event, (backfillEvent codec tokens event).map g = tokens.map g := by
    intro tokens event
    unfold backfillEvent Table.updateWhere
    split
    · rfl
    · rw [List.map_map]
      apply List.map_congr_left
      intro fact _
      simp only [Function.comp_apply]
      split
      · exact hg fact _
      · rfl
  have hevents : ∀ tokens, (events.foldl (backfillEvent codec) tokens).map g = tokens.map g := by
    induction events with
    | nil => exact fun _ ↦ rfl
    | cons event events ih =>
      intro tokens
      rw [List.foldl_cons, ih, hevent]
  unfold backfill
  split
  · exact hevents tokens
  · rfl

/-- A column without the request input: the stored rows and the inserted ones. -/
theorem map_tokens_factsAfter {γ : Type} {g : TokenFact → γ}
    (hg : ∀ fact requestInputTokens, g { fact with requestInputTokens } = g fact) (codec : Codec)
    (session : Session) (stored : List TokenFact) :
    (factsAfter codec session stored).tokens.map g =
      stored.map g ++ (insertedRows codec session.tokensHistory stored).map g := by
  have hmerge : ∀ new old, g (coalesceRequestInput new old) = g old := fun new old ↦ hg old _
  have hkey : ∀ new old, (coalesceRequestInput new old).eventKey = old.eventKey :=
    fun _ _ ↦ rfl
  unfold factsAfter insertTokenFact insertedRows
  simp only
  rw [Table.map_foldl_upsert g hmerge hkey]
  unfold backfilledRows
  rw [map_backfill hg, map_backfill fun _ _ ↦ rfl]

/-- The rollup entries after a write are those of the stored rows and of the inserted ones. -/
theorem tokenEntries_factsAfter (codec : Codec) (session : Session) (stored : List TokenFact) :
    tokenEntries (factsAfter codec session stored).tokens =
      tokenEntries (stored ++ insertedRows codec session.tokensHistory stored) := by
  unfold tokenEntries
  rw [List.map_append]
  exact map_tokens_factsAfter (fun _ _ ↦ rfl) codec session stored

private theorem eq_zero_of_add_eq_self {a b : TokenTotals} (h : a + b = a) : b = 0 := by
  have hfields := TokenTotals.mk.inj h
  simp only [Nat.add_eq_left] at hfields
  obtain ⟨hinput, hcached, hcreation, houtput, hreasoning, htotal⟩ := hfields
  exact TokenTotals.ext hinput hcached hcreation houtput hreasoning htotal

private theorem suffixRows_perm (codec : Codec) (events : List TokenHistoryPoint)
    (stored : List TokenFact) : (suffixRows codec events stored).Perm
      (insertedRows codec events stored ++ conflictingRows codec events stored) := by
  have hperm : (Table.inserted TokenFact.eventKey (stored.map TokenFact.eventKey)
      (suffixRows codec events stored) ++ Table.merged TokenFact.eventKey
        (stored.map TokenFact.eventKey) (suffixRows codec events stored)).Perm
      (suffixRows codec events stored) := Table.inserted_append_merged_perm
  exact hperm.symm

section

variable {codec : Codec} {session : Session} {content : SessionContent}

/-- The incremental token rows are those of a rebuild with the conflicting events added once
more. -/
theorem tokens_rollupsAfter (h : content.rollups = rebuildRollups content.facts) :
    (rollupsAfter codec session content).tokens =
      addEntries (rebuildRollups (factsAfter codec session content.facts.tokens)).tokens
        (tokenEntries (conflictingRows codec session.tokensHistory content.facts.tokens)) := by
  have hperm : (tokenEntries content.facts.tokens ++
      tokenEntries (suffixRows codec session.tokensHistory content.facts.tokens)).Perm
      (tokenEntries (content.facts.tokens ++
        insertedRows codec session.tokensHistory content.facts.tokens) ++
          tokenEntries (conflictingRows codec session.tokensHistory content.facts.tokens)) := by
    unfold tokenEntries
    rw [List.map_append, List.append_assoc]
    apply List.Perm.append_left
    rw [← List.map_append]
    exact (suffixRows_perm codec session.tokensHistory content.facts.tokens).map _
  have hrebuild : (rebuildRollups (factsAfter codec session content.facts.tokens)).tokens =
      groupSum (tokenEntries (content.facts.tokens ++
        insertedRows codec session.tokensHistory content.facts.tokens)) :=
    congrArg groupSum (tokenEntries_factsAfter codec session content.facts.tokens)
  unfold rollupsAfter
  rw [replaceToolRollups_eq, hrebuild, h, ← groupSum_append]
  exact (groupSum_append _ _).symm.trans (groupSum_perm hperm)

/-- The replaced tool tables agree, so the rollups agree when their token rows do. -/
theorem rollupsAfter_eq_iff : rollupsAfter codec session content =
      rebuildRollups (factsAfter codec session content.facts.tokens) ↔
    (rollupsAfter codec session content).tokens =
      (rebuildRollups (factsAfter codec session content.facts.tokens)).tokens := by
  constructor
  · exact congrArg Rollups.tokens
  · intro htokens
    unfold rollupsAfter at htokens ⊢
    rw [replaceToolRollups_eq] at htokens ⊢
    exact Rollups.ext htokens rfl rfl rfl

/-- The incremental rollup rows are those of a rebuild exactly when the conflicting events add
nothing. -/
theorem rollupsAfter_eq_rebuild_iff (h : content.rollups = rebuildRollups content.facts) :
    rollupsAfter codec session content =
        rebuildRollups (factsAfter codec session content.facts.tokens) ↔
      ConflictsAddNothing codec session.tokensHistory content.facts.tokens := by
  have hgroup : ∀ key, ((rebuildRollups (factsAfter codec session
      content.facts.tokens)).tokens[key]?).isSome ↔
        ∃ fact ∈ content.facts.tokens ++
          insertedRows codec session.tokensHistory content.facts.tokens,
          fact.rollupKey = key := by
    intro key
    unfold rebuildRollups
    rw [tokenEntries_factsAfter]
    simp only [isSome_getElem?_groupSum]
    unfold tokenEntries
    simp only [List.mem_map, exists_exists_and_eq_and]
  rw [rollupsAfter_eq_iff, tokens_rollupsAfter h, addEntries_eq_self_iff
    (fun _ _ ↦ eq_zero_of_add_eq_self) fun _ _ ↦ TokenTotals.add_eq_zero_iff.mp]
  simp only [hgroup]
  unfold ConflictsAddNothing tokenEntries
  exact List.forall_mem_map

end

/-! ### Observations -/

section

variable {codec : Codec} {session archived : Session} {content : SessionContent}

/-- The rollup rows of a content are those of a rebuild. -/
def SessionContent.RollupsAgree (content : SessionContent) : Prop :=
  content.rollups = rebuildRollups content.facts

theorem SessionContent.rollupsAgree_fresh : SessionContent.fresh.RollupsAgree :=
  rfl

theorem SessionContent.rollupsAgree_rebuildContent (content : SessionContent) :
    (rebuildContent content).RollupsAgree :=
  rfl

/-- A maintaining observation keeps the rollup rows exactly when it writes no facts, or its
conflicting events add nothing. -/
theorem rollupsAgree_observedContent_iff (h : content.RollupsAgree) :
    (observedContent codec true session archived content).RollupsAgree ↔
      (storesSnapshot codec .source archived content →
        ConflictsAddNothing codec session.tokensHistory content.facts.tokens) := by
  unfold observedContent
  cases hstores : storesSnapshot codec .source archived content with
  | false =>
    constructor
    · intro _ hfalse
      exact absurd hfalse Bool.false_ne_true
    · intro _
      exact h
  | true =>
    have hnext : (nextSnapshot codec archived content).rollups =
        rebuildRollups (nextSnapshot codec archived content).facts := h
    constructor
    · intro hagree _
      exact (rollupsAfter_eq_rebuild_iff hnext).mp hagree
    · intro hconflicts
      exact (rollupsAfter_eq_rebuild_iff hnext).mpr (hconflicts rfl)

/-- A bulk observation leaves the rollup rows as they are, and the facts too unless it defers. -/
theorem rollupsAgree_observedContent_bulk (h : content.RollupsAgree)
    (hstores : storesSnapshot codec .source archived content = false) :
    (observedContent codec false session archived content).RollupsAgree := by
  unfold observedContent
  rw [hstores]
  exact h

end

/-! ### Runs -/

namespace HistoryStore

variable {codec : Codec} {store store' : HistoryStore}

/-- The rollups of a session are deferred, or are those of a rebuild. -/
def RollupsAccounted (pending : List String) (key : String) (content : SessionContent) : Prop :=
  key ∈ pending ∨ content.RollupsAgree

/-- Every session whose rollups are not deferred has the rollup rows of a rebuild, and only a
marked ledger has deferred rollups. -/
structure RollupsSound (store : HistoryStore) : Prop where
  agree : store.AllContents (RollupsAccounted store.rollupsPending)
  marked : store.rollupsStale = false → store.rollupsPending = []

/-- An observation which maintains rollups writes no facts, or its conflicting events add
nothing, unless the rollups of its session are deferred already. -/
def ObservationAddsOnce (codec : Codec) (store : HistoryStore) (observation : Observation) :
    Prop :=
  ∀ observed store', observeOne codec true store observation = .ok (observed, store') →
    ∀ row, store.target codec observation = some row → row.sessionKey ∉ store.rollupsPending →
      storesSnapshot codec .source (observation.archivedIn row) row.content →
        ConflictsAddNothing codec observation.session.tokensHistory row.content.facts.tokens

/-- Only `observe` can add an event's tokens to the rollups a second time. -/
def AddsOnce (codec : Codec) (store : HistoryStore) : StoreCall → Prop
  | .observe observation => store.ObservationAddsOnce codec observation
  | _ => True

theorem rollupsSound_empty : HistoryStore.empty.RollupsSound where
  agree := allContents_empty
  marked := fun _ ↦ rfl

theorem mem_pending_observeOne {maintainRollups : Bool} {observation : Observation}
    {observed : Observed}
    (hobserve : observeOne codec maintainRollups store observation = .ok (observed, store')) :
    (∀ key ∈ store.rollupsPending, key ∈ store'.rollupsPending) ∧
      (observed.rollupsDeferred = true → observed.key ∈ store'.rollupsPending) := by
  obtain ⟨row, -, -, -, ⟨-, hpending⟩, -⟩ := observeOne_target hobserve
  rw [hpending]
  cases observed.rollupsDeferred with
  | false => exact ⟨fun key hkey ↦ hkey, fun h ↦ absurd h Bool.false_ne_true⟩
  | true => exact ⟨fun key hkey ↦ List.mem_insert_of_mem hkey, fun _ ↦ List.mem_insert_self⟩

/-- One observation keeps the rollups sound. -/
theorem RollupsSound.observeOne {maintainRollups : Bool} {observation : Observation}
    {observed : Observed} (hsound : store.RollupsSound)
    (hobserve : observeOne codec maintainRollups store observation = .ok (observed, store'))
    (honce : maintainRollups = true → store.ObservationAddsOnce codec observation) :
    store'.RollupsSound := by
  obtain ⟨hkept, hdeferred⟩ := mem_pending_observeOne hobserve
  obtain ⟨target, htarget, htargetKey, hflag, ⟨hstale, hpending⟩, -⟩ := observeOne_target hobserve
  constructor
  · refine AllContents.observeOne hobserve ?_ ?_ ?_
    · refine AllContents.imp hsound.agree ?_
      intro key content h
      exact h.imp_left (hkept key)
    · exact fun key ↦ .inr SessionContent.rollupsAgree_fresh
    · intro row hrow hagree
      have hsame : target = row := Option.some.inj (htarget.symm.trans hrow)
      subst hsame
      obtain hmem | hagree := hagree
      · exact .inl hmem
      · by_cases hmem : target.sessionKey ∈ store'.rollupsPending
        · exact .inl hmem
        · right
          cases maintainRollups with
          | true =>
            apply (rollupsAgree_observedContent_iff hagree).mpr
            intro hstores
            exact honce rfl observed store' hobserve target hrow
              (fun h ↦ hmem (hkept _ h)) hstores
          | false =>
            apply rollupsAgree_observedContent_bulk hagree
            rw [Bool.not_false, Bool.true_and] at hflag
            rw [← hflag]
            by_contra hdefer
            rw [Bool.not_eq_false] at hdefer
            exact hmem (htargetKey ▸ hdeferred hdefer)
  · intro hclear
    rw [hstale, Bool.or_eq_false_iff] at hclear
    rw [hpending, hclear.2]
    exact hsound.marked hclear.1

theorem RollupsSound.observeBulkBatch {observations : List Observation}
    {written : List Observed} (hsound : store.RollupsSound)
    (hbatch : observeBulkBatch codec store observations = .ok (written, store')) :
    store'.RollupsSound := by
  have heach : EachObserved codec (fun _ _ ↦ True) store observations :=
    eachObserved_of_forall (fun _ _ ↦ trivial) store observations
  refine observeBulkBatch_invariant ?_ hbatch heach hsound
  intro store observation observed store' hstore _ hobserve
  exact hstore.observeOne hobserve fun h ↦ absurd h Bool.false_ne_true

/-- An overlay writes neither facts nor rollups. -/
theorem RollupsSound.updateSnapshot {session : Session} {now : Int}
    {project : Option ProjectIdentity} (hsound : store.RollupsSound)
    (hupdate : updateSnapshot codec store session now project = .ok store') :
    store'.RollupsSound := by
  obtain ⟨hstale, hpending⟩ := rollupMarkers_updateSnapshot hupdate
  constructor
  · rw [hpending]
    refine AllContents.updateSnapshot hupdate hsound.agree ?_
    intro row _ h
    apply h.imp_right
    intro hagree
    unfold overlayContent storeSnapshot
    split
    · exact hagree
    · exact hagree
  · rw [hstale, hpending]
    exact hsound.marked

theorem RollupsSound.updateSnapshotBatch {now : Int}
    {sessions : List (Session × Option ProjectIdentity)} (hsound : store.RollupsSound)
    (hbatch : updateSnapshotBatch codec store now sessions = .ok store') :
    store'.RollupsSound := by
  have heach : EachUpdated codec now (fun _ _ _ ↦ True) store sessions :=
    eachUpdated_of_forall (fun _ _ _ ↦ trivial) store sessions
  refine updateSnapshotBatch_invariant ?_ hbatch heach hsound
  intro store session project store' hstore _ hupdate
  exact hstore.updateSnapshot hupdate

theorem RollupsSound.overlayThreadNames {updates : List (String × Option String)}
    (hsound : store.RollupsSound) (hoverlay : overlayThreadNames store updates = .ok store') :
    store'.RollupsSound := by
  obtain ⟨hstale, hpending⟩ := rollupMarkers_overlayThreadNames hoverlay
  constructor
  · rw [hpending]
    exact AllContents.overlayThreadNames hoverlay hsound.agree fun _ _ _ h ↦ h
  · rw [hstale, hpending]
    exact hsound.marked

/-- A rebuild of the whole ledger, or of its deferred sessions, agrees everywhere. -/
theorem RollupsSound.rebuildRollupsScoped (hsound : store.RollupsSound) (scope : RollupScope) :
    (store.rebuildRollupsScoped scope).RollupsSound := by
  constructor
  · intro key content hmem
    have hcontents : (store.rebuildRollupsScoped scope).contents =
        (store.rebuildRollupsIn scope).contents := rfl
    rw [hcontents, contents_rebuildRollupsIn] at hmem
    obtain ⟨⟨key', old⟩, hold, heq⟩ := List.mem_map.mp hmem
    cases heq
    right
    split
    · exact SessionContent.rollupsAgree_rebuildContent old
    · next hcovers =>
      cases scope with
      | entireLedger => exact absurd rfl hcovers
      | deferredSessions =>
        obtain hpending | hagree := hsound.agree _ old hold
        · exact absurd (decide_eq_true hpending) hcovers
        · exact hagree
  · intro _
    rfl

/-- One call keeps the rollups sound. -/
theorem RollupsSound.step {c : StoreCall} (hsound : store.RollupsSound)
    (honce : store.AddsOnce codec c) (hstep : step codec store c = some store') :
    store'.RollupsSound := by
  cases hstep
  cases c with
  | observe observation =>
    apply committed_invariant hsound
    intro observed store' hobserve
    exact hsound.observeOne hobserve fun _ ↦ honce
  | observeBulk observation =>
    apply committed_invariant hsound
    intro observed store' hobserve
    exact hsound.observeOne hobserve fun h ↦ absurd h Bool.false_ne_true
  | observeBulkBatch observations =>
    apply committed_invariant hsound
    intro written store' hbatch
    exact hsound.observeBulkBatch hbatch
  | updateSnapshotBatch now sessions =>
    apply committed_invariant hsound
    intro _ store' hbatch
    exact hsound.updateSnapshotBatch (of_map_pair hbatch)
  | overlayThreadNames updates =>
    apply committed_invariant hsound
    intro _ store' hoverlay
    exact hsound.overlayThreadNames (of_map_pair hoverlay)
  | rebuildRollups => exact hsound.rebuildRollupsScoped .entireLedger
  | rebuildRollupsIfStale =>
    show store.rebuildRollupsIfStale.RollupsSound
    unfold rebuildRollupsIfStale
    split
    · exact hsound
    · split
      · exact hsound.rebuildRollupsScoped .entireLedger
      · exact hsound.rebuildRollupsScoped .deferredSessions
  | reopen =>
    show store.reopen.RollupsSound
    unfold reopen
    split
    · exact hsound.rebuildRollupsScoped .entireLedger
    · exact hsound

end HistoryStore

end AgentOdometer.Ledger
