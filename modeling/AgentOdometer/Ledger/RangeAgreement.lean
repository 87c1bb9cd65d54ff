import AgentOdometer.Ledger.RangeQuery

/-!
# The range query agrees with the live session

A session's facts, their rollups and one batch of windows: each window is assembled from the
events of its whole buckets and of its edges, and these are the events of the window unless
the window overruns the epoch.
-/

namespace AgentOdometer.Ledger

open Std (ExtTreeMap)
open GroupBy Telemetry

variable {τ : Type}

/-- Event times from the epoch on, and no empty labels. -/
structure Readable [Timestamp τ] (session : Session τ) : Prop where
  tokenTimes : ∀ event ∈ session.tokensHistory, 0 ≤ Timestamp.timestampMillis event.timestamp
  toolTimes : ∀ item ∈ session.toolObservations, 0 ≤ Timestamp.timestampMillis item.timestamp
  tokenLabels : ∀ event ∈ session.tokensHistory,
    event.model ≠ some "" ∧ event.serviceTier ≠ some ""
  toolLabels : ∀ item ∈ session.toolObservations,
    item.model ≠ some "" ∧ item.turnId ≠ some "" ∧ item.target ≠ some ""

/-- The tables of a session whose facts are stored and grouped. -/
def tablesOf [Timestamp τ] (eventKey : TokenHistoryPoint τ → String) (session : Session τ) :
    SessionTables where
  facts := .ofSession eventKey session
  rollups := rebuildRollups (.ofSession eventKey session)

/-! ### Lists of rows -/

section Rows

variable {α β γ φ : Type}

private theorem map_filter_mapIdx (f : Nat → α → β) (p : β → Bool) (p' : α → Bool) (g : β → γ)
    (g' : α → γ) (hp : ∀ i a, p (f i a) = p' a) (hg : ∀ i a, g (f i a) = g' a) (l : List α) :
    ((l.mapIdx f).filter p).map g = (l.filter p').map g' := by
  induction l generalizing f with
  | nil => rfl
  | cons a l ih =>
    rw [List.mapIdx_cons]
    have htail := ih (fun i ↦ f (i + 1)) (fun i ↦ hp (i + 1)) (fun i ↦ hg (i + 1))
    by_cases ha : p' a = true
    · rw [List.filter_cons_of_pos ((hp 0 a).trans ha), List.filter_cons_of_pos ha,
        List.map_cons, List.map_cons, htail, hg]
    · rw [List.filter_cons_of_neg (by rw [hp]; exact ha), List.filter_cons_of_neg ha, htail]

private theorem filter_flatMap {f : α → List β} {p : β → Bool} (p' : α → Bool)
    (h : ∀ a, ∀ b ∈ f a, p b = p' a) (l : List α) :
    (l.flatMap f).filter p = (l.filter p').flatMap f := by
  induction l with
  | nil => rfl
  | cons a l ih =>
    rw [List.flatMap_cons, List.filter_append, ih]
    by_cases ha : p' a = true
    · have hall : (f a).filter p = f a := by
        rw [List.filter_eq_self]
        intro b hb
        rw [h a b hb, ha]
      rw [List.filter_cons_of_pos ha, List.flatMap_cons, hall]
    · have hnone : (f a).filter p = [] := by
        rw [List.filter_eq_nil_iff]
        intro b hb
        rw [h a b hb]
        exact ha
      rw [List.filter_cons_of_neg ha, hnone, List.nil_append]

private theorem filter_pooled {pooled selected : α → Bool}
    (h : ∀ a, selected a = true → pooled a = true) (l : List α) :
    (l.filter pooled).filter selected = l.filter selected := by
  rw [List.filter_filter]
  apply List.filter_congr
  intro a _
  cases hs : selected a with
  | false => rfl
  | true => rw [h a hs]; rfl

/-- Fetching the pooled edge rows and keeping those of one window reads the window's rows. -/
private theorem edgeRows_perm (factMs : φ → Int) (row : φ → α) (rowMs : α → Int)
    (isEdge : Int → Bool) (edges : List (Int × Int)) (facts : List φ)
    (hms : ∀ fact ∈ facts, rowMs (row fact) = factMs fact)
    (hedges : ∀ fact ∈ facts, isEdge (factMs fact) = true → inRanges edges (factMs fact) = true) :
    (((orderByTimestamp factMs (facts.filter fun fact ↦ inRanges edges (factMs fact))).map
        row).filter fun a ↦ isEdge (rowMs a)).Perm
      ((facts.filter fun fact ↦ isEdge (factMs fact)).map row) := by
  have hsort : ((orderByTimestamp factMs
      (facts.filter fun fact ↦ inRanges edges (factMs fact))).map row).Perm
      ((facts.filter fun fact ↦ inRanges edges (factMs fact)).map row) :=
    (List.perm_insertionSort _ _).map row
  refine (hsort.filter _).trans (List.Perm.of_eq ?_)
  rw [List.filter_map, List.filter_filter]
  congr 1
  apply List.filter_congr
  intro fact hfact
  simp only [Function.comp_apply, hms fact hfact]
  cases hedge : isEdge (factMs fact) with
  | false => rfl
  | true => rw [hedges fact hfact hedge]; rfl

end Rows

/-! ### Pooling -/

private theorem mem_foldl_edges {edge : Int × Int} (new pooled : List (Int × Int)) :
    edge ∈ new.foldl (fun pooled edge ↦
        if edge ∈ pooled then pooled else pooled ++ [edge]) pooled ↔
      edge ∈ pooled ∨ edge ∈ new := by
  induction new generalizing pooled with
  | nil => simp
  | cons a new ih =>
    rw [List.foldl_cons, ih, List.mem_cons]
    split
    · next ha =>
      constructor
      · rintro (h | h)
        · exact Or.inl h
        · exact Or.inr (Or.inr h)
      · rintro (h | rfl | h)
        · exact Or.inl h
        · exact Or.inl ha
        · exact Or.inr h
    · rw [List.mem_append, List.mem_singleton, or_assoc]

/-- The pooled edges are the edges of the plans. -/
theorem mem_poolEdges {edge : Int × Int} {plans : List WindowPlan} :
    edge ∈ poolEdges plans ↔ ∃ plan ∈ plans, edge ∈ plan.edges := by
  have hfold : ∀ pooled : List (Int × Int), edge ∈ plans.foldl (fun pooled plan ↦
      plan.edges.foldl (fun pooled edge ↦
        if edge ∈ pooled then pooled else pooled ++ [edge]) pooled) pooled ↔
      edge ∈ pooled ∨ ∃ plan ∈ plans, edge ∈ plan.edges := by
    induction plans with
    | nil => simp
    | cons plan plans ih =>
      intro pooled
      rw [List.foldl_cons, ih, mem_foldl_edges, or_assoc]
      simp
  unfold poolEdges
  rw [hfold]
  simp

theorem inRanges_of_inBucketRange {plans : List WindowPlan} {plan : WindowPlan}
    (hplan : plan ∈ plans) {bucket : Int} (h : plan.inBucketRange bucket = true) :
    inRanges (plans.filterMap WindowPlan.fullBuckets) bucket = true := by
  unfold WindowPlan.inBucketRange at h
  rw [Option.any_eq_true] at h
  obtain ⟨range, hrange, hin⟩ := h
  unfold inRanges
  rw [List.any_eq_true]
  exact ⟨range, List.mem_filterMap.mpr ⟨plan, hplan, hrange⟩, hin⟩

theorem inRanges_of_edges {plans : List WindowPlan} {plan : WindowPlan} (hplan : plan ∈ plans)
    {ms : Int} (h : plan.edges.any (between ms) = true) :
    inRanges (poolEdges plans) ms = true := by
  rw [List.any_eq_true] at h
  obtain ⟨edge, hedge, hin⟩ := h
  unfold inRanges
  rw [List.any_eq_true]
  exact ⟨edge, mem_poolEdges.mpr ⟨plan, hplan, hedge⟩, hin⟩

/-! ### The events a window is assembled from -/

section Covered

variable {α : Type} {fromMs toMs : Option Int} {ms : α → Int} {l : List α}

/-- Whether an event is counted with its whole bucket. -/
def isWhole (fromMs toMs : Option Int) (ms : Int) : Bool :=
  (planWindow fromMs toMs).inBucketRange (hourBucket ms)

/-- Whether an event is counted on its own. -/
def isEdge (fromMs toMs : Option Int) (ms : Int) : Bool :=
  inWindow fromMs toMs ms && !isWhole fromMs toMs ms

/-- The events of the whole buckets of a window, then those of its edges. -/
def covered (fromMs toMs : Option Int) (ms : α → Int) (l : List α) : List α :=
  l.filter (fun a ↦ isWhole fromMs toMs (ms a)) ++ l.filter fun a ↦ isEdge fromMs toMs (ms a)

/-- The pieces of a window hold each of its events once. -/
theorem covered_perm (hms : ∀ a ∈ l, 0 ≤ ms a) (hordered : ordered fromMs toMs)
    (hsafe : ¬ overrunsEpoch fromMs toMs) :
    (covered fromMs toMs ms l).Perm (l.filter fun a ↦ inWindow fromMs toMs (ms a)) := by
  have hwhole : l.filter (fun a ↦ isWhole fromMs toMs (ms a)) =
      (l.filter fun a ↦ inWindow fromMs toMs (ms a)).filter
        fun a ↦ isWhole fromMs toMs (ms a) := by
    rw [List.filter_filter]
    apply List.filter_congr
    intro a ha
    cases h : isWhole fromMs toMs (ms a) with
    | false => rfl
    | true => rw [inWindow_of_inBucketRange (hms a ha) hordered hsafe h]; rfl
  have hedge : l.filter (fun a ↦ isEdge fromMs toMs (ms a)) =
      (l.filter fun a ↦ inWindow fromMs toMs (ms a)).filter
        fun a ↦ !isWhole fromMs toMs (ms a) := by
    rw [List.filter_filter]
    apply List.filter_congr
    intro a _
    exact Bool.and_comm _ _
  unfold covered
  rw [hwhole, hedge]
  exact List.filter_append_perm _ _

theorem mem_of_mem_covered {a : α} (h : a ∈ covered fromMs toMs ms l) : a ∈ l := by
  obtain h | h := List.mem_append.mp h <;> exact (List.mem_filter.mp h).1

end Covered

/-! ### Reading back what was stored -/

variable [Timestamp τ]

private theorem millis_bounds (t : τ) :
    i64Min ≤ Timestamp.timestampMillis t ∧ Timestamp.timestampMillis t ≤ i64Max := by
  obtain ⟨u, -, heq⟩ := Timestamp.exists_ofMillis? t
  have hlower := u.lower
  have hupper := u.upper
  rw [← heq]
  unfold DateTime.timestampMillis i64Min i64Max minUtcNanos maxUtcNanos at *
  omega

private theorem millis_getD (t : τ) :
    ((DateTime.ofMillis? (Timestamp.timestampMillis t)).getD .epoch).timestampMillis =
      Timestamp.timestampMillis t := by
  obtain ⟨u, hu, heq⟩ := Timestamp.exists_ofMillis? t
  rw [hu, Option.getD_some, heq]

variable {eventKey : TokenHistoryPoint τ → String} {session : Session τ} {fromMs toMs : Option Int}
  {windowMs : List (Option Int × Option Int)} {plans : List WindowPlan}

/-- Milliseconds of a token event. -/
def eventMs (event : TokenHistoryPoint τ) : Int :=
  Timestamp.timestampMillis event.timestamp

/-- Milliseconds of a tool observation. -/
def itemMs (item : ToolObservation τ) : Int :=
  Timestamp.timestampMillis item.timestamp

/-- The rollup entry of a token event. -/
def tokenEntry (event : TokenHistoryPoint τ) : (Int × String × String) × TokenTotals :=
  ((hourBucket (eventMs event), keySentinel event.model, keySentinel event.serviceTier),
    event.delta)

/-- The rollup entry of a tool observation. -/
def toolEntry (item : ToolObservation τ) : (Int × String) × ToolMetrics :=
  ((hourBucket (itemMs item), keySentinel item.model), observationCounters item)

/-- The chain entry of a mutation. -/
def chainEntry (item : ToolObservation τ) : (Int × String × String × String) × Nat :=
  ((hourBucket (itemMs item), keySentinel item.model, chainKey item), 1)

/-- The rollup entries of a tool observation's dimensions. -/
def dimensionRollupEntries (item : ToolObservation τ) :
    List ((Int × String × String) × ToolDimensionMetrics) :=
  (dimensionEntries item).map fun e ↦ ((hourBucket (itemMs item), e.1), e.2)

theorem tokenEntries_ofSession (eventKey : TokenHistoryPoint τ → String) :
    tokenEntries (SessionFacts.ofSession eventKey session).tokens =
      session.tokensHistory.map tokenEntry := by
  have h := map_filter_mapIdx (TokenFact.ofEvent eventKey) (fun _ ↦ true) (fun _ ↦ true)
    (fun fact ↦ (fact.rollupKey, fact.delta)) tokenEntry (fun _ _ ↦ rfl) (fun _ _ ↦ rfl)
    session.tokensHistory
  rw [List.filter_true, List.filter_true] at h
  exact h

theorem toolEntries_ofSession (eventKey : TokenHistoryPoint τ → String) :
    toolEntries (SessionFacts.ofSession eventKey session).tools =
      session.toolObservations.map toolEntry := by
  unfold toolEntries SessionFacts.ofSession
  rw [List.map_map]
  apply List.map_congr_left
  intro item _
  exact Prod.ext rfl (counters_ofObservation item)

theorem chainFactEntries_ofSession (eventKey : TokenHistoryPoint τ → String) :
    chainFactEntries (SessionFacts.ofSession eventKey session).tools =
      (session.toolObservations.filter fun item ↦ item.kind = .mutation).map chainEntry := by
  unfold chainFactEntries SessionFacts.ofSession
  rw [List.filter_map, List.map_map]
  rfl

theorem dimensionFactEntries_ofSession (eventKey : TokenHistoryPoint τ → String) :
    dimensionFactEntries (SessionFacts.ofSession eventKey session).dimensions =
      session.toolObservations.flatMap dimensionRollupEntries := by
  unfold dimensionFactEntries SessionFacts.ofSession
  rw [List.map_flatMap]
  congr 1
  funext item
  unfold DimensionFact.ofObservation dimensionRollupEntries dimensionEntries
  rw [List.map_map, List.map_map]
  apply List.map_congr_left
  intro key _
  exact Prod.ext rfl (DimensionFact.counters_eq _)

section Edges

variable (hplan : planWindow fromMs toMs ∈ plans) (hread : Readable session)
  (hordered : ordered fromMs toMs)

include hplan hordered in
private theorem inRanges_of_isEdge {ms : Int} (hms : 0 ≤ ms) (hmax : ms ≤ i64Max)
    (h : isEdge fromMs toMs ms = true) : inRanges (poolEdges plans) ms = true := by
  unfold isEdge isWhole at h
  rw [Bool.and_eq_true, Bool.not_eq_true'] at h
  exact inRanges_of_edges hplan (edges_of_not_inBucketRange hms hmax hordered h.1 h.2)

include hplan hread hordered in
/-- The token events read for the edges of a window are its edge events, to the millisecond. -/
theorem edgeTokens_perm {γ : Type} {g : TokenHistoryPoint → γ} {g' : TokenHistoryPoint τ → γ}
    (hg : ∀ i event, g (TokenFact.ofEvent eventKey i event).toPoint = g' event) :
    (((readRows (tablesOf eventKey session) windowMs plans).edgeTokens.filter fun point ↦
        isEdge fromMs toMs point.timestamp.timestampMillis).map g).Perm
      ((session.tokensHistory.filter fun event ↦ isEdge fromMs toMs (eventMs event)).map g') := by
  have hfact : ∀ fact ∈ (SessionFacts.ofSession eventKey session).tokens,
      ∃ i, ∃ event ∈ session.tokensHistory, TokenFact.ofEvent eventKey i event = fact := by
    intro fact hfact
    obtain ⟨i, hi, rfl⟩ := List.mem_mapIdx.mp hfact
    exact ⟨i, _, List.getElem_mem hi, rfl⟩
  have hperm := edgeRows_perm TokenFact.timestampMs TokenFact.toPoint
    (fun point ↦ point.timestamp.timestampMillis) (isEdge fromMs toMs)
    (poolEdges plans) (SessionFacts.ofSession eventKey session).tokens
    (by
      intro fact h
      obtain ⟨i, event, _, rfl⟩ := hfact fact h
      exact millis_getD event.timestamp)
    (by
      intro fact h
      obtain ⟨i, event, hevent, rfl⟩ := hfact fact h
      exact inRanges_of_isEdge hplan hordered (hread.tokenTimes event hevent)
        (millis_bounds event.timestamp).2)
  refine (hperm.map g).trans (List.Perm.of_eq ?_)
  rw [List.map_map]
  exact map_filter_mapIdx (TokenFact.ofEvent eventKey) _ _ (g ∘ TokenFact.toPoint) g'
    (fun _ _ ↦ rfl) hg session.tokensHistory

variable (eventKey windowMs) in
include hplan hread hordered in
/-- The tool observations read for the edges of a window agree with its edge observations on
every stored column. -/
theorem edgeTools_perm {γ : Type} {g : ToolObservation → γ} {g' : ToolObservation τ → γ}
    (hg : ∀ item, g (ToolFact.ofObservation item).toObservation = g' item) :
    (((readRows (tablesOf eventKey session) windowMs plans).edgeTools.filter fun item ↦
        isEdge fromMs toMs item.timestamp.timestampMillis).map g).Perm
      ((session.toolObservations.filter fun item ↦ isEdge fromMs toMs (itemMs item)).map g') := by
  have hperm := edgeRows_perm ToolFact.timestampMs ToolFact.toObservation
    (fun item ↦ item.timestamp.timestampMillis) (isEdge fromMs toMs)
    (poolEdges plans) (SessionFacts.ofSession eventKey session).tools
    (by
      intro fact h
      obtain ⟨item, _, rfl⟩ := List.mem_map.mp h
      exact millis_getD item.timestamp)
    (by
      intro fact h
      obtain ⟨item, hitem, rfl⟩ := List.mem_map.mp h
      exact inRanges_of_isEdge hplan hordered (hread.toolTimes item hitem)
        (millis_bounds item.timestamp).2)
  refine (hperm.map g).trans (List.Perm.of_eq ?_)
  unfold SessionFacts.ofSession
  rw [List.filter_map, List.map_map, List.map_map]
  apply List.map_congr_left
  intro item _
  exact hg item

include hplan hread hordered in
/-- The dimension rows read for the edges of a window are those of its edge observations. -/
theorem edgeDimensions_perm :
    ((readRows (tablesOf eventKey session) windowMs plans).edgeDimensions.filter fun event ↦
        isEdge fromMs toMs event.timestampMs).Perm
      ((session.toolObservations.filter fun item ↦ isEdge fromMs toMs (itemMs item)).flatMap
        fun item ↦ (DimensionFact.ofObservation item).map DimensionFact.toEdgeEvent) := by
  have hms : ∀ item : ToolObservation τ, ∀ fact ∈ DimensionFact.ofObservation item,
      fact.timestampMs = itemMs item := by
    intro item fact hfact
    obtain ⟨key, _, rfl⟩ := List.mem_map.mp hfact
    rfl
  have hperm := edgeRows_perm DimensionFact.timestampMs DimensionFact.toEdgeEvent
    DimensionEdgeEvent.timestampMs (isEdge fromMs toMs) (poolEdges plans)
    (SessionFacts.ofSession eventKey session).dimensions
    (fun fact h ↦ rfl)
    (by
      intro fact h
      obtain ⟨item, hitem, hfact⟩ := List.mem_flatMap.mp h
      rw [hms item fact hfact]
      exact inRanges_of_isEdge hplan hordered (hread.toolTimes item hitem)
        (millis_bounds item.timestamp).2)
  refine hperm.trans (List.Perm.of_eq ?_)
  unfold SessionFacts.ofSession
  rw [filter_flatMap fun item ↦ isEdge fromMs toMs (itemMs item), List.map_flatMap]
  intro item fact hfact
  rw [hms item fact hfact]

/-! ### Assembly -/

include hplan in
/-- The rollup rows of a window's whole buckets group the events of those buckets. -/
theorem wholeRows_eq {κ μ : Type} [Ord κ] [Std.TransOrd κ] [AddCommMonoid μ]
    (bucket : κ → Int) (rows : ExtTreeMap κ μ) :
    (rows.toList.filter fun row ↦
        inRanges (plans.filterMap WindowPlan.fullBuckets) (bucket row.1)).filter
      (fun row ↦ (planWindow fromMs toMs).inBucketRange (bucket row.1)) =
    rows.toList.filter fun row ↦ (planWindow fromMs toMs).inBucketRange (bucket row.1) := by
  apply filter_pooled
  intro row h
  exact inRanges_of_inBucketRange hplan h

variable (eventKey session windowMs) in
include hplan in
theorem tokenRows_eq :
    ((readRows (tablesOf eventKey session) windowMs plans).tokenRows.filter fun row ↦
        (planWindow fromMs toMs).inBucketRange row.1.1) =
      (groupSum (session.tokensHistory.map tokenEntry)).toList.filter fun row ↦
        (planWindow fromMs toMs).inBucketRange row.1.1 := by
  rw [← tokenEntries_ofSession eventKey]
  exact wholeRows_eq hplan Prod.fst (rebuildRollups (.ofSession eventKey session)).tokens

variable (eventKey session windowMs) in
include hplan in
theorem toolRows_eq :
    ((readRows (tablesOf eventKey session) windowMs plans).toolRows.filter fun row ↦
        (planWindow fromMs toMs).inBucketRange row.1.1) =
      (groupSum (session.toolObservations.map toolEntry)).toList.filter fun row ↦
        (planWindow fromMs toMs).inBucketRange row.1.1 := by
  rw [← toolEntries_ofSession eventKey]
  exact wholeRows_eq hplan Prod.fst (rebuildRollups (.ofSession eventKey session)).tools

variable (eventKey session windowMs) in
include hplan in
theorem chainRows_eq :
    ((readRows (tablesOf eventKey session) windowMs plans).chainRows.filter fun row ↦
        (planWindow fromMs toMs).inBucketRange row.1.1) =
      (groupSum ((session.toolObservations.filter fun item ↦ item.kind = .mutation).map
          chainEntry)).toList.filter fun row ↦
        (planWindow fromMs toMs).inBucketRange row.1.1 := by
  rw [← chainFactEntries_ofSession eventKey]
  exact wholeRows_eq hplan Prod.fst (rebuildRollups (.ofSession eventKey session)).chains

variable (eventKey session windowMs) in
include hplan in
theorem dimensionRows_eq :
    ((readRows (tablesOf eventKey session) windowMs plans).dimensionRows.filter fun row ↦
        (planWindow fromMs toMs).inBucketRange row.1.1) =
      (groupSum (session.toolObservations.flatMap dimensionRollupEntries)).toList.filter fun row ↦
        (planWindow fromMs toMs).inBucketRange row.1.1 := by
  rw [← dimensionFactEntries_ofSession eventKey]
  exact wholeRows_eq hplan Prod.fst (rebuildRollups (.ofSession eventKey session)).dimensions

end Edges

section Merge

variable (p : Int → Bool)

/-- What the totals read of a token event. -/
def usage (event : TokenHistoryPoint τ) : Option String × Option String × TokenTotals :=
  (event.model, event.serviceTier, event.delta)

/-- What the metrics read of a tool observation. -/
def stored (item : ToolObservation τ) :
    ToolKind × Option String × (String × String) × ToolMetrics :=
  (item.kind, item.model, chainKey item, observationCounters item)

private theorem stored_toObservation (item : ToolObservation τ) :
    stored (ToolFact.ofObservation item).toObservation = stored item := by
  have hcounters : observationCounters (ToolFact.ofObservation item).toObservation =
      observationCounters item := by
    rw [← counters_ofObservation, ← counters_ofObservation]
    rfl
  unfold stored
  rw [hcounters]
  rfl

theorem mergeTokens_eq {events edgeEvents : List (TokenHistoryPoint τ)}
    {edges : List TokenHistoryPoint}
    (hedges : (edges.map usage).Perm (edgeEvents.map usage)) :
    mergeTokens ((groupSum (events.map tokenEntry)).toList.filter fun row ↦ p row.1.1) edges =
      ((events.filter (fun event ↦ p (hourBucket (eventMs event))) ++ edgeEvents).map
        fun event ↦ event.delta).sum := by
  have hdeltas : (edges.map fun point ↦ point.delta).sum =
      (edgeEvents.map fun event ↦ event.delta).sum := by
    have h := (hedges.map fun e ↦ e.2.2).sum_eq
    rw [List.map_map, List.map_map] at h
    exact h
  unfold mergeTokens
  rw [foldl_add_eq_sum fun point : TokenHistoryPoint ↦ point.delta,
    foldl_add_eq_sum fun row : (Int × String × String) × TokenTotals ↦ row.2, zero_add,
    sum_filter_toList_groupSum fun key : Int × String × String ↦ p key.1, hdeltas, List.map_append,
    List.sum_append, List.filter_map, List.map_map]
  rfl

theorem mergeBuckets_eq {events edgeEvents : List (TokenHistoryPoint τ)}
    {edges : List TokenHistoryPoint}
    (hlabels : ∀ event ∈ events, event.model ≠ some "" ∧ event.serviceTier ≠ some "")
    (hedges : (edges.map usage).Perm (edgeEvents.map usage)) :
    mergeBuckets ((groupSum (events.map tokenEntry)).toList.filter fun row ↦ p row.1.1) edges =
      groupSum (RangeTotals.modelEntries
        (events.filter (fun event ↦ p (hourBucket (eventMs event))) ++ edgeEvents)) := by
  let coarse {σ : Type} (event : TokenHistoryPoint σ) :
      Option ((String × Option String) × TokenTotals) :=
    (event.model.map fun model ↦ (model, event.serviceTier)).map fun key ↦ (key, event.delta)
  have hentries : ∀ l : List (TokenHistoryPoint τ),
      RangeTotals.modelEntries l = l.filterMap coarse := by
    intro l
    apply List.filterMap_congr
    intro event _
    simp only [coarse, Option.map_map]
    rfl
  have hsingles : (edges.filterMap coarse).Perm (edgeEvents.filterMap coarse) := by
    have h := hedges.filterMap fun e ↦ (e.1.map fun model ↦ (model, e.2.1)).map
      fun key ↦ (key, e.2.2)
    rw [List.filterMap_map, List.filterMap_map] at h
    exact h
  have hcoarse : ∀ event ∈ events, rekey (fun key : Int × String × String ↦
      (modelKey key.2.1).map fun model ↦ (model, sentinelToOption key.2.2)) (tokenEntry event) =
      coarse event := by
    intro event hevent
    obtain ⟨hmodel, htier⟩ := hlabels event hevent
    have hkey : modelKey (keySentinel event.model) = event.model :=
      sentinelToOption_keySentinel hmodel
    simp only [rekey, tokenEntry, hkey, sentinelToOption_keySentinel htier, coarse]
  have hmerge := groupSum_merge (fun key : Int × String × String ↦ p key.1) _ tokenEntry _
    hcoarse hsingles
  unfold mergeBuckets
  rw [hentries, groupFold_eq_addEntries (fun (s : TokenTotals) (point : TokenHistoryPoint) ↦ rfl),
    groupFold_eq_addEntries
      (fun (s : TokenTotals) (row : (Int × String × String) × TokenTotals) ↦ rfl)]
  exact hmerge

/-- Counters by model. -/
def modelCounterEntries (items : List (ToolObservation τ)) : List (String × ToolMetrics) :=
  items.filterMap fun item ↦ item.model.map fun model ↦ (model, observationCounters item)

/-- Mutations by chain, absent turns and targets as empty strings. -/
def chainKeyEntries (items : List (ToolObservation τ)) : List ((String × String) × Nat) :=
  (items.filter fun item ↦ item.kind = .mutation).map fun item ↦ (chainKey item, 1)

/-- Mutations by model and chain. -/
def modelChainEntries (items : List (ToolObservation τ)) :
    List ((String × String × String) × Nat) :=
  (items.filter fun item ↦ item.kind = .mutation).filterMap fun item ↦
    item.model.map fun model ↦ ((model, chainKey item), 1)

variable {items edgeItems : List (ToolObservation τ)} {edges : List ToolObservation}

theorem mergeCounters_eq (hedges : (edges.map stored).Perm (edgeItems.map stored)) :
    mergeCounters ((groupSum (items.map toolEntry)).toList.filter fun row ↦ p row.1.1) edges =
      ((items.filter (fun item ↦ p (hourBucket (itemMs item))) ++ edgeItems).map
        observationCounters).sum := by
  have hcounters : (edges.map observationCounters).sum =
      (edgeItems.map observationCounters).sum := by
    have h := (hedges.map fun e ↦ e.2.2.2).sum_eq
    rw [List.map_map, List.map_map] at h
    exact h
  unfold mergeCounters
  rw [foldl_accumulateObservation,
    foldl_add_eq_sum fun row : (Int × String) × ToolMetrics ↦ row.2, zero_add,
    sum_filter_toList_groupSum fun key : Int × String ↦ p key.1, hcounters, List.map_append,
    List.sum_append, List.filter_map, List.map_map]
  rfl

theorem mergeModelCounters_eq (hlabels : ∀ item ∈ items, item.model ≠ some "")
    (hedges : (edges.map stored).Perm (edgeItems.map stored)) :
    mergeModelCounters ((groupSum (items.map toolEntry)).toList.filter fun row ↦ p row.1.1)
        edges =
      groupSum (modelCounterEntries
        (items.filter (fun item ↦ p (hourBucket (itemMs item))) ++ edgeItems)) := by
  have hsingles : (modelCounterEntries edges).Perm (modelCounterEntries edgeItems) := by
    have h := hedges.filterMap fun e ↦ e.2.1.map fun model ↦ (model, e.2.2.2)
    rw [List.filterMap_map, List.filterMap_map] at h
    exact h
  have hcoarse : ∀ item ∈ items, rekey (fun key : Int × String ↦ modelKey key.2)
      (toolEntry item) = item.model.map fun model ↦ (model, observationCounters item) := by
    intro item hitem
    have hkey : modelKey (keySentinel item.model) = item.model :=
      sentinelToOption_keySentinel (hlabels item hitem)
    simp only [rekey, toolEntry, hkey]
  have hmerge := groupSum_merge (fun key : Int × String ↦ p key.1) _ toolEntry _ hcoarse hsingles
  unfold mergeModelCounters
  rw [groupFold_eq_addEntries accumulateObservation_eq_add,
    groupFold_eq_addEntries (fun (s : ToolMetrics) (row : (Int × String) × ToolMetrics) ↦ rfl)]
  exact hmerge

omit [Timestamp τ] in
private theorem mutations_perm {γ : Type}
    {g : ToolKind × Option String × (String × String) × ToolMetrics → γ}
    (hedges : (edges.map stored).Perm (edgeItems.map stored)) :
    ((edges.filter fun item ↦ item.kind = .mutation).map (g ∘ stored)).Perm
      ((edgeItems.filter fun item ↦ item.kind = .mutation).map (g ∘ stored)) := by
  have h := (hedges.filter fun e ↦ e.1 = .mutation).map g
  rw [List.filter_map, List.filter_map, List.map_map, List.map_map] at h
  exact h

private theorem filter_mutations :
    (items.filter fun item ↦ item.kind = .mutation).filter
        (fun item ↦ p (hourBucket (itemMs item))) ++
      edgeItems.filter (fun item ↦ item.kind = .mutation) =
    (items.filter (fun item ↦ p (hourBucket (itemMs item))) ++ edgeItems).filter
      fun item ↦ item.kind = .mutation := by
  rw [List.filter_append, List.filter_filter, List.filter_filter]
  congr 1
  apply List.filter_congr
  intro item _
  exact Bool.and_comm _ _

theorem mergeChains_eq (hedges : (edges.map stored).Perm (edgeItems.map stored)) :
    mergeChains ((groupSum ((items.filter fun item ↦ item.kind = .mutation).map
          chainEntry)).toList.filter fun row ↦ p row.1.1)
        (edges.filter fun item ↦ item.kind = .mutation) =
      groupSum (chainKeyEntries
        (items.filter (fun item ↦ p (hourBucket (itemMs item))) ++ edgeItems)) := by
  let coarse {σ : Type} (item : ToolObservation σ) : Option ((String × String) × Nat) :=
    some (chainKey item, 1)
  have hsingles : ((edges.filter fun item ↦ item.kind = .mutation).filterMap coarse).Perm
      ((edgeItems.filter fun item ↦ item.kind = .mutation).filterMap coarse) := by
    simp only [coarse, List.filterMap_eq_map']
    exact mutations_perm (g := fun e ↦ (e.2.2.1, 1)) hedges
  have hcoarse : ∀ item ∈ items.filter fun item ↦ item.kind = .mutation,
      rekey (fun key : Int × String × String × String ↦ some key.2.2) (chainEntry item) =
        coarse item :=
    fun _ _ ↦ rfl
  have hmerge := groupSum_merge (fun key ↦ p key.1) _ chainEntry coarse hcoarse hsingles
  unfold mergeChains
  rw [groupFold_eq_addEntries (fun (s : Nat) (item : ToolObservation) ↦ rfl),
    groupFold_eq_addEntries
      (fun (s : Nat) (row : (Int × String × String × String) × Nat) ↦ rfl)]
  refine hmerge.trans ?_
  unfold chainKeyEntries
  rw [← filter_mutations p]
  simp only [coarse, List.filterMap_eq_map']
  rfl

theorem mergeModelChains_eq (hlabels : ∀ item ∈ items, item.model ≠ some "")
    (hedges : (edges.map stored).Perm (edgeItems.map stored)) :
    mergeModelChains ((groupSum ((items.filter fun item ↦ item.kind = .mutation).map
          chainEntry)).toList.filter fun row ↦ p row.1.1)
        (edges.filter fun item ↦ item.kind = .mutation) =
      nestSum ∅ (modelChainEntries
        (items.filter (fun item ↦ p (hourBucket (itemMs item))) ++ edgeItems)) := by
  let coarse {σ : Type} (item : ToolObservation σ) : Option ((String × String × String) × Nat) :=
    item.model.map fun model ↦ ((model, chainKey item), 1)
  have hsingles : ((edges.filter fun item ↦ item.kind = .mutation).filterMap coarse).Perm
      ((edgeItems.filter fun item ↦ item.kind = .mutation).filterMap coarse) := by
    have h := (mutations_perm (g := fun e ↦ (e.2.1, e.2.2.1)) hedges).filterMap
      fun e ↦ e.1.map fun model ↦ ((model, e.2), 1)
    rw [List.filterMap_map, List.filterMap_map] at h
    exact h
  have hcoarse : ∀ item ∈ items.filter fun item ↦ item.kind = .mutation,
      rekey (fun key : Int × String × String × String ↦
        (modelKey key.2.1).map fun model ↦ (model, key.2.2)) (chainEntry item) = coarse item := by
    intro item hitem
    have hkey : modelKey (keySentinel item.model) = item.model :=
      sentinelToOption_keySentinel (hlabels item (List.mem_filter.mp hitem).1)
    simp only [rekey, chainEntry, hkey, coarse, Option.map_map]
    rfl
  have hrows : (fun row : (Int × String × String × String) × Nat ↦
      (modelKey row.1.2.1).map fun model ↦ ((model, row.1.2.2), row.2)) =
      rekey fun key ↦ (modelKey key.2.1).map fun model ↦ (model, key.2.2) := by
    funext row
    simp only [rekey, Option.map_map]
    rfl
  have hmerge := nestSum_merge (fun key ↦ p key.1) _ chainEntry coarse hcoarse hsingles
  unfold mergeModelChains
  rw [groupFold_eq_nestSum (fun (s : Nat) (item : ToolObservation) ↦ rfl),
    groupFold_eq_nestSum (fun (s : Nat) (row : (Int × String × String × String) × Nat) ↦ rfl),
    hrows]
  refine hmerge.trans ?_
  unfold modelChainEntries
  rw [← filter_mutations p]
  rfl

private theorem rekey_dimensionRollupEntries (l : List (ToolObservation τ)) :
    (l.flatMap dimensionRollupEntries).filterMap
        (rekey fun key : Int × String × String ↦ some key.2) =
      l.flatMap dimensionEntries := by
  have hrekey : (rekey fun key : Int × String × String ↦ some key.2) =
      fun e : (Int × String × String) × ToolDimensionMetrics ↦ some (e.1.2, e.2) := rfl
  rw [hrekey, List.filterMap_eq_map', List.map_flatMap]
  congr 1
  funext item
  unfold dimensionRollupEntries
  rw [List.map_map]
  exact List.map_id _

theorem mergeDimensions_eq {events : List DimensionEdgeEvent}
    (hevents : events.Perm (edgeItems.flatMap fun item ↦
      (DimensionFact.ofObservation item).map DimensionFact.toEdgeEvent)) :
    mergeDimensions ((groupSum (items.flatMap dimensionRollupEntries)).toList.filter fun row ↦
        p row.1.1) events =
      nestSum ∅ ((items.filter (fun item ↦ p (hourBucket (itemMs item))) ++ edgeItems).flatMap
        dimensionEntries) := by
  let single (event : DimensionEdgeEvent) : (String × String) × ToolDimensionMetrics :=
    ((event.dimensionKind, event.dimensionValue),
      accumulateDimensionCall 0 event.outcome event.outputBytes event.durationMs)
  have hsingles : (events.map single).Perm ((edgeItems.flatMap dimensionRollupEntries).filterMap
      (rekey fun key : Int × String × String ↦ some key.2)) := by
    rw [rekey_dimensionRollupEntries]
    refine (hevents.map single).trans (List.Perm.of_eq ?_)
    rw [List.map_flatMap]
    congr 1
    funext item
    unfold DimensionFact.ofObservation dimensionEntries
    rw [List.map_map, List.map_map]
    rfl
  have hfine : ∀ e ∈ items.flatMap dimensionRollupEntries,
      rekey (fun key : Int × String × String ↦ some key.2) (id e) =
        rekey (fun key ↦ some key.2) e :=
    fun _ _ ↦ rfl
  have hmerge := nestSum_merge (fun key ↦ p key.1) _ id _ hfine hsingles
  rw [List.map_id] at hmerge
  have hfilter := filter_flatMap (f := dimensionRollupEntries)
    (p := fun e ↦ p e.1.1) (fun item ↦ p (hourBucket (itemMs item)))
    (by
      intro item e he
      obtain ⟨e', _, rfl⟩ := List.mem_map.mp he
      rfl) items
  have hrows : (fun row : (Int × String × String) × ToolDimensionMetrics ↦
      (some row.1.2.1).map fun kind ↦ ((kind, row.1.2.2), row.2)) =
      rekey fun key ↦ some key.2 := rfl
  unfold mergeDimensions
  rw [groupFold_eq_nestSum (fun s (event : DimensionEdgeEvent) ↦
      accumulateDimensionCall_eq_add s event.outcome event.outputBytes event.durationMs),
    groupFold_eq_nestSum
      (fun (s : ToolDimensionMetrics)
        (row : (Int × String × String) × ToolDimensionMetrics) ↦ rfl), hrows]
  simp only [Option.map_some, List.filterMap_eq_map']
  refine hmerge.trans ?_
  simp only [id]
  rw [hfilter, ← List.flatMap_append, rekey_dimensionRollupEntries]

end Merge

/-! ### Metrics from merged counters and chains -/

section Chains

omit [Timestamp τ]

variable {items : List (ToolObservation τ)}

/-- Options in place of empty strings. -/
private def chainOption (key : String × String) : Option String × Option String :=
  (sentinelToOption key.1, sentinelToOption key.2)

private theorem chainOption_injective : Function.Injective chainOption := by
  rintro ⟨a, b⟩ ⟨a', b'⟩ h
  simp only [chainOption, Prod.mk.injEq] at h
  exact Prod.ext (sentinelToOption_injective h.1) (sentinelToOption_injective h.2)

/-- Empty strings in place of absent turns and targets tell the same chains apart. -/
theorem withChainFields_chainKeyEntries (counters : ToolMetrics)
    (hlabels : ∀ item ∈ items, item.turnId ≠ some "" ∧ item.target ≠ some "") :
    withChainFields counters ((groupSum (chainKeyEntries items)).toList.map Prod.snd) =
      withChainFields counters ((groupSum (chainEntries items)).toList.map Prod.snd) := by
  have hentries : chainEntries items =
      (chainKeyEntries items).map fun e ↦ (chainOption e.1, e.2) := by
    unfold chainEntries chainKeyEntries
    rw [List.map_map]
    apply List.map_congr_left
    intro item hitem
    obtain ⟨hturn, htarget⟩ := hlabels item (List.mem_filter.mp hitem).1
    have hchain : chainOption (chainKey item) = (item.turnId, item.target) :=
      Prod.ext (sentinelToOption_keySentinel hturn) (sentinelToOption_keySentinel htarget)
    simp only [Function.comp_apply, hchain]
  have hperm := (toList_groupSum_rename chainOption_injective (chainKeyEntries items)).map Prod.snd
  rw [List.map_map] at hperm
  unfold withChainFields
  rw [hentries, mutationChainFields_perm hperm]
  rfl

/-- Merged counters and chains give the metrics of the observations. -/
theorem metrics_eq_merged
    (hlabels : ∀ item ∈ items, item.turnId ≠ some "" ∧ item.target ≠ some "") :
    metrics items = withChainFields (items.map observationCounters).sum
      ((groupSum (chainKeyEntries items)).toList.map Prod.snd) := by
  rw [metrics_eq, withChainFields_chainKeyEntries _ hlabels]

private theorem filter_modelChainEntries (model : String) :
    ((modelChainEntries items).filter fun e ↦ e.1.1 = model).map (fun e ↦ (e.1.2, e.2)) =
      chainKeyEntries (items.filter fun item ↦ item.model = some model) := by
  induction items with
  | nil => rfl
  | cons item items ih =>
    by_cases hkind : item.kind = .mutation
    · cases hmodel : item.model with
      | none => simpa [modelChainEntries, chainKeyEntries, hkind, hmodel] using ih
      | some model' =>
        by_cases hm : model' = model <;>
          simpa [modelChainEntries, chainKeyEntries, hkind, hmodel, hm] using ih
    · by_cases hm : item.model = some model <;>
        simpa [modelChainEntries, chainKeyEntries, hkind, hm] using ih

private theorem sumAt_modelCounterEntries (model : String) :
    sumAt model (modelCounterEntries items) =
      ((items.filter fun item ↦ item.model = some model).map observationCounters).sum := by
  induction items with
  | nil => rfl
  | cons item items ih =>
    cases hmodel : item.model with
    | none => simpa [modelCounterEntries, hmodel] using ih
    | some model' =>
      by_cases hm : model' = model
      · simpa [modelCounterEntries, hmodel, hm, sumAt_cons] using
          congrArg (observationCounters item + ·) ih
      · simpa [modelCounterEntries, hmodel, hm, sumAt_cons] using ih

/-- Merged counters and chains by model give the metrics by model. -/
theorem metricsWithModels_eq_merged
    (hlabels : ∀ item ∈ items, item.turnId ≠ some "" ∧ item.target ≠ some "") :
    (metricsWithModels items).2 =
      (groupSum (modelCounterEntries items)).map fun model counters ↦
        withChainFields counters
          (((nestSum ∅ (modelChainEntries items)).getD model ∅).toList.map Prod.snd) := by
  apply ExtTreeMap.ext_getElem?
  intro model
  have hmem : (∃ e ∈ modelCounterEntries items, e.1 = model) ↔
      ∃ item ∈ items, item.model = some model := by
    simp [modelCounterEntries, List.mem_filterMap]
  rw [getElem?_metricsWithModels, ExtTreeMap.getElem?_map, getElem?_groupSum,
    sumAt_modelCounterEntries, getD_nestSum, filter_modelChainEntries]
  simp only [hmem]
  split
  · rw [Option.map_some, metrics_eq_merged]
    intro item hitem
    exact hlabels item (List.mem_filter.mp hitem).1
  · rfl

end Chains

/-! ### Findings -/

theorem inWindow_windowMillis (window : RangeWindow τ) (t : τ) :
    RangeTotals.inWindow window t =
      inWindow (windowMillis window).1 (windowMillis window).2 (Timestamp.timestampMillis t) := by
  obtain ⟨start, stop⟩ := window
  cases start <;> cases stop <;> rfl

private theorem inFindingRanges_of_selected {window : RangeWindow τ}
    (hwindow : windowMillis window ∈ windowMs) {finding : OptimizationFinding τ}
    (h : RangeTotals.findingInWindow window finding = true) :
    inFindingRanges windowMs (FindingFact.ofFinding finding).timestampMs = true := by
  unfold FindingFact.ofFinding
  unfold RangeTotals.findingInWindow at h
  cases ht : finding.timestamp with
  | none =>
    rw [ht] at h
    obtain ⟨start, stop⟩ := window
    cases start <;> cases stop <;> simp_all [inFindingRanges, windowMillis]
  | some t =>
    rw [ht] at h
    simp only [inWindow_windowMillis] at h
    have hbounds := millis_bounds t
    simp only [Option.map_some, inFindingRanges, inRanges, List.any_map, List.any_eq_true]
    refine ⟨_, hwindow, ?_⟩
    unfold inWindow at h
    simp only [Function.comp_apply, between, Bool.and_eq_true, decide_eq_true_eq]
    cases hstart : (windowMillis window).1 <;> cases hstop : (windowMillis window).2 <;>
      simp_all

private theorem findingInWindow_toFinding (window : RangeWindow τ)
    (finding : OptimizationFinding τ) :
    findingInWindow (windowMillis window).1 (windowMillis window).2
        (FindingFact.ofFinding finding).toFinding =
      RangeTotals.findingInWindow window finding := by
  unfold findingInWindow RangeTotals.findingInWindow FindingFact.toFinding FindingFact.ofFinding
  cases ht : finding.timestamp with
  | none =>
    obtain ⟨start, stop⟩ := window
    cases start <;> cases stop <;> rfl
  | some t =>
    obtain ⟨u, hu, heq⟩ := Timestamp.exists_ofMillis? t
    simp only [Option.map_some, Option.bind_some, hu, heq, inWindow_windowMillis]

variable (eventKey session plans) in
/-- The findings read for a window are its findings, on the stored columns. -/
theorem selectFindings_eq {window : RangeWindow τ} (hwindow : windowMillis window ∈ windowMs) :
    selectFindings (windowMillis window).1 (windowMillis window).2
        (readRows (tablesOf eventKey session) windowMs plans).findings =
      (RangeTotals.selectFindings window session.optimizationFindings).map
        fun finding ↦ (FindingFact.ofFinding finding).toFinding := by
  unfold selectFindings RangeTotals.selectFindings readRows tablesOf SessionFacts.ofSession
  dsimp only
  rw [List.filter_map, List.filter_map, List.filter_map, List.map_map, List.filter_filter]
  congr 1
  apply List.filter_congr
  intro finding _
  simp only [Function.comp_apply, findingInWindow_toFinding]
  cases h : RangeTotals.findingInWindow window finding with
  | false => rfl
  | true => rw [inFindingRanges_of_selected hwindow h]; rfl

/-! ### One window -/

section Window

variable (hread : Readable session) (hordered : ordered fromMs toMs)
  (hplan : planWindow fromMs toMs ∈ plans)

/-- The token events of the pieces of a window. -/
private def events (session : Session τ) (fromMs toMs : Option Int) : List (TokenHistoryPoint τ) :=
  covered fromMs toMs eventMs session.tokensHistory

/-- The tool observations of the pieces of a window. -/
private def items (session : Session τ) (fromMs toMs : Option Int) : List (ToolObservation τ) :=
  covered fromMs toMs itemMs session.toolObservations

include hread in
private theorem items_labels : ∀ item ∈ items session fromMs toMs,
    item.turnId ≠ some "" ∧ item.target ≠ some "" := by
  intro item hitem
  exact (hread.toolLabels item (mem_of_mem_covered hitem)).2

include hread hordered hplan in
private theorem tokens_assembled {rows : PooledRows}
    (hrows : readRows (tablesOf eventKey session) windowMs plans = rows) :
    mergeTokens (rows.tokenRows.filter fun row ↦ (planWindow fromMs toMs).inBucketRange row.1.1)
        (rows.edgeTokens.filter fun point ↦
          isEdge fromMs toMs point.timestamp.timestampMillis) =
      ((events session fromMs toMs).map fun event ↦ event.delta).sum := by
  subst hrows
  rw [tokenRows_eq eventKey session windowMs hplan]
  exact mergeTokens_eq _ (edgeTokens_perm hplan hread hordered fun _ _ ↦ rfl)

include hread hordered hplan in
private theorem buckets_assembled {rows : PooledRows}
    (hrows : readRows (tablesOf eventKey session) windowMs plans = rows) :
    mergeBuckets (rows.tokenRows.filter fun row ↦ (planWindow fromMs toMs).inBucketRange row.1.1)
        (rows.edgeTokens.filter fun point ↦
          isEdge fromMs toMs point.timestamp.timestampMillis) =
      groupSum (RangeTotals.modelEntries (events session fromMs toMs)) := by
  subst hrows
  rw [tokenRows_eq eventKey session windowMs hplan]
  exact mergeBuckets_eq _ hread.tokenLabels (edgeTokens_perm hplan hread hordered fun _ _ ↦ rfl)

include hread hordered hplan in
private theorem metrics_assembled {rows : PooledRows}
    (hrows : readRows (tablesOf eventKey session) windowMs plans = rows) :
    withChainFields
        (mergeCounters
          (rows.toolRows.filter fun row ↦ (planWindow fromMs toMs).inBucketRange row.1.1)
          (rows.edgeTools.filter fun item ↦
            isEdge fromMs toMs item.timestamp.timestampMillis))
        ((mergeChains
          (rows.chainRows.filter fun row ↦ (planWindow fromMs toMs).inBucketRange row.1.1)
          ((rows.edgeTools.filter fun item ↦
            isEdge fromMs toMs item.timestamp.timestampMillis).filter
              fun item ↦ item.kind = .mutation)).toList.map Prod.snd) =
      metrics (items session fromMs toMs) := by
  subst hrows
  have hedges := edgeTools_perm eventKey windowMs hplan hread hordered
    stored_toObservation
  rw [toolRows_eq eventKey session windowMs hplan, chainRows_eq eventKey session windowMs hplan,
    mergeCounters_eq _ hedges, mergeChains_eq _ hedges, metrics_eq_merged (items_labels hread)]
  rfl

include hread hordered hplan in
private theorem modelMetrics_assembled {rows : PooledRows}
    (hrows : readRows (tablesOf eventKey session) windowMs plans = rows) :
    ((mergeModelCounters
        (rows.toolRows.filter fun row ↦ (planWindow fromMs toMs).inBucketRange row.1.1)
        (rows.edgeTools.filter fun item ↦
          isEdge fromMs toMs item.timestamp.timestampMillis)).map fun model counters ↦
      withChainFields counters (((mergeModelChains
        (rows.chainRows.filter fun row ↦ (planWindow fromMs toMs).inBucketRange row.1.1)
        ((rows.edgeTools.filter fun item ↦
          isEdge fromMs toMs item.timestamp.timestampMillis).filter
            fun item ↦ item.kind = .mutation)).getD model ∅).toList.map Prod.snd)) =
      (metricsWithModels (items session fromMs toMs)).2 := by
  subst hrows
  have hedges := edgeTools_perm eventKey windowMs hplan hread hordered
    stored_toObservation
  have hmodels : ∀ item ∈ session.toolObservations, item.model ≠ some "" :=
    fun item hitem ↦ (hread.toolLabels item hitem).1
  rw [toolRows_eq eventKey session windowMs hplan, chainRows_eq eventKey session windowMs hplan,
    mergeModelCounters_eq _ hmodels hedges, mergeModelChains_eq _ hmodels hedges,
    metricsWithModels_eq_merged (items_labels hread)]
  rfl

include hread hordered hplan in
private theorem dimensions_assembled {rows : PooledRows}
    (hrows : readRows (tablesOf eventKey session) windowMs plans = rows) :
    mergeDimensions
        (rows.dimensionRows.filter fun row ↦ (planWindow fromMs toMs).inBucketRange row.1.1)
        (rows.edgeDimensions.filter fun event ↦ isEdge fromMs toMs event.timestampMs) =
      nestSum ∅ ((items session fromMs toMs).flatMap dimensionEntries) := by
  subst hrows
  rw [dimensionRows_eq eventKey session windowMs hplan]
  exact mergeDimensions_eq _ (edgeDimensions_perm hplan hread hordered)

end Window

/-- A window is assembled from the events of its whole buckets and of its edges. -/
theorem computeRangeTotals_eq {window : RangeWindow τ} (hread : Readable session)
    (hordered : ordered (windowMillis window).1 (windowMillis window).2)
    (hwindow : windowMillis window ∈ windowMs)
    (hplan : planWindow (windowMillis window).1 (windowMillis window).2 ∈ plans) :
    computeRangeTotals (windowMillis window).1 (windowMillis window).2
        (planWindow (windowMillis window).1 (windowMillis window).2)
        (readRows (tablesOf eventKey session) windowMs plans) =
      .ofEvents
        (covered (windowMillis window).1 (windowMillis window).2 eventMs session.tokensHistory)
        (covered (windowMillis window).1 (windowMillis window).2 itemMs session.toolObservations)
        (RangeTotals.selectFindings window session.optimizationFindings) := by
  have hfindings := selectFindings_eq eventKey session plans hwindow
  generalize hrows : readRows (tablesOf eventKey session) windowMs plans = rows at *
  have htokens := tokens_assembled hread hordered hplan hrows
  have hbuckets := buckets_assembled hread hordered hplan hrows
  have hmetrics := metrics_assembled hread hordered hplan hrows
  have hmodelMetrics := modelMetrics_assembled hread hordered hplan hrows
  have hdimensions := dimensions_assembled hread hordered hplan hrows
  have hsummary := OptimizationSummary.fromFindings_map
    (f := fun finding : OptimizationFinding τ ↦ (FindingFact.ofFinding finding).toFinding)
    (fun _ ↦ rfl) (fun _ ↦ rfl) (fun _ ↦ rfl)
    (RangeTotals.selectFindings window session.optimizationFindings)
  unfold isEdge isWhole at htokens hbuckets hmetrics hmodelMetrics hdimensions
  unfold computeRangeTotals RangeTotals.ofEvents
  dsimp only
  rw [htokens, hbuckets, hmetrics, hmodelMetrics, hdimensions, hfindings, hsummary,
    RangeTotals.insertionSort_map_ofEntry, RangeTotals.tokens_eq, RangeTotals.buckets_eq,
    dimensionTotals_eq, metricsWithModels_fst, List.length_map]
  rfl

end AgentOdometer.Ledger
