import AgentOdometer.Ledger.RangeAgreement
import AgentOdometer.Model.RangeScan

/-!
# When the ledger and the live session agree

The range query returns the live session's totals for every window of a batch, except for a
window which overruns the epoch: it counts the events of hour zero, none of which it contains. A
live session whose milliseconds do not follow its instants is left out: it slices its lists wrongly.
-/

namespace AgentOdometer.Ledger

open Std (ExtTreeMap)
open GroupBy Telemetry

variable {τ : Type} [Timestamp τ]

/-- The same usage, metrics and finding counts. -/
structure SameTotals (a b : RangeTotals) : Prop where
  tokens : a.tokens = b.tokens
  buckets : a.buckets = b.buckets
  toolMetrics : a.toolMetrics = b.toolMetrics
  toolMetricsByModel : a.toolMetricsByModel = b.toolMetricsByModel
  findingsCount : a.optimizationFindingsCount = b.optimizationFindingsCount
  summary : a.optimizationSummary = b.optimizationSummary

/-- Nothing in the first hour after the epoch reaches a total: no tool call, and only token
events without a model and without tokens. -/
def silentFirstHour (session : Session τ) : Prop :=
  (∀ event ∈ session.tokensHistory, hourBucket (eventMs event) = 0 →
    event.model = none ∧ event.delta = 0) ∧
  ∀ item ∈ session.toolObservations, hourBucket (itemMs item) ≠ 0

instance (session : Session τ) : Decidable (silentFirstHour session) :=
  inferInstanceAs (Decidable (_ ∧ _))

/-- The window's bounds in milliseconds overrun the epoch. -/
def windowOverrunsEpoch (window : RangeWindow τ) : Prop :=
  overrunsEpoch (windowMillis window).1 (windowMillis window).2

instance (window : RangeWindow τ) : Decidable (windowOverrunsEpoch window) :=
  inferInstanceAs (Decidable (overrunsEpoch _ _))

omit [Timestamp τ] in
theorem ordered_windowMillis {window : RangeWindow} (h : reversed window = false) :
    ordered (windowMillis window).1 (windowMillis window).2 := by
  obtain ⟨start, stop⟩ := window
  intro startMs hstart stopMs hstop
  simp only [windowMillis, Option.mem_def, Option.map_eq_some_iff] at hstart hstop
  obtain ⟨start, rfl, rfl⟩ := hstart
  obtain ⟨stop, rfl, rfl⟩ := hstop
  apply DateTime.timestampMillis_mono
  simpa [reversed] using h

/-! ### Totals of an empty hour -/

section Silent

omit [Timestamp τ]

private theorem sum_deltas_eq_zero {events : List (TokenHistoryPoint τ)} :
    (events.map fun event ↦ event.delta).sum = 0 ↔ ∀ event ∈ events, event.delta = 0 := by
  induction events with
  | nil => simp
  | cons event events ih =>
    rw [List.map_cons, List.sum_cons, TokenTotals.add_eq_zero_iff, ih, List.forall_mem_cons]

private theorem buckets_eq_nil {events : List (TokenHistoryPoint τ)} :
    (events.foldl RangeTotals.addEvent (0, [])).2.insertionSort RangeTotals.bucketLe = [] ↔
      ∀ event ∈ events, event.model = none := by
  rw [RangeTotals.buckets_eq, List.map_eq_nil_iff]
  constructor
  · intro h event hevent
    cases hmodel : event.model with
    | none => rfl
    | some model =>
      have hmem : ((model, event.serviceTier), event.delta) ∈ RangeTotals.modelEntries events :=
        List.mem_filterMap.mpr ⟨event, hevent, by rw [hmodel]; rfl⟩
      obtain ⟨e, he, _⟩ := (exists_mem_toList_groupSum
        fun key ↦ key = (model, event.serviceTier)).mpr ⟨_, hmem, rfl⟩
      rw [h] at he
      contradiction
  · intro h
    have hnil : RangeTotals.modelEntries events = [] := by
      rw [RangeTotals.modelEntries, List.filterMap_eq_nil_iff]
      intro event hevent
      rw [h event hevent]
      rfl
    rw [hnil]
    exact ExtTreeMap.toList_eq_nil_iff.mpr rfl

/-- Events without model and tokens leave every total as it is without them. -/
theorem ofEvents_of_silent {events : List (TokenHistoryPoint τ)}
    (findings : List (OptimizationFinding τ))
    (h : ∀ event ∈ events, event.model = none ∧ event.delta = 0) :
    RangeTotals.ofEvents events [] findings = .ofEvents [] [] findings := by
  have htokens : (events.foldl RangeTotals.addEvent (0, [])).1 = 0 := by
    rw [RangeTotals.tokens_eq, sum_deltas_eq_zero]
    exact fun event hevent ↦ (h event hevent).2
  have hbuckets := buckets_eq_nil.mpr fun event hevent ↦ (h event hevent).1
  unfold RangeTotals.ofEvents
  dsimp only
  rw [htokens, hbuckets]
  rfl

/-- Events which add nothing to the totals have no model, no tokens and no calls. -/
theorem silent_of_sameTotals {events : List (TokenHistoryPoint τ)}
    {items : List (ToolObservation τ)} {findings : List (OptimizationFinding τ)}
    (h : SameTotals (.ofEvents events items findings) (.ofEvents [] [] findings)) :
    (∀ event ∈ events, event.model = none ∧ event.delta = 0) ∧ items = [] := by
  refine ⟨?_, ?_⟩
  · intro event hevent
    have htokens : (events.foldl RangeTotals.addEvent (0, [])).1 = 0 := h.tokens
    have hbuckets := buckets_eq_nil.mp h.buckets
    rw [RangeTotals.tokens_eq, sum_deltas_eq_zero] at htokens
    exact ⟨hbuckets event hevent, htokens event hevent⟩
  · have hcalls : (metrics items).calls = (metrics []).calls :=
      congrArg ToolMetrics.calls h.toolMetrics
    rw [calls_metrics, calls_metrics] at hcalls
    exact List.length_eq_zero_iff.mp hcalls

end Silent

/-! ### One window -/

section Window

variable {eventKey : TokenHistoryPoint τ → String} {session : Session τ} {window : RangeWindow τ}
  {windowMs : List (Option Int × Option Int)} {plans : List WindowPlan}

/-- The live session's totals of one window. -/
def liveTotals (session : Session τ) (window : RangeWindow τ) : RangeTotals :=
  .ofEvents (RangeTotals.select TokenHistoryPoint.timestamp window session.tokensHistory)
    (RangeTotals.select ToolObservation.timestamp window session.toolObservations)
    (RangeTotals.selectFindings window session.optimizationFindings)

private theorem tokenTimes (hread : Readable session) :
    ∀ event ∈ session.tokensHistory, 0 ≤ eventMs event :=
  hread.tokenTimes

private theorem toolTimes (hread : Readable session) :
    ∀ item ∈ session.toolObservations, 0 ≤ itemMs item :=
  hread.toolTimes

private theorem select_eq_inWindow {α : Type} {timestamp : α → τ} {l : List α}
    (h : RangeTotals.MillisFollow timestamp l) :
    RangeTotals.select timestamp window l = l.filter fun a ↦ inWindow (windowMillis window).1
      (windowMillis window).2 (Timestamp.timestampMillis (timestamp a)) := by
  rw [RangeTotals.select_eq_filter h]
  simp only [inWindow_windowMillis]

/-- A window which overruns the epoch is assembled from hour zero. -/
private theorem covered_of_overrunsEpoch {α : Type} {ms : α → Int} {l : List α}
    (hms : ∀ a ∈ l, 0 ≤ ms a) (h : windowOverrunsEpoch window) :
    covered (windowMillis window).1 (windowMillis window).2 ms l =
      l.filter fun a ↦ hourBucket (ms a) = 0 := by
  have hedge : l.filter (fun a ↦ isEdge (windowMillis window).1 (windowMillis window).2 (ms a)) =
      [] := by
    rw [List.filter_eq_nil_iff]
    intro a ha
    unfold isEdge
    rw [(inBucketRange_of_overrunsEpoch (hms a ha) h).1]
    simp
  unfold covered
  rw [hedge, List.append_nil]
  apply List.filter_congr
  intro a ha
  exact Bool.eq_iff_iff.mpr (by
    rw [decide_eq_true_eq]
    exact (inBucketRange_of_overrunsEpoch (hms a ha) h).2)

private theorem select_of_overrunsEpoch {α : Type} {timestamp : α → τ} {l : List α}
    (hfollow : RangeTotals.MillisFollow timestamp l)
    (hms : ∀ a ∈ l, 0 ≤ Timestamp.timestampMillis (timestamp a)) (h : windowOverrunsEpoch window) :
    RangeTotals.select timestamp window l = [] := by
  rw [select_eq_inWindow hfollow, List.filter_eq_nil_iff]
  intro a ha
  rw [(inBucketRange_of_overrunsEpoch (hms a ha) h).1]
  simp

variable (hread : Readable session) (hfollow : session.MillisFollow)
  (hordered : ordered (windowMillis window).1 (windowMillis window).2)
  (hwindow : windowMillis window ∈ windowMs)
  (hplan : planWindow (windowMillis window).1 (windowMillis window).2 ∈ plans)

include hread hfollow hordered hwindow hplan in
/-- One window agrees in every field when it does not overrun the epoch, or hour zero is
silent. -/
theorem computeRangeTotals_eq_live (h : windowOverrunsEpoch window → silentFirstHour session) :
    computeRangeTotals (windowMillis window).1 (windowMillis window).2
        (planWindow (windowMillis window).1 (windowMillis window).2)
        (readRows (tablesOf eventKey session) windowMs plans) = liveTotals session window := by
  rw [computeRangeTotals_eq hread hordered hwindow hplan]
  unfold liveTotals
  by_cases hover : windowOverrunsEpoch window
  · obtain ⟨hevents, hitems⟩ := h hover
    have hnone :
        session.toolObservations.filter (fun item ↦ hourBucket (itemMs item) = 0) = [] := by
      rw [List.filter_eq_nil_iff]
      intro item hitem hzero
      exact hitems item hitem (of_decide_eq_true hzero)
    rw [covered_of_overrunsEpoch (tokenTimes hread) hover,
      covered_of_overrunsEpoch (toolTimes hread) hover, hnone,
      select_of_overrunsEpoch hfollow.tokens hread.tokenTimes hover,
      select_of_overrunsEpoch hfollow.tools hread.toolTimes hover]
    apply ofEvents_of_silent
    intro event hevent
    obtain ⟨hmem, hzero⟩ := List.mem_filter.mp hevent
    exact hevents event hmem (of_decide_eq_true hzero)
  · rw [select_eq_inWindow hfollow.tokens, select_eq_inWindow hfollow.tools]
    exact RangeTotals.ofEvents_perm
      (covered_perm (tokenTimes hread) hordered hover)
      (covered_perm (toolTimes hread) hordered hover) _

include hread hfollow hordered hwindow hplan in
/-- A window which overruns the epoch agrees only when hour zero is silent. -/
theorem silentFirstHour_of_sameTotals (hover : windowOverrunsEpoch window)
    (h : SameTotals (computeRangeTotals (windowMillis window).1 (windowMillis window).2
        (planWindow (windowMillis window).1 (windowMillis window).2)
        (readRows (tablesOf eventKey session) windowMs plans)) (liveTotals session window)) :
    silentFirstHour session := by
  rw [computeRangeTotals_eq hread hordered hwindow hplan,
    covered_of_overrunsEpoch (tokenTimes hread) hover,
    covered_of_overrunsEpoch (toolTimes hread) hover] at h
  unfold liveTotals at h
  rw [select_of_overrunsEpoch hfollow.tokens hread.tokenTimes hover,
    select_of_overrunsEpoch hfollow.tools hread.toolTimes hover] at h
  obtain ⟨hevents, hitems⟩ := silent_of_sameTotals h
  refine ⟨?_, ?_⟩
  · intro event hevent hzero
    exact hevents event (List.mem_filter.mpr ⟨hevent, decide_eq_true hzero⟩)
  · intro item hitem hzero
    rw [List.filter_eq_nil_iff] at hitems
    exact hitems item hitem (decide_eq_true hzero)

end Window

/-! ### A batch of windows -/

section Batch

variable {eventKey : TokenHistoryPoint τ → String} {session : Session τ}
  {windows : List (RangeWindow τ)}

/-- One window of a batch, read from the rows pooled for all of them. -/
def batchTotals (tables : SessionTables) (windows : List (RangeWindow τ)) (window : RangeWindow τ) :
    RangeTotals :=
  computeRangeTotals (windowMillis window).1 (windowMillis window).2
    (planWindow (windowMillis window).1 (windowMillis window).2)
    (readRows tables (windows.map windowMillis)
      ((windows.map windowMillis).map fun w ↦ planWindow w.1 w.2))

theorem sessionRangeTotals_eq_map (tables : SessionTables) (windows : List (RangeWindow τ)) :
    sessionRangeTotals tables windows = windows.map (batchTotals tables windows) := by
  have hzip : ∀ rows, (((windows.map windowMillis).zip
      ((windows.map windowMillis).map fun w ↦ planWindow w.1 w.2)).map fun p ↦
        computeRangeTotals p.1.1 p.1.2 p.2 rows) = windows.map fun window ↦
      computeRangeTotals (windowMillis window).1 (windowMillis window).2
        (planWindow (windowMillis window).1 (windowMillis window).2) rows := by
    intro rows
    induction windows with
    | nil => rfl
    | cons window windows ih => simp only [List.map_cons, List.zip_cons_cons, ih]
  exact hzip _

private theorem mem_plans {window : RangeWindow τ} (h : window ∈ windows) :
    windowMillis window ∈ windows.map windowMillis ∧
      planWindow (windowMillis window).1 (windowMillis window).2 ∈
        (windows.map windowMillis).map fun w ↦ planWindow w.1 w.2 :=
  ⟨List.mem_map_of_mem h, List.mem_map_of_mem (List.mem_map_of_mem h)⟩

variable (eventKey) in
/-- Every field of every window agrees when no window overruns the epoch. -/
theorem sessionRangeTotals_eq_live (hread : Readable session) (hfollow : session.MillisFollow)
    (hordered : ∀ window ∈ windows, ordered (windowMillis window).1 (windowMillis window).2)
    (h : ∀ window ∈ windows, windowOverrunsEpoch window → silentFirstHour session) :
    sessionRangeTotals (tablesOf eventKey session) windows = session.rangeTotalsMulti windows := by
  rw [sessionRangeTotals_eq_map]
  apply List.map_congr_left
  intro window hmem
  exact computeRangeTotals_eq_live hread hfollow (hordered window hmem) (mem_plans hmem).1
    (mem_plans hmem).2 (h window hmem)

/-- One token event at the epoch itself. -/
def epochSession : Session :=
  { Session.blank .codex "session" .epoch with
    tokensHistory := [⟨.epoch, none, none, none, 5, ⟨5, 0, 0, 0, 0, 5⟩⟩] }

/-- The last millisecond before the epoch. -/
def beforeEpoch : DateTime :=
  ⟨-1000000, by decide, by decide⟩

private theorem readable_epochSession : Readable epochSession where
  tokenTimes := by decide
  toolTimes := by decide
  tokenLabels := by decide
  toolLabels := by decide

end Batch

/-! ### Several sessions -/

section Sessions

variable {eventKey : TokenHistoryPoint → String} {sessions : String → Session}
  {windows : List RangeWindow} {control : QueryControl}

/-- The live totals to be reported for one window: those which have data. -/
def reported (sessions : String → Session) (window : RangeWindow)
    (out : ExtTreeMap String RangeTotals) (sessionKeys : List String) :
    ExtTreeMap String RangeTotals :=
  sessionKeys.foldl (fun totals key ↦
    if rangeHasData (liveTotals (sessions key) window) then
      totals.insert key (liveTotals (sessions key) window)
    else totals) out

private theorem foldlM_querySession (hread : ∀ key, Readable (sessions key))
    (hordered : ∀ window ∈ windows, reversed window = false)
    (hsafe : ∀ window ∈ windows, ¬ windowOverrunsEpoch window) (sessionKeys : List String)
    (consumed : Nat) (maps : RangeWindow → ExtTreeMap String RangeTotals)
    {acc : Nat × List (ExtTreeMap String RangeTotals)}
    (h : sessionKeys.foldlM
      (querySession control (fun key ↦ tablesOf eventKey (sessions key)) windows)
      (consumed, windows.map maps) = .ok acc) :
    acc.2 = windows.map fun window ↦ reported sessions window (maps window) sessionKeys := by
  induction sessionKeys generalizing consumed maps with
  | nil =>
    obtain rfl := Except.ok.inj h
    rfl
  | cons key sessionKeys ih =>
    rw [List.foldlM_cons] at h
    unfold querySession at h
    dsimp only at h
    split at h
    · contradiction
    · have hlive := sessionRangeTotals_eq_live eventKey (hread key)
        (sessions key).millisFollow_dateTime
        (fun window hmem ↦ ordered_windowMillis (hordered window hmem))
        fun window hmem hover ↦ absurd hover (hsafe window hmem)
      have hinsert : insertRanges key (windows.map maps)
          (sessionRangeTotals (tablesOf eventKey (sessions key)) windows) =
          windows.map fun window ↦ reported sessions window (maps window) [key] := by
        rw [hlive]
        unfold insertRanges Session.rangeTotalsMulti
        rw [List.zipWith_map, List.zipWith_self]
        rfl
      rw [hinsert] at h
      exact ih _ _ h

/-- A batch query returns, for every window, the live totals of the sessions that have any. -/
theorem rangeTotalsMultiOn_eq_live {sessionKeys : List String}
    {out : List (ExtTreeMap String RangeTotals)} (hread : ∀ key, Readable (sessions key))
    (hsafe : ∀ window ∈ windows, ¬ windowOverrunsEpoch window)
    (h : rangeTotalsMultiOn control (fun key ↦ tablesOf eventKey (sessions key)) sessionKeys
      windows = .ok out) :
    out = windows.map fun window ↦ reported sessions window ∅ sessionKeys := by
  unfold rangeTotalsMultiOn at h
  split at h
  · contradiction
  split at h
  · contradiction
  split at h
  · contradiction
  split at h
  · contradiction
  · next hreversed =>
    have hordered : ∀ window ∈ windows, reversed window = false := by
      simpa using hreversed
    cases hfold : sessionKeys.foldlM
        (querySession control (fun key ↦ tablesOf eventKey (sessions key)) windows)
        (control.rows, windows.map fun _ ↦ ∅) with
    | error e =>
      rw [hfold] at h
      contradiction
    | ok acc =>
      rw [hfold] at h
      obtain rfl := Except.ok.inj h
      exact foldlM_querySession hread hordered hsafe sessionKeys control.rows (fun _ ↦ ∅) hfold

/-- A reported session is one that was asked for and has data. -/
theorem getElem?_reported (window : RangeWindow) (sessionKeys : List String) (key : String) :
    (reported sessions window ∅ sessionKeys)[key]? =
      if key ∈ sessionKeys ∧ rangeHasData (liveTotals (sessions key) window) = true then
        some (liveTotals (sessions key) window)
      else none := by
  induction sessionKeys using List.reverseRecOn with
  | nil => simp [reported]
  | append_singleton keys last ih =>
    unfold reported at ih ⊢
    rw [List.foldl_append, List.foldl_cons, List.foldl_nil]
    by_cases hlast : last = key
    · subst hlast
      split
      · next hdata => simp [hdata]
      · next hdata => simp [ih, hdata]
    · split
      · rw [ExtTreeMap.getElem?_insert]
        simp [hlast, Ne.symm hlast, ih]
      · simp [Ne.symm hlast, ih]

end Sessions

end AgentOdometer.Ledger
