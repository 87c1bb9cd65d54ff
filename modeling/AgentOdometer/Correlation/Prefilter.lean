import AgentOdometer.Correlation.Correlate

/-!
# Correlating the candidates alone

The correlation is a fold over the sessions for each event on its own, and a session whose span
overlaps no window of an event counts there only where the windows are wider in milliseconds
than exactly. The candidates give the same result as all sessions exactly when that happens to
none of the others.
-/

namespace AgentOdometer.Correlation

open Telemetry

variable {query : CorrelationQuery} {plans : List EventPlan} {session : Session}

/-! ### One session -/

section Lists

variable {α β γ : Type}

theorem chunksOfTwo_flatMap (f g : α → β) (h : β → γ) (l : List α) :
    chunksOfTwo ((l.flatMap fun a ↦ [f a, g a]).map h) = l.map fun a ↦ (h (f a), h (g a)) := by
  induction l with
  | nil => rfl
  | cons a l ih =>
    rw [List.map_cons, ← ih]
    rfl

theorem modify_append_cons (f : β → β) (done todo : List β) (b : β) :
    (done ++ b :: todo).modify done.length f = done ++ f b :: todo := by
  induction done with
  | nil => rfl
  | cons d done ih =>
    rw [List.length_cons, List.cons_append, List.modify_succ_cons, ih]
    rfl

/-- Modifying the entries of the selected positions is an entrywise update. -/
theorem foldl_modify_zipIdx (p : α → Bool) (g : α → β → β) (l : List α) (done todo : List β)
    (hlength : todo.length = l.length) :
    ((l.zipIdx done.length).filter fun entry ↦ p entry.1).foldl
        (fun entries entry ↦ entries.modify entry.2 (g entry.1)) (done ++ todo) =
      done ++ l.zipWith (fun a b ↦ if p a then g a b else b) todo := by
  induction l generalizing done todo with
  | nil =>
    rw [List.length_eq_zero_iff.mp hlength]
    rfl
  | cons a l ih =>
    cases todo with
    | nil => cases hlength
    | cons b todo =>
      have hnext := fun c ↦ ih (done ++ [c]) todo (Nat.succ.inj hlength)
      simp only [List.length_append, List.length_singleton, List.append_assoc,
        List.singleton_append] at hnext
      rw [List.zipIdx_cons, List.filter_cons, List.zipWith_cons_cons]
      by_cases ha : p a = true
      · rw [if_pos ha, if_pos ha, List.foldl_cons, modify_append_cons, hnext]
      · rw [if_neg ha, if_neg ha, hnext]

/-- Entrywise updates one after the other are one entrywise fold. -/
theorem foldl_zipWith (step : β → α → γ → γ) (l : List α) (start : α → γ) (sessions : List β) :
    sessions.foldl (fun entries b ↦ l.zipWith (step b) entries) (l.map start) =
      l.map fun a ↦ sessions.foldl (fun c b ↦ step b a c) (start a) := by
  induction sessions generalizing start with
  | nil => rfl
  | cons b sessions ih =>
    have hstep : l.zipWith (step b) (l.map start) = l.map fun a ↦ step b a (start a) := by
      rw [List.zipWith_map_right, List.zipWith_self]
    rw [List.foldl_cons, hstep, ih]
    rfl

end Lists

/-- The totals of a session in one window. -/
def totalsIn (session : Session) (window : RangeWindow) : RangeTotals :=
  .ofEvents (RangeTotals.select TokenHistoryPoint.timestamp window session.tokensHistory)
    (RangeTotals.select ToolObservation.timestamp window session.toolObservations)
    (RangeTotals.selectFindings window session.optimizationFindings)

/-- What a session adds to the observations of an event. -/
def addSession (session : Session) (plan : EventPlan) (observations : Observations) :
    Observations :=
  (addRange observations.1 session plan.windows.before (totalsIn session plan.windows.before),
    addRange observations.2 session plan.windows.after (totalsIn session plan.windows.after))

/-- One session seen from one event. -/
def observe (query : CorrelationQuery) (plan : EventPlan) (observations : Observations)
    (session : Session) : Observations :=
  if isIncluded query (scopeOf session) && isMatched query (scopeOf session) plan then
    addSession session plan observations
  else observations

theorem correlateSession_eq {observations : List Observations}
    (hlength : observations.length = plans.length) :
    correlateSession query plans observations session =
      plans.zipWith (fun plan entry ↦ observe query plan entry session) observations := by
  unfold correlateSession observe
  by_cases hincluded : isIncluded query (scopeOf session) = true
  · rw [if_pos hincluded]
    have htotals : ∀ matched : List (EventPlan × Nat),
        session.rangeTotalsMulti (matched.flatMap fun entry ↦
            [entry.1.windows.before, entry.1.windows.after]) =
          (matched.flatMap fun entry ↦
            [entry.1.windows.before, entry.1.windows.after]).map (totalsIn session) :=
      fun _ ↦ rfl
    simp only [htotals, chunksOfTwo_flatMap, ← List.map_prod_left_eq_zip, List.foldl_map,
      hincluded, Bool.true_and]
    exact foldl_modify_zipIdx (isMatched query (scopeOf session)) (addSession session) plans []
      observations hlength
  · rw [if_neg hincluded]
    simp only [Bool.not_eq_true] at hincluded
    simp only [hincluded, Bool.false_and, Bool.false_eq_true, if_false]
    apply List.ext_getElem
    · rw [List.length_zipWith, hlength, min_self]
    · intro i _ _
      rw [List.getElem_zipWith]

/-- The correlation folds the sessions for each event on its own. -/
theorem correlateAt_eq (sessions : List Session) (query : CorrelationQuery) (now : DateTime) :
    correlateAt sessions query now = (eventPlans query).map fun plans ↦
      plans.map fun plan ↦ report query now plan
        (sessions.foldl (observe query plan) (.empty, .empty)) := by
  have hrun : ∀ (plans : List EventPlan) (rest : List Session) (entries : List Observations),
      entries.length = plans.length →
        rest.foldl (correlateSession query plans) entries = rest.foldl (fun entries session ↦
          plans.zipWith (fun plan entry ↦ observe query plan entry session) entries) entries := by
    intro plans rest
    induction rest with
    | nil => exact fun _ _ ↦ rfl
    | cons session rest ih =>
      intro entries hlength
      rw [List.foldl_cons, List.foldl_cons, correlateSession_eq hlength]
      apply ih
      rw [List.length_zipWith, hlength, min_self]
  unfold correlateAt
  congr 1
  funext plans
  dsimp only
  rw [hrun plans sessions _ (List.length_map _),
    foldl_zipWith (fun session plan entry ↦ observe query plan entry session),
    List.zipWith_map_right, List.zipWith_self]

/-! ### Sessions which count -/

/-- A session has usage at an instant with the given property. -/
def HasUsage (session : Session) (p : DateTime → Prop) : Prop :=
  (∃ event ∈ session.tokensHistory, p event.timestamp ∧ event.delta.totalTokens ≠ 0) ∨
    ∃ item ∈ session.toolObservations, p item.timestamp

theorem HasUsage.mono {p q : DateTime → Prop} (h : HasUsage session p)
    (himp : ∀ event ∈ session.tokensHistory, p event.timestamp → q event.timestamp)
    (himp' : ∀ item ∈ session.toolObservations, p item.timestamp → q item.timestamp) :
    HasUsage session q := by
  obtain ⟨event, hmem, hp, htotal⟩ | ⟨item, hmem, hp⟩ := h
  · exact .inl ⟨event, hmem, himp event hmem hp, htotal⟩
  · exact .inr ⟨item, hmem, himp' item hmem hp⟩

/-- The totals of a window are skipped. -/
def isSkipped (range : RangeTotals) : Bool :=
  decide (range.tokens.totalTokens = 0 ∧ range.toolMetrics.calls = 0)

private theorem totalTokens_sum_eq_zero {events : List TokenHistoryPoint} :
    (events.map TokenHistoryPoint.delta).sum.totalTokens = 0 ↔
      ∀ event ∈ events, event.delta.totalTokens = 0 := by
  induction events with
  | nil => exact ⟨fun _ _ h ↦ (nomatch h), fun _ ↦ rfl⟩
  | cons event events ih =>
    rw [List.map_cons, List.sum_cons, List.forall_mem_cons, ← ih]
    exact Nat.add_eq_zero_iff

/-- The totals of a window count exactly when the session has usage in its milliseconds. -/
theorem isSkipped_totalsIn {window : RangeWindow} :
    isSkipped (totalsIn session window) = false ↔
      HasUsage session fun t ↦ RangeTotals.inWindow window t = true := by
  have htokens : (totalsIn session window).tokens.totalTokens = 0 ↔
      ∀ event ∈ session.tokensHistory, RangeTotals.inWindow window event.timestamp = true →
        event.delta.totalTokens = 0 := by
    show (List.foldl RangeTotals.addEvent _ _).1.totalTokens = 0 ↔ _
    rw [RangeTotals.tokens_eq, totalTokens_sum_eq_zero, RangeTotals.select_dateTime]
    simp only [List.mem_filter, and_imp]
  have hcalls : (totalsIn session window).toolMetrics.calls = 0 ↔
      ∀ item ∈ session.toolObservations, RangeTotals.inWindow window item.timestamp = false := by
    show (metrics _).calls = 0 ↔ _
    rw [calls_metrics, RangeTotals.select_dateTime, List.length_eq_zero_iff,
      List.filter_eq_nil_iff]
    simp only [Bool.not_eq_true]
  rw [isSkipped, decide_eq_false_iff_not, htokens, hcalls, HasUsage, not_and_or]
  push Not
  simp only [Bool.not_eq_false]

theorem addRange_of_skipped {out : CorrelationObservation} {window : RangeWindow}
    {range : RangeTotals} (h : isSkipped range = true) :
    addRange out session window range = out := by
  rw [addRange, if_pos (of_decide_eq_true h)]

theorem sessionCount_addRange {out : CorrelationObservation} {window : RangeWindow}
    {range : RangeTotals} :
    (addRange out session window range).sessionCount =
      out.sessionCount + if isSkipped range then 0 else 1 := by
  unfold addRange isSkipped
  simp only [decide_eq_true_eq]
  split <;> rfl

/-- A session counts in a window of an event. -/
def countsIn (query : CorrelationQuery) (plan : EventPlan) (window : EventWindows → RangeWindow)
    (session : Session) : Bool :=
  isIncluded query (scopeOf session) && isMatched query (scopeOf session) plan &&
    !isSkipped (totalsIn session (window plan.windows))

/-- The sample sizes are the numbers of the sessions which count. -/
theorem sessionCount_foldl_observe {plan : EventPlan} (sessions : List Session)
    (observations : Observations) :
    (sessions.foldl (observe query plan) observations).1.sessionCount =
        observations.1.sessionCount + sessions.countP (countsIn query plan EventWindows.before) ∧
      (sessions.foldl (observe query plan) observations).2.sessionCount =
        observations.2.sessionCount + sessions.countP (countsIn query plan EventWindows.after) := by
  induction sessions generalizing observations with
  | nil => exact ⟨rfl, rfl⟩
  | cons session sessions ih =>
    rw [List.foldl_cons, (ih _).1, (ih _).2, List.countP_cons, List.countP_cons, observe]
    by_cases hmatched : (isIncluded query (scopeOf session) &&
        isMatched query (scopeOf session) plan) = true
    · rw [if_pos hmatched, countsIn, countsIn, hmatched, Bool.true_and, Bool.true_and]
      show (addRange _ _ _ _).sessionCount + _ = _ ∧ (addRange _ _ _ _).sessionCount + _ = _
      rw [sessionCount_addRange, sessionCount_addRange]
      generalize isSkipped (totalsIn session plan.windows.before) = skipsBefore
      generalize isSkipped (totalsIn session plan.windows.after) = skipsAfter
      cases skipsBefore <;> cases skipsAfter <;>
        simp only [Bool.not_true, Bool.not_false, Bool.false_eq_true, if_true, if_false] <;>
        omega
    · rw [if_neg hmatched, countsIn, countsIn, Bool.eq_false_iff.mpr hmatched]
      simp

/-! ### Candidates -/

/-- An instant lies in a window by its milliseconds, and outside of it exactly. -/
def AtBound (window : RangeWindow) (t : DateTime) : Prop :=
  RangeTotals.inWindow window t = true ∧ intervalOverlaps t t window = false

/-- A session is looked at, its span overlaps no window of an event which takes samples of it,
and it has usage which such a window takes by milliseconds only. -/
def HiddenAtBound (query : CorrelationQuery) (plans : List EventPlan) (session : Session) :
    Prop :=
  isIncluded query (scopeOf session) = true ∧
    (∀ plan ∈ plans, isMatched query (scopeOf session) plan = true →
      overlapsPlan (.of session) plan = false) ∧
      ∃ plan ∈ plans, isMatched query (scopeOf session) plan = true ∧
        (HasUsage session (AtBound plan.windows.before) ∨
          HasUsage session (AtBound plan.windows.after))

/-- The usage of a session lies in its span. -/
def InSpan (session : Session) : Prop :=
  (∀ event ∈ session.tokensHistory,
      session.startedAt ≤ event.timestamp ∧ event.timestamp ≤ session.lastEventAt) ∧
    ∀ item ∈ session.toolObservations,
      session.startedAt ≤ item.timestamp ∧ item.timestamp ≤ session.lastEventAt

/-- An instant of the span in a window makes the span overlap it. -/
theorem intervalOverlaps_of_mem {start stop t : DateTime} {window : RangeWindow}
    (hstart : start ≤ t) (hstop : t ≤ stop) (h : intervalOverlaps t t window = true) :
    intervalOverlaps start stop window = true := by
  obtain ⟨lower, upper⟩ := window
  unfold intervalOverlaps at h ⊢
  rw [Bool.and_eq_true] at h ⊢
  constructor
  · cases lower with
    | none => rfl
    | some lower => exact decide_eq_true ((of_decide_eq_true h.1).trans hstop)
  · cases upper with
    | none => rfl
    | some upper => exact decide_eq_true (hstart.trans (of_decide_eq_true h.2))

/-- Where the span overlaps no window, usage in its milliseconds is usage at its bound. -/
theorem hasUsage_atBound (hspan : InSpan session) {window : RangeWindow}
    (hoverlap : intervalOverlaps session.startedAt session.lastEventAt window = false) :
    HasUsage session (AtBound window) ↔
      HasUsage session fun t ↦ RangeTotals.inWindow window t = true := by
  have hout : ∀ t : DateTime, session.startedAt ≤ t ∧ t ≤ session.lastEventAt →
      intervalOverlaps t t window = false := by
    intro t ht
    by_contra hin
    rw [Bool.not_eq_false] at hin
    rw [intervalOverlaps_of_mem ht.1 ht.2 hin] at hoverlap
    cases hoverlap
  constructor
  · intro h
    exact h.mono (fun _ _ hbound ↦ hbound.1) fun _ _ hbound ↦ hbound.1
  · intro h
    exact h.mono (fun event hmem hin ↦ ⟨hin, hout _ (hspan.1 event hmem)⟩)
      fun item hmem hin ↦ ⟨hin, hout _ (hspan.2 item hmem)⟩

/-- A session which is no candidate counts somewhere exactly when it is hidden. -/
theorem hiddenAtBound_iff (hspan : InSpan session) :
    HiddenAtBound query plans session ↔ isCandidate query plans (.of session) = false ∧
      ∃ plan ∈ plans, countsIn query plan EventWindows.before session = true ∨
        countsIn query plan EventWindows.after session = true := by
  have hcounts : ∀ plan : EventPlan, isMatched query (scopeOf session) plan = true →
      isIncluded query (scopeOf session) = true → overlapsPlan (.of session) plan = false →
        ((countsIn query plan EventWindows.before session = true ∨
            countsIn query plan EventWindows.after session = true) ↔
          (HasUsage session (AtBound plan.windows.before) ∨
            HasUsage session (AtBound plan.windows.after))) := by
    intro plan hmatched hincluded hoverlap
    rw [overlapsPlan, Bool.or_eq_false_iff] at hoverlap
    rw [hasUsage_atBound hspan hoverlap.1, hasUsage_atBound hspan hoverlap.2,
      ← isSkipped_totalsIn, ← isSkipped_totalsIn]
    unfold countsIn
    simp [hmatched, hincluded]
  constructor
  · rintro ⟨hincluded, hnone, plan, hplan, hmatched, husage⟩
    refine ⟨?_, plan, hplan,
      (hcounts plan hmatched hincluded (hnone plan hplan hmatched)).mpr husage⟩
    rw [isCandidate, Bool.and_eq_false_iff]
    right
    rw [List.any_eq_false]
    intro other hother hboth
    rw [Bool.and_eq_true] at hboth
    rw [hnone other hother hboth.1] at hboth
    cases hboth.2
  · rintro ⟨hcandidate, plan, hplan, husage⟩
    have hboth : isIncluded query (scopeOf session) = true ∧
        isMatched query (scopeOf session) plan = true := by
      obtain h | h := husage <;> rw [countsIn, Bool.and_eq_true, Bool.and_eq_true] at h <;>
        exact h.1
    have hnone : ∀ plan ∈ plans, isMatched query (scopeOf session) plan = true →
        overlapsPlan (.of session) plan = false := by
      intro other hother hmatched
      rw [isCandidate, Bool.and_eq_false_iff] at hcandidate
      obtain hincluded | hall := hcandidate
      · have hincluded' : isIncluded query (scopeOf session) = false := hincluded
        rw [hboth.1] at hincluded'
        cases hincluded'
      · rw [List.any_eq_false] at hall
        have hother' := hall other hother
        rw [Bool.and_eq_true, not_and, Bool.not_eq_true] at hother'
        exact hother' hmatched
    exact ⟨hboth.1, hnone, plan, hplan, hboth.2,
      (hcounts plan hboth.2 hboth.1 (hnone plan hplan hboth.2)).mp husage⟩

/-- A session which counts in no window changes nothing. -/
theorem observe_of_not_counts {plan : EventPlan} {observations : Observations}
    (h : ¬(countsIn query plan EventWindows.before session = true ∨
      countsIn query plan EventWindows.after session = true)) :
    observe query plan observations session = observations := by
  unfold observe
  split
  · rename_i hmatched
    rw [not_or, countsIn, countsIn, hmatched, Bool.true_and, Bool.true_and, Bool.not_eq_true,
      Bool.not_eq_true, Bool.not_eq_false', Bool.not_eq_false'] at h
    rw [addSession, addRange_of_skipped h.1, addRange_of_skipped h.2]
  · rfl

variable {sessions : List (String × Session)}

/-- The candidates among sessions with distinct keys. -/
theorem correlateCandidates_eq (hkeys : (sessions.map Prod.fst).Nodup) (now : DateTime) :
    correlateCandidates sessions query now = (eventPlans query).bind fun plans ↦
      correlateAt ((sessions.filter fun entry ↦ isCandidate query plans (.of entry.2)).map
        Prod.snd) query now := by
  unfold correlateCandidates candidateSessionKeys
  cases eventPlans query with
  | none => rfl
  | some plans =>
    show correlateAt _ query now = correlateAt _ query now
    congr 2
    apply List.filter_congr
    intro entry hentry
    dsimp only
    rw [Bool.eq_iff_iff, List.contains_iff_mem, List.filter_map, List.map_map, List.mem_map]
    constructor
    · rintro ⟨other, hother, hkey⟩
      rw [List.mem_filter] at hother
      have heq : other = entry := List.inj_on_of_nodup_map hkeys hother.1 hentry hkey
      rw [heq] at hother
      exact hother.2
    · intro hcandidate
      exact ⟨entry, List.mem_filter.mpr ⟨hentry, hcandidate⟩, rfl⟩

/-- Every sample size of the candidates is the one of all sessions exactly when no other session
counts. -/
theorem countP_filter_eq {α : Type} {p q : α → Bool} {l : List α} :
    (l.filter q).countP p = l.countP p ↔ ∀ a ∈ l, q a = false → p a = false := by
  rw [l.countP_eq_countP_filter_add p q]
  constructor
  · intro h a ha hq
    have hzero : (l.filter fun a ↦ !q a).countP p = 0 := by omega
    rw [List.countP_eq_zero] at hzero
    rw [← Bool.not_eq_true]
    exact hzero a (List.mem_filter.mpr ⟨ha, by simp [hq]⟩)
  · intro h
    have hzero : (l.filter fun a ↦ !q a).countP p = 0 := by
      rw [List.countP_eq_zero]
      intro a ha
      rw [List.mem_filter, Bool.not_eq_true'] at ha
      rw [h a ha.1 ha.2]
      exact Bool.false_ne_true
    omega

/-- The correlation of a part of the sessions is that of all of them exactly when no other
session counts. -/
theorem foldl_observe_filter_iff (q : Session → Bool) (sessions : List Session) (now : DateTime) :
    (plans.map fun plan ↦ report query now plan
        ((sessions.filter q).foldl (observe query plan) (.empty, .empty))) =
      (plans.map fun plan ↦ report query now plan
        (sessions.foldl (observe query plan) (.empty, .empty))) ↔
      ∀ plan ∈ plans, ∀ session ∈ sessions, q session = false →
        ¬(countsIn query plan EventWindows.before session = true ∨
          countsIn query plan EventWindows.after session = true) := by
  constructor
  · intro heq plan hplan session hsession hq hcounts
    have hreport := List.map_inj_left.mp heq plan hplan
    have hbefore : ((sessions.filter q).foldl (observe query plan)
        (.empty, .empty)).1.sessionCount =
          (sessions.foldl (observe query plan) (.empty, .empty)).1.sessionCount :=
      congrArg (fun r ↦ r.before.sessionCount) hreport
    have hafter : ((sessions.filter q).foldl (observe query plan)
        (.empty, .empty)).2.sessionCount =
          (sessions.foldl (observe query plan) (.empty, .empty)).2.sessionCount :=
      congrArg (fun r ↦ r.after.sessionCount) hreport
    rw [(sessionCount_foldl_observe _ _).1, (sessionCount_foldl_observe _ _).1,
      Nat.add_left_cancel_iff, countP_filter_eq] at hbefore
    rw [(sessionCount_foldl_observe _ _).2, (sessionCount_foldl_observe _ _).2,
      Nat.add_left_cancel_iff, countP_filter_eq] at hafter
    rw [hbefore session hsession hq, hafter session hsession hq] at hcounts
    simp at hcounts
  · intro h
    apply List.map_congr_left
    intro plan hplan
    congr 1
    rw [List.foldl_filter]
    apply List.foldl_ext
    intro observations session hsession
    split
    · rfl
    · rename_i hq
      rw [Bool.not_eq_true] at hq
      exact (observe_of_not_counts (h plan hplan session hsession hq)).symm

/-- An instant of the first second of the epoch, in microseconds. -/
def instant (micros : Fin 1000000) : DateTime :=
  ⟨micros * 1000, by
    have := micros.isLt
    unfold minUtcNanos
    omega, by
    have := micros.isLt
    unfold maxUtcNanos
    omega⟩

/-- An event half a millisecond after the epoch. -/
def lateEvent : ExternalEvent :=
  ⟨"e", instant 500, none, "config", "config_changed", ∅⟩

/-- A request for it. -/
def lateQuery : CorrelationQuery :=
  ⟨[lateEvent], 7, 7, false, true⟩

/-- A session with one token event at the given instant. -/
def momentSession (id : String) (t : DateTime) : Session :=
  { Session.blank .codex id t with
    tokensHistory := [⟨t, none, none, none, 5, ⟨5, 0, 0, 0, 0, 5⟩⟩] }

theorem inSpan_momentSession (id : String) (t : DateTime) : InSpan (momentSession id t) := by
  constructor
  · intro event hevent
    cases List.mem_singleton.mp hevent
    exact ⟨le_rfl, le_rfl⟩
  · exact fun item hitem ↦ nomatch hitem

end AgentOdometer.Correlation
