import AgentOdometer.Parser.Json
import AgentOdometer.Quota.CollapsedSeries
import AgentOdometer.Quota.Receipt

/-!
# Readers of collapsed histories

`build_quota_snapshot` and `quota_receipt` over a collapsed rate-limit history
(`quota.rs:594–637`, `turn_receipts.rs:342–418`). Both read the raw history, as long as every run
has the windows of all of its observations.
-/

namespace AgentOdometer.Quota

open RateLimitSnapshotPoint (RunOf Ascending Exact IsRaw collapse)

/-! ### Points of a turn -/

/-- Two points of the same turn and limit with the same windows. -/
structure SamePoint (a b : RateLimitSnapshotPoint) : Prop where
  turnId : a.turnId = b.turnId
  limitId : a.limitId = b.limitId
  primary : a.primary = b.primary
  secondary : a.secondary = b.secondary

/-- The observations of a run are of its turn and limit and have its windows, in any order. -/
structure SameRun (point : RateLimitSnapshotPoint) (run : List RateLimitSnapshotPoint) : Prop where
  ne_nil : run ≠ []
  same : ∀ observation ∈ run, SamePoint point observation

theorem sameRun_reverse {point : RateLimitSnapshotPoint} {run : List RateLimitSnapshotPoint}
    (h : RunOf point run.reverse) : SameRun point run := by
  refine ⟨fun hnil ↦ h.ne_nil (by rw [hnil]; rfl), fun observation hobservation ↦ ?_⟩
  obtain ⟨hturn, hlimit, hprimary, hsecondary⟩ :=
    h.same observation (List.mem_reverse.mpr hobservation)
  exact ⟨hturn.symm, hlimit.symm, hprimary.symm, hsecondary.symm⟩

section

variable {points raw : List RateLimitSnapshotPoint} (turnId : String)

/-- The first point of another turn is one in both histories. -/
theorem find?_expands (h : Expands SameRun points raw) :
    Option.Rel SamePoint (points.find? (·.turnId ≠ some turnId))
      (raw.find? (·.turnId ≠ some turnId)) := by
  induction h with
  | nil => exact .none
  | @cons point run points raw hrun _ ih =>
    obtain ⟨first, rest, rfl⟩ := List.exists_cons_of_ne_nil hrun.ne_nil
    have hfirst := hrun.same first List.mem_cons_self
    by_cases hturn : point.turnId = some turnId
    · have hskip : (first :: rest).find? (·.turnId ≠ some turnId) = none := by
        refine List.find?_eq_none.mpr fun observation hobservation ↦ ?_
        rw [← (hrun.same observation hobservation).turnId]
        simpa using hturn
      rw [List.find?_cons_of_neg (by simpa using hturn), List.find?_append, hskip, Option.none_or]
      exact ih
    · rw [List.find?_cons_of_pos (by simpa using hturn), List.cons_append,
        List.find?_cons_of_pos (by rw [← hfirst.turnId]; simpa using hturn)]
      exact .some hfirst

/-- The first point of the turn is one in both histories, and so is the next one of another
turn. -/
theorem dropWhile_expands (h : Expands SameRun points raw) :
    (points.dropWhile (·.turnId ≠ some turnId) = [] ∧
        raw.dropWhile (·.turnId ≠ some turnId) = []) ∨
      ∃ after earlier after' earlier',
        points.dropWhile (·.turnId ≠ some turnId) = after :: earlier ∧
        raw.dropWhile (·.turnId ≠ some turnId) = after' :: earlier' ∧ SamePoint after after' ∧
        Option.Rel SamePoint (earlier.find? (·.turnId ≠ some turnId))
          (earlier'.find? (·.turnId ≠ some turnId)) := by
  induction h with
  | nil => exact Or.inl ⟨rfl, rfl⟩
  | @cons point run points raw hrun hrest ih =>
    by_cases hturn : point.turnId = some turnId
    · -- the run is the newest one of the turn
      obtain ⟨first, rest, rfl⟩ := List.exists_cons_of_ne_nil hrun.ne_nil
      have hfirst := hrun.same first List.mem_cons_self
      refine Or.inr ⟨point, points, first, rest ++ raw, ?_, ?_, hfirst, ?_⟩
      · rw [List.dropWhile_cons_of_neg (by simpa using hturn)]
      · rw [List.cons_append,
          List.dropWhile_cons_of_neg (by rw [← hfirst.turnId]; simpa using hturn)]
      · have hskip : rest.find? (·.turnId ≠ some turnId) = none := by
          refine List.find?_eq_none.mpr fun observation hobservation ↦ ?_
          rw [← (hrun.same observation (List.mem_cons_of_mem first hobservation)).turnId]
          simpa using hturn
        rw [List.find?_append, hskip, Option.none_or]
        exact find?_expands turnId hrest
    · rw [List.dropWhile_cons_of_pos (by simpa using hturn),
        List.dropWhile_append_of_pos fun observation hobservation ↦ ?_]
      · exact ih
      · rw [← (hrun.same observation hobservation).turnId]
        simpa using hturn

/-- A receipt reads the same points of both histories. -/
theorem quotaPoints_expands (h : Expands RunOf points raw) :
    Option.Rel (fun found found' ↦ Option.Rel SamePoint found.1 found'.1 ∧
        SamePoint found.2 found'.2) (quotaPoints points turnId) (quotaPoints raw turnId) := by
  have hreverse : Expands SameRun points.reverse raw.reverse :=
    h.reverse.mono fun _ _ ↦ sameRun_reverse
  unfold quotaPoints
  rcases dropWhile_expands turnId hreverse with
    ⟨hnone, hnone'⟩ | ⟨after, earlier, after', earlier', hafter, hafter', hsame, hbefore⟩
  · rw [hnone, hnone']
    exact .none
  · rw [hafter, hafter']
    exact .some ⟨hbefore, hsame⟩

end

/-- What a receipt says of a window it reads from the limits and the windows of its points. -/
theorem quotaWindowPart_congr {before before' : Option RateLimitSnapshotPoint}
    {after after' : RateLimitSnapshotPoint} (hbefore : Option.Rel SamePoint before before')
    (hafter : SamePoint after after') (primary : Bool) :
    quotaWindowPart before after primary = quotaWindowPart before' after' primary := by
  unfold quotaWindowPart
  cases hbefore with
  | none => simp only [hafter.primary, hafter.secondary, hafter.limitId]
  | some hsame =>
    simp only [Option.bind_some, hafter.primary, hafter.secondary, hafter.limitId, hsame.primary,
      hsame.secondary, hsame.limitId]

theorem quotaReceipt_expands {points raw : List RateLimitSnapshotPoint}
    (h : Expands RunOf points raw) (session : Session) (turn : TurnInfo) :
    quotaReceipt { session with rateLimitsHistory := points } turn =
      quotaReceipt { session with rateLimitsHistory := raw } turn := by
  have hpoints := quotaPoints_expands turn.turnId h
  unfold quotaReceipt
  dsimp only
  generalize quotaPoints points turn.turnId = found at hpoints
  generalize quotaPoints raw turn.turnId = found' at hpoints
  cases hpoints with
  | none => rfl
  | some hsame =>
    obtain ⟨hbefore, hafter⟩ := hsame
    simp only [Option.bind_some, quotaWindowPart_congr hbefore hafter]

/-! ### Collapsed histories -/

/-- Collapsing an ascending raw history whose runs are exact shows nowhere: the runs count every
observation, the receipt of every turn is the same, and so is every snapshot unless a run straddles
the inferred start of a window. -/
theorem collapse_invisible {raw : List RateLimitSnapshotPoint} (hraw : ∀ point ∈ raw, point.IsRaw)
    (hascending : Ascending raw) (hexact : Exact raw) :
    ((collapse raw).map (·.observationCount)).sum = raw.length ∧
    (∀ (session : Session) (turn : TurnInfo),
      quotaReceipt { session with rateLimitsHistory := collapse raw } turn =
        quotaReceipt { session with rateLimitsHistory := raw } turn) ∧
    ∀ (provider : ProviderId) (sourceSupported : Bool) (account : QuotaAccountInfo)
      (now : DateTime) (maxCacheAge : Duration),
      Unstraddled (collapse raw) (·.primary) → Unstraddled (collapse raw) (·.secondary) →
      buildQuotaSnapshot provider sourceSupported (collapse raw) account now maxCacheAge =
        buildQuotaSnapshot provider sourceSupported raw account now maxCacheAge := by
  have hruns := RateLimitSnapshotPoint.expands_collapse hraw hascending hexact
  refine ⟨RateLimitSnapshotPoint.sum_observationCount_collapse raw, quotaReceipt_expands hruns, ?_⟩
  intro provider sourceSupported account now maxCacheAge hprimary hsecondary
  exact buildQuotaSnapshot_expands hruns hascending hprimary hsecondary provider sourceSupported
    account now maxCacheAge

/-- An observation of turn `t`. -/
def sampleAt (timestamp : DateTime) (usedPercent : Float) : RateLimitSnapshotPoint :=
  .observation timestamp (some "t") none (some ⟨usedPercent, some 300, none⟩) none

theorem minUtcNanos_le_one : minUtcNanos ≤ 1 := by
  decide

theorem one_le_maxUtcNanos : 1 ≤ maxUtcNanos := by
  decide

theorem minUtcNanos_le_two : minUtcNanos ≤ 2 := by
  decide

theorem two_le_maxUtcNanos : 2 ≤ maxUtcNanos := by
  decide

/-- Usage drops, and stays where it is. -/
def samples : List RateLimitSnapshotPoint :=
  [sampleAt .epoch 90, sampleAt ⟨1, minUtcNanos_le_one, one_le_maxUtcNanos⟩ 10,
    sampleAt ⟨2, minUtcNanos_le_two, two_le_maxUtcNanos⟩ 10]

theorem collapse_invisible_samples :
    ((collapse samples).map (·.observationCount)).sum = 3 ∧
      buildQuotaSnapshot .codex true (collapse samples) .empty ⟨3, by decide, by decide⟩ ⟨9⟩ =
        buildQuotaSnapshot .codex true samples .empty ⟨3, by decide, by decide⟩ ⟨9⟩ := by
  have hraw : ∀ point ∈ samples, point.IsRaw := by
    unfold RateLimitSnapshotPoint.IsRaw
    decide +kernel
  have hascending : Ascending samples := by
    unfold Ascending
    decide +kernel
  have hexact : Exact samples := by
    unfold Exact
    decide +kernel
  have hstart : inferredStart (windowSeries (collapse samples) (·.primary)) =
      some ⟨1, by decide, by decide⟩ := by
    decide +kernel
  have hprimary : Unstraddled (collapse samples) (·.primary) := by
    intro start hmem
    rw [hstart] at hmem
    cases hmem
    unfold NoneStraddles
    decide +kernel
  have hnone : inferredStart (windowSeries (collapse samples) (·.secondary)) = none := by
    decide +kernel
  have hsecondary : Unstraddled (collapse samples) (·.secondary) := by
    intro start hmem
    rw [hnone] at hmem
    exact nomatch hmem
  obtain ⟨hcount, -, hsnapshot⟩ := collapse_invisible hraw hascending hexact
  exact ⟨hcount, hsnapshot .codex true .empty _ _ hprimary hsecondary⟩

/-- Usage of zero, and of the negative zero. -/
def zeros : List RateLimitSnapshotPoint :=
  [sampleAt .epoch 0.0, sampleAt ⟨1, minUtcNanos_le_one, one_le_maxUtcNanos⟩ (-0.0)]

/-- A run which mixes the zeros shows the first one, where the raw history shows the last one. -/
theorem quotaReceipt_zeros : (∀ point ∈ zeros, point.IsRaw) ∧ Ascending zeros ∧
    quotaReceipt { Session.blank .codex "s" .epoch with rateLimitsHistory := collapse zeros }
        (Parser.openTurn "t" 1) ≠
      quotaReceipt { Session.blank .codex "s" .epoch with rateLimitsHistory := zeros }
        (Parser.openTurn "t" 1) := by
  unfold RateLimitSnapshotPoint.IsRaw Ascending
  decide +kernel

end AgentOdometer.Quota
