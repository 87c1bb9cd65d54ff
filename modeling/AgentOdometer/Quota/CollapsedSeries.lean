import AgentOdometer.Model.ExactRuns
import AgentOdometer.Quota.Snapshot
import Mathlib.Data.List.Basic

/-!
# Snapshots over collapsed histories

What `build_percent_window` reads of a series of observations (`quota.rs:308–491`) it reads of the
series of its runs: the last instant and window, the counter decreases, and of the observations in
the inferred window the number, the first and the last one.
-/

namespace AgentOdometer.Float64

open Float.Model

/-- Nothing, or a positive zero, is left of a number taken from itself. -/
theorem unpacked_sub_self (u : UnpackedFloat) :
    UnpackedFloat.sub Format.binary64 u u = .notANumber ∨
      UnpackedFloat.sub Format.binary64 u u = .zero .positive := by
  cases u with
  | infinity sign => cases sign <;> exact Or.inl rfl
  | notANumber => exact Or.inl rfl
  | zero sign => cases sign <;> exact Or.inr rfl
  | finite sign mantissa exponent =>
    refine Or.inr ?_
    let least := min exponent exponent
    let aligned := sign.apply (UnpackedFloat.decreaseExponent mantissa exponent least).1
    change UnpackedFloat.normalize Format.binary64 (aligned - aligned) least .positive = _
    rw [Int.sub_self]
    rfl

/-- A number taken from itself is not a drop. -/
theorem not_le_sub_self (x : Float) : ¬ ((15.0 : Float) ≤ x - x) := by
  have hpack : x.toModel.sub x.toModel = pack .notANumber ∨
      x.toModel.sub x.toModel = pack (.zero .positive) :=
    (unpacked_sub_self x.toModel.unpack).imp (congrArg pack) (congrArg pack)
  rcases hpack with h | h
  · rw [show x - x = .ofModel (pack .notANumber) from congrArg Float.ofModel h]
    decide +kernel
  · rw [show x - x = .ofModel (pack (.zero .positive)) from congrArg Float.ofModel h]
    decide +kernel

end AgentOdometer.Float64

namespace AgentOdometer.Quota

open RateLimitSnapshotPoint (RunOf)

/-- An observation of a series and the raw observations which it stands for. -/
structure SeriesRun (observation : WindowObservation) (run : List WindowObservation) : Prop where
  count : observation.observationCount = (run.map (·.observationCount)).sum
  first : run.head?.map (·.timestamp) = some observation.runStartedAt
  last : run.getLast?.map (·.timestamp) = some observation.timestamp
  same : ∀ raw ∈ run, raw.window = observation.window
  raw : ∀ raw ∈ run, raw.runStartedAt = raw.timestamp
  within : ∀ raw ∈ run, observation.runStartedAt ≤ raw.timestamp ∧
    raw.timestamp ≤ observation.timestamp

theorem SeriesRun.ne_nil {observation : WindowObservation} {run : List WindowObservation}
    (h : SeriesRun observation run) : run ≠ [] := by
  rintro rfl
  exact nomatch h.first

/-- The series of a collapsed history is the raw series run by run. -/
theorem expands_windowSeries {points raw : List RateLimitSnapshotPoint}
    {pick : RateLimitSnapshotPoint → Option RateLimitWindow}
    (hpick : ∀ point run, RunOf point run → ∀ observation ∈ run, pick observation = pick point)
    (h : Expands RunOf points raw) :
    Expands SeriesRun (windowSeries points pick) (windowSeries raw pick) := by
  apply h.filterMap
  · intro point run hrun hnone
    rw [List.filterMap_eq_nil_iff]
    intro observation hobservation
    rw [hpick point run hrun observation hobservation]
    rw [Option.map_eq_none_iff] at hnone ⊢
    exact hnone
  · intro point run observation hrun hsome
    obtain ⟨window, hwindow, rfl⟩ := Option.map_eq_some_iff.mp hsome
    have hmap : run.filterMap (fun p ↦ (pick p).map fun window ↦
        ⟨p.runStartedAt.getD p.timestamp, p.timestamp, window, p.observationCount⟩) =
        run.map fun p ↦ (⟨p.timestamp, p.timestamp, window, 1⟩ : WindowObservation) := by
      rw [← List.filterMap_eq_map]
      apply List.filterMap_congr
      intro p hp
      rw [hpick point run hrun p hp, hwindow, (hrun.raw p hp).1, (hrun.raw p hp).2]
      rfl
    rw [hmap]
    refine ⟨?_, ?_, ?_, ?_, ?_, ?_⟩
    · rw [List.map_map, hrun.count]
      simp [Function.comp_def]
    · rw [List.head?_map, Option.map_map]
      exact hrun.first
    · rw [List.getLast?_map, Option.map_map]
      exact hrun.last
    · intro raw hraw
      obtain ⟨p, -, rfl⟩ := List.mem_map.mp hraw
      rfl
    · intro raw hraw
      obtain ⟨p, -, rfl⟩ := List.mem_map.mp hraw
      rfl
    · intro raw hraw
      obtain ⟨p, hp, rfl⟩ := List.mem_map.mp hraw
      exact hrun.within p hp

/-! ### Counter decreases -/

/-- Whether usage drops from one observation to the next one. -/
def isDrop (pair : WindowObservation × WindowObservation) : Bool :=
  decide ((15.0 : Float) ≤ pair.1.window.usedPercent - pair.2.window.usedPercent)

/-- When the runs begin in which usage drops. -/
def drops (series : List WindowObservation) : List DateTime :=
  ((series.zip series.tail).filter isDrop).map (·.2.runStartedAt)

/-- The detected decrease is the last one. -/
theorem detectCounterDecrease_eq (series : List WindowObservation) :
    detectCounterDecrease series = (drops series).getLast? := by
  rw [drops, List.getLast?_map, List.getLast?_filter]
  rfl

theorem drops_cons_cons (previous current : WindowObservation) (rest : List WindowObservation) :
    drops (previous :: current :: rest) =
      (if isDrop (previous, current) then [current.runStartedAt] else []) ++
        drops (current :: rest) := by
  unfold drops
  rw [List.tail_cons, List.zip_cons_cons, List.tail_cons]
  cases hdrop : isDrop (previous, current) with
  | true => rw [List.filter_cons_of_pos hdrop, List.map_cons, if_pos rfl, List.singleton_append]
  | false =>
    rw [List.filter_cons_of_neg (by rw [hdrop]; exact Bool.false_ne_true),
      if_neg Bool.false_ne_true, List.nil_append]

/-- Usage does not drop within a run. -/
theorem drops_run {window : RateLimitWindow} (first : WindowObservation)
    (rest after : List WindowObservation)
    (hsame : ∀ raw ∈ first :: rest, raw.window = window) :
    ∃ last, last.window = window ∧ drops (first :: rest ++ after) = drops (last :: after) := by
  induction rest generalizing first with
  | nil => exact ⟨first, hsame first List.mem_cons_self, rfl⟩
  | cons next rest ih =>
    obtain ⟨last, hlast, hdrops⟩ := ih next fun raw hraw ↦
      hsame raw (List.mem_cons_of_mem first hraw)
    refine ⟨last, hlast, ?_⟩
    have hsteady : ¬ isDrop (first, next) = true := by
      rw [isDrop, decide_eq_true_eq, hsame first List.mem_cons_self,
        hsame next (List.mem_cons_of_mem first List.mem_cons_self)]
      exact Float64.not_le_sub_self _
    rw [List.cons_append, List.cons_append, drops_cons_cons, if_neg hsteady, List.nil_append]
    exact hdrops

/-- Usage drops from run to run when it drops from observation to observation. -/
theorem drops_expands {series raw : List WindowObservation} (h : Expands SeriesRun series raw)
    {previous previous' : WindowObservation} (hsame : previous'.window = previous.window) :
    drops (previous :: series) = drops (previous' :: raw) := by
  induction h generalizing previous previous' with
  | nil => rfl
  | @cons observation run series raw hrun _ ih =>
    obtain ⟨first, rest, rfl⟩ := List.exists_cons_of_ne_nil hrun.ne_nil
    obtain ⟨last, hlast, hdrops⟩ := drops_run first rest raw hrun.same
    have hfirst : first.runStartedAt = observation.runStartedAt :=
      (hrun.raw first List.mem_cons_self).trans (Option.some.inj hrun.first)
    have hwindow := hrun.same first List.mem_cons_self
    have hdrop : isDrop (previous', first) = isDrop (previous, observation) := by
      unfold isDrop
      dsimp only
      rw [hsame, hwindow]
    rw [drops_cons_cons, List.cons_append, drops_cons_cons, ← List.cons_append, hdrops, hdrop,
      hfirst, ih hlast]

theorem detectCounterDecrease_expands {series raw : List WindowObservation}
    (h : Expands SeriesRun series raw) :
    detectCounterDecrease series = detectCounterDecrease raw := by
  rw [detectCounterDecrease_eq, detectCounterDecrease_eq]
  cases h with
  | nil => rfl
  | @cons observation run series raw hrun hrest =>
    obtain ⟨first, rest, rfl⟩ := List.exists_cons_of_ne_nil hrun.ne_nil
    obtain ⟨last, hlast, hdrops⟩ := drops_run first rest raw hrun.same
    rw [hdrops, drops_expands hrest hlast]

/-! ### Forecasts -/

/-- No run begins before the instant and ends at it or after it. -/
def NoneStraddles (series : List WindowObservation) (start : DateTime) : Prop :=
  ∀ run ∈ series, ¬ (run.runStartedAt < start ∧ start ≤ run.timestamp)

theorem projectedExhaustion_congr {last last' : WindowObservation}
    (h : last.window = last'.window) (pacePerHour : Float) (resetsAt : Option DateTime)
    (now : DateTime) : projectedExhaustion last pacePerHour resetsAt now =
      projectedExhaustion last' pacePerHour resetsAt now := by
  unfold projectedExhaustion
  rw [h]

/-- A forecast reads the number of the observations in the window, the first and the last one. -/
theorem forecastFromSeries_expands {series raw : List WindowObservation}
    (h : Expands SeriesRun series raw) {start now : DateTime}
    (hseries : ∀ run ∈ series, run.timestamp ≤ now) (hraw : ∀ run ∈ raw, run.timestamp ≤ now)
    (hstraddle : NoneStraddles series start) (windowMinutes : Option Nat)
    (resetsAt : Option DateTime) :
    forecastFromSeries series start windowMinutes resetsAt now =
      forecastFromSeries raw start windowMinutes resetsAt now := by
  have hwindow : Expands SeriesRun
      (series.filter fun p ↦ start ≤ p.timestamp && p.timestamp ≤ now)
      (raw.filter fun p ↦ start ≤ p.timestamp && p.timestamp ≤ now) := by
    apply h.filter
    intro observation run hmem hrun hsub r hr
    rw [decide_eq_true (hseries observation hmem), decide_eq_true (hraw r (hsub r hr)),
      Bool.and_true, Bool.and_true]
    obtain ⟨hfirst, hlast⟩ := hrun.within r hr
    apply decide_eq_decide.mpr
    constructor
    · exact fun hstart ↦ hstart.trans hlast
    · intro hstart
      by_contra hbefore
      exact hstraddle observation hmem ⟨lt_of_le_of_lt hfirst (lt_of_not_ge hbefore), hstart⟩
  have hcount := hwindow.sum_eq (f := (·.observationCount)) (g := (·.observationCount))
    fun _ _ ↦ SeriesRun.count
  have hhead := hwindow.head?_eq fun _ _ ↦ SeriesRun.ne_nil
  have hlast := hwindow.getLast?_eq fun _ _ ↦ SeriesRun.ne_nil
  unfold forecastFromSeries
  cases windowMinutes with
  | none => rfl
  | some minutes =>
    dsimp only
    rw [hcount]
    rcases hhead with ⟨hnone, hnone'⟩ | ⟨first, run, first', hfirst, hrun, hrunFirst, hfirst'⟩
    · rw [hnone, hnone']
    rcases hlast with ⟨hnone, hnone'⟩ | ⟨last, ended, last', hlast, hended, hendedLast, hlast'⟩
    · rw [hnone, hnone', hfirst, hfirst']
    rw [hfirst, hfirst', hlast, hlast']
    have hstarted : first'.runStartedAt = first.runStartedAt := by
      have hinstant := hrun.first
      rw [hrunFirst] at hinstant
      exact (hrun.raw first' (List.mem_of_head? hrunFirst)).trans (Option.some.inj hinstant)
    have hinstant : last'.timestamp = last.timestamp := by
      have hinstant := hended.last
      rw [hendedLast] at hinstant
      exact Option.some.inj hinstant
    have hfirstWindow := hrun.same first' (List.mem_of_head? hrunFirst)
    have hlastWindow := hended.same last' (List.mem_of_getLast? hendedLast)
    simp only [hstarted, hinstant, hfirstWindow, hlastWindow,
      projectedExhaustion_congr hlastWindow.symm]

/-! ### Windows -/

/-- When the window of a series is inferred to have begun. Follows `quota.rs:466–476`. -/
def inferredStart (series : List WindowObservation) : Option DateTime := do
  let latest ← series.getLast?
  let window ← anchorWindow series (emptyPercentWindow latest)
  window.windowStartedAt

/-- The anchor of a window depends on its reset and its length. -/
theorem windowStartedAt_anchorWindow (series : List WindowObservation) (latest : WindowObservation)
    {window anchored : QuotaWindow} (hreset : window.resetsAt = latest.window.resetsAt)
    (hminutes : window.windowMinutes = latest.window.windowMinutes)
    (hstarted : window.windowStartedAt = none)
    (hanchored : anchorWindow series window = some anchored) :
    (anchorWindow series (emptyPercentWindow latest)).bind (·.windowStartedAt) =
      anchored.windowStartedAt := by
  unfold anchorWindow at *
  cases hdetect : detectCounterDecrease series with
  | some rolloverAt =>
    rw [hdetect] at hanchored
    rw [← Option.some.inj hanchored]
    rfl
  | none =>
    rw [hdetect] at hanchored
    dsimp only at hanchored
    rw [hreset, hminutes] at hanchored
    have hempty : (emptyPercentWindow latest).resetsAt = latest.window.resetsAt ∧
        (emptyPercentWindow latest).windowMinutes = latest.window.windowMinutes := ⟨rfl, rfl⟩
    rw [hempty.1, hempty.2]
    cases hresetsAt : latest.window.resetsAt with
    | none =>
      rw [hresetsAt] at hanchored
      rw [← Option.some.inj hanchored, hstarted]
      rfl
    | some resetsAt =>
      cases hlength : latest.window.windowMinutes with
      | none =>
        rw [hresetsAt, hlength] at hanchored
        rw [← Option.some.inj hanchored, hstarted]
        rfl
      | some minutes =>
        rw [hresetsAt, hlength] at hanchored
        obtain ⟨span, hspan, hanchored⟩ := Option.bind_eq_some_iff.mp hanchored
        obtain ⟨startedAt, hstarted, hanchored⟩ := Option.bind_eq_some_iff.mp hanchored
        rw [← Option.some.inj hanchored]
        simp [hspan, hstarted]

theorem anchorWindow_congr {series raw : List WindowObservation}
    (h : detectCounterDecrease series = detectCounterDecrease raw) (window : QuotaWindow) :
    anchorWindow series window = anchorWindow raw window := by
  unfold anchorWindow
  rw [h]

/-- A window is the same over the runs of a series, unless a run straddles its inferred start. -/
theorem buildPercentWindow_expands {series raw : List WindowObservation}
    (h : Expands SeriesRun series raw) (hascending : raw.Pairwise (·.timestamp ≤ ·.timestamp))
    (hstraddle : ∀ start ∈ inferredStart series, NoneStraddles series start) (now : DateTime)
    (maxCacheAge : Duration) :
    buildPercentWindow series now maxCacheAge = buildPercentWindow raw now maxCacheAge := by
  unfold buildPercentWindow
  rcases h.getLast?_eq fun _ _ ↦ SeriesRun.ne_nil with
    ⟨hnone, hnone'⟩ | ⟨latest, run, latest', hlatest, hrun, hended, hlatest'⟩
  · rw [hnone, hnone']
  rw [hlatest, hlatest']
  have hinstant : latest'.timestamp = latest.timestamp := by
    have hinstant := hrun.last
    rw [hended] at hinstant
    exact Option.some.inj hinstant
  have hwindow := hrun.same latest' (List.mem_of_getLast? hended)
  have hempty : emptyPercentWindow latest' = emptyPercentWindow latest := by
    unfold emptyPercentWindow
    rw [hinstant, hwindow]
  dsimp only
  rw [hinstant, hwindow, hempty]
  split
  · rfl
  next hpast =>
    have hraw : ∀ r ∈ raw, r.timestamp ≤ now := by
      intro r hr
      obtain ⟨front, hfront⟩ := List.getLast?_eq_some_iff.mp hlatest'
      rw [hfront] at hr hascending
      have hlast : r.timestamp ≤ latest'.timestamp := by
        rcases List.mem_append.mp hr with hr | hr
        · exact (List.pairwise_append.mp hascending).2.2 r hr latest' (List.mem_singleton.mpr rfl)
        · rw [List.mem_singleton.mp hr]
      exact hlast.trans (hinstant ▸ not_lt.mp hpast)
    have hseries : ∀ observation ∈ series, observation.timestamp ≤ now := by
      intro observation hobservation
      obtain ⟨run, hrun, hmem⟩ := h.exists_run hobservation
      obtain ⟨last, hlast, hinstant⟩ := Option.map_eq_some_iff.mp hrun.last
      rw [← hinstant]
      exact hraw last (hmem last (List.mem_of_getLast? hlast))
    have hanchor := anchorWindow_congr (detectCounterDecrease_expands h)
    rw [hanchor]
    refine Option.bind_congr fun anchored hanchored ↦ ?_
    split
    next start _ hstarted =>
      have hstart : start ∈ inferredStart series := by
        rw [inferredStart, hlatest]
        exact (windowStartedAt_anchorWindow series latest rfl rfl rfl
          ((hanchor _).trans hanchored)).trans hstarted
      rw [forecastFromSeries_expands h hseries hraw (hstraddle start hstart)]
    · rfl

/-! ### Snapshots -/

/-- No collapsed run straddles the inferred start of the window which is read from it. -/
def Unstraddled (points : List RateLimitSnapshotPoint)
    (pick : RateLimitSnapshotPoint → Option RateLimitWindow) : Prop :=
  ∀ start ∈ inferredStart (windowSeries points pick),
    NoneStraddles (windowSeries points pick) start

theorem pairwise_windowSeries {raw : List RateLimitSnapshotPoint}
    (h : RateLimitSnapshotPoint.Ascending raw)
    (pick : RateLimitSnapshotPoint → Option RateLimitWindow) :
    (windowSeries raw pick).Pairwise (·.timestamp ≤ ·.timestamp) := by
  unfold windowSeries
  rw [List.pairwise_filterMap]
  refine h.imp fun hle observation hobservation observation' hobservation' ↦ ?_
  obtain ⟨_, -, rfl⟩ := Option.map_eq_some_iff.mp hobservation
  obtain ⟨_, -, rfl⟩ := Option.map_eq_some_iff.mp hobservation'
  exact hle

/-- A snapshot is the same over the runs of a history, unless a run straddles the inferred start
of a window. -/
theorem buildQuotaSnapshot_expands {points raw : List RateLimitSnapshotPoint}
    (h : Expands RunOf points raw) (hascending : RateLimitSnapshotPoint.Ascending raw)
    (hprimary : Unstraddled points (·.primary)) (hsecondary : Unstraddled points (·.secondary))
    (provider : ProviderId) (sourceSupported : Bool) (account : QuotaAccountInfo) (now : DateTime)
    (maxCacheAge : Duration) :
    buildQuotaSnapshot provider sourceSupported points account now maxCacheAge =
      buildQuotaSnapshot provider sourceSupported raw account now maxCacheAge := by
  unfold buildQuotaSnapshot
  rw [buildPercentWindow_expands
      (expands_windowSeries (fun _ _ hrun r hr ↦ (hrun.same r hr).2.2.1) h)
      (pairwise_windowSeries hascending _) hprimary,
    buildPercentWindow_expands
      (expands_windowSeries (fun _ _ hrun r hr ↦ (hrun.same r hr).2.2.2) h)
      (pairwise_windowSeries hascending _) hsecondary]

end AgentOdometer.Quota
