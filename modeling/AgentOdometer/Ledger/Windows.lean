import AgentOdometer.Base.Machine
import AgentOdometer.Ledger.Facts

/-!
# Window plans

`plan_window` (`history_store.rs:2704–2769`) splits a window into whole hour buckets and at
most two millisecond edges. The pieces tile the window, except where the truncating division
of a bound before the epoch rounds towards it.
-/

namespace AgentOdometer.Ledger

/-- Whole-hour range and millisecond edges of a window. Follows `history_store.rs:2710–2713`. -/
structure WindowPlan where
  fullBuckets : Option (Int × Int)
  edges : List (Int × Int)
deriving Repr, DecidableEq

/-- The first bucket to be read whole. Follows `history_store.rs:2727–2733`. -/
def firstFull (fromMs : Int) : Int :=
  if fromMs.tmod hourMs = 0 then fromMs.tdiv hourMs else fromMs.tdiv hourMs + 1

/-- The last bucket to be read whole. Follows `history_store.rs:2734–2740`. -/
def lastFull (toMs : Int) : Int :=
  if (toMs + 1).tmod hourMs = 0 then toMs.tdiv hourMs else toMs.tdiv hourMs - 1

/-- Buckets and edges of a window whose whole-hour range is not empty. Follows
`history_store.rs:2749–2768`. -/
def planHours (fromMs toMs : Option Int) : WindowPlan where
  fullBuckets := some ((fromMs.map firstFull).getD i64Min, (toMs.map lastFull).getD i64Max)
  edges :=
    (match fromMs with
      | none => []
      | some fromMs =>
          let boundary := firstFull fromMs * hourMs
          if boundary > fromMs then [(fromMs, boundary - 1)] else []) ++
    (match toMs with
      | none => []
      | some toMs =>
          let boundary := (lastFull toMs + 1) * hourMs
          if boundary ≤ toMs then [(boundary, toMs)] else [])

/-- Split a window into whole hours and edges. Follows `history_store.rs:2715–2769`. -/
def planWindow (fromMs toMs : Option Int) : WindowPlan :=
  match fromMs, toMs with
  | some fromMs, some toMs =>
      if fromMs > toMs then { fullBuckets := none, edges := [] }
      else if firstFull fromMs > lastFull toMs then
        { fullBuckets := none, edges := [(fromMs, toMs)] }
      else planHours (some fromMs) (some toMs)
  | fromMs, toMs => planHours fromMs toMs

/-- Whether an instant lies in a window. Follows `history_store.rs:2836–2837`. -/
def inWindow (fromMs toMs : Option Int) (ms : Int) : Bool :=
  fromMs.all (fun start ↦ decide (ms ≥ start)) && toMs.all (fun stop ↦ decide (ms ≤ stop))

/-- Whether a bucket is read whole. Follows `history_store.rs:2832–2835`. -/
def WindowPlan.inBucketRange (plan : WindowPlan) (bucket : Int) : Bool :=
  plan.fullBuckets.any fun range ↦ decide (bucket ≥ range.1) && decide (bucket ≤ range.2)

/-- `value BETWEEN first AND last`. -/
def between (value : Int) (range : Int × Int) : Bool :=
  decide (range.1 ≤ value) && decide (value ≤ range.2)

/-- A window which ends one millisecond before the epoch and covers the last hour before it:
its last whole bucket is taken to be hour zero. -/
def overrunsEpoch (fromMs toMs : Option Int) : Prop :=
  toMs = some (-1) ∧ ∀ start ∈ fromMs, start ≤ -hourMs

instance (fromMs toMs : Option Int) : Decidable (overrunsEpoch fromMs toMs) :=
  inferInstanceAs (Decidable (_ ∧ _))

/-! ### Truncating division -/

private theorem tdiv_hourMs_nonneg {n : Int} (h : 0 ≤ n) :
    hourMs * n.tdiv hourMs ≤ n ∧ n < hourMs * n.tdiv hourMs + hourMs := by
  unfold hourMs
  rw [Int.tdiv_eq_ediv_of_nonneg h]
  omega

private theorem tdiv_hourMs_nonpos {n : Int} (h : n ≤ 0) :
    n ≤ hourMs * n.tdiv hourMs ∧ hourMs * n.tdiv hourMs - hourMs < n := by
  have hneg := tdiv_hourMs_nonneg (n := -n) (by omega)
  rw [Int.neg_tdiv] at hneg
  unfold hourMs at *
  omega

private theorem tmod_hourMs (n : Int) : n.tmod hourMs = n - hourMs * n.tdiv hourMs :=
  Int.tmod_def n hourMs

/-- The bucket of an event holds exactly the milliseconds of its hour. -/
theorem hourBucket_bounds {ms : Int} (h : 0 ≤ ms) :
    0 ≤ hourBucket ms ∧ hourMs * hourBucket ms ≤ ms ∧ ms < hourMs * hourBucket ms + hourMs := by
  have hbounds := tdiv_hourMs_nonneg h
  unfold hourBucket hourMs at *
  omega

/-- Bounds of the first whole bucket. -/
theorem firstFull_bounds (fromMs : Int) :
    fromMs ≤ hourMs * firstFull fromMs ∧
      (0 ≤ fromMs → hourMs * firstFull fromMs < fromMs + hourMs) ∧
      (fromMs ≤ -hourMs → firstFull fromMs ≤ 0) ∧
      (-hourMs < fromMs → fromMs < 0 → firstFull fromMs = 1) := by
  unfold firstFull
  rw [tmod_hourMs]
  obtain hle | hle := Int.le_total 0 fromMs
  · have hbounds := tdiv_hourMs_nonneg hle
    unfold hourMs at *
    split <;> omega
  · have hbounds := tdiv_hourMs_nonpos hle
    unfold hourMs at *
    split <;> omega

/-- Bounds of the last whole bucket. Only `-1` misses the hour it ends with. -/
theorem lastFull_bounds (toMs : Int) :
    (0 ≤ toMs → hourMs * lastFull toMs + hourMs ≤ toMs + 1 ∧
        toMs + 1 < hourMs * lastFull toMs + hourMs + hourMs) ∧
      (toMs = -1 → lastFull toMs = 0) ∧ (toMs < -1 → lastFull toMs < 0) := by
  unfold lastFull
  rw [tmod_hourMs]
  obtain hle | hle := Int.le_total 0 toMs
  · have hbounds := tdiv_hourMs_nonneg hle
    have hnext := tdiv_hourMs_nonneg (n := toMs + 1) (by omega)
    unfold hourMs at *
    split <;> omega
  · have hbounds := tdiv_hourMs_nonpos hle
    by_cases hzero : toMs = 0
    · subst hzero
      decide
    · have hnext := tdiv_hourMs_nonpos (n := toMs + 1) (by omega)
      unfold hourMs at *
      split <;> omega

/-! ### Tiling -/

section Tiling

variable {fromMs toMs : Option Int} {ms : Int}

/-- The bounds of a window are not reversed. -/
def ordered (fromMs toMs : Option Int) : Prop :=
  ∀ start ∈ fromMs, ∀ stop ∈ toMs, start ≤ stop

theorem planWindow_of_closed {start stop : Int} (h : start ≤ stop) :
    planWindow (some start) (some stop) =
      if firstFull start > lastFull stop then { fullBuckets := none, edges := [(start, stop)] }
      else planHours (some start) (some stop) := by
  exact if_neg (Int.not_lt.mpr h)

private theorem inBucketRange_planHours :
    (planHours fromMs toMs).inBucketRange (hourBucket ms) = true ↔
      (fromMs.map firstFull).getD i64Min ≤ hourBucket ms ∧
        hourBucket ms ≤ (toMs.map lastFull).getD i64Max := by
  simp [WindowPlan.inBucketRange, planHours]

private theorem inWindow_iff :
    inWindow fromMs toMs ms = true ↔
      (∀ start ∈ fromMs, start ≤ ms) ∧ ∀ stop ∈ toMs, ms ≤ stop := by
  cases fromMs <;> cases toMs <;> simp [inWindow]

/-- A bucket read whole lies in the window, unless the window overruns the epoch. -/
theorem inWindow_of_inBucketRange (hms : 0 ≤ ms) (hordered : ordered fromMs toMs)
    (hsafe : ¬ overrunsEpoch fromMs toMs)
    (h : (planWindow fromMs toMs).inBucketRange (hourBucket ms) = true) :
    inWindow fromMs toMs ms = true := by
  have hbucket := hourBucket_bounds hms
  have hstart : ∀ start, fromMs = some start → firstFull start ≤ hourBucket ms → start ≤ ms := by
    intro start _ hle
    have hfirst := firstFull_bounds start
    unfold hourMs at *
    omega
  have hstop : ∀ stop, toMs = some stop → stop ≠ -1 → hourBucket ms ≤ lastFull stop →
      ms ≤ stop := by
    intro stop _ hne hle
    have hlast := lastFull_bounds stop
    unfold hourMs at *
    omega
  rw [inWindow_iff]
  cases fromMs with
  | none =>
    rw [show planWindow none toMs = planHours none toMs from rfl, inBucketRange_planHours] at h
    refine ⟨by simp, ?_⟩
    intro stop hmem
    obtain rfl := Option.mem_def.mp hmem
    apply hstop stop rfl ?_ h.2
    rintro rfl
    exact hsafe ⟨rfl, by simp⟩
  | some start =>
    cases toMs with
    | none =>
      rw [show planWindow (some start) none = planHours (some start) none from rfl,
        inBucketRange_planHours] at h
      refine ⟨?_, by simp⟩
      simp only [Option.mem_def, Option.some.injEq, forall_eq']
      exact hstart start rfl h.1
    | some stop =>
      have hle : start ≤ stop := hordered start rfl stop rfl
      rw [planWindow_of_closed hle] at h
      split at h
      · simp [WindowPlan.inBucketRange] at h
      · next hnonempty =>
        rw [inBucketRange_planHours] at h
        have hfirst := firstFull_bounds start
        have hlast := lastFull_bounds stop
        simp only [Option.map_some, Option.getD_some] at h
        simp only [Option.mem_def, Option.some.injEq, forall_eq']
        refine ⟨hstart start rfl h.1, ?_⟩
        apply hstop stop rfl ?_ h.2
        rintro rfl
        -- The window is closed: it overruns unless it starts inside the last hour before 0.
        apply hsafe
        refine ⟨rfl, ?_⟩
        simp only [Option.mem_def, Option.some.injEq, forall_eq']
        unfold hourMs at *
        omega

/-- An instant of the window which no bucket covers lies in an edge. -/
theorem edges_of_not_inBucketRange (hms : 0 ≤ ms) (hmax : ms ≤ i64Max)
    (hordered : ordered fromMs toMs) (hwindow : inWindow fromMs toMs ms = true)
    (h : (planWindow fromMs toMs).inBucketRange (hourBucket ms) = false) :
    (planWindow fromMs toMs).edges.any (between ms) = true := by
  have hbucket := hourBucket_bounds hms
  have hmin : i64Min ≤ hourBucket ms := by
    unfold i64Min
    omega
  have hmax' : hourBucket ms ≤ i64Max := by
    unfold hourMs at hbucket
    omega
  rw [inWindow_iff] at hwindow
  obtain ⟨hstart, hstop⟩ := hwindow
  have hhead : ∀ start, start ≤ ms → hourBucket ms < firstFull start →
      firstFull start * hourMs > start ∧ ms ≤ firstFull start * hourMs - 1 := by
    intro start hle hlt
    have hfirst := firstFull_bounds start
    unfold hourMs at *
    omega
  have htail : ∀ stop, ms ≤ stop → lastFull stop < hourBucket ms →
      (lastFull stop + 1) * hourMs ≤ stop ∧ (lastFull stop + 1) * hourMs ≤ ms := by
    intro stop hle hlt
    have hlast := lastFull_bounds stop
    unfold hourMs at *
    omega
  have hhours : (planHours fromMs toMs).inBucketRange (hourBucket ms) = false →
      (planHours fromMs toMs).edges.any (between ms) = true := by
    intro hout
    rw [← Bool.not_eq_true, inBucketRange_planHours, not_and_or] at hout
    unfold planHours
    rw [List.any_append, Bool.or_eq_true]
    obtain hout | hout := hout
    · cases fromMs with
      | none => exact absurd hmin hout
      | some start =>
        left
        have hle := hstart start rfl
        obtain ⟨hgt, hms'⟩ := hhead start hle (Int.not_le.mp hout)
        simp only [if_pos hgt, List.any_cons, List.any_nil, Bool.or_false, between,
          Bool.and_eq_true, decide_eq_true_eq]
        exact ⟨hle, hms'⟩
    · cases toMs with
      | none => exact absurd hmax' hout
      | some stop =>
        right
        have hle := hstop stop rfl
        obtain ⟨hgt, hms'⟩ := htail stop hle (Int.not_le.mp hout)
        simp only [if_pos hgt, List.any_cons, List.any_nil, Bool.or_false, between,
          Bool.and_eq_true, decide_eq_true_eq]
        exact ⟨hms', hle⟩
  cases fromMs with
  | none => exact hhours h
  | some start =>
    cases toMs with
    | none => exact hhours h
    | some stop =>
      rw [planWindow_of_closed (hordered start rfl stop rfl)] at h ⊢
      split at h
      · next hempty =>
        simp only [if_pos hempty, List.any_cons, List.any_nil, Bool.or_false, between,
          Bool.and_eq_true, decide_eq_true_eq]
        exact ⟨hstart start rfl, hstop stop rfl⟩
      · next hnonempty =>
        rw [if_neg hnonempty]
        exact hhours h

/-- A window which overruns the epoch contains no event, yet reads hour zero whole. -/
theorem inBucketRange_of_overrunsEpoch (hms : 0 ≤ ms) (h : overrunsEpoch fromMs toMs) :
    inWindow fromMs toMs ms = false ∧
      ((planWindow fromMs toMs).inBucketRange (hourBucket ms) = true ↔ hourBucket ms = 0) := by
  obtain ⟨rfl, hstart⟩ := h
  have hbucket := hourBucket_bounds hms
  have hlast : lastFull (-1) = 0 := (lastFull_bounds (-1)).2.1 rfl
  constructor
  · rw [← Bool.not_eq_true, inWindow_iff]
    simp only [Option.mem_def, Option.some.injEq, forall_eq']
    omega
  · cases fromMs with
    | none =>
      rw [show planWindow none (some (-1)) = planHours none (some (-1)) from rfl,
        inBucketRange_planHours]
      simp only [Option.map_none, Option.getD_none, Option.map_some, Option.getD_some, hlast]
      unfold i64Min
      omega
    | some start =>
      have hle : start ≤ -hourMs := hstart start rfl
      have hfirst := firstFull_bounds start
      rw [planWindow_of_closed (by unfold hourMs at hle; omega), if_neg (by rw [hlast]; omega),
        inBucketRange_planHours]
      simp only [Option.map_some, Option.getD_some, hlast]
      omega

end Tiling

end AgentOdometer.Ledger
