import AgentOdometer.Lib.Runs
import AgentOdometer.Model.RateLimitRuns
import Mathlib.Data.List.Chain
import Mathlib.Data.List.Induction

/-!
# What a run of rate-limit observations stands for

`RateLimitSnapshotPoint::collapse` keeps the windows of the first observation of a run, its first
and its last instant and the number of its observations (`model.rs:502–579`). Windows are compared
as floating-point numbers are, so observations which differ in the sign of a zero are one run.
-/

namespace AgentOdometer.RateLimitSnapshotPoint

/-- One raw observation, as it is before it is collapsed. -/
def IsRaw (point : RateLimitSnapshotPoint) : Prop :=
  point.runStartedAt = none ∧ point.observationCount = 1

/-- Neighbours which are stored as one run have the same windows. -/
def Exact (raw : List RateLimitSnapshotPoint) : Prop :=
  raw.IsChain fun a b ↦ a.covers b.turnId b.limitId b.primary b.secondary = true →
    b.primary = a.primary ∧ b.secondary = a.secondary

/-- The observations come in the order of their instants. -/
def Ascending (points : List RateLimitSnapshotPoint) : Prop :=
  points.Pairwise (·.timestamp ≤ ·.timestamp)

/-- A point and the observations which it stands for. -/
structure RunOf (point : RateLimitSnapshotPoint) (run : List RateLimitSnapshotPoint) : Prop where
  count : point.observationCount = run.length
  first : run.head?.map (·.timestamp) = some point.startedAt
  last : run.getLast?.map (·.timestamp) = some point.timestamp
  raw : ∀ observation ∈ run, observation.IsRaw
  same : ∀ observation ∈ run, observation.turnId = point.turnId ∧
    observation.limitId = point.limitId ∧ observation.primary = point.primary ∧
    observation.secondary = point.secondary
  within : ∀ observation ∈ run, point.startedAt ≤ observation.timestamp ∧
    observation.timestamp ≤ point.timestamp

theorem RunOf.ne_nil {point : RateLimitSnapshotPoint} {run : List RateLimitSnapshotPoint}
    (h : RunOf point run) : run ≠ [] := by
  rintro rfl
  exact nomatch h.first

theorem collapse_concat (raw : List RateLimitSnapshotPoint) (point : RateLimitSnapshotPoint) :
    collapse (raw ++ [point]) = record (collapse raw) point.timestamp point.turnId point.limitId
      point.primary point.secondary := by
  rw [collapse, List.foldl_append]
  rfl

/-- One more observation is one more of the last run, or a run of its own. -/
theorem record_cases (history : List RateLimitSnapshotPoint) (timestamp : DateTime)
    (turnId limitId : Option String) (primary secondary : Option RateLimitWindow) :
    (∃ front last, history = front ++ [last] ∧
        last.covers turnId limitId primary secondary = true ∧
        record history timestamp turnId limitId primary secondary =
          front ++ [last.extend timestamp]) ∨
      (∀ front last, history = front ++ [last] →
        last.covers turnId limitId primary secondary = false) ∧
        record history timestamp turnId limitId primary secondary =
          history ++ [observation timestamp turnId limitId primary secondary] := by
  rcases List.eq_nil_or_concat history with rfl | ⟨front, last, rfl⟩
  · exact Or.inr ⟨fun front last h ↦ absurd h.symm (by simp), rfl⟩
  · rw [List.concat_eq_append]
    unfold record
    rw [List.getLast?_concat]
    dsimp only
    cases hcovers : last.covers turnId limitId primary secondary with
    | true =>
      rw [if_pos rfl, List.dropLast_concat]
      exact Or.inl ⟨front, last, rfl, hcovers, rfl⟩
    | false =>
      rw [if_neg Bool.false_ne_true]
      refine Or.inr ⟨fun front' last' h ↦ ?_, rfl⟩
      obtain ⟨-, hlast⟩ := List.append_inj' h rfl
      rw [← List.singleton_inj.mp hlast]
      exact hcovers

/-! ### Counts -/

/-- The runs count every observation. -/
theorem sum_observationCount_collapse (raw : List RateLimitSnapshotPoint) :
    ((collapse raw).map (·.observationCount)).sum = raw.length := by
  induction raw using List.reverseRecOn with
  | nil => rfl
  | append_singleton raw point ih =>
    rw [collapse_concat, List.length_append, List.length_singleton]
    rcases record_cases (collapse raw) point.timestamp point.turnId point.limitId point.primary
      point.secondary with ⟨front, last, hhistory, -, hrecord⟩ | ⟨-, hrecord⟩
    · rw [hhistory, List.map_append, List.sum_append] at ih
      rw [hrecord, List.map_append, List.sum_append, ← ih, add_assoc]
      rfl
    · rw [hrecord, List.map_append, List.sum_append, ih]
      rfl

/-! ### Runs -/

theorem observation_eq {point : RateLimitSnapshotPoint} (h : point.IsRaw) :
    observation point.timestamp point.turnId point.limitId point.primary point.secondary =
      point := by
  obtain ⟨timestamp, turnId, limitId, primary, secondary, runStartedAt, observationCount⟩ := point
  obtain ⟨rfl, rfl⟩ := h
  rfl

/-- A raw observation is a run of its own. -/
theorem runOf_self {point : RateLimitSnapshotPoint} (h : point.IsRaw) : RunOf point [point] := by
  have hstarted : point.startedAt = point.timestamp := by
    rw [startedAt, h.1]
    rfl
  refine ⟨h.2, congrArg some hstarted.symm, rfl, ?_, ?_, ?_⟩
  · intro other hother
    rw [List.mem_singleton.mp hother]
    exact h
  · intro other hother
    rw [List.mem_singleton.mp hother]
    exact ⟨rfl, rfl, rfl, rfl⟩
  · intro other hother
    rw [List.mem_singleton.mp hother, hstarted]
    exact ⟨le_rfl, le_rfl⟩

theorem covers_iff {point : RateLimitSnapshotPoint} {turnId limitId : Option String}
    {primary secondary : Option RateLimitWindow} :
    point.covers turnId limitId primary secondary = true ↔ point.turnId = turnId ∧
      point.limitId = limitId ∧ sameWindow point.primary primary = true ∧
      sameWindow point.secondary secondary = true := by
  unfold covers
  rw [Bool.and_eq_true, Bool.and_eq_true, Bool.and_eq_true, decide_eq_true_eq, decide_eq_true_eq,
    and_assoc, and_assoc]

/-- A run with one more observation of the same windows. -/
theorem RunOf.extend {last point : RateLimitSnapshotPoint} {run : List RateLimitSnapshotPoint}
    (h : RunOf last run) (hraw : point.IsRaw) (hturn : point.turnId = last.turnId)
    (hlimit : point.limitId = last.limitId) (hprimary : point.primary = last.primary)
    (hsecondary : point.secondary = last.secondary) (hlater : last.timestamp ≤ point.timestamp) :
    RunOf (last.extend point.timestamp) (run ++ [point]) := by
  have hstarted : (last.extend point.timestamp).startedAt = last.startedAt := rfl
  obtain ⟨head, rest, hrun⟩ := List.exists_cons_of_ne_nil h.ne_nil
  have hhead : head ∈ run := by
    rw [hrun]
    exact List.mem_cons_self
  refine ⟨?_, ?_, ?_, ?_, ?_, ?_⟩
  · rw [List.length_append, ← h.count]
    rfl
  · rw [hstarted, ← h.first, hrun]
    rfl
  · rw [List.getLast?_concat]
    rfl
  · intro observation hobservation
    rcases List.mem_append.mp hobservation with hold | hnew
    · exact h.raw observation hold
    · rw [List.mem_singleton.mp hnew]
      exact hraw
  · intro observation hobservation
    rcases List.mem_append.mp hobservation with hold | hnew
    · exact h.same observation hold
    · rw [List.mem_singleton.mp hnew]
      exact ⟨hturn, hlimit, hprimary, hsecondary⟩
  · intro observation hobservation
    rw [hstarted]
    rcases List.mem_append.mp hobservation with hold | hnew
    · obtain ⟨hfirst, hlast⟩ := h.within observation hold
      exact ⟨hfirst, hlast.trans hlater⟩
    · rw [List.mem_singleton.mp hnew]
      obtain ⟨hfirst, hlast⟩ := h.within head hhead
      exact ⟨hfirst.trans (hlast.trans hlater), le_rfl⟩

/-- Every point of the collapsed history is a run of the raw one. -/
theorem expands_collapse {raw : List RateLimitSnapshotPoint} (hraw : ∀ point ∈ raw, point.IsRaw)
    (hascending : Ascending raw) (hexact : Exact raw) : Expands RunOf (collapse raw) raw := by
  induction raw using List.reverseRecOn with
  | nil => exact .nil
  | append_singleton raw point ih =>
    have hpoint := hraw point (List.mem_append_right raw (List.mem_singleton.mpr rfl))
    obtain ⟨hbefore, -, hlater⟩ := List.pairwise_append.mp hascending
    obtain ⟨hexact, -, hneighbours⟩ := List.isChain_append.mp hexact
    have hcollapse := ih (fun other hother ↦ hraw other (List.mem_append_left _ hother)) hbefore
      hexact
    rw [collapse_concat]
    rcases record_cases (collapse raw) point.timestamp point.turnId point.limitId point.primary
      point.secondary with ⟨front, last, hhistory, hcovers, hrecord⟩ | ⟨-, hrecord⟩
    · rw [hhistory] at hcollapse
      obtain ⟨before, run, rfl, hfront, hrun⟩ := hcollapse.concat_inv
      rcases List.eq_nil_or_concat run with hnil | ⟨earlier, previous, hprevious⟩
      · exact absurd hnil hrun.ne_nil
      rw [List.concat_eq_append] at hprevious
      have hmem : previous ∈ run := by
        rw [hprevious]
        exact List.mem_append_right _ (List.mem_singleton.mpr rfl)
      obtain ⟨hturn, hlimit, hprimary, hsecondary⟩ := hrun.same previous hmem
      have hlast : (before ++ run).getLast? = some previous := by
        rw [hprevious, ← List.append_assoc, List.getLast?_concat]
      have hsame := hneighbours previous hlast point rfl (by
        unfold covers
        rw [hturn, hlimit, hprimary, hsecondary]
        exact hcovers)
      obtain ⟨hturn', hlimit', -, -⟩ := covers_iff.mp hcovers
      have hlastLater : last.timestamp ≤ point.timestamp := by
        have hended := hrun.last
        rw [hprevious, List.getLast?_concat] at hended
        rw [← Option.some.inj hended]
        exact hlater previous (List.mem_append_right _ hmem) point (List.mem_singleton.mpr rfl)
      rw [hrecord, List.append_assoc]
      exact hfront.append (.singleton (hrun.extend hpoint hturn'.symm hlimit'.symm
        (hsame.1.trans hprimary) (hsame.2.trans hsecondary) hlastLater))
    · rw [hrecord, observation_eq hpoint]
      exact hcollapse.append (.singleton (runOf_self hpoint))

end AgentOdometer.RateLimitSnapshotPoint
