import AgentOdometer.ToolImpact.Compare
import Mathlib.Data.List.Induction

/-!
# The matching of a comparison is greedy and one-to-one

The pools hold the unused baseline samples, so the matching loop of `compare` computes a greedy
matching to the closest sample in whole milliseconds.
-/

namespace AgentOdometer.ToolImpact

open Std (ExtTreeMap)
open ClosestMatching GroupBy

/-! ### Pools -/

variable {pools : Pools} {unused samples : List TurnSample} {matching : Matching}

/-- The pools hold the unused samples, each under its key. -/
def PoolsHold (pools : Pools) (unused : List TurnSample) : Prop :=
  ∀ key : MatchKey, Holds TurnSample.millis (pools[key]?.getD ∅)
    (unused.filter fun sample ↦ sample.key = key)

theorem poolsHold_poolBaseline (samples : List TurnSample) :
    PoolsHold (poolBaseline samples) samples := by
  induction samples using List.reverseRecOn with
  | nil =>
    intro key
    unfold poolBaseline
    rw [List.foldl_nil, ExtTreeMap.getElem?_empty, Option.getD_none, List.filter_nil]
    exact holds_empty
  | append_singleton samples sample ih =>
    intro key
    have hfold : poolBaseline (samples ++ [sample]) =
      updateEntry (poolBaseline samples) sample.key ∅
        fun pool ↦ push TurnSample.millis pool sample := List.foldl_append
    rw [hfold, getElem?_updateEntry, List.filter_append]
    by_cases hkey : sample.key = key
    · subst hkey
      rw [if_pos rfl, Option.getD_some, List.filter_cons_of_pos (by simp), List.filter_nil]
      exact holds_push (ih sample.key) sample
    · rw [if_neg hkey, List.filter_cons_of_neg (by simpa using hkey), List.filter_nil,
        List.append_nil]
      exact ih key

/-- Taking a sample from the pool of its key leaves the pools holding the other samples. -/
theorem PoolsHold.insert (h : PoolsHold pools unused) {sample : TurnSample} {key : MatchKey}
    {pool : Pool TurnSample} (hkey : sample.key = key)
    (hpool : Holds TurnSample.millis pool
      ((unused.filter fun sample ↦ sample.key = key).erase sample)) :
    PoolsHold (pools.insert key pool) (unused.erase sample) := by
  intro other
  rw [ExtTreeMap.getElem?_insert, ← List.erase_filter]
  by_cases hother : key = other
  · subst hother
    rw [if_pos (Std.compare_eq_iff_eq.mpr rfl), Option.getD_some]
    exact hpool
  · rw [if_neg fun heq ↦ hother (Std.compare_eq_iff_eq.mp heq), List.erase_of_not_mem]
    · exact h other
    · rw [List.mem_filter]
      exact fun hmem ↦ hother (hkey.symm.trans (of_decide_eq_true hmem.2))

theorem PoolsHold.insert_same (h : PoolsHold pools unused) {key : MatchKey}
    {pool : Pool TurnSample} (hpool : pools[key]? = some pool) :
    PoolsHold (pools.insert key pool) unused := by
  intro other
  rw [ExtTreeMap.getElem?_insert]
  split
  · next heq =>
    have hsame := h key
    rw [hpool, Option.getD_some] at hsame
    rw [← Std.compare_eq_iff_eq.mp heq, Option.getD_some]
    exact hsame
  · exact h other

/-! ### The loop -/

/-- What one turn of the loop does: it pairs the sample with a closest unused one of its key, or
finds none. -/
theorem matchSample_cases (h : PoolsHold matching.pools unused) (sample : TurnSample) :
    ((∀ other ∈ unused, other.key ≠ sample.key) ∧
      (matchSample matching sample).matchedObserved = matching.matchedObserved ∧
      (matchSample matching sample).matchedBaseline = matching.matchedBaseline ∧
      PoolsHold (matchSample matching sample).pools unused) ∨
    ∃ candidate ∈ unused, candidate.key = sample.key ∧
      (∀ other ∈ unused, other.key = sample.key →
        (sample.millis - candidate.millis).natAbs ≤ (sample.millis - other.millis).natAbs) ∧
      (matchSample matching sample).matchedObserved = matching.matchedObserved ++ [sample] ∧
      (matchSample matching sample).matchedBaseline = matching.matchedBaseline ++ [candidate] ∧
      PoolsHold (matchSample matching sample).pools (unused.erase candidate) := by
  have hholds := h sample.key
  have hnone (hempty : (unused.filter fun other ↦ other.key = sample.key) = []) :
      ∀ other ∈ unused, other.key ≠ sample.key := by
    intro other hother hkey
    exact List.filter_eq_nil_iff.mp hempty other hother (decide_eq_true hkey)
  unfold matchSample
  cases hpool : matching.pools[sample.key]? with
  | none =>
    rw [hpool, Option.getD_none] at hholds
    have hnothing : (takeClosest (∅ : Pool TurnSample) 0).1 = none := rfl
    have hempty := (takeClosest_eq_none hholds hnothing).1
    exact .inl ⟨hnone hempty, rfl, rfl, h⟩
  | some pool =>
    rw [hpool, Option.getD_some] at hholds
    simp only
    cases htake : (takeClosest pool sample.millis).1 with
    | none =>
      obtain ⟨hempty, hsame⟩ := takeClosest_eq_none hholds htake
      refine .inl ⟨hnone hempty, rfl, rfl, ?_⟩
      rw [hsame]
      exact h.insert_same hpool
    | some candidate =>
      obtain ⟨hmem, hclosest, hrest⟩ := takeClosest_eq_some hholds htake
      obtain ⟨hunused, hkey⟩ := List.mem_filter.mp hmem
      refine .inr ⟨candidate, hunused, of_decide_eq_true hkey, fun other hother hsame ↦ ?_,
        rfl, rfl,
        h.insert (of_decide_eq_true hkey) hrest⟩
      exact hclosest other (List.mem_filter.mpr ⟨hother, decide_eq_true hsame⟩)

/-- The loop adds the pairs of a greedy matching. -/
theorem exists_greedy (h : PoolsHold matching.pools unused) (samples : List TurnSample) :
    ∃ pairs, Greedy TurnSample.key TurnSample.millis unused samples pairs ∧
      (samples.foldl matchSample matching).matchedObserved =
        matching.matchedObserved ++ pairs.map Prod.fst ∧
      (samples.foldl matchSample matching).matchedBaseline =
        matching.matchedBaseline ++ pairs.map Prod.snd := by
  induction samples generalizing matching unused with
  | nil => exact ⟨[], .nil unused, (List.append_nil _).symm, (List.append_nil _).symm⟩
  | cons sample rest ih =>
    rcases matchSample_cases h sample with ⟨hnone, hobserved, hbaseline, hpools⟩ |
      ⟨candidate, hmem, hkey, hclosest, hobserved, hbaseline, hpools⟩
    · obtain ⟨pairs, hgreedy, hfirst, hsecond⟩ := ih hpools
      exact ⟨pairs, .skip hnone hgreedy, hfirst.trans (by rw [hobserved]),
        hsecond.trans (by rw [hbaseline])⟩
    · obtain ⟨pairs, hgreedy, hfirst, hsecond⟩ := ih hpools
      refine ⟨(sample, candidate) :: pairs, .take hmem hkey hclosest hgreedy, ?_, ?_⟩
      · rw [List.foldl_cons, hfirst, hobserved, List.append_assoc]
        rfl
      · rw [List.foldl_cons, hsecond, hbaseline, List.append_assoc]
        rfl

/-! ### The comparison -/

/-- The samples of the turns which used the target, and the others. -/
def observedSamples (samples : List TurnSample) : List TurnSample :=
  samples.filter fun sample ↦ sample.targetUsed

/-- The samples of the turns which did not use the target. -/
def baselineSamples (samples : List TurnSample) : List TurnSample :=
  samples.filter fun sample ↦ !sample.targetUsed

/-- A matching with as many samples on both sides, none of them used twice, which pairs equal keys
and of each key as many as the smaller cohort has. -/
structure OneToOne (samples : List TurnSample) (matching : Matching) : Prop where
  length : matching.matchedObserved.length = matching.matchedBaseline.length
  observed : matching.matchedObserved.Subperm (observedSamples samples)
  baseline : matching.matchedBaseline.Subperm (baselineSamples samples)
  keys : List.Forall₂ (fun observed baseline ↦ baseline.key = observed.key)
    matching.matchedObserved matching.matchedBaseline
  count : ∀ key : MatchKey, (matching.matchedObserved.countP fun sample ↦ sample.key = key) =
    min ((observedSamples samples).countP fun sample ↦ sample.key = key)
      ((baselineSamples samples).countP fun sample ↦ sample.key = key)

/-- The matching which the loop computes. -/
theorem greedy_matchSamples (samples : List TurnSample) : ∃ pairs,
    Greedy TurnSample.key TurnSample.millis (baselineSamples samples)
      ((observedSamples samples).insertionSort timestampLe) pairs ∧
      (matchSamples samples).matchedObserved = pairs.map Prod.fst ∧
      (matchSamples samples).matchedBaseline = pairs.map Prod.snd :=
  have hpools : PoolsHold
      (⟨poolBaseline (baselineSamples samples), [], []⟩ : Matching).pools
      (baselineSamples samples) := poolsHold_poolBaseline (baselineSamples samples)
  exists_greedy hpools _

theorem oneToOne_matchSamples (samples : List TurnSample) :
    OneToOne samples (matchSamples samples) := by
  obtain ⟨pairs, hgreedy, hobserved, hbaseline⟩ := greedy_matchSamples samples
  have hsorted := List.perm_insertionSort timestampLe (observedSamples samples)
  refine ⟨?_, ?_, ?_, ?_, fun key ↦ ?_⟩
  · rw [hobserved, hbaseline, List.length_map, List.length_map]
  · rw [hobserved]
    exact hgreedy.sublist.subperm.trans hsorted.subperm
  · rw [hbaseline]
    exact hgreedy.subperm
  · rw [hobserved, hbaseline, List.forall₂_map_left_iff, List.forall₂_map_right_iff,
      List.forall₂_same]
    exact hgreedy.key_eq
  · rw [hobserved, List.countP_map, ← hsorted.countP_eq]
    exact hgreedy.countP_eq key

theorem turnCount_aggregate (samples : List TurnSample) :
    (aggregate samples).turnCount = samples.length := by
  have hfold (acc : CohortAccumulator) :
      (samples.foldl CohortAccumulator.push acc).cohort.turnCount =
      acc.cohort.turnCount + samples.length := by
    induction samples generalizing acc with
    | nil => rfl
    | cons sample rest ih =>
      have hpush : (acc.push sample).cohort.turnCount = acc.cohort.turnCount + 1 := rfl
      rw [List.foldl_cons, ih, hpush, List.length_cons]
      omega
  exact (hfold .empty).trans (Nat.zero_add _)

/-- The two cohorts are a partition of the eligible turns. -/
theorem partition_compareTarget (sessions : List Session) (kind : ToolImpactTargetKind)
    (targetKey : String) (window : Option DateTime × Option DateTime) :
    (observedSamples (comparedSamples sessions kind targetKey window) ++
        baselineSamples (comparedSamples sessions kind targetKey window)).Perm
      (comparedSamples sessions kind targetKey window) ∧
    (compareTarget sessions kind targetKey window).observed.turnCount +
        (compareTarget sessions kind targetKey window).baseline.turnCount =
      (sessions.flatMap fun session ↦ eligibleTurns session window).length := by
  have hperm := List.filter_append_perm (fun sample : TurnSample ↦ sample.targetUsed)
    (comparedSamples sessions kind targetKey window)
  refine ⟨hperm, ?_⟩
  have hlength := hperm.length_eq
  rw [List.length_append, ← turnCount_aggregate, ← turnCount_aggregate] at hlength
  refine hlength.trans ?_
  unfold comparedSamples samplesForSession
  rw [List.length_flatMap, List.length_flatMap]
  simp only [List.length_map]

/-- The cohorts partition the eligible turns, the matched turns are one-to-one, and each matched
baseline turn is closest to its observed turn, in whole milliseconds, among those still unused. -/
theorem compareTarget_fair (sessions : List Session) (kind : ToolImpactTargetKind)
    (targetKey : String) (window : Option DateTime × Option DateTime) :
    let samples := comparedSamples sessions kind targetKey window
    let result := compareTarget sessions kind targetKey window
    let matching := matchSamples samples
    (result.observed = aggregate (observedSamples samples) ∧
      result.baseline = aggregate (baselineSamples samples) ∧
      (observedSamples samples ++ baselineSamples samples).Perm samples ∧
      result.observed.turnCount + result.baseline.turnCount =
        (sessions.flatMap fun session ↦ eligibleTurns session window).length) ∧
    (result.matchedObserved = aggregate matching.matchedObserved ∧
      result.matchedBaseline = aggregate matching.matchedBaseline ∧
      result.matchedPairs = matching.matchedObserved.length) ∧
    OneToOne samples matching ∧
    Greedy TurnSample.key TurnSample.millis (baselineSamples samples)
      ((observedSamples samples).insertionSort timestampLe)
      (matching.matchedObserved.zip matching.matchedBaseline) := by
  intro samples result matching
  obtain ⟨hperm, hcount⟩ := partition_compareTarget sessions kind targetKey window
  refine ⟨⟨rfl, rfl, hperm, hcount⟩, ⟨rfl, rfl, rfl⟩, oneToOne_matchSamples samples, ?_⟩
  obtain ⟨pairs, hgreedy, hobserved, hbaseline⟩ := greedy_matchSamples samples
  have hzip : (matchSamples samples).matchedObserved.zip (matchSamples samples).matchedBaseline =
      pairs := by
    rw [hobserved, hbaseline, ← List.unzip_fst, ← List.unzip_snd, List.zip_unzip]
  exact hzip ▸ hgreedy

/-! ### Below a millisecond -/

/-- A turn which starts some microseconds after the epoch. -/
def turnAt (turnId : String) (startedAt : DateTime) : TurnInfo where
  turnId := turnId
  index := 0
  model := none
  reasoningEffort := none
  collaborationMode := none
  serviceTier := none
  status := .completed
  abortReason := none
  startedAt := some startedAt
  completedAt := none
  durationMs := some 1
  timeToFirstTokenMs := none
  userMessage := none
  lastAgentMessage := none
  tokens := 0
  toolMetrics := 0
  classification := ⟨1, .other, 0, []⟩

/-- A use of a tool in a turn. -/
def useOf (turnId tool : String) : ToolObservation where
  callId := ""
  turnId := some turnId
  harness := .codex
  model := none
  timestamp := .epoch
  kind := .other
  name := tool
  providers := []
  effectiveTools := []
  target := none
  resourceId := none
  origin := .unknown
  shellFamily := none
  language := none
  outcome := .success
  durationMs := none
  outputBytes := 0

/-- A turn at 1.999 ms uses the tool; two others at 1 ms and at 2 ms do not. -/
def subMillisecondSession : Session :=
  { Session.blank .codex "a" .epoch with
    turns := [turnAt "used" ⟨1999000, by decide, by decide⟩,
      turnAt "far" ⟨1000000, by decide, by decide⟩, turnAt "near" ⟨2000000, by decide, by decide⟩]
    toolObservations := [useOf "used" "grep"] }

theorem not_closest_subMillisecondSession : ¬ ∀ sessions kind targetKey window,
    Greedy TurnSample.key (fun sample ↦ sample.timestamp.nanos)
      (baselineSamples (comparedSamples sessions kind targetKey window))
      ((observedSamples (comparedSamples sessions kind targetKey window)).insertionSort timestampLe)
      ((matchSamples (comparedSamples sessions kind targetKey window)).matchedObserved.zip
        (matchSamples (comparedSamples sessions kind targetKey window)).matchedBaseline) := by
  intro h
  have hhead := (h [subMillisecondSession] .tool "grep" (none, none)).head_closest
  revert hhead
  decide +kernel

end AgentOdometer.ToolImpact
