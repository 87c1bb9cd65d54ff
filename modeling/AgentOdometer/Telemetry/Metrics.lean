import AgentOdometer.Lib.GroupBy
import AgentOdometer.Model.Counters

/-!
# Tool metrics

The accumulators of `telemetry.rs:479–720`: tool counters, the figures derived from mutation
chains, and the open-set dimensions.
-/

namespace AgentOdometer.Telemetry

open Std (ExtTreeMap)
open GroupBy

variable {τ : Type}

/-! ### Counters -/

/-- Count one observation. Follows `telemetry.rs:484–505`. -/
def accumulateObservation (counters : ToolMetrics) (item : ToolObservation τ) : ToolMetrics :=
  let counters := { counters with
    calls := counters.calls + 1
    outputBytes := counters.outputBytes + item.outputBytes
    durationMs := counters.durationMs + item.durationMs.getD 0 }
  let counters := match item.kind with
    | .read => { counters with reads := counters.reads + 1 }
    | .search => { counters with searches := counters.searches + 1 }
    | .mutation => { counters with mutations := counters.mutations + 1 }
    | .command => { counters with commands := counters.commands + 1 }
    | .other => { counters with other := counters.other + 1 }
  let counters := match item.outcome with
    | .success => { counters with successes := counters.successes + 1 }
    | .failure => { counters with failures := counters.failures + 1 }
    | .pending | .unknown => { counters with unknown := counters.unknown + 1 }
  match item.origin with
  | .core => { counters with coreOriginCalls := counters.coreOriginCalls + 1 }
  | .mcp => { counters with mcpOriginCalls := counters.mcpOriginCalls + 1 }
  | .provider => { counters with providerOriginCalls := counters.providerOriginCalls + 1 }
  | .unknown => { counters with unknownOriginCalls := counters.unknownOriginCalls + 1 }

/-- The counters of a single observation. -/
def observationCounters (item : ToolObservation τ) : ToolMetrics :=
  accumulateObservation 0 item

/-- Counting an observation adds its own counters. -/
theorem accumulateObservation_eq_add (counters : ToolMetrics) (item : ToolObservation τ) :
    accumulateObservation counters item = counters + observationCounters item := by
  unfold observationCounters accumulateObservation
  rw [ToolMetrics.add_def]
  cases item.kind <;> cases item.outcome <;> cases item.origin <;>
    simp [ToolMetrics.addAssign, ToolMetrics.zero_def, ToolMetrics.zero]

/-- Counting a list of observations adds their counters. -/
theorem foldl_accumulateObservation (counters : ToolMetrics) (items : List (ToolObservation τ)) :
    items.foldl accumulateObservation counters =
      counters + (items.map observationCounters).sum := by
  induction items generalizing counters with
  | nil => simp
  | cons item items ih =>
    rw [List.foldl_cons, ih, accumulateObservation_eq_add, List.map_cons, List.sum_cons,
      add_assoc]

/-- Every observation is one call. -/
theorem calls_observationCounters (item : ToolObservation τ) :
    (observationCounters item).calls = 1 := by
  unfold observationCounters accumulateObservation
  cases item.kind <;> cases item.outcome <;> cases item.origin <;> rfl

/-! ### Mutation chains -/

/-- Targets, one-shot mutations and retries of the chains with the given lengths. Follows
`telemetry.rs:515–527`. -/
def mutationChainFields (counts : List Nat) : Nat × Nat × Nat :=
  counts.foldl (fun out count ↦
    (out.1 + 1, (if count = 1 then out.2.1 + 1 else out.2.1), out.2.2 + (count - 1))) (0, 0, 0)

/-- The chain figures do not depend on the order of the chains. -/
theorem mutationChainFields_perm {counts counts' : List Nat} (h : counts.Perm counts') :
    mutationChainFields counts = mutationChainFields counts' := by
  apply h.foldl_eq'
  intro a _ b _ out
  ext
  · simp only
  · simp only
    split <;> split <;> rfl
  · simp only
    omega

/-- Overwrite the chain-derived counters. Follows `telemetry.rs:546–553`. -/
def withChainFields (counters : ToolMetrics) (counts : List Nat) : ToolMetrics :=
  let fields := mutationChainFields counts
  { counters with
    mutationTargets := fields.1
    oneShotMutations := fields.2.1
    retryCount := fields.2.2 }

/-- `MetricsAccumulator`. Follows `telemetry.rs:529–533`. -/
structure MetricsAccumulator where
  out : ToolMetrics
  mutations : ExtTreeMap (Option String × Option String) Nat

namespace MetricsAccumulator

/-- The derived default. -/
def default : MetricsAccumulator :=
  ⟨0, ∅⟩

/-- Count one observation and extend its chain. Follows `telemetry.rs:536–544`. -/
def push (acc : MetricsAccumulator) (item : ToolObservation τ) : MetricsAccumulator where
  out := accumulateObservation acc.out item
  mutations :=
    if item.kind = .mutation then
      updateEntry acc.mutations (item.turnId, item.target) 0 (· + 1)
    else acc.mutations

/-- The metrics of the pushed observations. Follows `telemetry.rs:546–553`. -/
def finish (acc : MetricsAccumulator) : ToolMetrics :=
  withChainFields acc.out (acc.mutations.toList.map Prod.snd)

end MetricsAccumulator

/-- Metrics of a list of observations. Follows `telemetry.rs:556–562`. -/
def metrics (observations : List (ToolObservation τ)) : ToolMetrics :=
  (observations.foldl MetricsAccumulator.push .default).finish

/-- Metrics of a list of observations, in total and by model. Follows `telemetry.rs:564–583`. -/
def metricsWithModels (observations : List (ToolObservation τ)) :
    ToolMetrics × ExtTreeMap String ToolMetrics :=
  let all := observations.foldl MetricsAccumulator.push .default
  let byModel := groupFold (fun item : ToolObservation τ ↦ item.model) .default
    MetricsAccumulator.push ∅ observations
  (all.finish, byModel.map fun _ acc ↦ acc.finish)

/-- One chain entry for each mutation. -/
def chainEntries (observations : List (ToolObservation τ)) :
    List ((Option String × Option String) × Nat) :=
  (observations.filter fun item ↦ item.kind = .mutation).map fun item ↦
    ((item.turnId, item.target), 1)

private theorem foldl_push (acc : MetricsAccumulator) (items : List (ToolObservation τ)) :
    items.foldl MetricsAccumulator.push acc =
      ⟨acc.out + (items.map observationCounters).sum,
        addEntries acc.mutations (chainEntries items)⟩ := by
  induction items generalizing acc with
  | nil => simp [chainEntries, addEntries]
  | cons item items ih =>
    rw [List.foldl_cons, ih]
    unfold MetricsAccumulator.push
    rw [accumulateObservation_eq_add, List.map_cons, List.sum_cons, add_assoc]
    congr 1
    by_cases hkind : item.kind = .mutation
    · have hcons : chainEntries (item :: items) =
          ((item.turnId, item.target), 1) :: chainEntries items := by
        simp [chainEntries, hkind]
      rw [hcons, if_pos hkind]
      rfl
    · have hcons : chainEntries (item :: items) = chainEntries items := by
        simp [chainEntries, hkind]
      rw [hcons, if_neg hkind]

/-- The metrics in closed form: summed counters, and the figures of the grouped chains. -/
theorem metrics_eq (observations : List (ToolObservation τ)) :
    metrics observations =
      withChainFields (observations.map observationCounters).sum
        ((groupSum (chainEntries observations)).toList.map Prod.snd) := by
  unfold metrics MetricsAccumulator.finish
  rw [foldl_push]
  simp only [MetricsAccumulator.default, zero_add]
  rfl

private theorem calls_sum (items : List (ToolObservation τ)) :
    (items.map observationCounters).sum.calls = items.length := by
  induction items with
  | nil => rfl
  | cons item items ih =>
    rw [List.map_cons, List.sum_cons, List.length_cons, ← ih]
    change (observationCounters item).calls + _ = _
    rw [calls_observationCounters, Nat.add_comm]

/-- The calls of the metrics are the observations. -/
theorem calls_metrics (items : List (ToolObservation τ)) :
    (metrics items).calls = items.length := by
  rw [metrics_eq]
  exact calls_sum items

/-- Metrics do not depend on the order of the observations. -/
theorem metrics_perm {items items' : List (ToolObservation τ)} (h : items.Perm items') :
    metrics items = metrics items' := by
  have hchain : (chainEntries items).Perm (chainEntries items') := (h.filter _).map _
  rw [metrics_eq, metrics_eq, (h.map _).sum_eq, groupSum_perm hchain]

theorem metricsWithModels_fst (observations : List (ToolObservation τ)) :
    (metricsWithModels observations).1 = metrics observations :=
  rfl

/-- A model has an entry exactly when it made a call, and its metrics are those of its calls. -/
theorem getElem?_metricsWithModels (observations : List (ToolObservation τ)) (model : String) :
    (metricsWithModels observations).2[model]? =
      if ∃ item ∈ observations, item.model = some model then
        some (metrics (observations.filter fun item ↦ item.model = some model))
      else none := by
  unfold metricsWithModels
  simp only [ExtTreeMap.getElem?_map, getElem?_groupFold]
  split
  · rfl
  · simp

theorem metricsWithModels_perm {items items' : List (ToolObservation τ)} (h : items.Perm items') :
    metricsWithModels items = metricsWithModels items' := by
  apply Prod.ext
  · exact metrics_perm h
  · apply ExtTreeMap.ext_getElem?
    intro model
    rw [getElem?_metricsWithModels, getElem?_metricsWithModels, metrics_perm (h.filter _)]
    simp only [h.mem_iff]

/-! ### Open-set dimensions -/

/-- Count one call. Follows `telemetry.rs:589–601`. -/
def accumulateDimensionCall (entry : ToolDimensionMetrics) (outcome : ToolOutcome)
    (outputBytes : Nat) (durationMs : Option Nat) : ToolDimensionMetrics :=
  { entry with
    calls := entry.calls + 1
    failures := if outcome = .failure then entry.failures + 1 else entry.failures
    outputBytes := entry.outputBytes + outputBytes
    durationMs := entry.durationMs + durationMs.getD 0 }

/-- Counting a call adds the counters of that call. -/
theorem accumulateDimensionCall_eq_add (entry : ToolDimensionMetrics) (outcome : ToolOutcome)
    (outputBytes : Nat) (durationMs : Option Nat) :
    accumulateDimensionCall entry outcome outputBytes durationMs =
      entry + accumulateDimensionCall 0 outcome outputBytes durationMs := by
  unfold accumulateDimensionCall
  ext
  · exact congrArg (entry.calls + ·) (Nat.zero_add 1).symm
  · change _ = entry.failures + _
    split
    · rfl
    · rfl
  · exact congrArg (entry.outputBytes + ·) (Nat.zero_add outputBytes).symm
  · exact congrArg (entry.durationMs + ·) (Nat.zero_add (durationMs.getD 0)).symm
  · rfl

/-- The dimension keys one call contributes to: each MCP server, the shell family, and the
language. Follows `telemetry.rs:615–640`. -/
def dimensionKeys (item : ToolObservation τ) : List (String × String) :=
  item.providers.map (("mcp_server", ·)) ++
    item.shellFamily.toList.map (("shell_family", ·)) ++
    item.language.toList.map (("language", ·))

/-- Open-set dimension counters. Follows `telemetry.rs:610–643`. -/
def toolDimensionMetrics (observations : List (ToolObservation τ)) :
    ExtTreeMap (String × String) ToolDimensionMetrics :=
  observations.foldl (fun out item ↦ groupFold some 0
    (fun entry _ ↦ accumulateDimensionCall entry item.outcome item.outputBytes item.durationMs)
    out (dimensionKeys item)) ∅

/-- The dimension entries of one call. -/
def dimensionEntries (item : ToolObservation τ) :
    List ((String × String) × ToolDimensionMetrics) :=
  (dimensionKeys item).map fun key ↦
    (key, accumulateDimensionCall 0 item.outcome item.outputBytes item.durationMs)

private theorem groupFold_dimensionKeys (item : ToolObservation τ)
    (m : ExtTreeMap (String × String) ToolDimensionMetrics) :
    groupFold some 0 (fun entry _ ↦
        accumulateDimensionCall entry item.outcome item.outputBytes item.durationMs)
      m (dimensionKeys item) = addEntries m (dimensionEntries item) := by
  unfold dimensionEntries
  generalize dimensionKeys item = keys
  induction keys generalizing m with
  | nil => rfl
  | cons key keys ih =>
    rw [← List.singleton_append, groupFold_append, ih, List.map_append]
    unfold addEntries
    rw [groupFold_append]
    congr 1
    simp only [groupFold, List.foldl_cons, List.foldl_nil, List.map_cons, List.map_nil]
    congr 1
    funext entry
    exact accumulateDimensionCall_eq_add _ _ _ _

/-- The open-set dimensions group the dimension entries of the calls. -/
theorem toolDimensionMetrics_eq (observations : List (ToolObservation τ)) :
    toolDimensionMetrics observations = groupSum (observations.flatMap dimensionEntries) := by
  unfold toolDimensionMetrics
  induction observations using List.reverseRecOn with
  | nil => rfl
  | append_singleton items item ih =>
    rw [List.foldl_append, List.foldl_cons, List.foldl_nil, ih, groupFold_dimensionKeys,
      List.flatMap_append, groupSum_append, List.flatMap_singleton]

/-- Where context tokens came from. Follows `telemetry.rs:675–694`. -/
def contextSourceBreakdown (tokens : TokenTotals) : ExtTreeMap String Nat :=
  let out : ExtTreeMap String Nat :=
    if tokens.cachedInputTokens > 0 then
      (∅ : ExtTreeMap String Nat).insert "conversation_cache" tokens.cachedInputTokens
    else ∅
  let out :=
    if tokens.cacheCreationInputTokens > 0 then
      out.insert "newly_cached_context" tokens.cacheCreationInputTokens
    else out
  let unattributed :=
    tokens.inputTokens - tokens.cachedInputTokens - tokens.cacheCreationInputTokens
  if unattributed > 0 then out.insert "unknown" unattributed else out

/-- Add the context sources of the given tokens to a dimension map. Follows
`telemetry.rs:710–718`. -/
def insertContextSources (out : ExtTreeMap String (ExtTreeMap String ToolDimensionMetrics))
    (tokens : TokenTotals) : ExtTreeMap String (ExtTreeMap String ToolDimensionMetrics) :=
  groupFold (fun _ ↦ some "context_source") ∅
    (fun inner entry ↦ inner.insert entry.1 { ToolDimensionMetrics.zero with tokens := entry.2 })
    out (contextSourceBreakdown tokens).toList

/-- All dimensions of a list of observations. Follows `telemetry.rs:702–720`. -/
def dimensionTotals (observations : List (ToolObservation τ)) (tokens : TokenTotals) :
    ExtTreeMap String (ExtTreeMap String ToolDimensionMetrics) :=
  let out := groupFold (fun entry : (String × String) × ToolDimensionMetrics ↦ some entry.1.1) ∅
    (fun inner entry ↦ inner.insert entry.1.2 entry.2) ∅ (toolDimensionMetrics observations).toList
  insertContextSources out tokens

theorem dimensionTotals_perm {items items' : List (ToolObservation τ)} (h : items.Perm items')
    (tokens : TokenTotals) : dimensionTotals items tokens = dimensionTotals items' tokens := by
  unfold dimensionTotals
  rw [toolDimensionMetrics_eq, toolDimensionMetrics_eq, groupSum_perm (h.flatMap_right _)]

/-- The dimensions nest the dimension entries of the calls. -/
theorem dimensionTotals_eq (items : List (ToolObservation τ)) (tokens : TokenTotals) :
    dimensionTotals items tokens =
      insertContextSources (nestSum ∅ (items.flatMap dimensionEntries)) tokens := by
  unfold dimensionTotals
  rw [toolDimensionMetrics_eq, groupFold_insert_groupSum]

end AgentOdometer.Telemetry
