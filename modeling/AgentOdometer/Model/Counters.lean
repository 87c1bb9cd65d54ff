import AgentOdometer.Model.Session
import Mathlib.Algebra.Group.Defs

/-!
# Counter records

Field-wise accumulation of the counter records of `model.rs`. Each is a commutative monoid,
so totals do not depend on the order or the grouping in which they are added up.
-/

namespace AgentOdometer

namespace TokenTotals

/-- Field-wise accumulation. Follows `model.rs:405–414`. -/
def addAssign (dst src : TokenTotals) : TokenTotals where
  inputTokens := dst.inputTokens + src.inputTokens
  cachedInputTokens := dst.cachedInputTokens + src.cachedInputTokens
  cacheCreationInputTokens := dst.cacheCreationInputTokens + src.cacheCreationInputTokens
  outputTokens := dst.outputTokens + src.outputTokens
  reasoningOutputTokens := dst.reasoningOutputTokens + src.reasoningOutputTokens
  totalTokens := dst.totalTokens + src.totalTokens

instance : Add TokenTotals :=
  ⟨addAssign⟩

instance : Zero TokenTotals :=
  ⟨zero⟩

@[ext]
theorem ext {a b : TokenTotals} (hinput : a.inputTokens = b.inputTokens)
    (hcached : a.cachedInputTokens = b.cachedInputTokens)
    (hcreation : a.cacheCreationInputTokens = b.cacheCreationInputTokens)
    (houtput : a.outputTokens = b.outputTokens)
    (hreasoning : a.reasoningOutputTokens = b.reasoningOutputTokens)
    (htotal : a.totalTokens = b.totalTokens) : a = b := by
  cases a
  cases b
  simp_all

instance : AddCommMonoid TokenTotals where
  add_assoc := by
    intro a b c
    ext <;> exact Nat.add_assoc _ _ _
  zero_add := by
    intro a
    ext <;> exact Nat.zero_add _
  add_zero := by
    intro a
    ext <;> exact Nat.add_zero _
  add_comm := by
    intro a b
    ext <;> exact Nat.add_comm _ _
  nsmul := nsmulRec

/-- A sum of token counters is empty only when both are. -/
theorem add_eq_zero_iff {a b : TokenTotals} : a + b = 0 ↔ a = 0 ∧ b = 0 := by
  constructor
  · intro h
    have hfields := TokenTotals.mk.inj h
    simp only [Nat.add_eq_zero_iff] at hfields
    obtain ⟨⟨h1, h1'⟩, ⟨h2, h2'⟩, ⟨h3, h3'⟩, ⟨h4, h4'⟩, ⟨h5, h5'⟩, h6, h6'⟩ := hfields
    exact ⟨TokenTotals.ext h1 h2 h3 h4 h5 h6, TokenTotals.ext h1' h2' h3' h4' h5' h6'⟩
  · rintro ⟨rfl, rfl⟩
    exact add_zero 0

end TokenTotals

namespace ToolDimensionMetrics

/-- No calls. -/
def zero : ToolDimensionMetrics :=
  ⟨0, 0, 0, 0, 0⟩

/-- Field-wise accumulation. Follows `model.rs:230–236`. -/
def addAssign (dst other : ToolDimensionMetrics) : ToolDimensionMetrics where
  calls := dst.calls + other.calls
  failures := dst.failures + other.failures
  outputBytes := dst.outputBytes + other.outputBytes
  durationMs := dst.durationMs + other.durationMs
  tokens := dst.tokens + other.tokens

instance : Add ToolDimensionMetrics :=
  ⟨addAssign⟩

instance : Zero ToolDimensionMetrics :=
  ⟨zero⟩

@[ext]
theorem ext {a b : ToolDimensionMetrics} (hcalls : a.calls = b.calls)
    (hfailures : a.failures = b.failures) (hbytes : a.outputBytes = b.outputBytes)
    (hduration : a.durationMs = b.durationMs) (htokens : a.tokens = b.tokens) : a = b := by
  cases a
  cases b
  simp_all

instance : AddCommMonoid ToolDimensionMetrics where
  add_assoc := by
    intro a b c
    ext <;> exact Nat.add_assoc _ _ _
  zero_add := by
    intro a
    ext <;> exact Nat.zero_add _
  add_zero := by
    intro a
    ext <;> exact Nat.add_zero _
  add_comm := by
    intro a b
    ext <;> exact Nat.add_comm _ _
  nsmul := nsmulRec

end ToolDimensionMetrics

namespace ToolMetrics

/-- Field-wise accumulation. Follows `model.rs:272–291`. -/
def addAssign (dst value : ToolMetrics) : ToolMetrics where
  calls := dst.calls + value.calls
  reads := dst.reads + value.reads
  searches := dst.searches + value.searches
  mutations := dst.mutations + value.mutations
  commands := dst.commands + value.commands
  other := dst.other + value.other
  successes := dst.successes + value.successes
  failures := dst.failures + value.failures
  unknown := dst.unknown + value.unknown
  mutationTargets := dst.mutationTargets + value.mutationTargets
  oneShotMutations := dst.oneShotMutations + value.oneShotMutations
  retryCount := dst.retryCount + value.retryCount
  durationMs := dst.durationMs + value.durationMs
  outputBytes := dst.outputBytes + value.outputBytes
  coreOriginCalls := dst.coreOriginCalls + value.coreOriginCalls
  mcpOriginCalls := dst.mcpOriginCalls + value.mcpOriginCalls
  providerOriginCalls := dst.providerOriginCalls + value.providerOriginCalls
  unknownOriginCalls := dst.unknownOriginCalls + value.unknownOriginCalls

instance : Add ToolMetrics :=
  ⟨addAssign⟩

instance : Zero ToolMetrics :=
  ⟨zero⟩

theorem add_def (a b : ToolMetrics) : a + b = a.addAssign b :=
  rfl

theorem zero_def : (0 : ToolMetrics) = zero :=
  rfl

instance : AddCommMonoid ToolMetrics where
  add_assoc := by
    intro a b c
    simp only [add_def, addAssign, Nat.add_assoc]
  zero_add := by
    intro a
    simp only [add_def, zero_def, addAssign, zero, Nat.zero_add]
  add_zero := by
    intro a
    simp only [add_def, zero_def, addAssign, zero, Nat.add_zero]
  add_comm := by
    intro a b
    simp only [add_def, addAssign, Nat.add_comm]
  nsmul := nsmulRec

end ToolMetrics

end AgentOdometer
