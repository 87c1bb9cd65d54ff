import AgentOdometer.Model.Counters
import Mathlib.Algebra.Order.BigOperators.Group.List
import Mathlib.Algebra.Order.Monoid.Canonical.Defs

/-!
# Token counters field by field

Counters are ordered by every field at once. Adding to both sides keeps the order and can be
undone, and a sum of counters is never below its parts.
-/

namespace AgentOdometer.TokenTotals

variable {a b c : TokenTotals}

@[simp] theorem inputTokens_add : (a + b).inputTokens = a.inputTokens + b.inputTokens := rfl

@[simp] theorem cachedInputTokens_add :
    (a + b).cachedInputTokens = a.cachedInputTokens + b.cachedInputTokens := rfl

@[simp] theorem cacheCreationInputTokens_add : (a + b).cacheCreationInputTokens =
    a.cacheCreationInputTokens + b.cacheCreationInputTokens := rfl

@[simp] theorem outputTokens_add : (a + b).outputTokens = a.outputTokens + b.outputTokens := rfl

@[simp] theorem reasoningOutputTokens_add : (a + b).reasoningOutputTokens =
    a.reasoningOutputTokens + b.reasoningOutputTokens := rfl

@[simp] theorem totalTokens_add : (a + b).totalTokens = a.totalTokens + b.totalTokens := rfl

/-- Counters are ordered field-wise. -/
instance : LE TokenTotals where
  le a b := a.inputTokens ≤ b.inputTokens ∧ a.cachedInputTokens ≤ b.cachedInputTokens ∧
    a.cacheCreationInputTokens ≤ b.cacheCreationInputTokens ∧ a.outputTokens ≤ b.outputTokens ∧
    a.reasoningOutputTokens ≤ b.reasoningOutputTokens ∧ a.totalTokens ≤ b.totalTokens

theorem le_def : a ≤ b ↔ a.inputTokens ≤ b.inputTokens ∧
    a.cachedInputTokens ≤ b.cachedInputTokens ∧
    a.cacheCreationInputTokens ≤ b.cacheCreationInputTokens ∧ a.outputTokens ≤ b.outputTokens ∧
    a.reasoningOutputTokens ≤ b.reasoningOutputTokens ∧ a.totalTokens ≤ b.totalTokens :=
  Iff.rfl

instance : PartialOrder TokenTotals where
  le_refl a := by
    simp [le_def]
  le_trans a b c hab hbc := by
    rw [le_def] at *
    omega
  le_antisymm a b hab hba := by
    rw [le_def] at hab hba
    ext <;> omega

instance : IsOrderedCancelAddMonoid TokenTotals where
  add_le_add_left a b hab c := by
    rw [le_def] at *
    simp only [inputTokens_add, cachedInputTokens_add, cacheCreationInputTokens_add,
      outputTokens_add, reasoningOutputTokens_add, totalTokens_add]
    omega
  le_of_add_le_add_left a b c habc := by
    rw [le_def] at *
    simp only [inputTokens_add, cachedInputTokens_add, cacheCreationInputTokens_add,
      outputTokens_add, reasoningOutputTokens_add, totalTokens_add] at habc
    omega

/-- What is left of each field, and nothing of a field which is exceeded. -/
def sub (a b : TokenTotals) : TokenTotals where
  inputTokens := a.inputTokens - b.inputTokens
  cachedInputTokens := a.cachedInputTokens - b.cachedInputTokens
  cacheCreationInputTokens := a.cacheCreationInputTokens - b.cacheCreationInputTokens
  outputTokens := a.outputTokens - b.outputTokens
  reasoningOutputTokens := a.reasoningOutputTokens - b.reasoningOutputTokens
  totalTokens := a.totalTokens - b.totalTokens

theorem add_sub_of_le (h : a ≤ b) : a + b.sub a = b := by
  rw [le_def] at h
  ext <;> simp only [sub, inputTokens_add, cachedInputTokens_add, cacheCreationInputTokens_add,
    outputTokens_add, reasoningOutputTokens_add, totalTokens_add] <;> omega

instance : CanonicallyOrderedAdd TokenTotals where
  exists_add_of_le h := ⟨_, (add_sub_of_le h).symm⟩
  le_add_self a b := by
    rw [le_def]
    simp
  le_self_add a b := by
    rw [le_def]
    simp

end AgentOdometer.TokenTotals
