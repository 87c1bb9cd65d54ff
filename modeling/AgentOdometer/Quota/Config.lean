import AgentOdometer.Base.Float64
import AgentOdometer.Base.Text
import AgentOdometer.Base.Time
import AgentOdometer.Model.Provider

/-!
# Quota configuration

Soft budgets, notification settings and the notification log of `quota_store.rs`, and the
budget rules of `validate_quota_config` (`quota_store.rs:348–427`).
-/

namespace AgentOdometer.Quota

/-- What a budget counts. Follows `quota_store.rs:32–45`. -/
inductive BudgetUnit where
  | percentOfWindow
  | tokens
  | usd
deriving Repr, DecidableEq

/-- A soft budget. Follows `quota_store.rs:51–77`. -/
structure QuotaBudget where
  id : String
  provider : ProviderId
  projectKey : Option String
  unit : BudgetUnit
  windowKind : Option String
  periodHours : Option Nat
  threshold : Float
  enabled : Bool
deriving DecidableEq

/-- The notification switches which soft budgets read. Follows `quota_store.rs:93–106`. -/
structure NotificationSettings where
  enabled : Bool
  quietHours : Option (Nat × Nat)
deriving Repr, DecidableEq

/-- Destination of an ambient notice. Follows `ambient.rs:19–27`. -/
inductive Route where
  | budgets
  | attention
  | providerStatus
  | retention
  | quota
deriving Repr, DecidableEq

/-- A delivered ambient notice. Follows `ambient.rs:29–38`. -/
structure Notice where
  id : String
  route : Route
  provider : String
  code : String
  observedAt : DateTime
  deliveredAt : DateTime
deriving Repr, DecidableEq

/-- An armed crossing. Follows `quota_store.rs:112–118`. -/
structure NotificationLogEntry where
  dedupKey : String
  firedAt : DateTime
  notice : Option Notice
deriving Repr, DecidableEq

/-- `crate::ambient::PREFIX`, `ambient.rs:8`. -/
def ambientPrefix : String :=
  "@ambient/"

/-- `LIVE_ACCOUNT_LOG_PREFIX`, `quota_store.rs:25`. -/
def liveAccountLogPrefix : String :=
  "live-account:"

/-- The unit-specific rules of a budget. Follows `quota_store.rs:388–426`. -/
def validateUnit (budget : QuotaBudget) : Except String Unit :=
  match budget.unit with
  | .percentOfWindow =>
      if budget.projectKey.isSome then
        .error ("budget '" ++ budget.id ++ "' is percent_of_window and account-wide; " ++
          "it cannot be scoped to a project")
      else if ! ["burst", "daily", "weekly", "monthly"].any (budget.windowKind == some ·) then
        .error ("budget '" ++ budget.id ++ "' is percent_of_window and must name a window_kind")
      else if 100.0 < budget.threshold then
        .error ("budget '" ++ budget.id ++ "' is percent_of_window and threshold must be <= 100")
      else .ok ()
  | .tokens | .usd =>
      match budget.periodHours with
      | none => .ok ()
      | some hours =>
          if 1 ≤ hours ∧ hours ≤ 8760 then .ok ()
          else .error ("budget '" ++ budget.id ++ "' period_hours must be between 1 and 8760")

/-- The rules of one budget given the ids seen before it. Follows `quota_store.rs:366–426`. -/
def validateBudget (seenIds : List String) (budget : QuotaBudget) : Except String Unit :=
  if !ProviderRegistry.descriptors.any (·.id == budget.provider) then
    .error "budget provider is not supported"
  else if budget.projectKey.any fun key ↦
      Text.isBlank key || 1024 < key.utf8ByteSize || key.toList.any Text.isControl then
    .error "budget project key is invalid"
  else if Text.isBlank budget.id || 128 < budget.id.utf8ByteSize ||
      Text.startsWith budget.id ambientPrefix ||
      Text.startsWith budget.id liveAccountLogPrefix then
    .error "budget id must contain 1 to 128 bytes"
  else if seenIds.contains budget.id then
    .error ("duplicate budget id '" ++ budget.id ++ "'")
  else if !budget.threshold.isFinite || budget.threshold ≤ 0.0 then
    .error ("budget '" ++ budget.id ++ "' threshold must be positive")
  else validateUnit budget

/-- The loop over the budgets of `validate_quota_config`. Follows `quota_store.rs:365–427`. -/
def validateBudgets (seenIds : List String) : List QuotaBudget → Except String Unit
  | [] => .ok ()
  | budget :: budgets =>
      match validateBudget seenIds budget with
      | .error e => .error e
      | .ok () => validateBudgets (budget.id :: seenIds) budgets

private theorem notMem_of_validateBudget {seenIds : List String} {budget : QuotaBudget}
    (h : validateBudget seenIds budget = .ok ()) : budget.id ∉ seenIds := by
  intro hmem
  unfold validateBudget at h
  split at h
  · contradiction
  split at h
  · contradiction
  split at h
  · contradiction
  split at h
  · contradiction
  · next hseen =>
    exact hseen (List.contains_iff_mem.mpr hmem)

/-- A validated list of budgets has pairwise distinct ids, none of them seen before. -/
theorem nodup_of_validateBudgets {budgets : List QuotaBudget} {seenIds : List String}
    (h : validateBudgets seenIds budgets = .ok ()) :
    (budgets.map (·.id)).Nodup ∧ ∀ budget ∈ budgets, budget.id ∉ seenIds := by
  induction budgets generalizing seenIds with
  | nil => exact ⟨List.nodup_nil, fun _ hmem ↦ absurd hmem List.not_mem_nil⟩
  | cons budget budgets ih =>
    simp only [validateBudgets] at h
    split at h
    · contradiction
    next hfirst =>
    obtain ⟨hnodup, hfresh⟩ := ih h
    refine ⟨?_, ?_⟩
    · rw [List.map_cons, List.nodup_cons]
      refine ⟨?_, hnodup⟩
      rw [List.mem_map]
      rintro ⟨other, hother, hid⟩
      exact hfresh other hother (hid ▸ List.mem_cons_self)
    · intro other hother
      obtain rfl | hother := List.mem_cons.mp hother
      · exact notMem_of_validateBudget hfirst
      · exact fun hmem ↦ hfresh other hother (List.mem_cons_of_mem _ hmem)

/-- A validated budget keeps clear of the keys of live accounts and ambient conditions. -/
theorem startsWith_of_validateBudgets {budgets : List QuotaBudget} {seenIds : List String}
    (h : validateBudgets seenIds budgets = .ok ()) {budget : QuotaBudget}
    (hmem : budget ∈ budgets) :
    Text.startsWith budget.id ambientPrefix = false ∧
      Text.startsWith budget.id liveAccountLogPrefix = false := by
  induction budgets generalizing seenIds with
  | nil => cases hmem
  | cons first budgets ih =>
    simp only [validateBudgets] at h
    split at h
    · contradiction
    next hfirst =>
    obtain rfl | hmem := List.mem_cons.mp hmem
    · unfold validateBudget at hfirst
      split at hfirst
      · contradiction
      split at hfirst
      · contradiction
      split at hfirst
      · contradiction
      · next hid =>
        simp only [Bool.or_eq_true, not_or, Bool.not_eq_true] at hid
        exact ⟨hid.1.2, hid.2⟩
    · exact ih h hmem

end AgentOdometer.Quota
