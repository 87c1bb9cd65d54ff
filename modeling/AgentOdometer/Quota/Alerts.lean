import AgentOdometer.Lib.KeyedFold
import AgentOdometer.Quota.Config
import Mathlib.Data.List.DropRight

/-!
# Soft-budget alerts

`evaluate_alerts` (`quota.rs:1309–1363`) and its runs. The notification log is the only
memory between two calls; a crossing is logged whether or not it is surfaced.
-/

namespace AgentOdometer.Quota

open Std (ExtTreeMap)

/-- A surfaced alert. Follows `quota.rs:1216–1225`. -/
structure QuotaAlert where
  budgetId : String
  provider : ProviderId
  projectKey : Option String
  message : String
  currentValue : Float
  threshold : Float
  firedAt : DateTime
deriving DecidableEq

/-- A budget and its current value. Follows `quota.rs:1231–1234`. -/
structure BudgetEvaluation where
  budget : QuotaBudget
  currentValue : Option Float
deriving DecidableEq

/-- Local-hour range `[start, end)`, wrapping past midnight. Follows `quota.rs:1250–1263`. -/
def inQuietHours (range : Option (Nat × Nat)) (localHour : Nat) : Bool :=
  match range with
  | none => false
  | some (start, stop) =>
      if start = stop then false
      else if start < stop then start ≤ localHour && localHour < stop
      else start ≤ localHour || localHour < stop

/-- The text of an alert. Follows `quota.rs:1265–1289`. -/
def alertMessage (budget : QuotaBudget) (value : Float) : String :=
  match budget.unit with
  | .percentOfWindow =>
      budget.provider.value ++ " is at " ++ Float64.formatFixed 0 value ++ "% of its " ++
        budget.windowKind.getD "quota" ++ " soft budget (" ++
        Float64.formatFixed 0 budget.threshold ++ "%)."
  | .tokens =>
      budget.projectKey.getD budget.provider.value ++ " used " ++
        Float64.formatFixed 0 value ++ " tokens against a " ++
        toString (budget.periodHours.getD 24) ++ "-hour soft budget of " ++
        Float64.formatFixed 0 budget.threshold ++ "."
  | .usd =>
      budget.provider.value ++ " recorded an API base estimate of $" ++
        Float64.formatFixed 2 value ++ " against a " ++
        toString (budget.periodHours.getD 24) ++ "-hour soft budget of $" ++
        Float64.formatFixed 2 budget.threshold ++ "; this is not a bill."

/-- The alert pushed for a crossing. Follows `quota.rs:1349–1357`. -/
def quotaAlert (budget : QuotaBudget) (value : Float) (now : DateTime) : QuotaAlert :=
  ⟨budget.id, budget.provider, budget.projectKey, alertMessage budget value, value,
    budget.threshold, now⟩

/-- The log indexed by dedup key; a later entry replaces an earlier one. Follows
`quota.rs:1316–1320`. -/
def logByKey (log : List NotificationLogEntry) : ExtTreeMap String NotificationLogEntry :=
  log.foldl (fun m entry ↦ m.insert entry.dedupKey entry) ∅

/-- The mutable variables of the loop. -/
structure AlertState where
  alerts : List QuotaAlert
  logByKey : ExtTreeMap String NotificationLogEntry
deriving DecidableEq

/-- The body of the loop. Follows `quota.rs:1324–1359`. -/
def evaluateBudget (surfaced : Bool) (now : DateTime) (s : AlertState)
    (evaluation : BudgetEvaluation) : AlertState :=
  let budget := evaluation.budget
  if !budget.enabled then s
  else
    match evaluation.currentValue with
    | none => s
    | some value =>
        if value < budget.threshold then
          { s with logByKey := s.logByKey.erase budget.id }
        else if s.logByKey.contains budget.id then s
        else
          ⟨if surfaced then s.alerts ++ [quotaAlert budget value now] else s.alerts,
            s.logByKey.insert budget.id ⟨budget.id, now, none⟩⟩

/-- `evaluate_alerts`, `quota.rs:1309–1363`. -/
def evaluateAlerts (evaluations : List BudgetEvaluation) (settings : NotificationSettings)
    (log : List NotificationLogEntry) (now : DateTime) (localHour : Nat) :
    List QuotaAlert × List NotificationLogEntry :=
  let quiet := inQuietHours settings.quietHours localHour
  let s := evaluations.foldl (evaluateBudget (settings.enabled && !quiet) now)
    ⟨[], logByKey log⟩
  (s.alerts, s.logByKey.toList.map Prod.snd)

/-! ### Runs -/

/-- One evaluation of all budgets: their current values, the settings and the clocks. -/
structure AlertCall where
  currentValue : QuotaBudget → Option Float
  settings : NotificationSettings
  now : DateTime
  localHour : Nat

namespace AlertCall

/-- The evaluations which the monitor zips together. Follows `commands.rs:5182–5190`. -/
def evaluations (c : AlertCall) (budgets : List QuotaBudget) : List BudgetEvaluation :=
  budgets.map fun budget ↦ ⟨budget, c.currentValue budget⟩

/-- One call on the log which the previous call returned. -/
def evaluate (c : AlertCall) (budgets : List QuotaBudget) (log : List NotificationLogEntry) :
    List QuotaAlert × List NotificationLogEntry :=
  evaluateAlerts (c.evaluations budgets) c.settings log c.now c.localHour

/-- Notifications are on and it is not quiet. -/
def surfaces (c : AlertCall) : Bool :=
  c.settings.enabled && !inQuietHours c.settings.quietHours c.localHour

/-- The budget's value is known and below its threshold. -/
def below (c : AlertCall) (budget : QuotaBudget) : Bool :=
  (c.currentValue budget).any fun value ↦ value < budget.threshold

/-- The budget's value is known and not below its threshold. -/
def crossed (c : AlertCall) (budget : QuotaBudget) : Bool :=
  (c.currentValue budget).any fun value ↦ !decide (value < budget.threshold)

end AlertCall

/-- The log after a run of calls. -/
def logAfter (budgets : List QuotaBudget) (log : List NotificationLogEntry)
    (calls : List AlertCall) : List NotificationLogEntry :=
  calls.foldl (fun log c ↦ (c.evaluate budgets log).2) log

/-- The alerts of one budget emitted by a call after a run. -/
def alertsFor (budgets : List QuotaBudget) (log : List NotificationLogEntry)
    (calls : List AlertCall) (c : AlertCall) (budget : QuotaBudget) : List QuotaAlert :=
  (c.evaluate budgets (logAfter budgets log calls)).1.filter (·.budgetId == budget.id)

/-- The log holds an entry for the key. -/
def Armed (log : List NotificationLogEntry) (key : String) : Prop :=
  ∃ entry ∈ log, entry.dedupKey = key

instance (log : List NotificationLogEntry) (key : String) : Decidable (Armed log key) :=
  inferInstanceAs (Decidable (∃ entry ∈ log, entry.dedupKey = key))

/-- The calls since the last one at which the budget was known to be below its threshold. -/
def sinceBelow (budget : QuotaBudget) (calls : List AlertCall) : List AlertCall :=
  calls.rtakeWhile fun c ↦ !c.below budget

/-- The budget's current crossing began before this point of the run: it crossed since it
was last known to be below, or it never was below and the starting log was armed. -/
def CrossedBefore (budget : QuotaBudget) (log : List NotificationLogEntry)
    (calls : List AlertCall) : Prop :=
  (∃ c ∈ sinceBelow budget calls, c.crossed budget = true) ∨
    ((∀ c ∈ calls, c.below budget = false) ∧ Armed log budget.id)

/-! ### The log -/

/-- Every entry is stored under its own dedup key. -/
def KeyedByDedup (m : ExtTreeMap String NotificationLogEntry) : Prop :=
  ∀ (k : String) (entry : NotificationLogEntry), m[k]? = some entry → entry.dedupKey = k

private theorem keyed_insert {m : ExtTreeMap String NotificationLogEntry}
    (hm : KeyedByDedup m) (entry : NotificationLogEntry) :
    KeyedByDedup (m.insert entry.dedupKey entry) := by
  intro k e h
  rw [ExtTreeMap.getElem?_insert] at h
  split at h
  · next heq =>
    rw [Option.some.injEq] at h
    subst h
    exact Std.LawfulEqCmp.eq_of_compare heq
  · exact hm k e h

private theorem foldl_insert (log : List NotificationLogEntry)
    (m : ExtTreeMap String NotificationLogEntry) (hm : KeyedByDedup m) :
    KeyedByDedup (log.foldl (fun m entry ↦ m.insert entry.dedupKey entry) m) ∧
    ∀ k, k ∈ log.foldl (fun m entry ↦ m.insert entry.dedupKey entry) m ↔
      k ∈ m ∨ Armed log k := by
  induction log generalizing m with
  | nil => simp [hm, Armed]
  | cons entry log ih =>
    obtain ⟨hkeyed, hmem⟩ := ih _ (keyed_insert hm entry)
    refine ⟨hkeyed, fun k ↦ ?_⟩
    rw [List.foldl_cons, hmem k]
    simp [Armed, ExtTreeMap.mem_insert, or_assoc, or_left_comm]

/-- The index of a log has exactly the keys which the log arms. -/
theorem mem_logByKey (log : List NotificationLogEntry) (k : String) :
    k ∈ logByKey log ↔ Armed log k := by
  simpa [logByKey] using (foldl_insert log ∅ (by simp [KeyedByDedup])).2 k

private theorem keyed_logByKey (log : List NotificationLogEntry) : KeyedByDedup (logByKey log) :=
  (foldl_insert log ∅ (by simp [KeyedByDedup])).1

private theorem armed_values {m : ExtTreeMap String NotificationLogEntry}
    (hm : KeyedByDedup m) (k : String) : Armed (m.toList.map Prod.snd) k ↔ k ∈ m := by
  constructor
  · rintro ⟨entry, hentry, rfl⟩
    obtain ⟨⟨k', e⟩, hmem, rfl⟩ := List.mem_map.mp hentry
    have hget := ExtTreeMap.mem_toList_iff_getElem?_eq_some.mp hmem
    rw [hm k' e hget, ExtTreeMap.mem_iff_isSome_getElem?, hget]
    rfl
  · intro hmem
    have hget : m[k]? = some m[k] := ExtTreeMap.getElem?_eq_some_getElem hmem
    refine ⟨m[k], List.mem_map.mpr ⟨(k, m[k]), ?_, rfl⟩, hm k _ hget⟩
    exact ExtTreeMap.mem_toList_iff_getElem?_eq_some.mpr hget

/-! ### One budget in one call -/

/-- What a budget id can see of the loop: whether it is armed, and its own alerts. -/
def observed (k : String) (s : AlertState) : Bool × List QuotaAlert :=
  (s.logByKey.contains k, s.alerts.filter (·.budgetId == k))

private theorem observed_frame {surfaced : Bool} {now : DateTime} {k : String}
    (s : AlertState) (e : BudgetEvaluation) (hne : e.budget.id ≠ k) :
    observed k (evaluateBudget surfaced now s e) = observed k s := by
  simp only [evaluateBudget]
  split
  · rfl
  cases e.currentValue with
  | none => rfl
  | some value =>
    simp only
    split
    · simp [observed, ExtTreeMap.contains_erase, hne]
    split
    · rfl
    · cases surfaced <;>
        simp [observed, ExtTreeMap.contains_insert, hne, quotaAlert]

/-- Effect of one evaluation on the observation of its own budget. -/
def observedStep (surfaced : Bool) (now : DateTime) (e : BudgetEvaluation)
    (o : Bool × List QuotaAlert) : Bool × List QuotaAlert :=
  if !e.budget.enabled then o
  else
    match e.currentValue with
    | none => o
    | some value =>
        if value < e.budget.threshold then (false, o.2)
        else if o.1 then o
        else (true, if surfaced then o.2 ++ [quotaAlert e.budget value now] else o.2)

private theorem observed_step (surfaced : Bool) (now : DateTime) (s : AlertState)
    (e : BudgetEvaluation) :
    observed e.budget.id (evaluateBudget surfaced now s e) =
      observedStep surfaced now e (observed e.budget.id s) := by
  simp only [evaluateBudget, observedStep]
  split
  · rfl
  cases e.currentValue with
  | none => rfl
  | some value =>
    simp only
    split
    · simp [observed]
    split
    · next harmed => simp [observed, harmed]
    · next hclear =>
      cases surfaced <;> simp [observed, hclear, quotaAlert]

private theorem keyed_evaluateBudget {surfaced : Bool} {now : DateTime} (s : AlertState)
    (e : BudgetEvaluation) (hs : KeyedByDedup s.logByKey) :
    KeyedByDedup (evaluateBudget surfaced now s e).logByKey := by
  simp only [evaluateBudget]
  split
  · exact hs
  cases e.currentValue with
  | none => exact hs
  | some value =>
    simp only
    split
    · intro k entry h
      rw [ExtTreeMap.getElem?_erase] at h
      split at h
      · contradiction
      · exact hs k entry h
    split
    · exact hs
    · exact keyed_insert hs ⟨e.budget.id, now, none⟩

private theorem keyed_foldl (surfaced : Bool) (now : DateTime) (l : List BudgetEvaluation)
    (s : AlertState) (hs : KeyedByDedup s.logByKey) :
    KeyedByDedup (l.foldl (evaluateBudget surfaced now) s).logByKey := by
  induction l generalizing s with
  | nil => exact hs
  | cons e l ih => exact ih _ (keyed_evaluateBudget s e hs)

/-! ### Other keys, and one evaluation alone -/

section Evaluations

variable {evaluations : List BudgetEvaluation} {settings : NotificationSettings}
  {log : List NotificationLogEntry} {now : DateTime} {localHour : Nat} {k : String}

/-- Evaluating other budgets neither arms nor disarms a key. -/
theorem armed_evaluateAlerts_of_ne (h : ∀ e ∈ evaluations, e.budget.id ≠ k) :
    Armed (evaluateAlerts evaluations settings log now localHour).2 k ↔ Armed log k := by
  generalize hsurfaced : (settings.enabled && !inQuietHours settings.quietHours localHour) =
    surfaced
  have hframe : ∀ s : AlertState, (evaluations.foldl (evaluateBudget surfaced now)
      s).logByKey.contains k = s.logByKey.contains k := by
    clear hsurfaced
    induction evaluations with
    | nil => exact fun _ ↦ rfl
    | cons e rest ih =>
      intro s
      rw [List.forall_mem_cons] at h
      rw [List.foldl_cons, ih h.2]
      exact congrArg Prod.fst (observed_frame s e h.1)
  have hkeyed := keyed_foldl surfaced now evaluations ⟨[], logByKey log⟩ (keyed_logByKey log)
  unfold evaluateAlerts
  simp only [hsurfaced]
  rw [armed_values hkeyed, ← mem_logByKey, ← ExtTreeMap.contains_iff_mem,
    ← ExtTreeMap.contains_iff_mem, hframe]

/-- An enabled budget with a known value is armed exactly when the value is not below the
threshold. -/
theorem armed_evaluateAlerts_singleton {budget : QuotaBudget} {value : Float}
    (henabled : budget.enabled = true) :
    Armed (evaluateAlerts [⟨budget, some value⟩] settings log now localHour).2 budget.id ↔
      ¬value < budget.threshold := by
  generalize hsurfaced : (settings.enabled && !inQuietHours settings.quietHours localHour) =
    surfaced
  have hkeyed : KeyedByDedup
      (evaluateBudget surfaced now ⟨[], logByKey log⟩ ⟨budget, some value⟩).logByKey :=
    keyed_evaluateBudget _ _ (keyed_logByKey log)
  have hobserved := congrArg Prod.fst
    (observed_step surfaced now ⟨[], logByKey log⟩ ⟨budget, some value⟩)
  unfold evaluateAlerts
  simp only [hsurfaced, List.foldl_cons, List.foldl_nil]
  rw [armed_values hkeyed, ← ExtTreeMap.contains_iff_mem]
  refine (iff_of_eq (congrArg (· = true) hobserved)).trans ?_
  by_cases hlt : value < budget.threshold
  · simp [observedStep, henabled, hlt]
  · cases hcontains : (logByKey log).contains budget.id <;>
      simp [observedStep, observed, henabled, hlt, hcontains]

/-- An enabled budget with a known value alerts when its value is not below the threshold, its
key was not armed and alerts are surfaced. -/
theorem alerts_evaluateAlerts_singleton {budget : QuotaBudget} {value : Float}
    (henabled : budget.enabled = true) :
    (evaluateAlerts [⟨budget, some value⟩] settings log now localHour).1 =
      if value < budget.threshold ∨ Armed log budget.id ∨
          (settings.enabled && !inQuietHours settings.quietHours localHour) = false then []
      else [quotaAlert budget value now] := by
  have harmed : (logByKey log).contains budget.id = decide (Armed log budget.id) := by
    rw [Bool.eq_iff_iff, ExtTreeMap.contains_iff_mem, mem_logByKey, decide_eq_true_iff]
  unfold evaluateAlerts
  simp only [List.foldl_cons, List.foldl_nil, evaluateBudget, henabled, Bool.not_true,
    Bool.false_eq_true, if_false, harmed]
  by_cases hlt : value < budget.threshold
  · simp [hlt]
  by_cases hkey : Armed log budget.id
  · simp [hlt, hkey]
  cases hsurfaced : (settings.enabled && !inQuietHours settings.quietHours localHour) <;>
    simp [hlt, hkey]

end Evaluations

/-! ### One call -/

section Call

variable {budgets : List QuotaBudget} {budget : QuotaBudget}
variable (hids : (budgets.map (·.id)).Nodup) (hbudget : budget ∈ budgets)
include hids hbudget

private theorem observed_call (log : List NotificationLogEntry) (c : AlertCall) :
    observed budget.id ((c.evaluations budgets).foldl (evaluateBudget c.surfaces c.now)
        ⟨[], logByKey log⟩) =
      observedStep c.surfaces c.now ⟨budget, c.currentValue budget⟩
        (decide (Armed log budget.id), []) := by
  have hkeys : ((c.evaluations budgets).map fun e ↦ e.budget.id).Nodup := by
    simpa [AlertCall.evaluations, Function.comp_def] using hids
  have hmem : (⟨budget, c.currentValue budget⟩ : BudgetEvaluation) ∈ c.evaluations budgets :=
    List.mem_map.mpr ⟨budget, hbudget, rfl⟩
  have hlocal : ∀ (s t : AlertState) (e : BudgetEvaluation), e.budget.id = budget.id →
      observed budget.id s = observed budget.id t →
      observed budget.id (evaluateBudget c.surfaces c.now s e) =
        observed budget.id (evaluateBudget c.surfaces c.now t e) := by
    intro s t e hk hobs
    rw [← hk] at hobs ⊢
    rw [observed_step, observed_step, hobs]
  have hstep := observed_step c.surfaces c.now ⟨[], logByKey log⟩
    ⟨budget, c.currentValue budget⟩
  rw [KeyedFold.foldl_unique observed_frame hlocal hkeys hmem rfl, hstep]
  have harmed : (logByKey log).contains budget.id = decide (Armed log budget.id) := by
    rw [Bool.eq_iff_iff, ExtTreeMap.contains_iff_mem, mem_logByKey, decide_eq_true_iff]
  simp [observed, harmed]

/-- The alerts of a budget in one call. -/
theorem alerts_evaluate (log : List NotificationLogEntry) (c : AlertCall) :
    (c.evaluate budgets log).1.filter (·.budgetId == budget.id) =
      (observedStep c.surfaces c.now ⟨budget, c.currentValue budget⟩
        (decide (Armed log budget.id), [])).2 :=
  congrArg Prod.snd (observed_call hids hbudget log c)

/-- Whether a budget is armed in the log which one call returns. -/
theorem armed_evaluate (log : List NotificationLogEntry) (c : AlertCall) :
    Armed (c.evaluate budgets log).2 budget.id ↔
      (observedStep c.surfaces c.now ⟨budget, c.currentValue budget⟩
        (decide (Armed log budget.id), [])).1 = true := by
  rw [← observed_call hids hbudget log c]
  have hkeyed := keyed_foldl c.surfaces c.now (c.evaluations budgets)
    ⟨[], logByKey log⟩ (keyed_logByKey log)
  rw [observed, ExtTreeMap.contains_iff_mem, ← armed_values hkeyed]
  rfl

/-- An enabled budget is armed after a call exactly when its value is not known to be below
the threshold, and it crossed now or was armed already. -/
theorem armed_evaluate_of_enabled (henabled : budget.enabled = true)
    (log : List NotificationLogEntry) (c : AlertCall) :
    Armed (c.evaluate budgets log).2 budget.id ↔
      c.below budget = false ∧ (c.crossed budget = true ∨ Armed log budget.id) := by
  rw [armed_evaluate hids hbudget]
  cases hvalue : c.currentValue budget with
  | none => simp [observedStep, henabled, AlertCall.below, AlertCall.crossed, hvalue]
  | some value =>
    by_cases hlt : value < budget.threshold <;> by_cases harmed : Armed log budget.id <;>
      simp [observedStep, henabled, AlertCall.below, AlertCall.crossed, hvalue, hlt, harmed]

/-! ### Runs of calls -/

/-- After any run, the log arms an enabled budget exactly when its current crossing has
already begun. -/
theorem armed_logAfter (henabled : budget.enabled = true) (log : List NotificationLogEntry)
    (calls : List AlertCall) :
    Armed (logAfter budgets log calls) budget.id ↔ CrossedBefore budget log calls := by
  induction calls using List.reverseRecOn with
  | nil => simp [logAfter, CrossedBefore, sinceBelow]
  | append_singleton calls c ih =>
    have hstep := armed_evaluate_of_enabled hids hbudget henabled
      (logAfter budgets log calls) c
    rw [ih] at hstep
    have hrun : logAfter budgets log (calls ++ [c]) =
        (c.evaluate budgets (logAfter budgets log calls)).2 := by
      simp [logAfter]
    rw [hrun, hstep]
    cases hbelow : c.below budget with
    | true => simp [CrossedBefore, sinceBelow, hbelow]
    | false =>
      simp only [CrossedBefore, sinceBelow, List.rtakeWhile_concat, hbelow, Bool.not_false,
        List.mem_append, List.mem_singleton, true_and, or_imp, forall_and, forall_eq,
        or_and_right, exists_or, exists_eq_left, and_true, if_true]
      exact or_left_comm.trans or_assoc.symm

/-- A call alerts for a budget exactly at the start of a crossing which may be surfaced: the
budget is enabled, its value is known and not below its threshold, notifications are on and
not quiet, and the crossing has not begun at an earlier call or in the starting log. A
missing value neither fires nor re-arms, and a call alerts at most once for a budget. -/
theorem alertsFor_iff_crossing_starts (log : List NotificationLogEntry) (calls : List AlertCall)
    (c : AlertCall) :
    (∀ alert, alert ∈ alertsFor budgets log calls c budget ↔
      ∃ value, c.currentValue budget = some value ∧ ¬ value < budget.threshold ∧
        budget.enabled = true ∧ c.settings.enabled = true ∧
        inQuietHours c.settings.quietHours c.localHour = false ∧
        ¬ CrossedBefore budget log calls ∧ alert = quotaAlert budget value c.now) ∧
    (alertsFor budgets log calls c budget).length ≤ 1 := by
  rw [alertsFor, alerts_evaluate hids hbudget]
  cases henabled : budget.enabled with
  | false => simp [observedStep, henabled]
  | true =>
    have harmed := armed_logAfter hids hbudget henabled log calls
    cases hvalue : c.currentValue budget with
    | none => simp [observedStep, henabled]
    | some value =>
      by_cases hlt : value < budget.threshold <;>
        by_cases hcrossed : CrossedBefore budget log calls <;>
        cases hsettings : c.settings.enabled <;>
        cases hquiet : inQuietHours c.settings.quietHours c.localHour <;>
        simp [observedStep, henabled, hlt, harmed, hcrossed, AlertCall.surfaces, hsettings,
          hquiet]

end Call

/-- A token budget of 100 over a day. -/
def dailyTokens : QuotaBudget :=
  ⟨"daily", .codex, none, .tokens, none, none, 100.0, true⟩

/-- The budget stands at 120, and notifications are on or off. -/
def callAt120 (enabled : Bool) : AlertCall :=
  ⟨fun _ ↦ some 120.0, ⟨enabled, none⟩, DateTime.epoch, 12⟩

/-- A token budget of 1000 over a week. -/
def weeklyTokens : QuotaBudget :=
  ⟨"weekly", .codex, none, .tokens, none, none, 1000.0, true⟩

/-- The budgets stand at 40, and notifications are on. -/
def callAt40 : AlertCall :=
  ⟨fun _ ↦ some 40.0, ⟨true, none⟩, DateTime.epoch, 12⟩

/-- The budget alerts again once it was below its threshold, and is silent as long as it was not. -/
theorem alertsFor_iff_crossing_starts_dailyTokens :
    quotaAlert dailyTokens 120.0 DateTime.epoch ∈
        alertsFor [weeklyTokens, dailyTokens] [] [callAt120 true, callAt40] (callAt120 true)
          dailyTokens ∧
      alertsFor [weeklyTokens, dailyTokens] [] [callAt120 true] (callAt120 true) dailyTokens =
        [] := by
  have hmem : dailyTokens ∈ [weeklyTokens, dailyTokens] := List.mem_cons_of_mem _ List.mem_cons_self
  have hat40 : callAt40.below dailyTokens = true := by decide +kernel
  have hat120 : (callAt120 true).below dailyTokens = false := by decide +kernel
  constructor
  · refine ((alertsFor_iff_crossing_starts (by decide) hmem [] [callAt120 true, callAt40]
      (callAt120 true)).1 _).mpr
        ⟨120.0, rfl, by decide +kernel, rfl, rfl, by decide +kernel, ?_, rfl⟩
    rintro (⟨c, hc, -⟩ | ⟨hbelow, -⟩)
    · simp [sinceBelow, List.rtakeWhile, hat40] at hc
    · rw [hbelow callAt40 (by simp)] at hat40
      cases hat40
  · refine List.eq_nil_iff_forall_not_mem.mpr fun alert halert ↦ ?_
    obtain ⟨value, -, -, -, -, -, hnew, -⟩ := ((alertsFor_iff_crossing_starts (by decide) hmem []
      [callAt120 true] (callAt120 true)).1 alert).mp halert
    refine hnew (Or.inl ⟨callAt120 true, ?_, by decide +kernel⟩)
    simp [sinceBelow, List.rtakeWhile, hat120]

/-! ### Alerts and suppressed crossings -/

/-- An earlier call has alerted for the budget, and the budget was not known to be below its
threshold at that call or after it. -/
def AlertedSinceBelow (budgets : List QuotaBudget) (log : List NotificationLogEntry)
    (calls : List AlertCall) (budget : QuotaBudget) : Prop :=
  ∃ earlier c later, calls = earlier ++ c :: later ∧
    (∀ c' ∈ c :: later, c'.below budget = false) ∧
    alertsFor budgets log earlier c budget ≠ []

/-- The reading in which only an emitted alert ends a crossing's right to alert. -/
def AlertsWheneverUnalerted (budgets : List QuotaBudget) (log : List NotificationLogEntry)
    (calls : List AlertCall) (c : AlertCall) (budget : QuotaBudget) : Prop :=
  alertsFor budgets log calls c budget ≠ [] ↔
    c.surfaces = true ∧ c.crossed budget = true ∧ ¬ AlertedSinceBelow budgets log calls budget

/-- A crossing seen while notifications are off never alerts afterwards. -/
theorem suppressed_crossing_stays_silent :
    ¬ AlertsWheneverUnalerted [dailyTokens] [] [callAt120 false] (callAt120 true)
      dailyTokens := by
  intro h
  have hsilent : alertsFor [dailyTokens] [] [callAt120 false] (callAt120 true) dailyTokens =
      [] := by
    decide +kernel
  have hunalerted : ¬ AlertedSinceBelow [dailyTokens] [] [callAt120 false] dailyTokens := by
    rintro ⟨earlier, c, later, hcalls, -, halerts⟩
    obtain ⟨rfl, hrest⟩ : earlier = [] ∧ c :: later = [callAt120 false] := by
      cases earlier with
      | nil => exact ⟨rfl, hcalls.symm⟩
      | cons a as => simp at hcalls
    rw [List.cons.injEq] at hrest
    obtain ⟨rfl, rfl⟩ := hrest
    exact halerts (by decide +kernel)
  exact (h.mpr ⟨by decide +kernel, by decide +kernel, hunalerted⟩) hsilent

end AgentOdometer.Quota
