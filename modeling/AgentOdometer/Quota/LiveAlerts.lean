import AgentOdometer.Quota.LiveAccounts
import AgentOdometer.Quota.NotificationLog

/-!
# Live-account alerts

`evaluate_live_account_alerts` (`quota_account_alerts.rs:19–123`) and its runs between prunings
of the shared log.
-/

namespace AgentOdometer.Quota

/-- An alert with the time of its reading. Follows `quota_account_alerts.rs:14–17`. -/
structure LiveAccountAlert where
  alert : QuotaAlert
  observedAt : DateTime
deriving DecidableEq

/-- The only item of an iterator which `next` is called on twice. -/
def onlyOne {α : Type} : List α → Option α
  | [item] => some item
  | _ => none

/-- Ten minutes. -/
def tenMinutes : Duration :=
  ⟨10 * 60 * 10 ^ 9⟩

/-- The account of a rule. Follows `quota_account_alerts.rs:24–41`. -/
def ruleAccount (rule : LiveAccountBudget) (status : LiveQuotaStatus) (now : DateTime) :
    Option (LiveQuotaAccountView × DateTime) :=
  if status.configurationError.isSome || status.busy then none
  else
    (onlyOne <| status.accounts.filter fun account ↦
      account.provider == "codex" && account.consent.enabled &&
        account.consent.accountId == rule.accountId &&
        account.consent.consentedAt == rule.consentedAt).bind fun account ↦
    if account.unavailable.isSome then none
    else account.observedAt.bind fun observedAt ↦
      if now < observedAt ∨ tenMinutes < now.signedDurationSince observedAt then none
      else some (account, observedAt)

/-- The bucket of a rule. Follows `quota_account_alerts.rs:42–53`. -/
def ruleBucket (rule : LiveAccountBudget) (account : LiveQuotaAccountView) :
    Option LiveQuotaBucketView :=
  (onlyOne <| account.buckets.filter (·.limitId == rule.limitId)).bind fun bucket ↦
    if bucket.snapshot.provider ≠ .codex ∨ bucket.snapshot.provenance ≠ .liveProvider ∨
      bucket.snapshot.unavailable.isSome then none
    else some bucket

/-- The used percentage of a rule. Follows `quota_account_alerts.rs:54–69`. -/
def ruleUsage (rule : LiveAccountBudget) (bucket : LiveQuotaBucketView)
    (observedAt now : DateTime) :
    Option Float :=
  (onlyOne <| bucket.snapshot.windows.filter fun window ↦
    window.unit == .percent && window.kind.asStr == rule.windowKind &&
      window.windowMinutes == some rule.windowMinutes).bind fun window ↦
  if window.observedAt ≠ observedAt ∨ window.resetsAt.any (· ≤ now) ∨ window.stale ∨
    window.unavailable.isSome then none
  else window.used.filter fun value ↦
    value.isFinite && decide (0.0 ≤ value) && decide (value ≤ 100.0)

/-- `current_window`, `quota_account_alerts.rs:19–70`. -/
def currentWindow (rule : LiveAccountBudget) (status : LiveQuotaStatus) (now : DateTime) :
    Option (Float × DateTime) :=
  (ruleAccount rule status now).bind fun found ↦
    (ruleBucket rule found.1).bind fun bucket ↦
      (ruleUsage rule bucket found.2 now).map fun value ↦ (value, found.2)

/-- A rule as a soft budget under its log key. Follows `quota_account_alerts.rs:88–97`. -/
def LiveAccountBudget.asBudget (rule : LiveAccountBudget) : QuotaBudget where
  id := liveAccountLogKey rule.id
  provider := .codex
  projectKey := none
  unit := .percentOfWindow
  windowKind := some rule.windowKind
  periodHours := none
  threshold := rule.thresholdPercent
  enabled := true

/-- One call: the status, the settings and the clocks. -/
structure LiveCall where
  status : LiveQuotaStatus
  settings : NotificationSettings
  now : DateTime
  localHour : Nat

/-- The alerts so far and the log. -/
structure LiveAlertState where
  alerts : List LiveAccountAlert
  log : List NotificationLogEntry

/-- The settings under which a reading alerts: one from quiet hours is consumed. Follows
`quota_account_alerts.rs:98–104`. -/
def effectiveSettings (localHourOf : DateTime → Nat) (settings : NotificationSettings)
    (observedAt : DateTime) : NotificationSettings :=
  if inQuietHours settings.quietHours (localHourOf observedAt) then
    { settings with enabled := false }
  else settings

/-- The body of the loop. Follows `quota_account_alerts.rs:84–120`. -/
def evaluateRule (localHourOf : DateTime → Nat) (call : LiveCall) (s : LiveAlertState)
    (rule : LiveAccountBudget) : LiveAlertState :=
  match currentWindow rule call.status call.now with
  | none => s
  | some (value, observedAt) =>
      let evaluated := evaluateAlerts [⟨rule.asBudget, some value⟩]
        (effectiveSettings localHourOf call.settings observedAt) s.log call.now call.localHour
      ⟨s.alerts ++ evaluated.1.map fun alert ↦ ⟨alert, observedAt⟩, evaluated.2⟩

/-- The rules which a call evaluates. -/
def activeRules (rules : List LiveAccountBudget) : List LiveAccountBudget :=
  (rules.filter (·.enabled)).take 32

/-- `evaluate_live_account_alerts`, `quota_account_alerts.rs:74–123`. -/
def evaluateLiveAccountAlerts (localHourOf : DateTime → Nat) (rules : List LiveAccountBudget)
    (call : LiveCall) (log : List NotificationLogEntry) : LiveAlertState :=
  (activeRules rules).foldl (evaluateRule localHourOf call) ⟨[], log⟩

/-- The value of a rule is known at a call and below its threshold. -/
def LiveCall.below (call : LiveCall) (rule : LiveAccountBudget) : Bool :=
  (currentWindow rule call.status call.now).any fun reading ↦
    reading.1 < rule.thresholdPercent

/-! ### One rule in one call -/

section Call

variable {localHourOf : DateTime → Nat} {rules : List LiveAccountBudget} {call : LiveCall}
  {rule other : LiveAccountBudget} {log : List NotificationLogEntry} {key : String}

/-- What a rule can see of the loop: whether it is armed, and its own alerts. -/
def LiveAlertState.observed (key : String) (s : LiveAlertState) : Bool × List LiveAccountAlert :=
  (decide (Armed s.log key), s.alerts.filter (·.alert.budgetId == key))

/-- What one rule does to its own observation. -/
def observedRule (localHourOf : DateTime → Nat) (call : LiveCall) (rule : LiveAccountBudget)
    (o : Bool × List LiveAccountAlert) : Bool × List LiveAccountAlert :=
  match currentWindow rule call.status call.now with
  | none => o
  | some (value, observedAt) =>
      let settings := effectiveSettings localHourOf call.settings observedAt
      (!decide (value < rule.thresholdPercent),
        if value < rule.thresholdPercent ∨ o.1 = true ∨
          (settings.enabled && !inQuietHours settings.quietHours call.localHour) = false then o.2
        else o.2 ++ [⟨quotaAlert rule.asBudget value call.now, observedAt⟩])

theorem observed_evaluateRule_of_ne (s : LiveAlertState) (rule : LiveAccountBudget)
    (hne : liveAccountLogKey rule.id ≠ key) :
    (evaluateRule localHourOf call s rule).observed key = s.observed key := by
  unfold evaluateRule
  split
  · rfl
  · rename_i value observedAt hwindow
    generalize effectiveSettings localHourOf call.settings observedAt = settings
    have harmed : Armed (evaluateAlerts [⟨rule.asBudget, some value⟩] settings s.log call.now
        call.localHour).2 key ↔ Armed s.log key := by
      apply armed_evaluateAlerts_of_ne
      rw [List.forall_mem_singleton]
      exact hne
    have halerts : (evaluateAlerts [⟨rule.asBudget, some value⟩] settings s.log call.now
        call.localHour).1 = _ := alerts_evaluateAlerts_singleton rfl
    refine Prod.ext (decide_eq_decide.mpr harmed) ?_
    show List.filter _ (s.alerts ++ _) = List.filter _ s.alerts
    rw [halerts, List.filter_append]
    split
    · simp
    · have hid : (quotaAlert rule.asBudget value call.now).budgetId ≠ key := hne
      simp [hid]

theorem observed_evaluateRule (s : LiveAlertState) (rule : LiveAccountBudget) :
    (evaluateRule localHourOf call s rule).observed (liveAccountLogKey rule.id) =
      observedRule localHourOf call rule (s.observed (liveAccountLogKey rule.id)) := by
  unfold evaluateRule observedRule
  split
  · rfl
  · rename_i value observedAt hwindow
    generalize effectiveSettings localHourOf call.settings observedAt = settings
    have harmed : Armed (evaluateAlerts [⟨rule.asBudget, some value⟩] settings s.log call.now
        call.localHour).2 (liveAccountLogKey rule.id) ↔ ¬value < rule.thresholdPercent :=
      armed_evaluateAlerts_singleton rfl
    have halerts : (evaluateAlerts [⟨rule.asBudget, some value⟩] settings s.log call.now
        call.localHour).1 = _ := alerts_evaluateAlerts_singleton rfl
    refine Prod.ext ?_ ?_
    · rw [← decide_not]
      exact decide_eq_decide.mpr harmed
    · show List.filter _ (s.alerts ++ _) = _
      have hthreshold : rule.asBudget.threshold = rule.thresholdPercent := rfl
      have hid : rule.asBudget.id = liveAccountLogKey rule.id := rfl
      have hbudget : (quotaAlert rule.asBudget value call.now).budgetId =
          liveAccountLogKey rule.id := rfl
      rw [halerts, List.filter_append, hthreshold, hid]
      simp only [LiveAlertState.observed, decide_eq_true_eq]
      split
      · simp
      · simp [hbudget]

/-- Rules leave every other key alone. -/
theorem armed_evaluateLiveAccountAlerts_of_ne
    (hne : ∀ rule : LiveAccountBudget, liveAccountLogKey rule.id ≠ key) :
    Armed (evaluateLiveAccountAlerts localHourOf rules call log).log key ↔ Armed log key := by
  have hframe : (evaluateLiveAccountAlerts localHourOf rules call log).observed key =
      LiveAlertState.observed key ⟨[], log⟩ :=
    KeyedFold.foldl_frame observed_evaluateRule_of_ne (activeRules rules) _ fun rule _ ↦ hne rule
  exact decide_eq_decide.mp (congrArg Prod.fst hframe)

variable (hids : (rules.map (·.id)).Nodup) (hrule : rule ∈ rules)
include hids hrule

variable (localHourOf call) in
/-- A call treats a rule by its own reading alone, or leaves it alone. -/
theorem observed_evaluateLiveAccountAlerts (log : List NotificationLogEntry) :
    (evaluateLiveAccountAlerts localHourOf rules call log).observed (liveAccountLogKey rule.id) =
        observedRule localHourOf call rule
          (decide (Armed log (liveAccountLogKey rule.id)), []) ∨
      (evaluateLiveAccountAlerts localHourOf rules call log).observed (liveAccountLogKey rule.id) =
        (decide (Armed log (liveAccountLogKey rule.id)), []) := by
  have hsub : (activeRules rules).Sublist rules :=
    (List.take_sublist _ _).trans List.filter_sublist
  have hkeys : ((activeRules rules).map fun r ↦ liveAccountLogKey r.id).Nodup := by
    have hnodup := (hids.sublist (hsub.map _)).map liveAccountLogKey_injective
    rwa [List.map_map] at hnodup
  by_cases hactive : rule ∈ activeRules rules
  · left
    have hlocal : ∀ (s t : LiveAlertState) (r : LiveAccountBudget),
        liveAccountLogKey r.id = liveAccountLogKey rule.id →
        s.observed (liveAccountLogKey rule.id) = t.observed (liveAccountLogKey rule.id) →
        (evaluateRule localHourOf call s r).observed (liveAccountLogKey rule.id) =
          (evaluateRule localHourOf call t r).observed (liveAccountLogKey rule.id) := by
      intro s t r hkey hobserved
      rw [← hkey] at hobserved ⊢
      rw [observed_evaluateRule, observed_evaluateRule, hobserved]
    unfold evaluateLiveAccountAlerts
    rw [KeyedFold.foldl_unique observed_evaluateRule_of_ne hlocal hkeys hactive rfl,
      observed_evaluateRule]
    rfl
  · right
    unfold evaluateLiveAccountAlerts
    refine KeyedFold.foldl_frame observed_evaluateRule_of_ne _ ⟨[], log⟩ ?_
    intro r hr hkey
    have heq : r = rule := List.inj_on_of_nodup_map hids (hsub.subset hr) hrule
      (liveAccountLogKey_injective hkey)
    exact hactive (heq ▸ hr)

/-- A call alerts for a rule at most once. -/
theorem length_alerts_le_one (log : List NotificationLogEntry) :
    ((evaluateLiveAccountAlerts localHourOf rules call log).observed
      (liveAccountLogKey rule.id)).2.length ≤ 1 := by
  rcases observed_evaluateLiveAccountAlerts localHourOf call hids hrule log with
    hobserved | hobserved
  · rw [hobserved]
    unfold observedRule
    split
    · exact Nat.zero_le 1
    · simp only
      split <;> simp
  · rw [hobserved]
    exact Nat.zero_le 1

/-- A rule which alerts was not armed, and is armed afterwards. -/
theorem armed_of_alerts {log : List NotificationLogEntry}
    (halert : ((evaluateLiveAccountAlerts localHourOf rules call log).observed
      (liveAccountLogKey rule.id)).2 ≠ []) :
    ¬Armed log (liveAccountLogKey rule.id) ∧
      Armed (evaluateLiveAccountAlerts localHourOf rules call log).log
        (liveAccountLogKey rule.id) := by
  rcases observed_evaluateLiveAccountAlerts localHourOf call hids hrule log with
    hobserved | hobserved
  · have harmed := congrArg Prod.fst hobserved
    rw [hobserved] at halert
    unfold observedRule at halert harmed
    split at halert
    · exact absurd rfl halert
    · rename_i value observedAt hwindow
      simp only at halert
      split at halert
      · exact absurd rfl halert
      · rename_i hfires
        rw [not_or, not_or, decide_eq_true_eq] at hfires
        refine ⟨hfires.2.1, ?_⟩
        rw [hwindow] at harmed
        simpa [LiveAlertState.observed, hfires.1] using harmed
  · rw [hobserved] at halert
    exact absurd rfl halert

/-- A rule which is armed stays armed unless its value is known to be below the threshold. -/
theorem armed_evaluateLiveAccountAlerts {log : List NotificationLogEntry}
    (hbelow : call.below rule = false) (h : Armed log (liveAccountLogKey rule.id)) :
    Armed (evaluateLiveAccountAlerts localHourOf rules call log).log
      (liveAccountLogKey rule.id) := by
  rcases observed_evaluateLiveAccountAlerts localHourOf call hids hrule log with
    hobserved | hobserved
  · have harmed := congrArg Prod.fst hobserved
    unfold observedRule at harmed
    unfold LiveCall.below at hbelow
    split at harmed
    · simpa [LiveAlertState.observed, h] using harmed
    · rename_i value observedAt hwindow
      rw [hwindow] at hbelow
      simpa [LiveAlertState.observed, of_decide_eq_false hbelow] using harmed
  · have harmed := congrArg Prod.fst hobserved
    simpa [LiveAlertState.observed, h] using harmed

end Call

/-! ### Runs -/

/-- What happens to the log: an evaluation of the rules, an evaluation of soft budgets, or a
pruning. -/
inductive LiveAction where
  | evaluate (call : LiveCall)
  | budgets (round : BudgetRound)
  | prune (now : DateTime) (retention : Duration)

variable (localHourOf : DateTime → Nat) (rules : List LiveAccountBudget)

/-- The log after an action. -/
def LiveAction.apply (log : List NotificationLogEntry) : LiveAction → List NotificationLogEntry
  | .evaluate call => (evaluateLiveAccountAlerts localHourOf rules call log).log
  | .budgets round => round.apply log
  | .prune now retention => pruneLog rules log now retention

/-- The log after a run. -/
def liveLogAfter (log : List NotificationLogEntry) (actions : List LiveAction) :
    List NotificationLogEntry :=
  actions.foldl (LiveAction.apply localHourOf rules) log

/-- The alerts of one rule which a call raises after a run. -/
def liveAlertsFor (log : List NotificationLogEntry) (actions : List LiveAction) (call : LiveCall)
    (rule : LiveAccountBudget) : List LiveAccountAlert :=
  (evaluateLiveAccountAlerts localHourOf rules call
    (liveLogAfter localHourOf rules log actions)).alerts.filter
      (·.alert.budgetId == liveAccountLogKey rule.id)

variable {localHourOf rules} {rule : LiveAccountBudget}

/-- An action at which the rule is not known to be below its threshold keeps it armed. -/
theorem LiveAction.armed_apply (hids : (rules.map (·.id)).Nodup) (hrule : rule ∈ rules)
    {log : List NotificationLogEntry} {action : LiveAction}
    (hbelow : ∀ call, action = .evaluate call → call.below rule = false)
    (h : Armed log (liveAccountLogKey rule.id)) :
    Armed (action.apply localHourOf rules log) (liveAccountLogKey rule.id) := by
  cases action with
  | evaluate call => exact armed_evaluateLiveAccountAlerts hids hrule (hbelow call rfl) h
  | budgets round =>
    exact (round.armed_apply (.inr (Text.startsWith_append _ _))).mpr h
  | prune now retention =>
    exact (armed_pruneLog_of_live (List.mem_map.mpr ⟨rule, hrule, rfl⟩)).mpr h

/-- So does a run of them. -/
theorem armed_liveLogAfter (hids : (rules.map (·.id)).Nodup) (hrule : rule ∈ rules)
    {actions : List LiveAction} {log : List NotificationLogEntry}
    (hbelow : ∀ call, .evaluate call ∈ actions → call.below rule = false)
    (h : Armed log (liveAccountLogKey rule.id)) :
    Armed (liveLogAfter localHourOf rules log actions) (liveAccountLogKey rule.id) := by
  induction actions generalizing log with
  | nil => exact h
  | cons action actions ih =>
    rw [liveLogAfter, List.foldl_cons]
    refine ih (fun call hmem ↦ hbelow call (List.mem_cons_of_mem _ hmem)) ?_
    refine LiveAction.armed_apply hids hrule ?_ h
    rintro call rfl
    exact hbelow call List.mem_cons_self

/-- In every run, with any number of other rules, soft budgets and prunings at any clock
values, a call raises at most one alert for a rule, and between two calls which raise one there
is a call at which its value was known to be below the threshold. -/
theorem live_alert_once_per_crossing (hids : (rules.map (·.id)).Nodup) (hrule : rule ∈ rules)
    (log : List NotificationLogEntry) (before between : List LiveAction) (first second : LiveCall) :
    (liveAlertsFor localHourOf rules log before first rule).length ≤ 1 ∧
      (liveAlertsFor localHourOf rules log before first rule ≠ [] →
        liveAlertsFor localHourOf rules log (before ++ .evaluate first :: between) second rule ≠
          [] →
        ∃ call, .evaluate call ∈ between ∧ call.below rule = true) := by
  refine ⟨length_alerts_le_one hids hrule _, fun hfirst hsecond ↦ ?_⟩
  by_contra hnone
  push Not at hnone
  have harmed := (armed_of_alerts hids hrule hfirst).2
  have hrun : liveLogAfter localHourOf rules log (before ++ .evaluate first :: between) =
      liveLogAfter localHourOf rules
        (evaluateLiveAccountAlerts localHourOf rules first
          (liveLogAfter localHourOf rules log before)).log between := by
    simp [liveLogAfter, LiveAction.apply]
  have hclear := (armed_of_alerts hids hrule hsecond).1
  rw [hrun] at hclear
  exact hclear (armed_liveLogAfter hids hrule
    (fun call hmem ↦ Bool.eq_false_of_not_eq_true (hnone call hmem)) harmed)

/-- A rule at eighty percent of a five-hour window. -/
def burstRule : LiveAccountBudget :=
  ⟨"live-rule-1", "account", DateTime.epoch, "limit", "burst", 300, 80.0, true⟩

/-- A reading of the rule's window, so many hours after the epoch. -/
def burstCall (hour : Nat) (used : Float) : LiveCall :=
  let now := (DateTime.ofMillis? (hour * 3600000)).getD .epoch
  { status :=
      { accounts :=
          [{ provider := "codex"
             consent := ⟨"account", "label", .epoch, true⟩
             observedAt := some now
             ordinaryUsageAllowed := none
             buckets :=
               [{ limitId := "limit"
                  limitName := none
                  spendControlReached := none
                  snapshot :=
                    { provider := .codex
                      provenance := .liveProvider
                      windows :=
                        [{ kind := .burst
                           unit := .percent
                           windowMinutes := some 300
                           used := some used
                           remaining := none
                           limit := none
                           unlimited := false
                           resetsAt := none
                           windowStartedAt := none
                           windowStartedAtEstimated := false
                           windowStartBasis := .unknown
                           observedAt := now
                           confidence := .high
                           stale := false
                           unavailable := none
                           forecast := none }]
                      unavailable := none } }]
             unavailable := none }]
        busy := false
        configurationError := none }
    settings := ⟨true, none⟩
    now
    localHour := 12 }

/-- The log is pruned of everything old, the value is read above the threshold again, and then
below it. -/
def burstActions : List LiveAction :=
  [.prune (burstCall 99 0).now ⟨0⟩, .evaluate (burstCall 2 90.0), .evaluate (burstCall 3 50.0)]

/-- A reading alerts, the next one is silent although the log was pruned, and after one below the
threshold another alerts. -/
theorem live_alert_once_per_crossing_burst :
    (liveAlertsFor (fun _ ↦ 12) [burstRule] [] [] (burstCall 1 85.0) burstRule).length = 1 ∧
      liveAlertsFor (fun _ ↦ 12) [burstRule] []
        [.evaluate (burstCall 1 85.0), .prune (burstCall 99 0).now ⟨0⟩] (burstCall 2 90.0)
          burstRule = [] ∧
      (liveAlertsFor (fun _ ↦ 12) [burstRule] [] (.evaluate (burstCall 1 85.0) :: burstActions)
        (burstCall 4 95.0) burstRule).length = 1 ∧
      ∃ call, .evaluate call ∈ burstActions ∧ call.below burstRule = true := by
  have hfirst : (liveAlertsFor (fun _ ↦ 12) [burstRule] [] [] (burstCall 1 85.0)
      burstRule).length = 1 := by
    decide +kernel
  have hsecond : liveAlertsFor (fun _ ↦ 12) [burstRule] []
      [.evaluate (burstCall 1 85.0), .prune (burstCall 99 0).now ⟨0⟩] (burstCall 2 90.0)
        burstRule = [] := by
    decide +kernel
  have hthird : (liveAlertsFor (fun _ ↦ 12) [burstRule] []
      (.evaluate (burstCall 1 85.0) :: burstActions) (burstCall 4 95.0) burstRule).length = 1 := by
    decide +kernel
  refine ⟨hfirst, hsecond, hthird, ?_⟩
  have hids : ([burstRule].map (·.id)).Nodup := by
    decide
  exact (live_alert_once_per_crossing hids List.mem_cons_self [] [] burstActions (burstCall 1 85.0)
    (burstCall 4 95.0)).2 (List.ne_nil_of_length_eq_add_one hfirst)
      (List.ne_nil_of_length_eq_add_one hthird)

end AgentOdometer.Quota
