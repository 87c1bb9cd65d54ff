import AgentOdometer.Base.StableHash
import AgentOdometer.Quota.LiveAlerts

/-!
# Ambient notices

`ambient::evaluate` (`ambient.rs:40–139`) and its runs on the log which it shares with soft
budgets and live-account rules. A condition is armed by its entry alone.
-/

namespace AgentOdometer.Quota

/-- A condition which is present. Follows `ambient.rs:40–48`. -/
structure Candidate where
  key : String
  route : Route
  provider : String
  code : String
  observedAt : DateTime
  enabled : Bool
  fresh : Bool
deriving Repr, DecidableEq

/-- What `evaluate` reads of the runtime. Follows `ambient.rs:52–61`. -/
structure AmbientRuntime where
  initialized : Bool
  failed : List String
deriving Repr, DecidableEq

/-- `key`, `ambient.rs:73–78`. -/
def conditionKey (value : String) : String :=
  ambientPrefix ++ stableHash value

/-- The arguments of a call beside the log. -/
structure AmbientCall where
  candidates : List Candidate
  resolved : List String
  settings : NotificationSettings
  runtime : AmbientRuntime
  now : DateTime
  hour : Nat

/-- The candidates which a call examines. -/
def AmbientCall.examined (call : AmbientCall) : List Candidate :=
  call.candidates.take 100

/-- Delivery of a candidate is suppressed. Follows `ambient.rs:107–118`. -/
def AmbientCall.suppresses (localHourOf : DateTime → Nat) (call : AmbientCall)
    (candidate : Candidate) : Bool :=
  !call.runtime.initialized || !call.runtime.failed.isEmpty || !call.settings.enabled ||
    inQuietHours call.settings.quietHours call.hour ||
    inQuietHours call.settings.quietHours (localHourOf candidate.observedAt) ||
    !candidate.enabled || !candidate.fresh || decide (call.now < candidate.observedAt)

/-- The id of a notice about a condition at an instant. -/
def noticeId (key : String) (now : DateTime) : String :=
  key ++ ":" ++ toString now.timestampMicros

/-- The notice of a candidate. Follows `ambient.rs:121–130`. -/
def Candidate.notice (candidate : Candidate) (now : DateTime) : Notice where
  id := noticeId (conditionKey candidate.key) now
  route := candidate.route
  provider := candidate.provider
  code := candidate.code
  observedAt := candidate.observedAt
  deliveredAt := now

/-- The first entry of a key is renewed. Follows `ambient.rs:97–101`. -/
def renew (key : String) (now : DateTime) : List NotificationLogEntry → List NotificationLogEntry
  | [] => []
  | entry :: log =>
      if entry.dedupKey = key then { entry with firedAt := now } :: log
      else entry :: renew key now log

/-- The key under which a delivered notice is kept. Follows `ambient.rs:131–135`. -/
def recentKey (key : String) (now : DateTime) : String :=
  ambientPrefix ++ "recent/" ++ key ++ "/" ++ toString now.timestampMillis

/-- The notices so far and the log. -/
structure AmbientState where
  notices : List Notice
  log : List NotificationLogEntry

/-- The body of the loop. Follows `ambient.rs:95–137`. -/
def evaluateCandidate (localHourOf : DateTime → Nat) (call : AmbientCall) (s : AmbientState)
    (candidate : Candidate) : AmbientState :=
  let key := conditionKey candidate.key
  if Armed s.log key then { s with log := renew key call.now s.log }
  else
    let log := s.log ++ [⟨key, call.now, none⟩]
    if call.suppresses localHourOf candidate then { s with log := log }
    else
      let notice := candidate.notice call.now
      ⟨s.notices ++ [notice], log ++ [⟨recentKey key call.now, call.now, some notice⟩]⟩

/-- The log without the conditions which are resolved. -/
def clearResolved (resolved : List String) (log : List NotificationLogEntry) :
    List NotificationLogEntry :=
  log.filter fun entry ↦ !resolved.contains entry.dedupKey

/-- `evaluate`, `ambient.rs:83–139`. -/
def evaluateAmbient (localHourOf : DateTime → Nat) (call : AmbientCall)
    (log : List NotificationLogEntry) : AmbientState :=
  call.examined.foldl (evaluateCandidate localHourOf call) ⟨[], clearResolved call.resolved log⟩

/-- The notices of a state about one condition. -/
def AmbientState.about (s : AmbientState) (key : String) (now : DateTime) : List Notice :=
  s.notices.filter (·.id == noticeId key now)

variable {localHourOf : DateTime → Nat} {call : AmbientCall} {log : List NotificationLogEntry}
  {key : String} {candidate : Candidate} {s : AmbientState}

theorem noticeId_injective (now : DateTime) : Function.Injective fun key ↦ noticeId key now := by
  intro a b h
  have hlist := congrArg String.toList h
  simp only [noticeId, String.toList_append, List.append_assoc, List.append_cancel_right_eq]
    at hlist
  exact String.toList_inj.mp hlist

theorem armed_renew {other : String} {now : DateTime} :
    Armed (renew other now log) key ↔ Armed log key := by
  induction log with
  | nil => exact Iff.rfl
  | cons entry log ih =>
    unfold renew
    split
    · rw [armed_cons, armed_cons]
    · rw [armed_cons, armed_cons, ih]

theorem armed_clearResolved {resolved : List String} :
    Armed (clearResolved resolved log) key ↔ Armed log key ∧ key ∉ resolved := by
  constructor
  · rintro ⟨entry, hmem, rfl⟩
    obtain ⟨hentry, hclear⟩ := List.mem_filter.mp hmem
    refine ⟨⟨entry, hentry, rfl⟩, fun hresolved ↦ ?_⟩
    rw [List.contains_iff_mem.mpr hresolved] at hclear
    exact absurd hclear (by decide)
  · rintro ⟨⟨entry, hmem, rfl⟩, hresolved⟩
    refine ⟨entry, List.mem_filter.mpr ⟨hmem, ?_⟩, rfl⟩
    simpa using hresolved

/-! ### One candidate -/

section Candidate

variable (localHourOf call candidate)

/-- No candidate disarms a condition. -/
theorem armed_evaluateCandidate (h : Armed s.log key) :
    Armed (evaluateCandidate localHourOf call s candidate).log key := by
  unfold evaluateCandidate
  simp only
  split
  · exact armed_renew.mpr h
  · split
    · exact armed_append.mpr (.inl h)
    · exact armed_append.mpr (.inl (armed_append.mpr (.inl h)))

variable (s) in
/-- A candidate arms its condition, whether or not it is delivered. -/
theorem armed_evaluateCandidate_self :
    Armed (evaluateCandidate localHourOf call s candidate).log (conditionKey candidate.key) := by
  have hentry : Armed (s.log ++ [⟨conditionKey candidate.key, call.now, none⟩])
      (conditionKey candidate.key) :=
    armed_append.mpr (.inr (armed_cons.mpr (.inl rfl)))
  unfold evaluateCandidate
  simp only
  split
  · rename_i harmed
    exact armed_renew.mpr harmed
  · split
    · exact hentry
    · exact armed_append.mpr (.inl hentry)

variable (s key) in
/-- A candidate adds a notice about its own condition, where that was not armed. -/
theorem about_evaluateCandidate :
    (evaluateCandidate localHourOf call s candidate).about key call.now =
      s.about key call.now ∨
    (¬Armed s.log key ∧ key = conditionKey candidate.key ∧
      (evaluateCandidate localHourOf call s candidate).about key call.now =
        s.about key call.now ++ [candidate.notice call.now]) := by
  unfold evaluateCandidate
  simp only
  split
  · exact .inl rfl
  rename_i harmed
  split
  · exact .inl rfl
  by_cases hkey : key = conditionKey candidate.key
  · refine .inr ⟨hkey ▸ harmed, hkey, ?_⟩
    simp [AmbientState.about, Candidate.notice, hkey]
  · left
    have hne : ¬noticeId (conditionKey candidate.key) call.now = noticeId key call.now :=
      fun h ↦ hkey (noticeId_injective call.now h).symm
    simp [AmbientState.about, Candidate.notice, hne]

end Candidate

/-! ### One call -/

/-- A condition which is armed stays so, without a notice. -/
theorem foldl_of_armed {candidates : List Candidate} (h : Armed s.log key) :
    Armed (candidates.foldl (evaluateCandidate localHourOf call) s).log key ∧
      (candidates.foldl (evaluateCandidate localHourOf call) s).about key call.now =
        s.about key call.now := by
  induction candidates generalizing s with
  | nil => exact ⟨h, rfl⟩
  | cons candidate candidates ih =>
    rw [List.foldl_cons]
    have hrest := ih (armed_evaluateCandidate localHourOf call candidate h)
    refine ⟨hrest.1, hrest.2.trans ?_⟩
    rcases about_evaluateCandidate localHourOf call key candidate s with habout | ⟨hclear, -⟩
    · exact habout
    · exact absurd h hclear

/-- A condition among the candidates is armed afterwards. -/
theorem armed_foldl_of_mem {candidates : List Candidate} (hmem : candidate ∈ candidates) :
    Armed (candidates.foldl (evaluateCandidate localHourOf call) s).log
      (conditionKey candidate.key) := by
  induction candidates generalizing s with
  | nil => cases hmem
  | cons first candidates ih =>
    rw [List.foldl_cons]
    rcases List.mem_cons.mp hmem with rfl | hmem
    · exact (foldl_of_armed (armed_evaluateCandidate_self localHourOf call _ s)).1
    · exact ih hmem

/-- The candidates give a condition at most one notice, and only where it was not armed. -/
theorem about_foldl (localHourOf : DateTime → Nat) (call : AmbientCall) (key : String)
    (s : AmbientState) (candidates : List Candidate) :
    (candidates.foldl (evaluateCandidate localHourOf call) s).about key call.now =
        s.about key call.now ∨
      (¬Armed s.log key ∧ ∃ candidate ∈ candidates, key = conditionKey candidate.key ∧
        (candidates.foldl (evaluateCandidate localHourOf call) s).about key call.now =
          s.about key call.now ++ [candidate.notice call.now]) := by
  induction candidates generalizing s with
  | nil => exact .inl rfl
  | cons candidate candidates ih =>
    rw [List.foldl_cons]
    rcases about_evaluateCandidate localHourOf call key candidate s with
      habout | ⟨hclear, hkey, habout⟩
    · rcases ih (evaluateCandidate localHourOf call s candidate) with
        hrest | ⟨hclear, other, hmem, hkey, hrest⟩
      · exact .inl (hrest.trans habout)
      · refine .inr ⟨fun harmed ↦
            hclear (armed_evaluateCandidate localHourOf call candidate harmed),
          other, List.mem_cons_of_mem _ hmem, hkey, ?_⟩
        rw [hrest, habout]
    · refine .inr ⟨hclear, candidate, List.mem_cons_self, hkey, ?_⟩
      have hself : Armed (evaluateCandidate localHourOf call s candidate).log key := by
        rw [hkey]
        exact armed_evaluateCandidate_self localHourOf call candidate s
      rw [(foldl_of_armed hself).2, habout]

variable (localHourOf call log key) in
/-- A call delivers a condition at most once, and only where it was not armed or is resolved. -/
theorem about_evaluateAmbient :
    (evaluateAmbient localHourOf call log).about key call.now = [] ∨
      ((evaluateAmbient localHourOf call log).about key call.now).length = 1 ∧
        (Armed log key → key ∈ call.resolved) ∧
          ∃ candidate ∈ call.examined, key = conditionKey candidate.key := by
  rcases about_foldl localHourOf call key ⟨[], clearResolved call.resolved log⟩ call.examined with
    habout | ⟨hclear, candidate, hmem, hkey, habout⟩
  · exact .inl habout
  · refine .inr ⟨congrArg List.length habout, fun harmed ↦ ?_, candidate, hmem, hkey⟩
    by_contra hresolved
    exact hclear (armed_clearResolved.mpr ⟨harmed, hresolved⟩)

theorem armed_evaluateAmbient_of_examined (hmem : candidate ∈ call.examined) :
    Armed (evaluateAmbient localHourOf call log).log (conditionKey candidate.key) :=
  armed_foldl_of_mem hmem

theorem armed_evaluateAmbient (harmed : Armed log key) (hresolved : key ∉ call.resolved) :
    Armed (evaluateAmbient localHourOf call log).log key :=
  (foldl_of_armed (armed_clearResolved.mpr ⟨harmed, hresolved⟩)).1

/-! ### Keys of conditions -/

theorem startsWith_conditionKey (value : String) :
    Text.startsWith (conditionKey value) ambientPrefix = true :=
  Text.startsWith_append _ _

theorem conditionKey_ne_liveAccountLogKey (value id : String) :
    conditionKey value ≠ liveAccountLogKey id := by
  intro h
  have hlist := congrArg String.toList h
  rw [conditionKey, liveAccountLogKey, String.toList_append, String.toList_append] at hlist
  have hhead := congrArg List.head? hlist
  exact absurd hhead (by simp [ambientPrefix, liveAccountLogPrefix])

theorem conditionKey_notMem_armedLiveKeys (rules : List LiveAccountBudget) (value : String) :
    conditionKey value ∉ armedLiveKeys rules := by
  intro hmem
  obtain ⟨rule, -, hrule⟩ := List.mem_map.mp hmem
  exact conditionKey_ne_liveAccountLogKey value rule.id hrule.symm

/-! ### Runs -/

/-- What happens to the shared log: the evaluations of the three kinds of alerts, the notices
of budgets which the monitor keeps, and prunings. -/
inductive NotificationAction where
  | budgets (round : BudgetRound)
  | live (call : LiveCall)
  | ambient (call : AmbientCall)
  | record (notices : List Notice)
  | prune (now : DateTime) (retention : Duration)

/-- The entry of a budget's notice. Follows `commands.rs:5449–5453`. -/
def recordedEntry (notice : Notice) : NotificationLogEntry :=
  ⟨ambientPrefix ++ "recent/" ++ notice.id, notice.deliveredAt, some notice⟩

variable (localHourOf : DateTime → Nat) (rules : List LiveAccountBudget)

/-- The log after an action. -/
def NotificationAction.apply (log : List NotificationLogEntry) :
    NotificationAction → List NotificationLogEntry
  | .budgets round => round.apply log
  | .live call => (evaluateLiveAccountAlerts localHourOf rules call log).log
  | .ambient call => (evaluateAmbient localHourOf call log).log
  | .record notices => log ++ notices.map recordedEntry
  | .prune now retention => pruneLog rules log now retention

/-- The log after a run. -/
def sharedLogAfter (log : List NotificationLogEntry) (actions : List NotificationAction) :
    List NotificationLogEntry :=
  actions.foldl (NotificationAction.apply localHourOf rules) log

/-- The notices about a condition which a call delivers after a run. -/
def deliveredFor (log : List NotificationLogEntry) (actions : List NotificationAction)
    (call : AmbientCall) (key : String) : List Notice :=
  (evaluateAmbient localHourOf call (sharedLogAfter localHourOf rules log actions)).about key
    call.now

/-- A pruning finds every condition young and not crowded out. -/
def KeepsConditions (log : List NotificationLogEntry) (now : DateTime) (retention : Duration) :
    Prop :=
  ∀ value, Armed log (conditionKey value) → ∃ entry ∈ log,
    entry.dedupKey = conditionKey value ∧ isYoung now retention entry = true ∧
      entry ∉ crowdedOut rules log now retention

/-- A call examines every condition whose delivery it suppresses. -/
def AmbientCall.Examines (call : AmbientCall) : Prop :=
  ∀ candidate ∈ call.candidates, call.suppresses localHourOf candidate = true →
    ∃ other ∈ call.examined, conditionKey other.key = conditionKey candidate.key

/-- The condition on an action in the state of the log before it. -/
def NotificationAction.Meets (log : List NotificationLogEntry) : NotificationAction → Prop
  | .ambient call => call.Examines localHourOf
  | .prune now retention => KeepsConditions rules log now retention
  | _ => True

/-- Every action of a run meets its condition. -/
def RunMeets (log : List NotificationLogEntry) : List NotificationAction → Prop
  | [] => True
  | action :: actions =>
      action.Meets localHourOf rules log ∧
        RunMeets (action.apply localHourOf rules log) actions

variable {localHourOf rules} {value : String}

/-- An action which does not resolve a condition keeps it armed. -/
theorem NotificationAction.armed_apply {action : NotificationAction}
    (hmeets : action.Meets localHourOf rules log)
    (hresolved : ∀ call, action = .ambient call → conditionKey value ∉ call.resolved)
    (h : Armed log (conditionKey value)) :
    Armed (action.apply localHourOf rules log) (conditionKey value) := by
  cases action with
  | budgets round => exact (round.armed_apply (.inl (startsWith_conditionKey value))).mpr h
  | live call => exact (armed_evaluateLiveAccountAlerts_of_ne
      fun rule ↦ Ne.symm (conditionKey_ne_liveAccountLogKey value rule.id)).mpr h
  | ambient call => exact armed_evaluateAmbient h (hresolved call rfl)
  | record notices => exact armed_append.mpr (.inl h)
  | prune now retention =>
    obtain ⟨entry, hmem, hkey, hyoung, hcrowded⟩ := hmeets value h
    show Armed (pruneLog rules log now retention) (conditionKey value)
    rw [← hkey]
    refine armed_pruneLog_of_mem hmem ?_ hyoung hcrowded
    rw [hkey]
    exact conditionKey_notMem_armedLiveKeys rules value

/-- So does a run of them. -/
theorem armed_sharedLogAfter {actions : List NotificationAction}
    (hmeets : RunMeets localHourOf rules log actions)
    (hresolved : ∀ call, .ambient call ∈ actions → conditionKey value ∉ call.resolved)
    (h : Armed log (conditionKey value)) :
    Armed (sharedLogAfter localHourOf rules log actions) (conditionKey value) := by
  induction actions generalizing log with
  | nil => exact h
  | cons action actions ih =>
    rw [sharedLogAfter, List.foldl_cons]
    refine ih hmeets.2 (fun call hmem ↦ hresolved call (List.mem_cons_of_mem _ hmem)) ?_
    refine NotificationAction.armed_apply hmeets.1 ?_ h
    rintro call rfl
    exact hresolved call List.mem_cons_self

variable (localHourOf rules) in
/-- A call delivers a condition at most once, and a condition which it delivered, or found
present while delivery was suppressed, is delivered by a later call only after it was resolved. -/
def OncePerOnset (log : List NotificationLogEntry) (before between : List NotificationAction)
    (first second : AmbientCall) (key : String) : Prop :=
  (deliveredFor localHourOf rules log before first key).length ≤ 1 ∧
    (deliveredFor localHourOf rules log before first key ≠ [] ∨
      (∃ candidate ∈ first.candidates, conditionKey candidate.key = key ∧
        first.suppresses localHourOf candidate = true) →
      deliveredFor localHourOf rules log (before ++ .ambient first :: between) second key ≠ [] →
      key ∈ second.resolved ∨ ∃ call, .ambient call ∈ between ∧ key ∈ call.resolved)

/-- In every run whose actions meet their conditions, notices are delivered once per onset. -/
theorem ambient_notice_once_per_onset (log : List NotificationLogEntry)
    (before between : List NotificationAction) (first second : AmbientCall) (key : String)
    (hmeets : RunMeets localHourOf rules (sharedLogAfter localHourOf rules log before)
      (.ambient first :: between)) :
    OncePerOnset localHourOf rules log before between first second key := by
  constructor
  · rcases about_evaluateAmbient localHourOf first
      (sharedLogAfter localHourOf rules log before) key with habout | ⟨hone, -⟩
    · rw [deliveredFor, habout]
      exact Nat.zero_le 1
    · exact Nat.le_of_eq hone
  · intro hpresent hsecond
    have hexamined : ∃ candidate ∈ first.examined, conditionKey candidate.key = key := by
      rcases hpresent with hdelivered | ⟨candidate, hmem, rfl, hsuppressed⟩
      · rcases about_evaluateAmbient localHourOf first
          (sharedLogAfter localHourOf rules log before) key with
          habout | ⟨-, -, candidate, hmem, hkey⟩
        · exact absurd habout hdelivered
        · exact ⟨candidate, hmem, hkey.symm⟩
      · exact hmeets.1 candidate hmem hsuppressed
    obtain ⟨candidate, hmem, rfl⟩ := hexamined
    by_contra hnone
    push Not at hnone
    have harmed := armed_sharedLogAfter hmeets.2
      (fun call hcall ↦ hnone.2 call hcall) (armed_evaluateAmbient_of_examined hmem)
    have hrun : sharedLogAfter localHourOf rules log (before ++ .ambient first :: between) =
        sharedLogAfter localHourOf rules (evaluateAmbient localHourOf first
          (sharedLogAfter localHourOf rules log before)).log between := by
      simp [sharedLogAfter, NotificationAction.apply]
    rcases about_evaluateAmbient localHourOf second
      (sharedLogAfter localHourOf rules log (before ++ .ambient first :: between))
      (conditionKey candidate.key) with habout | ⟨-, hresolved, -⟩
    · exact hsecond habout
    · refine hnone.1 (hresolved ?_)
      rw [hrun]
      exact harmed

/-! ### A condition which is forgotten -/

/-- An incident of a provider. -/
def incident : Candidate :=
  ⟨"incident:codex", .providerStatus, "Codex", "provider_incident", DateTime.epoch, true, true⟩

/-- Thirty-one days after the epoch. -/
def nextMonth : DateTime :=
  ⟨31 * 24 * 60 * 60 * 10 ^ 9, by decide, by decide⟩

/-- Thirty days. -/
def thirtyDays : Duration :=
  ⟨30 * 24 * 60 * 60 * 10 ^ 9⟩

/-- A call which finds the incident with delivery enabled. -/
def incidentCall (now : DateTime) : AmbientCall :=
  ⟨[incident], [], ⟨true, none⟩, ⟨true, []⟩, now, 12⟩

theorem ambient_notice_once_per_onset_incident :
    OncePerOnset (fun _ ↦ 12) [] [] [] [] (incidentCall DateTime.epoch)
      (incidentCall DateTime.epoch) (conditionKey "incident:codex") :=
  ambient_notice_once_per_onset [] [] [] (incidentCall DateTime.epoch)
    (incidentCall DateTime.epoch) (conditionKey "incident:codex")
    ⟨fun candidate hmem _ ↦ ⟨candidate, hmem, rfl⟩, trivial⟩

/-- A condition which was absent for longer than the retention is announced again although
nothing resolved it. -/
theorem forgotten_incident_announced_again :
    ¬OncePerOnset (fun _ ↦ 12) [] [] [] [.prune nextMonth thirtyDays]
      (incidentCall DateTime.epoch) (incidentCall nextMonth) (conditionKey "incident:codex") := by
  rintro ⟨-, honce⟩
  have hfirst : deliveredFor (fun _ ↦ 12) [] [] [] (incidentCall DateTime.epoch)
      (conditionKey "incident:codex") ≠ [] := by
    decide +kernel
  have hsecond : deliveredFor (fun _ ↦ 12) [] []
      ([] ++ [.ambient (incidentCall DateTime.epoch), .prune nextMonth thirtyDays])
      (incidentCall nextMonth) (conditionKey "incident:codex") ≠ [] := by
    decide +kernel
  rcases honce (.inl hfirst) hsecond with hresolved | ⟨call, hcall, -⟩
  · cases hresolved
  · simp at hcall

end AgentOdometer.Quota
