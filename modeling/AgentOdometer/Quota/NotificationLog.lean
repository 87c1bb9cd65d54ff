import AgentOdometer.Quota.Alerts
import Mathlib.Data.List.Sort

/-!
# The notification log

The rules which arm it for live accounts and its pruning by age and count
(`quota_store.rs:25–92,268–296`). An entry is the only memory of a crossing or of a condition.
-/

namespace AgentOdometer.Quota

/-- `MAX_LOG_ENTRIES`, `quota_store.rs:27`. -/
def maxLogEntries : Nat :=
  500

/-- An alert rule for one consented account. Follows `quota_store.rs:76–88`. -/
structure LiveAccountBudget where
  id : String
  accountId : String
  consentedAt : DateTime
  limitId : String
  windowKind : String
  windowMinutes : Nat
  thresholdPercent : Float
  enabled : Bool
deriving DecidableEq

/-- `live_account_log_key`, `quota_store.rs:90–92`. -/
def liveAccountLogKey (id : String) : String :=
  liveAccountLogPrefix ++ id

theorem liveAccountLogKey_injective : Function.Injective liveAccountLogKey := by
  intro a b h
  have hlist := congrArg String.toList h
  rw [liveAccountLogKey, liveAccountLogKey, String.toList_append, String.toList_append,
    List.append_cancel_left_eq] at hlist
  exact String.toList_inj.mp hlist

/-- The keys which pruning keeps. Follows `quota_store.rs:271–275`. -/
def armedLiveKeys (rules : List LiveAccountBudget) : List String :=
  rules.map fun rule ↦ liveAccountLogKey rule.id

/-- An entry is within the retention. -/
def isYoung (now : DateTime) (retention : Duration) (entry : NotificationLogEntry) : Bool :=
  now.signedDurationSince entry.firedAt ≤ retention

/-- The pass by age: the first entry of a live key stays, another entry while it is young.
Follows `quota_store.rs:276–285`. -/
def retainByAge (live : List String) (now : DateTime) (retention : Duration) :
    List String → List NotificationLogEntry → List NotificationLogEntry
  | _, [] => []
  | seenLive, entry :: log =>
      if entry.dedupKey ∈ live then
        if entry.dedupKey ∈ seenLive then retainByAge live now retention seenLive log
        else entry :: retainByAge live now retention (entry.dedupKey :: seenLive) log
      else if isYoung now retention entry then
        entry :: retainByAge live now retention seenLive log
      else retainByAge live now retention seenLive log

/-- The stable order by time. -/
def sortByFiredAt (log : List NotificationLogEntry) : List NotificationLogEntry :=
  log.mergeSort fun a b ↦ a.firedAt ≤ b.firedAt

/-- The pass by count: the first entries without a live key go while there are too many.
Follows `quota_store.rs:287–295`. -/
def dropExcess (live : List String) : Nat → List NotificationLogEntry → List NotificationLogEntry
  | _, [] => []
  | excess, entry :: log =>
      if 0 < excess ∧ entry.dedupKey ∉ live then dropExcess live (excess - 1) log
      else entry :: dropExcess live excess log

/-- `prune_log`, `quota_store.rs:270–296`. -/
def pruneLog (rules : List LiveAccountBudget) (log : List NotificationLogEntry) (now : DateTime)
    (retention : Duration) : List NotificationLogEntry :=
  let live := armedLiveKeys rules
  let retained := sortByFiredAt (retainByAge live now retention [] log)
  dropExcess live (retained.length - maxLogEntries) retained

variable {rules : List LiveAccountBudget} {log : List NotificationLogEntry} {live : List String}
  {now : DateTime} {retention : Duration} {key : String} {entry : NotificationLogEntry}

/-! ### What pruning keeps -/

theorem armed_cons : Armed (entry :: log) key ↔ entry.dedupKey = key ∨ Armed log key := by
  simp [Armed]

theorem armed_append {log' : List NotificationLogEntry} :
    Armed (log ++ log') key ↔ Armed log key ∨ Armed log' key := by
  simp [Armed, or_and_right, exists_or]

theorem armed_of_subset {log' : List NotificationLogEntry} (hsub : ∀ e ∈ log, e ∈ log')
    (h : Armed log key) : Armed log' key := by
  obtain ⟨entry, hmem, hkey⟩ := h
  exact ⟨entry, hsub entry hmem, hkey⟩

theorem mem_sortByFiredAt : entry ∈ sortByFiredAt log ↔ entry ∈ log :=
  List.mem_mergeSort

theorem mem_of_mem_retainByAge {seenLive : List String}
    (h : entry ∈ retainByAge live now retention seenLive log) : entry ∈ log := by
  induction log generalizing seenLive with
  | nil => exact h
  | cons first log ih =>
    unfold retainByAge at h
    split at h
    · split at h
      · exact List.mem_cons_of_mem _ (ih h)
      · exact List.mem_cons.mpr ((List.mem_cons.mp h).imp_right ih)
    · split at h
      · exact List.mem_cons.mpr ((List.mem_cons.mp h).imp_right ih)
      · exact List.mem_cons_of_mem _ (ih h)

theorem mem_of_mem_dropExcess {excess : Nat} (h : entry ∈ dropExcess live excess log) :
    entry ∈ log := by
  induction log generalizing excess with
  | nil => exact h
  | cons first log ih =>
    unfold dropExcess at h
    split at h
    · exact List.mem_cons_of_mem _ (ih h)
    · exact List.mem_cons.mpr ((List.mem_cons.mp h).imp_right ih)

/-- Pruning arms nothing. -/
theorem armed_of_armed_pruneLog (h : Armed (pruneLog rules log now retention) key) :
    Armed log key :=
  armed_of_subset (fun _ hmem ↦
    mem_of_mem_retainByAge (mem_sortByFiredAt.mp (mem_of_mem_dropExcess hmem))) h

theorem armed_retainByAge_of_live {seenLive : List String} (hlive : key ∈ live)
    (hseen : key ∉ seenLive) (h : Armed log key) :
    Armed (retainByAge live now retention seenLive log) key := by
  induction log generalizing seenLive with
  | nil => exact h
  | cons first log ih =>
    unfold retainByAge
    by_cases hfirst : first.dedupKey = key
    · rw [hfirst, if_pos hlive, if_neg hseen]
      exact armed_cons.mpr (.inl hfirst)
    · have hrest : Armed log key := (armed_cons.mp h).resolve_left hfirst
      split
      · split
        · exact ih hseen hrest
        · refine armed_cons.mpr (.inr (ih ?_ hrest))
          rw [List.mem_cons, not_or]
          exact ⟨Ne.symm hfirst, hseen⟩
      · split
        · exact armed_cons.mpr (.inr (ih hseen hrest))
        · exact ih hseen hrest

theorem armed_dropExcess_of_live {excess : Nat} (hlive : key ∈ live) (h : Armed log key) :
    Armed (dropExcess live excess log) key := by
  induction log generalizing excess with
  | nil => exact h
  | cons first log ih =>
    unfold dropExcess
    by_cases hfirst : first.dedupKey = key
    · rw [hfirst, if_neg fun hdrop ↦ hdrop.2 hlive]
      exact armed_cons.mpr (.inl hfirst)
    · have hrest : Armed log key := (armed_cons.mp h).resolve_left hfirst
      split
      · exact ih hrest
      · exact armed_cons.mpr (.inr (ih hrest))

/-- No age and no number of entries makes pruning forget a live key. -/
theorem armed_pruneLog_of_live (hlive : key ∈ armedLiveKeys rules) :
    Armed (pruneLog rules log now retention) key ↔ Armed log key := by
  refine ⟨armed_of_armed_pruneLog, fun h ↦ armed_dropExcess_of_live hlive ?_⟩
  have hage : Armed (retainByAge (armedLiveKeys rules) now retention [] log) key :=
    armed_retainByAge_of_live hlive List.not_mem_nil h
  exact armed_of_subset (fun _ hmem ↦ mem_sortByFiredAt.mpr hmem) hage

/-- The entries which the pass by count drops. -/
def crowdedOut (rules : List LiveAccountBudget) (log : List NotificationLogEntry) (now : DateTime)
    (retention : Duration) : List NotificationLogEntry :=
  let retained := sortByFiredAt (retainByAge (armedLiveKeys rules) now retention [] log)
  (retained.filter fun entry ↦ entry.dedupKey ∉ armedLiveKeys rules).take
    (retained.length - maxLogEntries)

theorem mem_retainByAge_of_isYoung {seenLive : List String} (hmem : entry ∈ log)
    (hlive : entry.dedupKey ∉ live) (hyoung : isYoung now retention entry = true) :
    entry ∈ retainByAge live now retention seenLive log := by
  induction log generalizing seenLive with
  | nil => cases hmem
  | cons first log ih =>
    unfold retainByAge
    rcases List.mem_cons.mp hmem with rfl | hmem
    · rw [if_neg hlive, if_pos hyoung]
      exact List.mem_cons_self
    · split
      · split
        · exact ih hmem
        · exact List.mem_cons_of_mem _ (ih hmem)
      · split
        · exact List.mem_cons_of_mem _ (ih hmem)
        · exact ih hmem

theorem mem_dropExcess_of_notMem {excess : Nat} (hmem : entry ∈ log)
    (hdrop : entry ∉ (log.filter fun e ↦ e.dedupKey ∉ live).take excess) :
    entry ∈ dropExcess live excess log := by
  induction log generalizing excess with
  | nil => cases hmem
  | cons first log ih =>
    unfold dropExcess
    by_cases hfirst : 0 < excess ∧ first.dedupKey ∉ live
    · rw [if_pos hfirst]
      obtain ⟨rest, rfl⟩ : ∃ rest, excess = rest + 1 := ⟨excess - 1, by omega⟩
      have htake : (List.filter (fun e ↦ e.dedupKey ∉ live) (first :: log)).take (rest + 1) =
          first :: (log.filter fun e ↦ e.dedupKey ∉ live).take rest := by
        rw [List.filter_cons_of_pos (by simpa using hfirst.2), List.take_succ_cons]
      rw [htake, List.mem_cons, not_or] at hdrop
      exact ih ((List.mem_cons.mp hmem).resolve_left hdrop.1) hdrop.2
    · rw [if_neg hfirst]
      rcases List.mem_cons.mp hmem with rfl | hmem
      · exact List.mem_cons_self
      · refine List.mem_cons_of_mem _ (ih hmem ?_)
        by_cases hexcess : excess = 0
        · rw [hexcess, List.take_zero]
          exact List.not_mem_nil
        · have hlive : ¬first.dedupKey ∉ live := fun hnot ↦ hfirst ⟨by omega, hnot⟩
          rwa [List.filter_cons_of_neg (by simpa using hlive)] at hdrop

/-- A young entry which is not crowded out stays. -/
theorem armed_pruneLog_of_mem (hmem : entry ∈ log) (hlive : entry.dedupKey ∉ armedLiveKeys rules)
    (hyoung : isYoung now retention entry = true)
    (hcrowded : entry ∉ crowdedOut rules log now retention) :
    Armed (pruneLog rules log now retention) entry.dedupKey :=
  ⟨entry, mem_dropExcess_of_notMem
    (mem_sortByFiredAt.mpr (mem_retainByAge_of_isYoung hmem hlive hyoung)) hcrowded, rfl⟩

/-! ### Soft budgets beside other keys -/

/-- One evaluation of a validated list of soft budgets. -/
structure BudgetRound where
  budgets : List QuotaBudget
  valid : validateBudgets [] budgets = .ok ()
  call : AlertCall

/-- The log after the evaluation. -/
def BudgetRound.apply (round : BudgetRound) (log : List NotificationLogEntry) :
    List NotificationLogEntry :=
  (round.call.evaluate round.budgets log).2

/-- Soft budgets leave a key with a reserved start alone. -/
theorem BudgetRound.armed_apply (round : BudgetRound)
    (hkey : Text.startsWith key ambientPrefix = true ∨
      Text.startsWith key liveAccountLogPrefix = true) :
    Armed (round.apply log) key ↔ Armed log key := by
  apply armed_evaluateAlerts_of_ne
  intro evaluation hmem
  obtain ⟨budget, hbudget, rfl⟩ := List.mem_map.mp hmem
  have hclear := startsWith_of_validateBudgets round.valid hbudget
  rintro rfl
  rcases hkey with hkey | hkey
  · exact absurd (hclear.1.symm.trans hkey) Bool.false_ne_true
  · exact absurd (hclear.2.symm.trans hkey) Bool.false_ne_true

end AgentOdometer.Quota
