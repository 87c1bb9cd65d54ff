import AgentOdometer.Lib.FirstByKey
import AgentOdometer.Parser.CodexBuckets

/-!
# Usage which is counted once

A message of an agent is written to the transcript several times, each time with the same id and
the same usage. The parsers of Claude Code and Gemini CLI remember the ids which they have seen
(`claude_parser.rs:456–463,532–560`, `gemini_parser.rs:281–286,330–352`) and count the first record
of an id.
-/

namespace AgentOdometer.Parser

open Std (ExtTreeMap ExtTreeSet)
open GroupBy FirstByKey

/-- A record of a message with an id, as the accounting sees it. -/
structure Message where
  id : String
  usage : TokenTotals
  model : Option String
  /-- The record has an instant. -/
  dated : Bool
  /-- There is a session when the record is handled. -/
  known : Bool

/-! ### What is owed -/

/-- The first record of every id after the session is known. The records of an id carry equal
usage, so the first one stands for all of them. -/
def owed (messages : List Message) : List Message :=
  firsts Message.id (messages.filter (·.known))

/-- What the records use together. -/
def usedBy (messages : List Message) : TokenTotals :=
  (messages.map Message.usage).sum

/-- Every message is counted once, in the total and in the history, and in the bucket of its model
when it names one. -/
structure CountedOnce (messages : List Message) (usage : Usage) : Prop where
  total : usage.total = usedBy (owed messages)
  history : (usage.deltas.map Prod.snd).sum = usage.total
  buckets : sumBucketTotals usage.buckets = usedBy ((owed messages).filter (·.model.isSome))

/-- Every message which used anything has an instant, and no record of it came before the session
was known. -/
def Timely (messages : List Message) : Prop :=
  ∀ message ∈ owed messages, message.usage ≠ 0 → message.dated = true ∧
    ∀ early ∈ messages, early.known = false → early.id ≠ message.id

/-! ### What is counted -/

section Sums

variable {messages : List Message}

theorem usedBy_filter_add (p : Message → Bool) (messages : List Message) :
    usedBy (messages.filter p) + usedBy (messages.filter (!p ·)) = usedBy messages := by
  unfold usedBy
  induction messages with
  | nil => rfl
  | cons message rest ih =>
    cases hp : p message with
    | true =>
      rw [List.filter_cons_of_pos hp, List.filter_cons_of_neg (by simp [hp]), List.map_cons,
        List.sum_cons, List.map_cons, List.sum_cons, add_assoc, ih]
    | false =>
      rw [List.filter_cons_of_neg (by simp [hp]), List.filter_cons_of_pos (by simp [hp]),
        List.map_cons, List.sum_cons, List.map_cons, List.sum_cons, add_left_comm, ih]

theorem usedBy_eq_zero_iff : usedBy messages = 0 ↔ ∀ message ∈ messages, message.usage = 0 := by
  unfold usedBy
  induction messages with
  | nil => simp
  | cons message rest ih =>
    rw [List.map_cons, List.sum_cons, TokenTotals.add_eq_zero_iff, ih, List.forall_mem_cons]

/-- A part uses as much as the whole exactly when the rest uses nothing. -/
theorem usedBy_filter_eq_iff {p : Message → Bool} : usedBy (messages.filter p) = usedBy messages ↔
    ∀ message ∈ messages, message.usage ≠ 0 → p message = true := by
  rw [← usedBy_filter_add p messages, left_eq_add, usedBy_eq_zero_iff]
  constructor
  · intro h message hmessage husage
    by_contra hp
    exact husage (h message (List.mem_filter.mpr ⟨hmessage, by simp [hp]⟩))
  · intro h message hmessage
    obtain ⟨hmem, hp⟩ := List.mem_filter.mp hmessage
    by_contra husage
    rw [h message hmem husage] at hp
    exact nomatch hp

theorem usedBy_append (front back : List Message) :
    usedBy (front ++ back) = usedBy front + usedBy back := by
  rw [usedBy, List.map_append, List.sum_append, usedBy, usedBy]

end Sums

/-- A parser counts a first record which used something: not when a record of the id came before
the session was known, and Gemini CLI's only when it has an instant. -/
def counts (needsDate : Bool) (messages : List Message) (message : Message) : Bool :=
  message.usage ≠ 0 && (!needsDate || message.dated) &&
    messages.all fun early ↦ early.known || early.id ≠ message.id

/-- The records which a parser counts. -/
def counted (needsDate : Bool) (messages : List Message) : List Message :=
  (owed messages).filter (counts needsDate messages)

/-- What a parser keeps for its accounting. -/
structure Account where
  known : Bool
  seen : ExtTreeSet String
  usage : Usage

/-- The account of a parser which has read the records. -/
structure Accounted (needsDate : Bool) (account : Account) (messages : List Message) : Prop where
  seen : ∀ id, id ∈ account.seen ↔ id ∈ messages.map Message.id
  unknown : account.known = false → ∀ message ∈ messages, message.known = false
  total : account.usage.total = usedBy (counted needsDate messages)
  history : (account.usage.deltas.map Prod.snd).sum =
    usedBy ((counted needsDate messages).filter (·.dated))
  buckets : account.usage.buckets =
    groupSum ((counted needsDate messages).filterMap fun message ↦
      message.model.map (·, message.usage))

namespace Accounted

variable {needsDate : Bool} {account after : Account} {messages : List Message}

theorem empty (needsDate : Bool) : Accounted needsDate ⟨false, ∅, .empty⟩ [] where
  seen := fun id ↦ by simp
  unknown := fun _ _ h ↦ nomatch h
  total := rfl
  history := rfl
  buckets := rfl

theorem sum_filterMap_model (messages : List Message) :
    ((messages.filterMap fun message ↦ message.model.map (·, message.usage)).map Prod.snd).sum =
      usedBy (messages.filter (·.model.isSome)) := by
  unfold usedBy
  induction messages with
  | nil => rfl
  | cons message rest ih =>
    cases hmodel : message.model with
    | none =>
      rw [List.filterMap_cons_none (by rw [hmodel]; rfl), ih,
        List.filter_cons_of_neg (by rw [hmodel]; exact Bool.false_ne_true)]
    | some model =>
      rw [List.filterMap_cons_some (by rw [hmodel]; rfl), List.map_cons, List.sum_cons, ih,
        List.filter_cons_of_pos (by rw [hmodel]; rfl), List.map_cons, List.sum_cons]

/-- The account counts every message once exactly when all of them are timely. -/
theorem countedOnce_iff (h : Accounted needsDate account messages) :
    CountedOnce messages account.usage ↔ Timely messages := by
  constructor
  · intro honce message hmessage husage
    have htotal := h.total.symm.trans honce.total
    have hcounts := usedBy_filter_eq_iff.mp htotal message hmessage husage
    have hdated := usedBy_filter_eq_iff.mp (h.history.symm.trans (honce.history.trans h.total))
      message (List.mem_filter.mpr ⟨hmessage, hcounts⟩) husage
    refine ⟨hdated, fun early hearly hunknown hid ↦ ?_⟩
    rw [counts, Bool.and_eq_true, List.all_eq_true] at hcounts
    simpa [hunknown, hid] using hcounts.2 early hearly
  · intro htimely
    have hcounts : ∀ message ∈ owed messages, message.usage ≠ 0 →
        counts needsDate messages message = true := by
      intro message hmessage husage
      obtain ⟨hdated, hearly⟩ := htimely message hmessage husage
      rw [counts, Bool.and_eq_true, Bool.and_eq_true, List.all_eq_true]
      refine ⟨⟨decide_eq_true husage, by rw [hdated, Bool.or_true]⟩, fun early hmem ↦ ?_⟩
      cases hknown : early.known with
      | true => rfl
      | false => exact decide_eq_true (hearly early hmem hknown)
    refine ⟨?_, ?_, ?_⟩
    · rw [h.total, counted, usedBy_filter_eq_iff]
      exact hcounts
    · rw [h.history, h.total, usedBy_filter_eq_iff]
      intro message hmessage husage
      exact (htimely message (List.mem_filter.mp hmessage).1 husage).1
    · rw [h.buckets, sumBucketTotals_groupSum, sum_filterMap_model, counted, List.filter_comm,
        usedBy_filter_eq_iff]
      exact fun message hmessage ↦ hcounts message (List.mem_filter.mp hmessage).1

end Accounted

/-! ### Records one after the other -/

/-- The usage of a message in every accumulator. -/
def Usage.count (message : Message) (usage : Usage) : Usage where
  total := usage.total + message.usage
  buckets := match message.model with
    | none => usage.buckets
    | some model => updateEntry usage.buckets model 0 (· + message.usage)
  deltas := if message.dated then usage.deltas ++ [(message.model, message.usage)]
    else usage.deltas

/-- What one step does to the account: a record with an id is remembered, and counted when it is
the first one, there is a session and it used anything. -/
def Account.Next (needsDate : Bool) (before after : Account) : Option Message → Prop
  | none => after.seen = before.seen ∧ after.usage = before.usage ∧
      (after.known = false → before.known = false)
  | some message => (∀ id, id ∈ after.seen ↔ id ∈ before.seen ∨ id = message.id) ∧
      after.known = message.known ∧ (message.known = false → before.known = false) ∧
      after.usage = if message.id ∉ before.seen ∧ message.known ∧ message.usage ≠ 0 ∧
          (needsDate = true → message.dated = true) then before.usage.count message
        else before.usage

section

variable {needsDate : Bool} {messages : List Message} {message : Message}

/-- One more record is owed when it is the first one of its id after the session is known. -/
theorem owed_concat (messages : List Message) (message : Message) :
    owed (messages ++ [message]) = owed messages ++
      if message.known = true ∧ message.id ∉ (messages.filter (·.known)).map Message.id then
        [message] else [] := by
  unfold owed
  rw [List.filter_append]
  cases hknown : message.known with
  | true =>
    rw [List.filter_cons_of_pos hknown, List.filter_nil, firsts_concat]
    by_cases hmem : message.id ∈ (messages.filter (·.known)).map Message.id <;> simp [hmem]
  | false =>
    rw [List.filter_cons_of_neg (by simp [hknown]), List.filter_nil, List.append_nil,
      if_neg (by simp), List.append_nil]

theorem counts_eq_true_iff : counts needsDate messages message = true ↔
    (∀ early ∈ messages, early.known = false → early.id ≠ message.id) ∧ message.usage ≠ 0 ∧
      (needsDate = true → message.dated = true) := by
  unfold counts
  rw [Bool.and_eq_true, Bool.and_eq_true, List.all_eq_true]
  have hdate : (!needsDate || message.dated) = true ↔
      (needsDate = true → message.dated = true) := by
    cases needsDate <;> simp
  have hearly : (∀ early ∈ messages, (early.known || decide (early.id ≠ message.id)) = true) ↔
      ∀ early ∈ messages, early.known = false → early.id ≠ message.id := by
    refine forall₂_congr fun early _ ↦ ?_
    cases early.known <;> simp
  rw [hdate, hearly, decide_eq_true_eq]
  exact and_comm

/-- A record after the session is known does not change which records count. -/
theorem counts_concat (hknown : message.known = true) (other : Message) :
    counts needsDate (messages ++ [message]) other = counts needsDate messages other := by
  unfold counts
  rw [List.all_append]
  simp [hknown]

variable (needsDate messages) in
/-- What one more record adds to the counted ones, once the session is known. -/
theorem counted_concat (hknown : message.known = true) :
    counted needsDate (messages ++ [message]) = counted needsDate messages ++
      if message.id ∉ messages.map Message.id ∧ message.usage ≠ 0 ∧
          (needsDate = true → message.dated = true) then [message] else [] := by
  unfold counted
  rw [owed_concat, List.filter_append]
  have hcounts : counts needsDate (messages ++ [message]) = counts needsDate messages :=
    funext fun other ↦ counts_concat hknown other
  rw [hcounts]
  congr 1
  have hmem : message.id ∉ messages.map Message.id ↔
      message.id ∉ (messages.filter (·.known)).map Message.id ∧
        ∀ early ∈ messages, early.known = false → early.id ≠ message.id := by
    simp only [List.mem_map, List.mem_filter, not_exists, not_and]
    constructor
    · exact fun h ↦ ⟨fun other hother ↦ h other hother.1, fun early hearly _ ↦ h early hearly⟩
    · rintro ⟨hlater, hearly⟩ other hother
      cases hother' : other.known with
      | true => exact hlater other ⟨hother, hother'⟩
      | false => exact hearly other hother hother'
  by_cases hlater : message.id ∈ (messages.filter (·.known)).map Message.id
  · rw [if_neg (fun h ↦ h.2 hlater), if_neg (fun h ↦ (hmem.mp h.1).1 hlater), List.filter_nil]
  · rw [if_pos ⟨hknown, hlater⟩]
    by_cases hcount : counts needsDate messages message = true
    · have h := counts_eq_true_iff.mp hcount
      rw [List.filter_cons_of_pos hcount, if_pos ⟨hmem.mpr ⟨hlater, h.1⟩, h.2⟩, List.filter_nil]
    · rw [List.filter_cons_of_neg hcount, List.filter_nil, if_neg]
      exact fun h ↦ hcount (counts_eq_true_iff.mpr ⟨(hmem.mp h.1).2, h.2⟩)

/-- Nothing is owed while there is no session. -/
theorem owed_of_unknown (h : ∀ message ∈ messages, message.known = false) : owed messages = [] := by
  unfold owed
  rw [List.filter_eq_nil_iff.mpr]
  · rfl
  · intro message hmessage
    rw [h message hmessage]
    exact Bool.false_ne_true

end

/-- The ids which have been seen once a record is remembered. -/
theorem mem_remembered {seen : ExtTreeSet String} {new : String} (hnew : new ≠ "") (id : String) :
    id ∈ (if new ≠ "" ∧ new ∉ seen then seen.insert new else seen) ↔ id ∈ seen ∨ id = new := by
  by_cases hfirst : new ∈ seen
  · rw [if_neg fun h ↦ h.2 hfirst]
    exact ⟨Or.inl, fun h ↦ h.elim (fun h ↦ h) fun h ↦ h ▸ hfirst⟩
  · rw [if_pos ⟨hnew, hfirst⟩, ExtTreeSet.mem_insert, Std.LawfulEqOrd.compare_eq_iff_eq, or_comm,
      eq_comm]

namespace Accounted

variable {needsDate : Bool} {before after : Account} {messages : List Message}

/-- What a step does to the account is what its record does to the records. -/
theorem next (h : Accounted needsDate before messages) {message : Option Message}
    (hnext : before.Next needsDate after message) :
    Accounted needsDate after (messages ++ message.toList) := by
  cases message with
  | none =>
    obtain ⟨hseen, husage, hknown⟩ := hnext
    rw [Option.toList_none, List.append_nil]
    refine ⟨?_, fun hnone ↦ h.unknown (hknown hnone), ?_, ?_, ?_⟩
    · rw [hseen]
      exact h.seen
    · rw [husage]
      exact h.total
    · rw [husage]
      exact h.history
    · rw [husage]
      exact h.buckets
  | some message =>
    obtain ⟨hseen, hafter, hbefore, husage⟩ := hnext
    have hids : ∀ id, id ∈ after.seen ↔ id ∈ (messages ++ [message]).map Message.id := by
      intro id
      rw [hseen, h.seen, List.map_append, List.mem_append, List.map_singleton, List.mem_singleton]
    rw [Option.toList_some]
    cases hknown : message.known with
    | false =>
      have hunknown : ∀ other ∈ messages ++ [message], other.known = false := by
        intro other hother
        rcases List.mem_append.mp hother with hother | hother
        · exact h.unknown (hbefore hknown) other hother
        · rw [List.mem_singleton.mp hother]
          exact hknown
      have hnothing : counted needsDate (messages ++ [message]) = counted needsDate messages := by
        unfold counted
        rw [owed_of_unknown hunknown, owed_of_unknown (h.unknown (hbefore hknown))]
        rfl
      rw [if_neg (fun h ↦ by rw [hknown] at h; exact nomatch h.2.1)] at husage
      refine ⟨hids, fun _ ↦ hunknown, ?_, ?_, ?_⟩
      all_goals rw [husage, hnothing]
      · exact h.total
      · exact h.history
      · exact h.buckets
    | true =>
      have hsession : after.known = false → ∀ other ∈ messages ++ [message],
          other.known = false := by
        intro hfalse
        rw [hafter, hknown] at hfalse
        exact nomatch hfalse
      have hcounted := counted_concat needsDate messages hknown
      by_cases hnew : message.id ∉ before.seen ∧ message.usage ≠ 0 ∧
          (needsDate = true → message.dated = true)
      · rw [if_pos ⟨hnew.1, hknown, hnew.2⟩] at husage
        rw [if_pos ⟨(h.seen _).not.mp hnew.1, hnew.2⟩] at hcounted
        refine ⟨hids, hsession, ?_, ?_, ?_⟩
        all_goals rw [husage, hcounted]
        · rw [usedBy_append, ← h.total]
          show before.usage.total + message.usage = _ + (message.usage + 0)
          rw [add_zero]
        · rw [List.filter_append, usedBy_append, ← h.history]
          unfold Usage.count
          cases hdated : message.dated with
          | true => simp [usedBy, hdated]
          | false => simp [usedBy, hdated]
        · rw [List.filterMap_append]
          unfold Usage.count
          cases hmodel : message.model with
          | none => simpa [hmodel] using h.buckets
          | some model => simp [hmodel, h.buckets, updateEntry_groupSum]
      · rw [if_neg (fun hnext ↦ hnew ⟨hnext.1, hnext.2.2⟩)] at husage
        rw [if_neg (fun hfirst ↦ hnew ⟨(h.seen _).not.mpr hfirst.1, hfirst.2⟩),
          List.append_nil] at hcounted
        refine ⟨hids, hsession, ?_, ?_, ?_⟩
        all_goals rw [husage, hcounted]
        · exact h.total
        · exact h.history
        · exact h.buckets

end Accounted

section Runs

variable {σ α : Type}

/-- The records of a run. -/
def messagesOf (step : σ → α → σ) (message : σ → α → Option Message) : σ → List α → List Message
  | _, [] => []
  | s, a :: rest => (message s a).toList ++ messagesOf step message (step s a) rest

/-- A parser whose steps keep its account keeps it along every run. -/
theorem Accounted.run (account : σ → Account) {step : σ → α → σ}
    {message : σ → α → Option Message} {needsDate : Bool}
    (hstep : ∀ s a, (account s).Next needsDate (account (step s a)) (message s a)) {s : σ}
    {before : List Message} (h : Accounted needsDate (account s) before) (actions : List α) :
    Accounted needsDate (account (actions.foldl step s))
      (before ++ messagesOf step message s actions) := by
  induction actions generalizing s before with
  | nil =>
    rw [messagesOf, List.append_nil]
    exact h
  | cons a rest ih =>
    have hrest := ih (h.next (hstep s a))
    rw [List.append_assoc] at hrest
    exact hrest

end Runs

end AgentOdometer.Parser
