import AgentOdometer.Attention.Service

/-!
# What one publication consumes

The candidates come in the order of their times, so the watermark which a publication leaves is
the time of the last signal it consumed. Whatever it consumes it remembers, and the last alert is
then at most thirty seconds old.
-/

namespace AgentOdometer.Attention

open Std (ExtTreeMap)

theorem le_seconds_iff {now time : DateTime} {n : Nat} :
    now.signedDurationSince time ≤ seconds n ↔ now.nanos ≤ time.nanos + n * 10 ^ 9 := by
  show now.nanos - time.nanos ≤ (n : Int) * 10 ^ 9 ↔ _
  omega

theorem seconds_le_iff {now time : DateTime} {n : Nat} :
    seconds n ≤ now.signedDurationSince time ↔ time.nanos + n * 10 ^ 9 ≤ now.nanos := by
  show (n : Int) * 10 ^ 9 ≤ now.nanos - time.nanos ↔ _
  omega

theorem mayAlert_iff {lastAlert : Option DateTime} {now : DateTime} :
    mayAlert lastAlert now = true ↔
      ∀ time, lastAlert = some time → time.nanos + 30 * 10 ^ 9 ≤ now.nanos := by
  unfold mayAlert
  cases lastAlert with
  | none => simp
  | some time => simp [seconds_le_iff]

/-- What is remembered of the signals which were consumed: their ids are new, the watermark is the
time of the last of them, and an alert is at most thirty seconds old. -/
structure Remembers (pruned : Store) (ref : String) (now : DateTime) (signals : List Signal)
    (c : Consumed) : Prop where
  newIds : ∃ ids, ids ≠ [] ∧ c.store.seen = pruned.seen ++ ids ∧ ∀ id ∈ ids, id ∉ pruned.seen
  watermark : ∃ signal ∈ signals, c.store.watermarks[ref]? = some signal.time ∧
    (∀ mark, pruned.watermarks[ref]? = some mark → mark < signal.time) ∧
    ∀ alerted, c.alert = some alerted → alerted.time ≤ signal.time
  recent : ∃ last, c.store.lastAlert = some last ∧ now.nanos < last.nanos + 30 * 10 ^ 9 ∧
    ∀ before, pruned.lastAlert = some before → before ≤ last

/-- What a publication has done after some of its candidates. -/
structure Progress (pruned : Store) (ref : String) (now : DateTime) (signals : List Signal)
    (c : Consumed) : Prop where
  others : ∀ key, key ≠ ref → c.store.watermarks[key]? = pruned.watermarks[key]?
  consumed : c = ⟨pruned, none⟩ ∨ Remembers pruned ref now signals c
  alerted : ∀ signal, c.alert = some signal → signal ∈ signals ∧
    (∀ mark, pruned.watermarks[ref]? = some mark → mark < signal.time) ∧
    c.store.lastAlert = some now ∧ mayAlert pruned.lastAlert now = true

section Fold

variable {pruned : Store} {storageId : String} {now : DateTime} {signals : List Signal}
  {c : Consumed} {signal : Signal}

/-- A signal which is not consumed changes nothing. -/
theorem Progress.skip (h : Progress pruned (digest storageId) now signals c) :
    Progress pruned (digest storageId) now (signals ++ [signal]) c := by
  refine ⟨h.others, h.consumed.imp id fun hremembers ↦ ?_, fun alert halert ↦ ?_⟩
  · obtain ⟨last, hmem, hlast⟩ := hremembers.watermark
    exact ⟨hremembers.newIds, ⟨last, List.mem_append_left _ hmem, hlast⟩, hremembers.recent⟩
  · obtain ⟨hmem, hrest⟩ := h.alerted alert halert
    exact ⟨List.mem_append_left _ hmem, hrest⟩

/-- The ids and the last alert after a signal is consumed: the first one raises an alert, or is
consumed because an alert is recent. -/
theorem Progress.recent_of_consumed (h : Progress pruned (digest storageId) now signals c)
    (hnot : ¬ (c.alert.isNone && mayAlert c.store.lastAlert now) = true) :
    ∃ last, c.store.lastAlert = some last ∧ now.nanos < last.nanos + 30 * 10 ^ 9 ∧
      ∀ before, pruned.lastAlert = some before → before ≤ last := by
  rcases h.consumed with rfl | hremembers
  · simp only [Option.isNone_none, Bool.true_and, mayAlert_iff] at hnot
    push Not at hnot
    obtain ⟨last, hlast, hrecent⟩ := hnot
    refine ⟨last, hlast, hrecent, fun before hbefore ↦ ?_⟩
    exact (Option.some.inj (hbefore.symm.trans hlast)).le
  · exact hremembers.recent

/-- Everything which is remembered was remembered before or is new. -/
theorem Progress.seen_eq (h : Progress pruned (digest storageId) now signals c) :
    ∃ ids, c.store.seen = pruned.seen ++ ids ∧ ∀ id ∈ ids, id ∉ pruned.seen := by
  rcases h.consumed with rfl | hremembers
  · exact ⟨[], (List.append_nil _).symm, fun _ h ↦ (nomatch h)⟩
  · obtain ⟨ids, -, hids⟩ := hremembers.newIds
    exact ⟨ids, hids⟩

/-- One more candidate, no earlier than those before it. -/
theorem Progress.consume (h : Progress pruned (digest storageId) now signals c)
    (hpast : ∀ before, pruned.lastAlert = some before → before ≤ now)
    (hsorted : ∀ earlier ∈ signals, earlier.time ≤ signal.time) :
    Progress pruned (digest storageId) now (signals ++ [signal])
      (consume storageId pruned.watermarks[digest storageId]? now c signal) := by
  unfold Attention.consume
  simp only
  split
  · exact h.skip
  · rename_i hnew
    simp only [Bool.or_eq_true, not_or, Option.any_eq_true, decide_eq_true_eq,
      List.contains_eq_mem] at hnew
    obtain ⟨hafter, hunseen⟩ := hnew
    have hlater : ∀ mark, pruned.watermarks[digest storageId]? = some mark →
        mark < signal.time := by
      intro mark hmark
      by_contra hle
      exact hafter ⟨mark, hmark, not_lt.mp hle⟩
    have hids : ∃ ids, ids ≠ [] ∧
        c.store.seen ++ [seenId storageId signal] = pruned.seen ++ ids ∧
          ∀ id ∈ ids, id ∉ pruned.seen := by
      obtain ⟨ids, hseen, hfresh⟩ := h.seen_eq
      refine ⟨ids ++ [seenId storageId signal], by simp, by rw [hseen, List.append_assoc], ?_⟩
      intro id hmem
      rcases List.mem_append.mp hmem with hold | hlast
      · exact hfresh id hold
      · rw [List.mem_singleton.mp hlast]
        intro hpruned
        exact hunseen (hseen ▸ List.mem_append_left _ hpruned)
    have hothers : ∀ key, key ≠ digest storageId →
        (c.store.watermarks.insert (digest storageId) signal.time)[key]? =
          pruned.watermarks[key]? := by
      intro key hkey
      rw [ExtTreeMap.getElem?_insert, if_neg, h.others key hkey]
      rw [Std.compare_eq_iff_eq]
      exact hkey.symm
    have hself : (c.store.watermarks.insert (digest storageId) signal.time)[digest storageId]? =
        some signal.time :=
      ExtTreeMap.getElem?_insert_self
    split
    · rename_i hraise
      rw [Bool.and_eq_true, Option.isNone_iff_eq_none] at hraise
      refine ⟨hothers, .inr ⟨hids, ⟨signal, by simp, hself, hlater, ?_⟩, now, rfl, ?_, hpast⟩, ?_⟩
      · intro alerted halerted
        exact (congrArg Signal.time (Option.some.inj halerted)).ge
      · omega
      · intro alerted halerted
        obtain rfl := Option.some.inj halerted
        refine ⟨by simp, hlater, rfl, ?_⟩
        rcases h.consumed with rfl | hremembers
        · exact hraise.2
        · rw [mayAlert_iff] at hraise ⊢
          obtain ⟨last, hlast, -, hbefore⟩ := hremembers.recent
          intro before hmark
          have := DateTime.le_iff.mp (hbefore before hmark)
          have := hraise.2 last hlast
          omega
    · rename_i hquiet
      refine ⟨hothers, .inr ⟨hids, ⟨signal, by simp, hself, hlater, ?_⟩, ?_⟩, ?_⟩
      · intro alerted halerted
        exact hsorted alerted (h.alerted alerted halerted).1
      · exact h.recent_of_consumed hquiet
      · intro alerted halerted
        obtain ⟨hmem, hrest⟩ := h.alerted alerted halerted
        exact ⟨List.mem_append_left _ hmem, hrest⟩

variable (pruned storageId now signals) in
/-- All candidates, in the order of their times. -/
theorem progress_foldl (hpast : ∀ before, pruned.lastAlert = some before → before ≤ now)
    (hsorted : signals.Pairwise (·.time ≤ ·.time)) :
    Progress pruned (digest storageId) now signals
      (signals.foldl (Attention.consume storageId pruned.watermarks[digest storageId]? now)
        ⟨pruned, none⟩) := by
  induction signals using List.reverseRecOn with
  | nil => exact ⟨fun _ _ ↦ rfl, .inl rfl, fun _ h ↦ (nomatch h)⟩
  | append_singleton signals signal ih =>
    rw [List.foldl_append, List.foldl_cons, List.foldl_nil]
    rw [List.pairwise_append] at hsorted
    refine (ih hsorted.1).consume hpast fun earlier hearlier ↦ ?_
    exact hsorted.2.2 earlier hearlier signal List.mem_cons_self

end Fold

/-- The newest entries of a log which a new id was added to differ from the log. -/
theorem trim_ne {old ids : List String} (hids : ids ≠ []) (hnew : ∀ id ∈ ids, id ∉ old) :
    (old ++ ids).drop ((old ++ ids).length - MAX_SEEN) ≠ old := by
  intro heq
  have hlast : ids.getLast hids ∈ (old ++ ids).drop ((old ++ ids).length - MAX_SEEN) := by
    have hne : old ++ ids ≠ [] := by simp [hids]
    have hlength : 0 < (old ++ ids).length := List.length_pos_iff.mpr hne
    have hdrop : (old ++ ids).drop ((old ++ ids).length - MAX_SEEN) ≠ [] := by
      rw [Ne, List.drop_eq_nil_iff]
      unfold MAX_SEEN
      omega
    have := List.getLast_mem hdrop
    rwa [List.getLast_drop, List.getLast_append_of_ne_nil _ hids] at this
  rw [heq] at hlast
  exact hnew _ (List.getLast_mem hids) hlast

/-- The watermarks which `prune` keeps. -/
theorem getElem?_prune {store : Store} (now : DateTime) {key : String} {mark : DateTime}
    (h : store.watermarks[key]? = some mark) :
    (store.prune now).watermarks[key]? = some mark ∨
      mark.nanos + 3600 * 10 ^ 9 < now.nanos := by
  by_cases hkeep : now.signedDurationSince mark ≤ seconds 3600
  · left
    simp [Store.prune, h, hkeep]
  · right
    rw [le_seconds_iff] at hkeep
    omega

end AgentOdometer.Attention
