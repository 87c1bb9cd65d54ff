import AgentOdometer.Model.RangeScan
import AgentOdometer.Parser.CodexBuckets

/-!
# History and total of a Codex transcript

The deltas of the history are meant to add up to the running total (`parser.rs:724–767`). The delta
of a record is what its buckets lack, so usage which was reported before a model was known is in
the history a second time once a model is.
-/

namespace AgentOdometer

/-- The totals of the unbounded window are the sum of the deltas. -/
theorem Session.rangeTotals_unbounded (session : Session) :
    (session.rangeTotals none none).map RangeTotals.tokens =
      some (session.tokensHistory.map (·.delta)).sum := by
  have hall : session.tokensHistory.filter
      (fun event ↦ RangeTotals.Within (none, none) event.timestamp) = session.tokensHistory := by
    apply List.filter_eq_self.mpr
    intro event _
    simp [RangeTotals.Within]
  rw [Session.rangeTotals_eq session.millisFollow_dateTime, Option.map_some]
  unfold Session.filteredTotals
  rw [hall]
  rfl

namespace Parser

namespace Usage

variable {usage : Usage} {lost : List (String × TokenTotals)}

/-- The sum of the deltas. -/
def counted (usage : Usage) : TokenTotals :=
  (usage.deltas.map Prod.snd).sum

/-- The buckets do not exceed the total, and the history is not below it. -/
structure Bounded (usage : Usage) : Prop where
  grouped : ∃ lost, usage.Grouped lost
  buckets : sumBucketTotals usage.buckets ≤ usage.total
  history : usage.total ≤ usage.counted

theorem bounded_empty : empty.Bounded :=
  ⟨⟨[], grouped_empty⟩, le_refl _, le_refl _⟩

/-- What a record with a total contributes when a model is known: its own usage, and everything
which the buckets lack. -/
theorem share_of_le {sum total last : TokenTotals} (h : sum ≤ total) :
    share (total + last) last sum = last + total.sub sum := by
  unfold share
  congr 1
  rw [TokenTotals.le_def] at h
  ext <;> simp only [TokenTotals.sub, TokenTotals.inputTokens_add,
    TokenTotals.cachedInputTokens_add, TokenTotals.cacheCreationInputTokens_add,
    TokenTotals.outputTokens_add, TokenTotals.reasoningOutputTokens_add,
    TokenTotals.totalTokens_add] <;> omega

/-- What a consistent record adds to the history: its usage, and with a model what the buckets
lack. -/
theorem counted_record (h : usage.Bounded) (model : Option String) {last : TokenTotals}
    (htotal : (usage.total + last).cacheCreationInputTokens = 0) :
    (usage.record model (some (usage.total + last)) (some last)).counted =
      usage.counted + last +
        if model.isSome then usage.total.sub (sumBucketTotals usage.buckets) else 0 := by
  obtain ⟨lost, hgrouped⟩ := h.grouped
  unfold counted Usage.record
  simp only [Option.getD_some, Option.map_some, Option.toList_some, List.map_append,
    List.map_singleton, List.sum_append, List.sum_singleton]
  cases model with
  | none =>
    rw [if_neg (by simp), add_zero]
    rfl
  | some model =>
    have hcontribute := @Usage.Grouped.contribute_eq _ _ hgrouped model (some (usage.total + last))
      (fun _ h ↦ Option.some.inj h ▸ htotal) (some last)
    rw [Option.getD_some, Option.getD_some] at hcontribute
    rw [hcontribute, if_pos Option.isSome_some, share_of_le h.buckets, add_assoc]

/-- The total of a consistent record: the one before it and its own usage. -/
def nextTotal (usage : Usage) (last : Option TokenTotals) : Option TokenTotals :=
  last.map (usage.total + ·)

/-- A consistent record keeps the buckets below the total, and the total below the history. -/
theorem Bounded.record (h : usage.Bounded) (model : Option String) (last : Option TokenTotals)
    (htotal : ∀ t, usage.nextTotal last = some t → t.cacheCreationInputTokens = 0) :
    (usage.record model (usage.nextTotal last) last).Bounded := by
  obtain ⟨lost, hgrouped⟩ := h.grouped
  have hnext : (usage.record model (usage.nextTotal last) last).total =
      usage.total + last.getD 0 := by
    cases last with
    | none => exact (add_zero _).symm
    | some last => rfl
  refine ⟨⟨_, hgrouped.record model htotal last⟩, ?_, ?_⟩
  · rw [hnext]
    cases model with
    | none => exact le_add_right h.buckets
    | some model =>
      have hsum := hgrouped.sum_record model htotal last
      have hgetD : (usage.nextTotal last).getD usage.total = usage.total + last.getD 0 := hnext
      rw [hsum, hgetD, TokenTotals.add_sub_of_le (add_le_add_left h.buckets _)]
  · rw [hnext]
    cases last with
    | none =>
      rw [Option.getD_none, add_zero]
      exact h.history.trans (le_of_eq (by simp [counted, Usage.record, nextTotal]))
    | some last =>
      have hcounted := @counted_record _ h model last (htotal _ rfl)
      rw [Option.getD_some]
      show _ ≤ (usage.record model (some (usage.total + last)) (some last)).counted
      rw [hcounted]
      exact le_add_right (add_le_add_left h.history last)

/-- A consistent record keeps a history which adds up to the total exactly when it finds no usage
outside the buckets, or carries no usage, or no model is known. -/
theorem Bounded.counted_eq_iff (h : usage.Bounded) (model : Option String)
    (last : Option TokenTotals)
    (htotal : ∀ t, usage.nextTotal last = some t → t.cacheCreationInputTokens = 0) :
    (usage.record model (usage.nextTotal last) last).counted =
        (usage.record model (usage.nextTotal last) last).total ↔
      usage.counted = usage.total ∧
        (last.isSome → model.isSome → sumBucketTotals usage.buckets = usage.total) := by
  cases last with
  | none => simp [counted, Usage.record, nextTotal]
  | some last =>
    have hcounted := @counted_record _ h model last (htotal _ rfl)
    show (usage.record model (some (usage.total + last)) (some last)).counted =
      usage.total + last ↔ _
    rw [hcounted, add_right_comm, add_right_cancel_iff]
    have hlack : (if model.isSome then usage.total.sub (sumBucketTotals usage.buckets) else 0) = 0 ↔
        (model.isSome → sumBucketTotals usage.buckets = usage.total) := by
      split
      next hmodel =>
        rw [sub_eq_zero_iff]
        exact ⟨fun hle _ ↦ le_antisymm h.buckets hle, fun heq ↦ (heq hmodel).ge⟩
      next hmodel => exact ⟨fun _ hsome ↦ absurd hsome hmodel, fun _ ↦ rfl⟩
    rw [← hlack]
    simp only [Option.isSome_some, true_implies]
    generalize (if model.isSome then usage.total.sub (sumBucketTotals usage.buckets) else 0) = lack
    constructor
    · intro heq
      have hle : usage.total + lack ≤ usage.total := by
        calc usage.total + lack ≤ usage.counted + lack := add_le_add_left h.history lack
          _ = usage.total := heq
      have hzero : lack = 0 := by
        rw [← nonpos_iff_eq_zero]
        exact le_of_add_le_add_left (hle.trans (add_zero _).ge)
      rw [hzero, add_zero] at heq
      exact ⟨heq, hzero⟩
    · rintro ⟨heq, rfl⟩
      rw [add_zero, heq]

end Usage

namespace SessionParser

variable {readers : Readers} {parser : SessionParser}

/-- The deltas of the history, and so the totals of the unbounded window, are the total. -/
def TotalsMatch (parser : SessionParser) : Prop :=
  ∀ session, parser.session = some session →
    (session.tokensHistory.map (·.delta)).sum = session.tokensTotal ∧
      (session.rangeTotals none none).map RangeTotals.tokens = some session.tokensTotal

/-- A token count carries the total before it and its own usage, or neither. -/
def Consistent (readers : Readers) (parser : SessionParser) (step : Step) : Prop :=
  ∀ payload ∈ tokenCount readers step, ∀ session ∈ parser.session,
    totalUsage payload = (lastUsage payload).map (session.tokensTotal + ·)

instance (readers : Readers) (parser : SessionParser) (step : Step) :
    Decidable (Consistent readers parser step) :=
  inferInstanceAs (Decidable (∀ payload ∈ tokenCount readers step, ∀ session ∈ parser.session,
    totalUsage payload = (lastUsage payload).map (session.tokensTotal + ·)))

/-- A token count with usage which is taken with a model finds the total in the buckets: no
usage was reported before the first model that a bucket does not have. -/
def Attributed (readers : Readers) (parser : SessionParser) (step : Step) : Prop :=
  ∀ payload ∈ tokenCount readers step, ∀ session ∈ parser.session,
    (lastUsage payload).isSome → parser.currentModel.isSome →
      sumBucketTotals session.tokensByModel = session.tokensTotal

instance (readers : Readers) (parser : SessionParser) (step : Step) :
    Decidable (Attributed readers parser step) :=
  inferInstanceAs (Decidable (∀ payload ∈ tokenCount readers step, ∀ session ∈ parser.session,
    (lastUsage payload).isSome → parser.currentModel.isSome →
      sumBucketTotals session.tokensByModel = session.tokensTotal))

theorem totalsMatch_iff : parser.TotalsMatch ↔ parser.usage.counted = parser.usage.total := by
  unfold TotalsMatch
  cases hsession : parser.session with
  | none =>
    have husage : parser.usage = .empty := by
      unfold usage
      rw [hsession]
      rfl
    rw [husage]
    simp [Usage.counted, Usage.empty]
  | some session =>
    have hcounted : (Usage.ofSession session).counted =
        (session.tokensHistory.map (·.delta)).sum := by
      unfold Usage.counted Usage.ofSession
      rw [List.map_map]
      rfl
    rw [usage_of_session hsession, hcounted]
    simp only [Option.some.injEq, forall_eq', session.rangeTotals_unbounded, and_self]
    rfl

/-- A consistent step is one record, or nothing. -/
theorem usage_step_of_consistent {step : Step} (h : Consistent readers parser step) :
    ((parser.step readers step).usage = parser.usage ∧
      (Attributed readers parser step ↔ True)) ∨
    ∃ payload, (parser.step readers step).usage = parser.usage.record parser.currentModel
        (parser.usage.nextTotal (lastUsage payload)) (lastUsage payload) ∧
      (∀ t, parser.usage.nextTotal (lastUsage payload) = some t →
        t.cacheCreationInputTokens = 0) ∧
      (Attributed readers parser step ↔ ((lastUsage payload).isSome → parser.currentModel.isSome →
        sumBucketTotals parser.usage.buckets = parser.usage.total)) := by
  have husage := @usage_step readers parser step
  unfold Attributed
  unfold Consistent at h
  cases hcount : tokenCount readers step with
  | none =>
    rw [hcount] at husage
    exact Or.inl ⟨husage, by simp⟩
  | some payload =>
    rw [hcount] at husage h
    cases hsession : parser.session with
    | none =>
      rw [hsession] at husage
      exact Or.inl ⟨husage, by simp⟩
    | some session =>
      rw [hsession] at husage h
      have htotal := h payload rfl session rfl
      have hnext : parser.usage.nextTotal (lastUsage payload) = totalUsage payload := by
        rw [htotal, usage_of_session hsession]
        rfl
      refine Or.inr ⟨payload, ?_, ?_, ?_⟩
      · rw [hnext]
        exact husage
      · intro t ht
        rw [hnext] at ht
        exact cacheCreation_totalUsage ht
      · rw [usage_of_session hsession]
        simp [Usage.ofSession]

/-- In every consistent stream, the history adds up to the total exactly when no record with a
model came after usage which no bucket had. -/
theorem totalsMatch_run (readers : Readers) (filePath : String) (archived : Bool)
    (steps : List Step)
    (h : Along (step readers) (Consistent readers) (new filePath archived) steps) :
    (run readers steps (new filePath archived)).TotalsMatch ↔
      Along (step readers) (Attributed readers) (new filePath archived) steps := by
  have hclean : (run readers steps (new filePath archived)).TotalsMatch ↔
      (new filePath archived).TotalsMatch ∧
        Along (step readers) (Attributed readers) (new filePath archived) steps := by
    apply Along.clean_iff (fun parser ↦ parser.usage.Bounded) TotalsMatch
    · intro parser step hbounded hconsistent
      rcases usage_step_of_consistent hconsistent with ⟨hsame, -⟩ | ⟨payload, hrecord, hzero, -⟩
      · rw [hsame]
        exact hbounded
      · rw [hrecord]
        exact hbounded.record _ _ hzero
    · intro parser step hbounded hconsistent
      rw [totalsMatch_iff, totalsMatch_iff]
      rcases usage_step_of_consistent hconsistent with
        ⟨hsame, hmet⟩ | ⟨payload, hrecord, hzero, hmet⟩
      · rw [hsame, hmet, and_true]
      · rw [hrecord, hmet]
        exact hbounded.counted_eq_iff _ _ hzero
    · exact Usage.bounded_empty
    · exact h
  exact hclean.trans (and_iff_right fun _ hsession ↦ nomatch hsession)

/-- The model is known before the first record. -/
theorem totalsMatch_shortRun : (run shortReaders
    [.line metaLine, .line contextLine, .line usageLine, .line laterUsageLine]
    (new "rollout.jsonl" false)).TotalsMatch :=
  (totalsMatch_run shortReaders "rollout.jsonl" false
    [.line metaLine, .line contextLine, .line usageLine, .line laterUsageLine]
    (by
      simp only [Along, Consistent, reads_metaLine.step_eq, reads_contextLine.step_eq,
        reads_usageLine.step_eq, reads_metaLine.tokenCount_eq, reads_contextLine.tokenCount_eq,
        reads_usageLine.tokenCount_eq, reads_laterUsageLine.tokenCount_eq]
      decide +kernel)).mpr (by
      simp only [Along, Attributed, reads_metaLine.step_eq, reads_contextLine.step_eq,
        reads_usageLine.step_eq, reads_metaLine.tokenCount_eq, reads_contextLine.tokenCount_eq,
        reads_usageLine.tokenCount_eq, reads_laterUsageLine.tokenCount_eq]
      decide +kernel)

/-- The model becomes known after ten tokens: a consistent stream whose history has them twice. -/
theorem not_totalsMatch_lateModel :
    Along (step shortReaders) (Consistent shortReaders) (new "rollout.jsonl" false)
      [.line metaLine, .line usageLine, .line contextLine, .line laterUsageLine] ∧
    ¬ (run shortReaders [.line metaLine, .line usageLine, .line contextLine, .line laterUsageLine]
      (new "rollout.jsonl" false)).TotalsMatch := by
  constructor
  · simp only [Along, Consistent, reads_metaLine.step_eq, reads_contextLine.step_eq,
      reads_usageLine.step_eq, reads_metaLine.tokenCount_eq, reads_contextLine.tokenCount_eq,
      reads_usageLine.tokenCount_eq, reads_laterUsageLine.tokenCount_eq]
    decide +kernel
  · rw [totalsMatch_iff]
    simp only [run, List.foldl, reads_metaLine.step_eq, reads_contextLine.step_eq,
      reads_usageLine.step_eq, reads_laterUsageLine.step_eq]
    decide +kernel

end SessionParser

end Parser

end AgentOdometer
