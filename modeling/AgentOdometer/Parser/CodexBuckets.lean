import AgentOdometer.Parser.CodexUsage

/-!
# Buckets and history of a Codex transcript

The bucket of a model is meant to be the sum of the history's deltas of that model
(`parser.rs:726–737`). It is what one token event adds to both, except for an event without a
total, whose contribution reaches the bucket but not the history.
-/

namespace AgentOdometer.Parser

open Std (ExtTreeMap)
open GroupBy

theorem subtractTotals_eq (a b : TokenTotals) : subtractTotals a b = a.sub b :=
  rfl

/-- Nothing is left of a total which is covered. -/
theorem sub_eq_zero_iff {a b : TokenTotals} : a.sub b = 0 ↔ a ≤ b := by
  rw [TokenTotals.le_def]
  constructor
  · intro h
    have hfields := TokenTotals.mk.inj h
    omega
  · intro h
    apply TokenTotals.ext <;> show _ - _ = 0 <;> omega

theorem totalsAnyPositive_eq_false {totals : TokenTotals} : totalsAnyPositive totals = false ↔
    totals.inputTokens = 0 ∧ totals.cachedInputTokens = 0 ∧ totals.outputTokens = 0 ∧
      totals.reasoningOutputTokens = 0 ∧ totals.totalTokens = 0 := by
  simp only [totalsAnyPositive, Bool.or_eq_false_iff, decide_eq_false_iff_not]
  omega

/-- What is left of a total without cache writes is positive somewhere, or nothing. -/
theorem totalsAnyPositive_sub {a b : TokenTotals} (ha : a.cacheCreationInputTokens = 0) :
    totalsAnyPositive (a.sub b) = false ↔ a.sub b = 0 := by
  rw [sub_eq_zero_iff, TokenTotals.le_def, totalsAnyPositive_eq_false]
  simp only [TokenTotals.sub]
  omega

theorem sumBucketTotals_groupSum (entries : List (String × TokenTotals)) :
    sumBucketTotals (groupSum entries) = (entries.map Prod.snd).sum :=
  sum_map_toList_groupSum (fun _ totals ↦ totals) (fun _ ↦ rfl) (fun _ _ _ ↦ rfl) entries

/-- One more entry of a group. -/
theorem updateEntry_groupSum (entries : List (String × TokenTotals)) (model : String)
    (totals : TokenTotals) :
    updateEntry (groupSum entries) model 0 (· + totals) =
      groupSum (entries ++ [(model, totals)]) := by
  rw [groupSum_append]
  rfl

/-- Two entries of one group are one. -/
theorem groupSum_append_add (entries : List (String × TokenTotals)) (model : String)
    (a b : TokenTotals) :
    groupSum (entries ++ [(model, a)] ++ [(model, b)]) =
      groupSum (entries ++ [(model, a + b)]) := by
  apply ExtTreeMap.ext_getElem?
  intro key
  simp only [groupSum_append, getElem?_addEntries]
  by_cases hkey : model = key <;> simp [hkey, sumAt, add_assoc]

/-- What an event contributes to buckets of the given sum. -/
def share (total usage sum : TokenTotals) : TokenTotals :=
  usage + total.sub (sum + usage)

/-- An event contributes nothing exactly when it carries no usage and the buckets cover the
total. -/
theorem share_eq_zero_iff {total usage sum : TokenTotals} :
    share total usage sum = 0 ↔ usage = 0 ∧ total ≤ sum := by
  unfold share
  rw [TokenTotals.add_eq_zero_iff, sub_eq_zero_iff]
  constructor
  · rintro ⟨rfl, h⟩
    exact ⟨rfl, by rwa [add_zero] at h⟩
  · rintro ⟨rfl, h⟩
    exact ⟨rfl, by rwa [add_zero]⟩

/-- The contribution of an event to the bucket of its model. -/
theorem contribute_groupSum {total : TokenTotals} (htotal : total.cacheCreationInputTokens = 0)
    (model : String) (usage : TokenTotals) (entries : List (String × TokenTotals)) :
    SessionParser.contribute (some model) total usage (groupSum entries) =
      (groupSum (entries ++ [(model, share total usage (entries.map Prod.snd).sum)]),
        share total usage (entries.map Prod.snd).sum) := by
  unfold SessionParser.contribute share
  dsimp only
  rw [updateEntry_groupSum, sumBucketTotals_groupSum, List.map_append, List.sum_append,
    List.map_singleton, List.sum_singleton, subtractTotals_eq]
  split
  · rw [updateEntry_groupSum, groupSum_append_add]
  next hpositive =>
    have hzero := (totalsAnyPositive_sub htotal).mp (Bool.eq_false_iff.mpr hpositive)
    rw [hzero, add_zero]

namespace Usage

variable {usage : Usage} {lost : List (String × TokenTotals)}

/-- The deltas of the history which name a model. -/
def attributed (usage : Usage) : List (String × TokenTotals) :=
  usage.deltas.filterMap fun delta ↦ delta.1.map (·, delta.2)

/-- The buckets hold the attributed deltas, and besides them what was lost to the history. -/
structure Grouped (usage : Usage) (lost : List (String × TokenTotals)) : Prop where
  cacheCreation : usage.total.cacheCreationInputTokens = 0
  buckets : usage.buckets = groupSum (usage.attributed ++ lost)

/-- Every bucket is the sum of the deltas of its model. -/
def BucketsMatch (usage : Usage) : Prop :=
  ∀ model, usage.buckets[model]?.getD 0 =
    ((usage.deltas.filter fun delta ↦ delta.1 = some model).map Prod.snd).sum

theorem sumAt_attributed (usage : Usage) (model : String) :
    sumAt model usage.attributed =
      ((usage.deltas.filter fun delta ↦ delta.1 = some model).map Prod.snd).sum := by
  unfold attributed
  induction usage.deltas with
  | nil => rfl
  | cons delta rest ih =>
    obtain ⟨source, totals⟩ := delta
    cases source with
    | none =>
      rw [List.filterMap_cons_none rfl, ih, List.filter_cons_of_neg (by simp)]
    | some name =>
      show sumAt model ((name, totals) :: _) = _
      rw [sumAt_cons, ih]
      by_cases hname : name = model <;> simp [hname]

/-- The buckets match the history exactly when nothing was lost. -/
theorem Grouped.bucketsMatch_iff (h : usage.Grouped lost) :
    usage.BucketsMatch ↔ ∀ entry ∈ lost, entry.2 = 0 := by
  have hbucket : ∀ model, usage.buckets[model]?.getD 0 =
      sumAt model usage.attributed + sumAt model lost := by
    intro model
    have hsum : sumAt model (usage.attributed ++ lost) =
        sumAt model usage.attributed + sumAt model lost := by
      simp [sumAt]
    rw [h.buckets, getElem?_groupSum, ← hsum]
    split
    · rfl
    next hnone =>
      have hfilter : (usage.attributed ++ lost).filter (fun e ↦ e.1 = model) = [] := by
        rw [List.filter_eq_nil_iff]
        intro e he hkey
        exact hnone ⟨e, he, of_decide_eq_true hkey⟩
      rw [sumAt, hfilter]
      rfl
  unfold BucketsMatch
  simp only [hbucket, ← sumAt_attributed, add_eq_left]
  constructor
  · intro hzero entry hentry
    have hsum := hzero entry.1
    rw [sumAt, List.sum_eq_zero_iff] at hsum
    exact hsum _ (List.mem_map_of_mem (List.mem_filter.mpr ⟨hentry, decide_eq_true rfl⟩))
  · intro hzero model
    rw [sumAt, List.sum_eq_zero_iff]
    intro totals htotals
    obtain ⟨entry, hentry, rfl⟩ := List.mem_map.mp htotals
    exact hzero entry (List.mem_of_mem_filter hentry)

theorem Grouped.sum_eq (h : usage.Grouped lost) :
    ((usage.attributed ++ lost).map Prod.snd).sum = sumBucketTotals usage.buckets := by
  rw [h.buckets, sumBucketTotals_groupSum]

/-- What an event adds to a bucket but not to the history. -/
def unrecorded (usage : Usage) (model : Option String) (total last : Option TokenTotals) :
    List (String × TokenTotals) :=
  match model, total with
  | some model, none =>
      [(model, share usage.total (last.getD 0) (sumBucketTotals usage.buckets))]
  | _, _ => []

theorem Grouped.cacheCreation_getD (h : usage.Grouped lost) {total : Option TokenTotals}
    (htotal : ∀ t, total = some t → t.cacheCreationInputTokens = 0) :
    (total.getD usage.total).cacheCreationInputTokens = 0 := by
  cases htot : total with
  | none => exact h.cacheCreation
  | some t => exact htotal t htot

/-- What an event with a model contributes. -/
theorem Grouped.contribute_eq (h : usage.Grouped lost) (model : String)
    {total : Option TokenTotals} (htotal : ∀ t, total = some t → t.cacheCreationInputTokens = 0)
    (last : Option TokenTotals) :
    SessionParser.contribute (some model) (total.getD usage.total) (last.getD 0) usage.buckets =
      (groupSum (usage.attributed ++ lost ++ [(model, share (total.getD usage.total)
          (last.getD 0) (sumBucketTotals usage.buckets))]),
        share (total.getD usage.total) (last.getD 0) (sumBucketTotals usage.buckets)) := by
  have hcontribute := contribute_groupSum (h.cacheCreation_getD htotal) model (last.getD 0)
    (usage.attributed ++ lost)
  rw [← h.buckets, h.sum_eq] at hcontribute
  exact hcontribute

/-- An event keeps the buckets grouped, and loses what it does not record. -/
theorem Grouped.record (h : usage.Grouped lost) (model : Option String)
    {total : Option TokenTotals} (htotal : ∀ t, total = some t → t.cacheCreationInputTokens = 0)
    (last : Option TokenTotals) :
    (usage.record model total last).Grouped (lost ++ usage.unrecorded model total last) := by
  refine ⟨h.cacheCreation_getD htotal, ?_⟩
  cases model with
  | none =>
    have hattributed : (usage.record none total last).attributed = usage.attributed := by
      cases total with
      | none => simp [Usage.record, attributed]
      | some t => simp [Usage.record, attributed]
    rw [hattributed]
    show usage.buckets = groupSum (usage.attributed ++ (lost ++ []))
    rw [List.append_nil]
    exact h.buckets
  | some model =>
    have hcontribute := h.contribute_eq model htotal last
    have hbuckets : (usage.record (some model) total last).buckets = _ :=
      congrArg Prod.fst hcontribute
    rw [hbuckets]
    cases total with
    | none =>
      have hattributed : (usage.record (some model) none last).attributed = usage.attributed := by
        simp [Usage.record, attributed]
      rw [hattributed, List.append_assoc]
      rfl
    | some t =>
      have hattributed : (usage.record (some model) (some t) last).attributed =
          usage.attributed ++ [(model, share t (last.getD 0) (sumBucketTotals usage.buckets))] := by
        unfold Usage.record attributed
        rw [hcontribute]
        simp
      rw [hattributed]
      apply groupSum_perm
      show List.Perm (_ ++ lost ++ [_]) (_ ++ [_] ++ (lost ++ []))
      rw [List.append_nil, List.append_assoc, List.append_assoc]
      exact List.Perm.append_left _ List.perm_append_comm

/-- The buckets after an event with a model: what they held and the usage, filled up to the
total. -/
theorem Grouped.sum_record (h : usage.Grouped lost) (model : String)
    {total : Option TokenTotals} (htotal : ∀ t, total = some t → t.cacheCreationInputTokens = 0)
    (last : Option TokenTotals) :
    sumBucketTotals (usage.record (some model) total last).buckets =
      sumBucketTotals usage.buckets + last.getD 0 +
        (total.getD usage.total).sub (sumBucketTotals usage.buckets + last.getD 0) := by
  unfold Usage.record
  rw [h.contribute_eq model htotal, sumBucketTotals_groupSum, List.map_append, List.sum_append,
    h.sum_eq, List.map_singleton, List.sum_singleton, share, add_assoc]

theorem grouped_empty : empty.Grouped [] :=
  ⟨rfl, rfl⟩

end Usage

namespace SessionParser

variable {readers : Readers} {parser : SessionParser} {payload : Json}

theorem usage_of_session {session : Session} (h : parser.session = some session) :
    parser.usage = Usage.ofSession session := by
  unfold usage
  rw [h]
  rfl

/-- Codex reports no cache writes. -/
theorem cacheCreation_totalUsage {total : TokenTotals} (h : totalUsage payload = some total) :
    total.cacheCreationInputTokens = 0 := by
  obtain ⟨_, -, rfl⟩ := Option.map_eq_some_iff.mp h
  rfl

/-! ### The buckets of a run -/

/-- The bucket of every model is the sum of the deltas of the history which name it. -/
def BucketsMatch (parser : SessionParser) : Prop :=
  ∀ session, parser.session = some session → ∀ model,
    session.tokensByModel[model]?.getD 0 =
      ((session.tokensHistory.filter fun point ↦ point.model = some model).map (·.delta)).sum

/-- A token count without a total, taken with a model, carries no usage and finds the total
covered by the buckets. -/
def Recorded (readers : Readers) (parser : SessionParser) (step : Step) : Prop :=
  ∀ payload, tokenCount readers step = some payload → totalUsage payload = none →
    parser.currentModel.isSome → ∀ session, parser.session = some session →
      (lastUsage payload).getD 0 = 0 ∧
        session.tokensTotal ≤ sumBucketTotals session.tokensByModel

/-- A token count with a total, taken with a model, leaves buckets which cover the total, and
equal to it when the buckets and the usage did not exceed it. -/
def CoversTotal (readers : Readers) (parser : SessionParser) (step : Step) : Prop :=
  ∀ payload total session next, tokenCount readers step = some payload →
    totalUsage payload = some total → parser.currentModel.isSome →
    parser.session = some session → (parser.step readers step).session = some next →
      next.tokensTotal ≤ sumBucketTotals next.tokensByModel ∧
      (sumBucketTotals session.tokensByModel + (lastUsage payload).getD 0 ≤ total →
        sumBucketTotals next.tokensByModel = next.tokensTotal)

theorem bucketsMatch_iff : parser.BucketsMatch ↔ parser.usage.BucketsMatch := by
  have hdeltas : ∀ (session : Session) (model : String),
      ((Usage.ofSession session).deltas.filter fun delta ↦ delta.1 = some model).map Prod.snd =
        (session.tokensHistory.filter fun point ↦ point.model = some model).map (·.delta) := by
    intro session model
    unfold Usage.ofSession
    rw [List.filter_map, List.map_map]
    rfl
  unfold BucketsMatch Usage.BucketsMatch
  cases hsession : parser.session with
  | none =>
    have husage : parser.usage = .empty := by
      unfold usage
      rw [hsession]
      rfl
    rw [husage]
    simp [Usage.empty]
  | some session =>
    rw [usage_of_session hsession]
    simp only [Option.some.injEq, forall_eq', hdeltas]
    rfl

/-- Every step keeps the buckets grouped. -/
theorem grouped_step (h : ∃ lost, parser.usage.Grouped lost) (step : Step) :
    ∃ lost, (parser.step readers step).usage.Grouped lost := by
  obtain ⟨lost, h⟩ := h
  rw [usage_step]
  split
  · exact ⟨lost, h⟩
  · split
    · exact ⟨_, h.record _ (fun _ htotal ↦ cacheCreation_totalUsage htotal) _⟩
    · exact ⟨lost, h⟩

/-- A step keeps matching buckets matching exactly when it is recorded. -/
theorem bucketsMatch_step (h : ∃ lost, parser.usage.Grouped lost) (step : Step) :
    (parser.step readers step).BucketsMatch ↔
      parser.BucketsMatch ∧ Recorded readers parser step := by
  obtain ⟨lost, h⟩ := h
  rw [bucketsMatch_iff, bucketsMatch_iff, usage_step]
  unfold Recorded
  cases hcount : tokenCount readers step with
  | none => simp
  | some payload =>
    dsimp only
    cases hsession : parser.session with
    | none => simp
    | some session =>
      have husage := usage_of_session hsession
      have hrecord := h.record parser.currentModel
        (fun _ htotal ↦ @cacheCreation_totalUsage payload _ htotal) (lastUsage payload)
      rw [Option.isSome_some, if_pos rfl, hrecord.bucketsMatch_iff, h.bucketsMatch_iff]
      cases hmodel : parser.currentModel with
      | none => simp [Usage.unrecorded]
      | some model =>
        cases htotal : totalUsage payload with
        | some total => simp [Usage.unrecorded, htotal]
        | none =>
          have hshare : share parser.usage.total ((lastUsage payload).getD 0)
              (sumBucketTotals parser.usage.buckets) = 0 ↔ (lastUsage payload).getD 0 = 0 ∧
                session.tokensTotal ≤ sumBucketTotals session.tokensByModel := by
            rw [share_eq_zero_iff, husage]
            rfl
          rw [List.forall_mem_append]
          show ((∀ entry ∈ lost, entry.2 = 0) ∧
            ∀ entry ∈ [((model, _) : String × TokenTotals)], entry.2 = 0) ↔ _
          rw [List.forall_mem_singleton, hshare]
          simp [htotal]

/-- A token count with a total, taken with a model, covers the total. -/
theorem coversTotal_step (h : ∃ lost, parser.usage.Grouped lost) (step : Step) :
    CoversTotal readers parser step := by
  obtain ⟨lost, h⟩ := h
  intro payload total session next hcount htotal hmodel hsession hnext
  obtain ⟨model, hmodel⟩ := Option.isSome_iff_exists.mp hmodel
  have husage := @usage_step readers parser step
  rw [hcount, usage_of_session hnext] at husage
  simp only [hsession, Option.isSome_some, if_true, hmodel, htotal] at husage
  have hsum : sumBucketTotals next.tokensByModel =
      sumBucketTotals session.tokensByModel + (lastUsage payload).getD 0 +
        total.sub (sumBucketTotals session.tokensByModel + (lastUsage payload).getD 0) := by
    have hrecord := h.sum_record model
      (fun _ htotal ↦ @cacheCreation_totalUsage payload _ htotal) (lastUsage payload)
    rw [htotal, ← husage, usage_of_session hsession] at hrecord
    exact hrecord
  have htotalNext : next.tokensTotal = total := congrArg Usage.total husage
  rw [hsum, htotalNext]
  constructor
  · rw [TokenTotals.le_def]
    simp only [TokenTotals.sub, TokenTotals.inputTokens_add, TokenTotals.cachedInputTokens_add,
      TokenTotals.cacheCreationInputTokens_add, TokenTotals.outputTokens_add,
      TokenTotals.reasoningOutputTokens_add, TokenTotals.totalTokens_add]
    omega
  · exact TokenTotals.add_sub_of_le

/-- After every sequence of lines the buckets match the history exactly when no token count
without a total was lost to it, and every token count with a total and a model covers the total. -/
theorem bucketsMatch_run (readers : Readers) (filePath : String) (archived : Bool)
    (steps : List Step) :
    ((run readers steps (new filePath archived)).BucketsMatch ↔
      Along (step readers) (Recorded readers) (new filePath archived) steps) ∧
    Along (step readers) (CoversTotal readers) (new filePath archived) steps := by
  have hnew : ∃ lost, (new filePath archived).usage.Grouped lost := ⟨[], Usage.grouped_empty⟩
  have hempty : (new filePath archived).BucketsMatch := fun _ h ↦ nomatch h
  constructor
  · have hclean : (run readers steps (new filePath archived)).BucketsMatch ↔
        (new filePath archived).BucketsMatch ∧
          Along (step readers) (Recorded readers) (new filePath archived) steps :=
      Along.clean_iff _ BucketsMatch (fun _ step h _ ↦ grouped_step h step)
        (fun _ step h _ ↦ bucketsMatch_step h step) hnew (Along.trivial _ steps)
    exact hclean.trans (and_iff_right hempty)
  · exact Along.of_invariant (fun _ step h _ ↦ grouped_step h step)
      (fun _ step h _ ↦ coversTotal_step h step) hnew (Along.trivial _ steps)

/-- A token count without `info` moves usage from before the first model into a bucket, and the
history does not get it. -/
theorem not_bucketsMatch_shortRun : ¬ (run shortReaders
    [.line metaLine, .line usageLine, .line contextLine, .line limitsLine]
    (new "rollout.jsonl" false)).BucketsMatch := by
  rw [bucketsMatch_iff]
  simp only [run, List.foldl, reads_metaLine.step_eq, reads_contextLine.step_eq,
    reads_usageLine.step_eq, reads_limitsLine.step_eq]
  intro h
  exact absurd (h "gpt-5") (by decide +kernel)

end SessionParser

end AgentOdometer.Parser
