import AgentOdometer.Quota.IndexInvariant
import Mathlib.Data.List.Pairwise

/-!
# The points index and the from-scratch aggregation

With distinct timestamps across sessions, the points read from the index are the newest
points of the present sessions as long as eviction has not reached into them; the account
read from the index is the newest credit observation.
-/

namespace AgentOdometer.Quota

open Std (ExtTreeMap)
open OrderedMap (keyLt)
open QuotaPointsIndex

/-- The keyed points of a provider over an enumeration of sessions. -/
def fullPoints (entries : List (String × Session)) (p : ProviderId) :
    List (PointKey × RateLimitSnapshotPoint) :=
  entries.flatMap fun e ↦
    if e.2.harness = p then keyedHistory e.1 e.2.rateLimitsHistory else []

/-- Rate-limit timestamps differ across sessions. -/
def TimestampsDistinct (present : ExtTreeMap String Session) : Prop :=
  ∀ (a b : String) s t, present[a]? = some s → present[b]? = some t → a ≠ b →
    ∀ p ∈ s.rateLimitsHistory, ∀ q ∈ t.rateLimitsHistory, p.timestamp ≠ q.timestamp

/-- Present sessions whose points and credit observations have unambiguous times: rate-limit
timestamps differ across sessions, so do the last events of two sessions of one provider
which report credits, and sequence numbers fit `u32`. -/
structure DistinctTimes (present : ExtTreeMap String Session) : Prop where
  points : TimestampsDistinct present
  credits : ∀ (a b : String) s t, present[a]? = some s → present[b]? = some t → a ≠ b →
    s.harness = t.harness → (creditCandidate s).isSome → (creditCandidate t).isSome →
    s.lastEventAt ≠ t.lastEventAt
  sequence : ∀ (a : String) s, present[a]? = some s → s.rateLimitsHistory.length ≤ 2 ^ 32

/-- Eviction has not reached the newest points of a provider: when a point of a present
session is missing, at least `maxPointsPerProvider` held points are newer than every missing
one. -/
def RetainsNewest (index : QuotaPointsIndex) (present : ExtTreeMap String Session)
    (p : ProviderId) : Prop :=
  (∃ m ∈ fullPoints present.toList p, m.1 ∉ index.bucket p) →
    maxPointsPerProvider ≤ ((index.bucket p).toList.filter fun e ↦
      (fullPoints present.toList p).all fun m ↦
        (index.bucket p).contains m.1 || compare m.1 e.1 == .lt).length

/-! ### Keys -/

theorem PointKey.compare_eq (a b : PointKey) :
    compare a b = (compare a.timestamp b.timestamp).then
      ((compare a.sessionKey b.sessionKey).then (compare a.seq b.seq)) :=
  rfl

private theorem timestamp_le_of_lt {a b : PointKey} (h : compare a b = .lt) :
    a.timestamp ≤ b.timestamp := by
  rw [PointKey.compare_eq, Ordering.then_eq_lt] at h
  obtain h | ⟨h, -⟩ := h
  · exact (compare_lt_iff_lt.mp h).le
  · exact (compare_eq_iff_eq.mp h).le

theorem mem_keyedHistory {sk : String} {history : List RateLimitSnapshotPoint}
    {e : PointKey × RateLimitSnapshotPoint} (h : e ∈ keyedHistory sk history) :
    e.2 ∈ history ∧ e.1.timestamp = e.2.timestamp := by
  simp only [keyedHistory, List.mem_map] at h
  obtain ⟨⟨point, seq⟩, hmem, rfl⟩ := h
  exact ⟨List.fst_mem_of_mem_zipIdx hmem, rfl⟩

theorem map_snd_keyedHistory (sk : String) (history : List RateLimitSnapshotPoint) :
    (keyedHistory sk history).map Prod.snd = history := by
  simp [keyedHistory, List.map_map, Function.comp_def, List.zipIdx_map_fst]

/-- Along one history, sequence numbers increase. -/
theorem pairwise_keyedHistory (sk : String) {history : List RateLimitSnapshotPoint}
    (hlen : history.length ≤ 2 ^ 32) :
    (keyedHistory sk history).Pairwise fun a b ↦ a.1.seq < b.1.seq := by
  rw [keyedHistory, List.pairwise_map, List.pairwise_iff_getElem]
  intro i j hi hj hij
  rw [List.length_zipIdx] at hi hj
  simp only [List.getElem_zipIdx, zero_add]
  rw [asU32_of_lt (by omega), asU32_of_lt (by omega)]
  exact hij

section Points

variable {present : ExtTreeMap String Session} {entries : List (String × Session)}
variable {p : ProviderId}

theorem mem_fullPoints (hentries : entries.Perm present.toList)
    {e : PointKey × RateLimitSnapshotPoint} :
    e ∈ fullPoints entries p ↔ ∃ s, present[e.1.sessionKey]? = some s ∧ s.harness = p ∧
      e ∈ keyedHistory e.1.sessionKey s.rateLimitsHistory := by
  simp only [fullPoints, List.mem_flatMap]
  constructor
  · rintro ⟨⟨sk, s⟩, hs, he⟩
    split at he
    · next hp =>
      have hk := sessionKey_of_mem_keyedHistory he
      refine ⟨s, ?_, hp, hk ▸ he⟩
      rw [hk]
      exact ExtTreeMap.mem_toList_iff_getElem?_eq_some.mp (hentries.subset hs)
    · contradiction
  · rintro ⟨s, hs, hp, he⟩
    refine ⟨(e.1.sessionKey, s), ?_, by simpa [hp] using he⟩
    exact hentries.symm.subset (ExtTreeMap.mem_toList_iff_getElem?_eq_some.mpr hs)

/-- In an enumeration of present sessions, keys are distinct and ties follow the list. -/
theorem pairwise_fullPoints (hentries : entries.Perm present.toList)
    (hd : DistinctTimes present) :
    (fullPoints entries p).Pairwise fun a b ↦
      a.1 ≠ b.1 ∧ (a.1.timestamp = b.1.timestamp → keyLt a b) := by
  have hget : ∀ e ∈ entries, present[e.1]? = some e.2 := fun e he ↦
    ExtTreeMap.mem_toList_iff_getElem?_eq_some.mp (hentries.subset he)
  rw [fullPoints, List.pairwise_flatMap]
  constructor
  · intro e he
    split
    · apply (pairwise_keyedHistory e.1 (hd.sequence _ _ (hget e he))).imp_of_mem
      intro a b ha hb hseq
      refine ⟨fun h ↦ by simp [h] at hseq, fun htime ↦ ?_⟩
      have hkey := (sessionKey_of_mem_keyedHistory ha).trans
        (sessionKey_of_mem_keyedHistory hb).symm
      rw [keyLt, PointKey.compare_eq, htime, hkey]
      simpa using Nat.compare_eq_lt.mpr hseq
    · exact List.Pairwise.nil
  · have hkeys : entries.Pairwise fun a b ↦ a.1 ≠ b.1 := by
      have hdist : present.toList.Pairwise fun a b ↦ ¬ compare a.1 b.1 = .eq :=
        ExtTreeMap.distinct_keys_toList
      apply (hentries.symm.pairwise (hdist.imp fun h heq ↦ h (by simp [heq]))
        fun h ↦ Ne.symm h)
    apply hkeys.imp_of_mem
    intro x y hx hy hne a ha b hb
    split at ha
    · split at hb
      · have ha' := mem_keyedHistory ha
        have hb' := mem_keyedHistory hb
        refine ⟨?_, fun htime ↦ ?_⟩
        · intro h
          have := congrArg PointKey.sessionKey h
          rw [sessionKey_of_mem_keyedHistory ha, sessionKey_of_mem_keyedHistory hb] at this
          exact hne this
        · rw [ha'.2, hb'.2] at htime
          exact absurd htime (hd.points _ _ _ _ (hget x hx) (hget y hy) hne _ ha'.1 _ hb'.1)
      · contradiction
    · contradiction

variable {index : QuotaPointsIndex}

private theorem eq_of_mem_fullPoints (hentries : entries.Perm present.toList)
    (hd : DistinctTimes present) {a b : PointKey × RateLimitSnapshotPoint}
    (ha : a ∈ fullPoints entries p) (hb : b ∈ fullPoints entries p) (h : a.1 = b.1) : a = b := by
  by_contra hne
  have hpair : (fullPoints entries p).Pairwise fun a b ↦ a.1 ≠ b.1 :=
    (pairwise_fullPoints hentries hd).imp fun h ↦ h.1
  have : Std.Symm fun a b : PointKey × RateLimitSnapshotPoint ↦ a.1 ≠ b.1 :=
    ⟨fun _ _ h ↦ h.symm⟩
  exact hpair.forall ha hb hne h

/-- The from-scratch order of a provider's points: a stable sort by timestamp. -/
def sortedPoints (entries : List (String × Session)) (p : ProviderId) :
    List (PointKey × RateLimitSnapshotPoint) :=
  (fullPoints entries p).insertionSort fun a b ↦ timestampLe a.2 b.2

/-- The stable sort by timestamp is strictly sorted by point key. -/
theorem pairwise_sortedPoints (hentries : entries.Perm present.toList)
    (hd : DistinctTimes present) : (sortedPoints entries p).Pairwise keyLt := by
  have hpair := pairwise_fullPoints (p := p) hentries hd
  have htime : ∀ e ∈ fullPoints entries p, e.1.timestamp = e.2.timestamp := by
    intro e he
    obtain ⟨s, -, -, hmem⟩ := (mem_fullPoints hentries).mp he
    exact (mem_keyedHistory hmem).2
  have : Std.Total fun a b : PointKey × RateLimitSnapshotPoint ↦ timestampLe a.2 b.2 :=
    ⟨fun a b ↦ le_total a.2.timestamp b.2.timestamp⟩
  have : IsTrans (PointKey × RateLimitSnapshotPoint) fun a b ↦ timestampLe a.2 b.2 :=
    ⟨fun a b c (hab : _ ≤ _) (hbc : _ ≤ _) ↦ le_trans hab hbc⟩
  apply SortedList.pairwise_insertionSort_of_ties
  · exact hpair.imp fun h heq ↦ h.1 (congrArg Prod.fst heq)
  · intro a ha b hb hne
    have hkey : a.1 ≠ b.1 := fun h ↦ hne (eq_of_mem_fullPoints hentries hd ha hb h)
    cases hcmp : compare a.1 b.1 with
    | lt => exact Or.inl hcmp
    | eq => exact absurd (Std.LawfulEqCmp.eq_of_compare hcmp) hkey
    | gt => exact Or.inr (Std.OrientedCmp.gt_iff_lt.mp hcmp)
  · intro a ha b hb hlt
    have := timestamp_le_of_lt hlt
    rwa [htime a ha, htime b hb] at this
  · intro a b hab hle hge
    have hsub : ∀ e ∈ [a, b], e ∈ fullPoints entries p := fun e he ↦ hab.subset he
    have heq : a.1.timestamp = b.1.timestamp := by
      rw [htime a (hsub a (by simp)), htime b (hsub b (by simp))]
      exact le_antisymm hle hge
    exact (List.pairwise_iff_forall_sublist.mp hpair hab).2 heq

/-- The bucket is the sorted from-scratch list without the missing points. -/
theorem toList_bucket_eq (h : Tracks index present) (hentries : entries.Perm present.toList)
    (hd : DistinctTimes present) :
    (index.bucket p).toList =
      (sortedPoints entries p).filter fun e ↦ (index.bucket p).contains e.1 := by
  have hfull : ∀ k v, (index.bucket p)[k]? = some v → (k, v) ∈ fullPoints entries p := by
    intro k v hv
    obtain ⟨s, hs, hp, hmem⟩ := h.held p k v hv
    exact (mem_fullPoints hentries).mpr ⟨s, hs, hp, hmem⟩
  apply OrderedMap.toList_eq_of_pairwise
  · exact (pairwise_sortedPoints hentries hd).filter _
  · rintro ⟨k, v⟩
    simp only [List.mem_filter, sortedPoints, List.mem_insertionSort]
    constructor
    · rintro ⟨hmem, hk⟩
      obtain ⟨v', hv'⟩ := Option.isSome_iff_exists.mp
        (ExtTreeMap.mem_iff_isSome_getElem?.mp (ExtTreeMap.contains_iff_mem.mp hk))
      have := eq_of_mem_fullPoints hentries hd hmem (hfull k v' hv') rfl
      rw [Prod.mk.injEq] at this
      rw [this.2]
      exact hv'
    · intro hv
      refine ⟨hfull k v hv, ?_⟩
      rw [ExtTreeMap.contains_iff_mem, ExtTreeMap.mem_iff_isSome_getElem?, hv]
      rfl

/-- The points read from the index are the newest points of the from-scratch order. -/
theorem providerPoints_eq (h : Tracks index present) (hentries : entries.Perm present.toList)
    (hd : DistinctTimes present) (hr : RetainsNewest index present p) :
    index.providerPoints p = truncatePoints ((sortedPoints entries p).map Prod.snd) := by
  have hperm : (fullPoints entries p).Perm (fullPoints present.toList p) :=
    hentries.flatMap_right _
  have hmem : ∀ m, m ∈ sortedPoints entries p ↔ m ∈ fullPoints present.toList p := by
    intro m
    rw [sortedPoints, List.mem_insertionSort]
    exact hperm.mem_iff
  have hdrop := SortedList.drop_filter_eq (n := maxPointsPerProvider)
    (fun e ↦ (index.bucket p).contains e.1) (pairwise_sortedPoints (p := p) hentries hd)
    OrderedMap.keyLt_irrefl (fun _ _ _ ↦ OrderedMap.keyLt_trans)
    (fun e ↦ (fullPoints present.toList p).all fun m ↦
      (index.bucket p).contains m.1 || compare m.1 e.1 == .lt)
    (by
      intro e
      simp only [List.all_eq_true, Bool.or_eq_true, beq_iff_eq, hmem]
      refine forall₂_congr fun m _ ↦ ?_
      cases (index.bucket p).contains m.1 <;> simp [keyLt])
    (by
      rintro ⟨m, hm, hmissing⟩
      rw [← toList_bucket_eq h hentries hd]
      exact hr ⟨m, (hmem m).mp hm, by simp [← ExtTreeMap.contains_iff_mem, hmissing]⟩)
  rw [← toList_bucket_eq h hentries hd] at hdrop
  rw [truncatePoints, List.length_map, ← List.map_drop, ← hdrop, providerPoints]
  simp only [List.length_map]
  split
  · next hle =>
    rw [Nat.sub_eq_zero_of_le hle, List.drop_zero]
  · rw [← List.map_reverse, ← List.map_take, ← List.map_reverse, List.reverse_take,
      List.reverse_reverse, List.length_reverse]

end Points

/-! ### From-scratch maps -/

/-- The candidate which one session offers for a provider's account. -/
def providerCandidate (p : ProviderId) (session : Session) : Option QuotaAccountInfo :=
  if session.harness = p then creditCandidate session else none

/-- The account after one more candidate. -/
def keepNewest (kept : Option QuotaAccountInfo) (candidate : QuotaAccountInfo) :
    Option QuotaAccountInfo :=
  match kept with
  | none => some candidate
  | some a => some (if isNewer candidate a then candidate else a)

private theorem points_foldl_addSession (sessions : List Session) (s : ScratchState)
    (p : ProviderId) :
    (sessions.foldl ScratchState.addSession s).pointsByProvider[p]?.getD [] =
      s.pointsByProvider[p]?.getD [] ++ sessions.flatMap fun session ↦
        if session.harness = p then session.rateLimitsHistory else [] := by
  induction sessions generalizing s with
  | nil => simp
  | cons session sessions ih =>
    rw [List.foldl_cons, ih, List.flatMap_cons, ← List.append_assoc]
    congr 1
    simp only [ScratchState.addSession, ExtTreeMap.getElem?_alter, Std.compare_eq_iff_eq]
    split
    · next hp => simp [hp]
    · simp

private theorem account_foldl_addSession (sessions : List Session) (s : ScratchState)
    (p : ProviderId) :
    (sessions.foldl ScratchState.addSession s).accountByProvider[p]? =
      (sessions.filterMap (providerCandidate p)).foldl keepNewest s.accountByProvider[p]? := by
  induction sessions generalizing s with
  | nil => rfl
  | cons session sessions ih =>
    rw [List.foldl_cons, ih]
    simp only [ScratchState.addSession, providerCandidate, List.filterMap_cons]
    cases hc : creditCandidate session with
    | none => simp
    | some candidate =>
      by_cases hp : session.harness = p
      · subst hp
        cases hold : s.accountByProvider[session.harness]? <;>
          simp [keepNewest, hold]
      · simp [hp, ExtTreeMap.getElem?_alter]

/-- The account's time is at least the candidate's. -/
def NotOlder (a b : QuotaAccountInfo) : Prop :=
  ∀ t, b.observedAt = some t → ∃ t', a.observedAt = some t' ∧ t ≤ t'

private theorem foldl_keepNewest (candidates : List QuotaAccountInfo)
    (htimes : ∀ b ∈ candidates, b.observedAt.isSome) (kept : QuotaAccountInfo)
    (hkept : kept.observedAt.isSome) :
    ∃ a, candidates.foldl keepNewest (some kept) = some a ∧ a ∈ kept :: candidates ∧
      ∀ b ∈ kept :: candidates, NotOlder a b := by
  induction candidates generalizing kept with
  | nil =>
    refine ⟨kept, rfl, List.mem_singleton_self kept, ?_⟩
    intro b hb t ht
    rw [List.mem_singleton.mp hb] at ht
    exact ⟨t, ht, le_rfl⟩
  | cons c candidates ih =>
    obtain ⟨tc, htc⟩ := Option.isSome_iff_exists.mp (htimes c List.mem_cons_self)
    obtain ⟨tk, htk⟩ := Option.isSome_iff_exists.mp hkept
    have hrest : ∀ b ∈ candidates, b.observedAt.isSome :=
      fun b hb ↦ htimes b (List.mem_cons_of_mem c hb)
    rw [List.foldl_cons]
    by_cases hnew : tk < tc
    · obtain ⟨a, ha, hmem, hmax⟩ := ih hrest c (by simp [htc])
      refine ⟨a, by simpa [keepNewest, isNewer, htc, htk, hnew] using ha,
        List.mem_cons_of_mem _ hmem, ?_⟩
      intro b hb
      obtain rfl | hb := List.mem_cons.mp hb
      · intro t ht
        obtain ⟨t', ht', hle⟩ := hmax c List.mem_cons_self tc htc
        rw [htk, Option.some.injEq] at ht
        exact ⟨t', ht', (ht ▸ hnew.le).trans hle⟩
      · exact hmax b hb
    · obtain ⟨a, ha, hmem, hmax⟩ := ih hrest kept hkept
      refine ⟨a, by simpa [keepNewest, isNewer, htc, htk, hnew] using ha, ?_, ?_⟩
      · obtain rfl | hmem := List.mem_cons.mp hmem
        · exact List.mem_cons_self
        · exact List.mem_cons_of_mem _ (List.mem_cons_of_mem c hmem)
      · intro b hb
        obtain rfl | hb := List.mem_cons.mp hb
        · exact hmax b List.mem_cons_self
        obtain rfl | hb := List.mem_cons.mp hb
        · intro t ht
          obtain ⟨t', ht', hle⟩ := hmax kept List.mem_cons_self tk htk
          rw [htc, Option.some.injEq] at ht
          exact ⟨t', ht', (ht ▸ not_lt.mp hnew).trans hle⟩
        · exact hmax b (List.mem_cons_of_mem _ hb)

section Accounts

variable {present : ExtTreeMap String Session} {entries : List (String × Session)}
variable {index : QuotaPointsIndex}

private theorem observedAt_of_creditCandidate {s : Session} {a : QuotaAccountInfo}
    (h : creditCandidate s = some a) : a.observedAt = some s.lastEventAt := by
  unfold creditCandidate at h
  split at h
  · rw [Option.some.injEq] at h
    subst h
    rfl
  · contradiction

/-- The candidates of a provider over an enumeration are its credit observations. -/
private theorem mem_candidates (h : Tracks index present)
    (hentries : entries.Perm present.toList) (p : ProviderId) (a : QuotaAccountInfo) :
    a ∈ (entries.map Prod.snd).filterMap (providerCandidate p) ↔
      ∃ (t : DateTime) (sk : String), (index.accountBucket p)[(t, sk)]? = some a := by
  simp only [List.mem_filterMap, List.mem_map, h.accounts, providerCandidate]
  constructor
  · rintro ⟨s, ⟨⟨sk, s'⟩, hmem, rfl⟩, ha⟩
    split at ha
    · next hp =>
      have hget := ExtTreeMap.mem_toList_iff_getElem?_eq_some.mp (hentries.subset hmem)
      exact ⟨s'.lastEventAt, sk, s', hget, hp, rfl, ha⟩
    · contradiction
  · rintro ⟨t, sk, s, hs, hp, -, ha⟩
    refine ⟨s, ⟨(sk, s), ?_, rfl⟩, by simp [hp, ha]⟩
    exact hentries.symm.subset (ExtTreeMap.mem_toList_iff_getElem?_eq_some.mpr hs)

/-- The account read from the index is the newest candidate of the from-scratch loop. -/
theorem account_eq (h : Tracks index present) (hentries : entries.Perm present.toList)
    (hd : DistinctTimes present) (p : ProviderId) :
    (index.accountBucket p).toList.getLast?.map Prod.snd =
      ((entries.map Prod.snd).filterMap (providerCandidate p)).foldl keepNewest none := by
  have hcandidates := mem_candidates h hentries p
  have htime : ∀ (t : DateTime) (sk : String) a, (index.accountBucket p)[(t, sk)]? = some a →
      a.observedAt = some t := by
    intro t sk a ha
    obtain ⟨s, -, -, rfl, hc⟩ := (h.accounts p t sk a).mp ha
    exact observedAt_of_creditCandidate hc
  cases hlast : (index.accountBucket p).toList.getLast? with
  | none =>
    have hempty : (index.accountBucket p).toList = [] := List.getLast?_eq_none_iff.mp hlast
    have hnone : (entries.map Prod.snd).filterMap (providerCandidate p) = [] := by
      rw [List.eq_nil_iff_forall_not_mem]
      intro a ha
      obtain ⟨t, sk, hget⟩ := (hcandidates a).mp ha
      have := ExtTreeMap.mem_toList_iff_getElem?_eq_some.mpr hget
      simp [hempty] at this
    rw [hnone]
    rfl
  | some e =>
    obtain ⟨⟨t, sk⟩, a⟩ := e
    obtain ⟨hget, hmax⟩ := OrderedMap.getLast?_toList hlast
    have hmem : a ∈ (entries.map Prod.snd).filterMap (providerCandidate p) :=
      (hcandidates a).mpr ⟨t, sk, hget⟩
    have htimes : ∀ b ∈ (entries.map Prod.snd).filterMap (providerCandidate p),
        b.observedAt.isSome := by
      intro b hb
      obtain ⟨t', sk', hb⟩ := (hcandidates b).mp hb
      simp [htime t' sk' b hb]
    obtain ⟨c, cs, hcs⟩ := List.exists_cons_of_ne_nil (List.ne_nil_of_mem hmem)
    rw [hcs] at hmem htimes hcandidates ⊢
    obtain ⟨b, hfold, hbmem, hbmax⟩ := foldl_keepNewest cs
      (fun b hb ↦ htimes b (List.mem_cons_of_mem c hb)) c (htimes c List.mem_cons_self)
    obtain ⟨t', sk', hb⟩ := (hcandidates b).mp hbmem
    -- Both are newest, so their sessions tie and are therefore the same session.
    have hle : t ≤ t' := by
      obtain ⟨u, hu, hle⟩ := hbmax a hmem t (htime t sk a hget)
      rw [htime t' sk' b hb, Option.some.injEq] at hu
      exact hu ▸ hle
    have hge : t' ≤ t := by
      by_cases hkey : (t', sk') = (t, sk)
      · exact (congrArg Prod.fst hkey).le
      · have hlt := hmax (t', sk')
          (ExtTreeMap.mem_iff_isSome_getElem?.mpr (by rw [hb]; rfl)) hkey
        have hcmp : (compare t' t).then (compare sk' sk) = .lt := hlt
        rw [Ordering.then_eq_lt] at hcmp
        obtain hcmp | ⟨hcmp, -⟩ := hcmp
        · exact (compare_lt_iff_lt.mp hcmp).le
        · exact (compare_eq_iff_eq.mp hcmp).le
    obtain rfl : t = t' := le_antisymm hle hge
    obtain ⟨s, hs, hsp, hst, hsa⟩ := (h.accounts p t sk a).mp hget
    obtain ⟨s', hs', hsp', hst', hsb⟩ := (h.accounts p t sk' b).mp hb
    have hsk : sk = sk' := by
      by_contra hne
      exact hd.credits sk sk' s s' hs hs' hne (hsp.trans hsp'.symm) (by simp [hsa])
        (by simp [hsb]) (hst.trans hst'.symm)
    subst hsk
    rw [hget, Option.some.injEq] at hb
    subst hb
    exact hfold.symm

end Accounts

/-! ### Runs within the retention limit -/

theorem length_fullPoints_le (entries : List (String × Session)) (p : ProviderId) :
    (fullPoints entries p).length ≤ (entries.map fun e ↦ e.2.rateLimitsHistory.length).sum := by
  induction entries with
  | nil => simp [fullPoints]
  | cons e entries ih =>
    rw [fullPoints, List.flatMap_cons, ← fullPoints, List.length_append, List.map_cons,
      List.sum_cons]
    refine Nat.add_le_add ?_ ih
    split
    · simp [keyedHistory]
    · simp

/-- Every point of a present session is held. -/
def Complete (index : QuotaPointsIndex) (present : ExtTreeMap String Session) : Prop :=
  ∀ p, ∀ e ∈ fullPoints present.toList p, e.1 ∈ index.bucket p

/-- A complete index has nothing to lose to eviction. -/
theorem retainsNewest_of_complete {index : QuotaPointsIndex}
    {present : ExtTreeMap String Session} (h : Complete index present) (p : ProviderId) :
    RetainsNewest index present p := by
  rintro ⟨m, hm, hmissing⟩
  exact absurd (h p m hm) hmissing

private theorem complete_retract {index : QuotaPointsIndex}
    {present : ExtTreeMap String Session} (h : Tracks index present)
    (hc : Complete index present) (sessionKey : String) :
    Complete (index.retract sessionKey) (present.erase sessionKey) := by
  intro p e he
  obtain ⟨s, hs, hp, hmem⟩ := (mem_fullPoints (List.Perm.refl _)).mp he
  rw [ExtTreeMap.getElem?_erase] at hs
  split at hs
  · contradiction
  next hne =>
  have hold := hc p e ((mem_fullPoints (List.Perm.refl _)).mpr ⟨s, hs, hp, hmem⟩)
  have hsk : e.1.sessionKey ≠ sessionKey := by
    rintro rfl
    simp at hne
  rw [ExtTreeMap.mem_iff_isSome_getElem?, h.getElem?_bucket_retract, if_neg hsk]
  exact ExtTreeMap.mem_iff_isSome_getElem?.mp hold

private theorem complete_update {index : QuotaPointsIndex}
    {present : ExtTreeMap String Session} (h : Tracks index present)
    (hc : Complete index present) (sessionKey : String) (session : Session)
    (hlimit : (fullPoints (present.insert sessionKey session).toList session.harness).length ≤
      retainedPointsPerProvider) :
    Complete (index.updateSession sessionKey session) (present.insert sessionKey session) := by
  have hretract := tracks_retract h sessionKey
  have hu := updates_updateSession index sessionKey session
  have htracks := tracks_of_updates hretract hu
  have hinserted : ∀ p, ∀ k ∈ (index.retract sessionKey).withPoints sessionKey session p,
      k ∈ (fullPoints (present.insert sessionKey session).toList p).map Prod.fst := by
    intro p k hk
    obtain ⟨v, hv⟩ := Option.isSome_iff_exists.mp (ExtTreeMap.mem_iff_isSome_getElem?.mp hk)
    refine List.mem_map.mpr ⟨(k, v), (mem_fullPoints (List.Perm.refl _)).mpr ?_, rfl⟩
    obtain ⟨hp, hmem⟩ | hold := getElem?_withPoints hv
    · have hkey : k.sessionKey = sessionKey := sessionKey_of_mem_keyedHistory hmem
      exact ⟨session, by simp [hkey], hp.symm, hkey ▸ hmem⟩
    · obtain ⟨s, hs, hrest⟩ := hretract.held p k v hold
      refine ⟨s, ?_, hrest⟩
      rw [ExtTreeMap.getElem?_erase] at hs
      rw [ExtTreeMap.getElem?_insert]
      split at hs
      · contradiction
      · next hne => simpa [hne] using hs
  have hnone : (index.retract sessionKey).evictedByUpdate sessionKey session = [] := by
    unfold evictedByUpdate
    split
    · rfl
    · apply evictedKeys_of_size_le
      exact (OrderedMap.size_le_length (hinserted _)).trans (by rwa [List.length_map])
  intro p e he
  obtain ⟨s, hs, hp, hmem⟩ := (mem_fullPoints (List.Perm.refl _)).mp he
  rw [ExtTreeMap.mem_iff_isSome_getElem?, hu.bucket, hnone, if_neg (by simp),
    ← ExtTreeMap.mem_iff_isSome_getElem?, mem_withPoints]
  rw [ExtTreeMap.getElem?_insert] at hs
  split at hs
  · next heq =>
    rw [Option.some.injEq] at hs
    subst hs
    have hkey : sessionKey = e.1.sessionKey := Std.LawfulEqCmp.eq_of_compare heq
    exact Or.inr ⟨hp.symm, hkey ▸ List.mem_map.mpr ⟨e, hmem, rfl⟩⟩
  · next hne =>
    refine Or.inl (complete_retract h hc sessionKey p e ?_)
    refine (mem_fullPoints (List.Perm.refl _)).mpr ⟨s, ?_, hp, hmem⟩
    rw [ExtTreeMap.getElem?_erase]
    simpa [hne] using hs

/-- While the present sessions never hold more points of a provider than are retained,
nothing is evicted. -/
theorem complete_indexAfter (calls : List IndexCall)
    (hlimit : ∀ earlier, earlier <+: calls → ∀ p,
      (fullPoints (presentAfter earlier).toList p).length ≤ retainedPointsPerProvider) :
    Complete (indexAfter calls) (presentAfter calls) := by
  induction calls using List.reverseRecOn with
  | nil =>
    intro p e he
    simp [fullPoints, presentAfter] at he
  | append_singleton calls call ih =>
    have hc := ih fun earlier h ↦ hlimit earlier (h.trans (List.prefix_append calls [call]))
    have hlast := hlimit _ (List.prefix_refl _)
    have h := tracks_indexAfter calls
    rw [presentAfter_append] at hlast
    rw [indexAfter_append, presentAfter_append]
    cases call with
    | updateSession sessionKey session =>
      exact complete_update h hc sessionKey session (hlast session.harness)
    | removeSession sessionKey => exact complete_retract h hc sessionKey

/-! ### Snapshots -/

/-- After any sequence of calls, the snapshots built from the index are those of a
from-scratch aggregation over the present sessions in any order, provided that the times of
the present sessions are unambiguous and eviction has not reached any provider's newest
points. -/
theorem snapshots_indexAfter (calls : List IndexCall)
    (hd : DistinctTimes (presentAfter calls))
    (hr : ∀ p, RetainsNewest (indexAfter calls) (presentAfter calls) p)
    (entries : List (String × Session)) (hentries : entries.Perm (presentAfter calls).toList)
    (now : DateTime) (maxCacheAge : Duration) :
    (indexAfter calls).snapshots now maxCacheAge =
      quotaSnapshotsFromSessions (entries.map Prod.snd) now maxCacheAge := by
  have h := tracks_indexAfter calls
  refine congrArg (fun f ↦ List.mapM f ProviderRegistry.descriptors) (funext fun descriptor ↦ ?_)
  have hpoints := points_foldl_addSession (entries.map Prod.snd) ⟨∅, ∅⟩ descriptor.id
  have haccount := account_foldl_addSession (entries.map Prod.snd) ⟨∅, ∅⟩ descriptor.id
  have hflat : ((entries.map Prod.snd).flatMap fun session ↦
      if session.harness = descriptor.id then session.rateLimitsHistory else []) =
      (fullPoints entries descriptor.id).map Prod.snd := by
    rw [fullPoints, List.map_flatMap, List.flatMap_map]
    apply List.flatMap_congr
    intro e _
    split
    · exact (map_snd_keyedHistory e.1 _).symm
    · rfl
  have hsort : ((fullPoints entries descriptor.id).map Prod.snd).insertionSort timestampLe =
      (sortedPoints entries descriptor.id).map Prod.snd :=
    (List.map_insertionSort _ timestampLe Prod.snd _ fun _ _ _ _ ↦ Iff.rfl).symm
  simp only [ExtTreeMap.getElem?_empty, Option.getD_none, List.nil_append] at hpoints haccount
  rw [hpoints, haccount, hflat, hsort, account_eq h hentries hd,
    providerPoints_eq h hentries hd (hr descriptor.id)]

/-- One primary reading at an instant. -/
def readingAt (timestamp : DateTime) (usedPercent : Float) : RateLimitSnapshotPoint :=
  ⟨timestamp, none, none, some ⟨usedPercent, none, none⟩, none, none, 1⟩

/-- A Codex session with a rate-limit history. -/
def withReadings (id : String) (history : List RateLimitSnapshotPoint) : Session :=
  { Session.blank .codex id .epoch with rateLimitsHistory := history }

/-- A session with one reading at the epoch. -/
def oldSession : Session :=
  withReadings "old" [readingAt .epoch 10.0]

/-- A session which alone fills the retention limit with later readings. -/
def busySession : Session :=
  withReadings "busy" (List.replicate retainedPointsPerProvider
    (readingAt ⟨1, by decide, by decide⟩ 20.0))

/-- The old session is replaced, and another one comes and goes. -/
def rotatingCalls : List IndexCall :=
  [.updateSession "old" (withReadings "old" [readingAt ⟨2, by decide, by decide⟩ 5.0]),
    .updateSession "gone" (withReadings "gone" [readingAt ⟨3, by decide, by decide⟩ 30.0]),
    .updateSession "old" oldSession, .removeSession "gone"]

/-- The calls leave the old session alone in the index, and nothing is lost. -/
private structure HoldsOld (calls : List IndexCall) : Prop where
  present : (presentAfter calls).toList = [("old", oldSession)]
  complete : Complete (indexAfter calls) (presentAfter calls)

private theorem holdsOld_oldSession : HoldsOld [.updateSession "old" oldSession] := by
  refine ⟨rfl, complete_indexAfter _ ?_⟩
  intro earlier hearlier p
  have hbound : ∀ k ≤ 1, ((presentAfter ([.updateSession "old" oldSession].take k)).toList.map
      fun e ↦ e.2.rateLimitsHistory.length).sum ≤ retainedPointsPerProvider := by
    decide
  refine (length_fullPoints_le _ p).trans ?_
  rw [List.prefix_iff_eq_take.mp hearlier]
  exact hbound _ hearlier.length_le

private theorem holdsOld_rotatingCalls : HoldsOld rotatingCalls := by
  refine ⟨rfl, complete_indexAfter _ ?_⟩
  intro earlier hearlier p
  have hbound : ∀ k ≤ 4, ((presentAfter (rotatingCalls.take k)).toList.map
      fun e ↦ e.2.rateLimitsHistory.length).sum ≤ retainedPointsPerProvider := by
    decide
  refine (length_fullPoints_le _ p).trans ?_
  rw [List.prefix_iff_eq_take.mp hearlier]
  exact hbound _ hearlier.length_le

/-- The key of the old session's reading. -/
def oldKey : PointKey :=
  ⟨.epoch, "old", 0⟩

section HoldsOld

variable {calls : List IndexCall}

private theorem getElem?_presentAfter_old (hold : HoldsOld calls) {a : String} {s : Session}
    (h : (presentAfter calls)[a]? = some s) : a = "old" ∧ s = oldSession := by
  have hmem := ExtTreeMap.mem_toList_iff_getElem?_eq_some.mpr h
  rw [hold.present, List.mem_singleton, Prod.mk.injEq] at hmem
  exact hmem

private theorem eq_oldKey_of_mem (hold : HoldsOld calls) {p : ProviderId} {k : PointKey}
    {e : RateLimitSnapshotPoint} (h : (k, e) ∈ fullPoints (presentAfter calls).toList p) :
    k = oldKey := by
  rw [hold.present] at h
  simp only [fullPoints, List.flatMap_cons, List.flatMap_nil, List.append_nil] at h
  split at h
  · have hkeyed : keyedHistory "old" oldSession.rateLimitsHistory =
        [(oldKey, readingAt .epoch 10.0)] := rfl
    rw [hkeyed, List.mem_singleton, Prod.mk.injEq] at h
    exact h.1
  · contradiction

private theorem oldKey_mem_bucket (hold : HoldsOld calls) :
    oldKey ∈ (indexAfter calls).bucket .codex := by
  apply hold.complete .codex (oldKey, readingAt .epoch 10.0)
  rw [hold.present]
  exact List.mem_flatMap.mpr ⟨("old", oldSession), List.mem_cons_self, List.mem_cons_self⟩

private theorem timestamp_of_mem_busyKeys {k : PointKey}
    (h : k ∈ (keyedHistory "busy" busySession.rateLimitsHistory).map Prod.fst) :
    k.timestamp.nanos = 1 := by
  obtain ⟨e, he, rfl⟩ := List.mem_map.mp h
  obtain ⟨hmem, htime⟩ := mem_keyedHistory he
  rw [htime, List.eq_of_mem_replicate hmem]
  rfl

private theorem oldKey_lt_of_mem_busyKeys {k : PointKey}
    (h : k ∈ (keyedHistory "busy" busySession.rateLimitsHistory).map Prod.fst) :
    compare oldKey k = .lt := by
  have hlt : oldKey.timestamp < k.timestamp := by
    rw [DateTime.lt_iff, timestamp_of_mem_busyKeys h]
    decide
  rw [PointKey.compare_eq, compare_lt_iff_lt.mpr hlt]
  rfl

private theorem length_busyKeys :
    ((keyedHistory "busy" busySession.rateLimitsHistory).map Prod.fst).length =
      retainedPointsPerProvider := by
  rw [List.length_map, keyedHistory, List.length_map, List.length_zipIdx]
  exact List.length_replicate

private theorem nodup_busyKeys :
    ((keyedHistory "busy" busySession.rateLimitsHistory).map Prod.fst).Nodup := by
  have hlength : busySession.rateLimitsHistory.length = retainedPointsPerProvider :=
    List.length_replicate
  rw [List.Nodup, List.pairwise_map]
  apply (pairwise_keyedHistory "busy" (by rw [hlength]; decide)).imp
  intro a b hseq heq
  rw [heq] at hseq
  exact lt_irrefl _ hseq

/-- The bucket just before the busy session's points are capped. -/
def crowdedBucket (calls : List IndexCall) : ProviderPoints :=
  ((indexAfter calls).retract "busy").withPoints "busy" busySession .codex

private theorem mem_crowdedBucket (hold : HoldsOld calls) {k : PointKey} :
    k ∈ crowdedBucket calls ↔ k = oldKey ∨
      k ∈ (keyedHistory "busy" busySession.rateLimitsHistory).map Prod.fst := by
  have htracks := tracks_indexAfter calls
  have hbucket : k ∈ ((indexAfter calls).retract "busy").bucket .codex ↔ k = oldKey := by
    rw [ExtTreeMap.mem_iff_isSome_getElem?, htracks.getElem?_bucket_retract]
    constructor
    · intro h
      split at h
      · contradiction
      obtain ⟨v, hv⟩ := Option.isSome_iff_exists.mp h
      obtain ⟨s, hs, hp, hmem⟩ := htracks.held _ k v hv
      exact eq_oldKey_of_mem hold ((mem_fullPoints (List.Perm.refl _)).mpr ⟨s, hs, hp, hmem⟩)
    · rintro rfl
      rw [if_neg (by decide)]
      exact ExtTreeMap.mem_iff_isSome_getElem?.mp (oldKey_mem_bucket hold)
  rw [crowdedBucket, mem_withPoints, hbucket]
  exact or_congr_right (and_iff_right rfl)

private theorem minKey?_crowdedBucket (hold : HoldsOld calls) :
    (crowdedBucket calls).minKey? = some oldKey := by
  rw [ExtTreeMap.minKey?_eq_some_iff_mem_and_forall]
  refine ⟨(mem_crowdedBucket hold).mpr (Or.inl rfl), fun k hk ↦ ?_⟩
  obtain rfl | hbusy := (mem_crowdedBucket hold).mp hk
  · simp
  · rw [oldKey_lt_of_mem_busyKeys hbusy]
    rfl

private theorem size_crowdedBucket (hold : HoldsOld calls) :
    (crowdedBucket calls).size = retainedPointsPerProvider + 1 := by
  have hnodup : (oldKey :: (keyedHistory "busy" busySession.rateLimitsHistory).map
      Prod.fst).Nodup := by
    rw [List.nodup_cons]
    exact ⟨fun h ↦ absurd (sessionKey_of_mem_keys h) (by decide), nodup_busyKeys⟩
  have hlower := OrderedMap.length_le_size (m := crowdedBucket calls) hnodup fun k hk ↦
    (mem_crowdedBucket hold).mpr (List.mem_cons.mp hk)
  have hupper := OrderedMap.size_le_length (m := crowdedBucket calls) fun k hk ↦
    List.mem_cons.mpr ((mem_crowdedBucket hold).mp hk)
  rw [List.length_cons, length_busyKeys] at hlower hupper
  exact le_antisymm hupper hlower

/-- The busy session pushes out the old reading, and nothing else. -/
private theorem evictedByUpdate_busySession (hold : HoldsOld calls) :
    ((indexAfter calls).retract "busy").evictedByUpdate "busy" busySession = [oldKey] := by
  have hlength : busySession.rateLimitsHistory.length = retainedPointsPerProvider :=
    List.length_replicate
  have hnonempty : ¬ busySession.rateLimitsHistory.isEmpty = true := by
    rw [List.isEmpty_iff, ← List.length_eq_zero_iff, hlength]
    decide
  have hpopped : evictedKeys retainedPointsPerProvider (crowdedBucket calls) = [oldKey] := by
    rw [evictedKeys, size_crowdedBucket hold, Nat.add_sub_cancel_left,
      OrderedMap.popFirst_of_minKey?_some (minKey?_crowdedBucket hold)]
    rfl
  rw [evictedByUpdate, if_neg hnonempty]
  exact hpopped

private theorem getElem?_bucket_busySession (hold : HoldsOld calls) (p : ProviderId)
    (k : PointKey) :
    ((indexAfter (calls ++ [.updateSession "busy" busySession])).bucket p)[k]? =
      if p = .codex ∧ k = oldKey then none
      else (((indexAfter calls).retract "busy").withPoints "busy" busySession p)[k]? := by
  rw [indexAfter_append, IndexCall.apply,
    (updates_updateSession (indexAfter calls) "busy" busySession).bucket,
    evictedByUpdate_busySession hold]
  simp only [List.mem_singleton]
  rfl

private theorem getElem?_presentAfter_busySession (hold : HoldsOld calls) {a : String}
    {s : Session}
    (h : (presentAfter (calls ++ [.updateSession "busy" busySession]))[a]? = some s) :
    a = "busy" ∧ s = busySession ∨ a = "old" ∧ s = oldSession := by
  rw [presentAfter_append, IndexCall.applyPresent, ExtTreeMap.getElem?_insert] at h
  split at h
  · next heq =>
    exact .inl ⟨(Std.LawfulEqCmp.eq_of_compare heq).symm, (Option.some.inj h).symm⟩
  · exact .inr (getElem?_presentAfter_old hold h)

private theorem mem_fullPoints_busySession (hold : HoldsOld calls) {p : ProviderId}
    {e : PointKey × RateLimitSnapshotPoint}
    (h : e ∈ fullPoints
      (presentAfter (calls ++ [.updateSession "busy" busySession])).toList p) :
    p = .codex ∧ (e.1 = oldKey ∨
      e.1 ∈ (keyedHistory "busy" busySession.rateLimitsHistory).map Prod.fst) := by
  obtain ⟨s, hs, rfl, hmem⟩ := (mem_fullPoints (List.Perm.refl _)).mp h
  obtain ⟨hkey, rfl⟩ | ⟨hkey, rfl⟩ := getElem?_presentAfter_busySession hold hs
  · rw [hkey] at hmem
    exact ⟨rfl, .inr (List.mem_map_of_mem hmem)⟩
  · have hkeyed : keyedHistory "old" oldSession.rateLimitsHistory =
        [(oldKey, readingAt .epoch 10.0)] := rfl
    rw [hkey, hkeyed, List.mem_singleton] at hmem
    exact ⟨rfl, .inl (congrArg Prod.fst hmem)⟩

private theorem mem_bucket_of_mem_busyKeys (hold : HoldsOld calls) {k : PointKey}
    (h : k ∈ (keyedHistory "busy" busySession.rateLimitsHistory).map Prod.fst) :
    k ∈ (indexAfter (calls ++ [.updateSession "busy" busySession])).bucket .codex := by
  have hne : k ≠ oldKey := by
    rintro rfl
    exact absurd (sessionKey_of_mem_keys h) (by decide)
  rw [ExtTreeMap.mem_iff_isSome_getElem?, getElem?_bucket_busySession hold,
    if_neg fun hold ↦ hne hold.2, ← ExtTreeMap.mem_iff_isSome_getElem?]
  exact (mem_crowdedBucket hold).mpr (.inr h)

/-- Behind the evicted reading, the busy session's readings are all held. -/
private theorem retainsNewest_busySession (hold : HoldsOld calls) (p : ProviderId) :
    RetainsNewest (indexAfter (calls ++ [.updateSession "busy" busySession]))
      (presentAfter (calls ++ [.updateSession "busy" busySession])) p := by
  rintro ⟨m, hm, -⟩
  obtain ⟨rfl, -⟩ := mem_fullPoints_busySession hold hm
  have hsubset : (keyedHistory "busy" busySession.rateLimitsHistory).map Prod.fst ⊆
      ((((indexAfter (calls ++ [.updateSession "busy" busySession])).bucket .codex).toList.filter
        fun e ↦ (fullPoints (presentAfter
            (calls ++ [.updateSession "busy" busySession])).toList .codex).all fun m ↦
          ((indexAfter (calls ++ [.updateSession "busy" busySession])).bucket .codex).contains m.1
            || compare m.1 e.1 == .lt).map Prod.fst) := by
    intro k hk
    obtain ⟨v, hv⟩ := Option.isSome_iff_exists.mp
      (ExtTreeMap.mem_iff_isSome_getElem?.mp (mem_bucket_of_mem_busyKeys hold hk))
    refine List.mem_map.mpr ⟨(k, v), List.mem_filter.mpr
      ⟨ExtTreeMap.mem_toList_iff_getElem?_eq_some.mpr hv, List.all_eq_true.mpr ?_⟩, rfl⟩
    intro e he
    rw [Bool.or_eq_true]
    obtain heq | hbusy := (mem_fullPoints_busySession hold he).2
    · exact .inr (by rw [heq, oldKey_lt_of_mem_busyKeys hk]; rfl)
    · exact .inl (ExtTreeMap.mem_iff_contains.mp (mem_bucket_of_mem_busyKeys hold hbusy))
  have hlength := (nodup_busyKeys.subperm hsubset).length_le
  rw [length_busyKeys, List.length_map] at hlength
  exact le_trans (by decide) hlength

private theorem toList_presentAfter_rotatingCalls (session : Session) :
    (presentAfter (rotatingCalls ++ [.updateSession "busy" session])).toList =
      [("busy", session), ("old", oldSession)] :=
  rfl

private theorem distinctTimes_busySession (hold : HoldsOld calls) :
    DistinctTimes (presentAfter (calls ++ [.updateSession "busy" busySession])) := by
  have hlength : busySession.rateLimitsHistory.length = retainedPointsPerProvider :=
    List.length_replicate
  have hbusy : ∀ q ∈ busySession.rateLimitsHistory, q.timestamp.nanos = 1 := by
    intro q hq
    rw [List.eq_of_mem_replicate hq]
    rfl
  have hold' : ∀ q ∈ oldSession.rateLimitsHistory, q.timestamp.nanos = 0 := by decide
  refine ⟨?_, ?_, ?_⟩
  · intro a b s t hs ht hne q hq q' hq' heq
    have hnanos := congrArg DateTime.nanos heq
    obtain ⟨rfl, rfl⟩ | ⟨rfl, rfl⟩ := getElem?_presentAfter_busySession hold hs <;>
      obtain ⟨rfl, rfl⟩ | ⟨rfl, rfl⟩ := getElem?_presentAfter_busySession hold ht
    · exact hne rfl
    · rw [hbusy q hq, hold' q' hq'] at hnanos
      exact absurd hnanos (by decide)
    · rw [hold' q hq, hbusy q' hq'] at hnanos
      exact absurd hnanos (by decide)
    · exact hne rfl
  · intro a b s t hs _ _ _ hcredit
    have hnone : ∀ id history, (creditCandidate (withReadings id history)).isSome = false :=
      fun _ _ ↦ rfl
    obtain ⟨-, rfl⟩ | ⟨-, rfl⟩ := getElem?_presentAfter_busySession hold hs
    · exact absurd (hcredit.symm.trans (hnone _ _)) Bool.noConfusion
    · exact absurd (hcredit.symm.trans (hnone _ _)) Bool.noConfusion
  · intro a s hs
    obtain ⟨-, rfl⟩ | ⟨-, rfl⟩ := getElem?_presentAfter_busySession hold hs
    · rw [hlength]
      decide
    · decide

end HoldsOld

/-- A replacement, a removal and an update which evicts the reading of another session: the
snapshots are still those of the two present sessions. -/
theorem snapshots_indexAfter_rotatingCalls :
    oldKey ∉ (indexAfter (rotatingCalls ++ [.updateSession "busy" busySession])).bucket .codex ∧
    (indexAfter (rotatingCalls ++ [.updateSession "busy" busySession])).snapshots .epoch ⟨0⟩ =
      quotaSnapshotsFromSessions [oldSession, busySession] .epoch ⟨0⟩ := by
  have hentries : [("old", oldSession), ("busy", busySession)].Perm
      (presentAfter (rotatingCalls ++ [.updateSession "busy" busySession])).toList := by
    rw [toList_presentAfter_rotatingCalls]
    exact List.Perm.swap _ _ _
  have hdistinct := distinctTimes_busySession holdsOld_rotatingCalls
  have hretains := retainsNewest_busySession holdsOld_rotatingCalls
  refine ⟨?_, snapshots_indexAfter _ hdistinct hretains _ hentries .epoch ⟨0⟩⟩
  rw [ExtTreeMap.mem_iff_isSome_getElem?, getElem?_bucket_busySession holdsOld_rotatingCalls,
    if_pos ⟨rfl, rfl⟩]
  exact Bool.false_ne_true

/-! ### Eviction reaches behind a removed session -/

/-- The index agrees with the from-scratch aggregation whatever was evicted. -/
def AlwaysAgrees (calls : List IndexCall) : Prop :=
  ∀ entries : List (String × Session), entries.Perm (presentAfter calls).toList →
    ∀ now maxCacheAge, (indexAfter calls).snapshots now maxCacheAge =
      quotaSnapshotsFromSessions (entries.map Prod.snd) now maxCacheAge

/-- The busy session evicts the old one's only reading and is removed again. -/
def evictingCalls : List IndexCall :=
  [.updateSession "old" oldSession] ++ [.updateSession "busy" busySession] ++
    [.removeSession "busy"]

private theorem presentAfter_evictingCalls :
    presentAfter evictingCalls = presentAfter [.updateSession "old" oldSession] := by
  apply ExtTreeMap.ext_getElem?
  intro k
  rw [evictingCalls, presentAfter_append, presentAfter_append]
  simp only [IndexCall.applyPresent, ExtTreeMap.getElem?_erase, ExtTreeMap.getElem?_insert,
    Std.compare_eq_iff_eq]
  by_cases hk : "busy" = k
  · have habsent : "busy" ∉ presentAfter [.updateSession "old" oldSession] := by decide
    simp [← hk, habsent]
  · simp [hk]

private theorem getElem?_oldKey_evictingCalls :
    ((indexAfter evictingCalls).bucket .codex)[oldKey]? = none := by
  have hbusy := tracks_indexAfter
    ([.updateSession "old" oldSession] ++ [.updateSession "busy" busySession])
  rw [evictingCalls, indexAfter_append, IndexCall.apply, removeSession,
    hbusy.getElem?_bucket_retract, if_neg (by decide), indexAfter_append, IndexCall.apply,
    (updates_updateSession _ "busy" busySession).bucket,
    evictedByUpdate_busySession holdsOld_oldSession]
  exact if_pos ⟨rfl, List.mem_singleton_self _⟩

/-- After the busy session is gone, the index holds no Codex point at all. -/
private theorem bucket_evictingCalls : (indexAfter evictingCalls).bucket .codex = ∅ := by
  apply ExtTreeMap.ext_getElem?
  intro k
  rw [ExtTreeMap.getElem?_empty]
  cases hv : ((indexAfter evictingCalls).bucket .codex)[k]? with
  | none => rfl
  | some v =>
    obtain ⟨s, hs, hp, hmem⟩ := (tracks_indexAfter evictingCalls).held _ k v hv
    rw [presentAfter_evictingCalls] at hs
    have hk := eq_oldKey_of_mem holdsOld_oldSession
      ((mem_fullPoints (List.Perm.refl _)).mpr ⟨s, hs, hp, hmem⟩)
    rw [hk, getElem?_oldKey_evictingCalls] at hv
    contradiction

/-- The head of a list of snapshots reports no observation. -/
def headUnobserved (snapshots : Option (List QuotaSnapshot)) : Bool :=
  (snapshots.bind List.head?).any fun s ↦ s.unavailable == some .noObservation

private theorem headUnobserved_evictingCalls :
    headUnobserved ((indexAfter evictingCalls).snapshots .epoch ⟨0⟩) = true := by
  have haccounts : (indexAfter evictingCalls).accountBucket .codex = ∅ := by
    apply ExtTreeMap.ext_getElem?
    rintro ⟨t, sk⟩
    rw [ExtTreeMap.getElem?_empty]
    cases ha : ((indexAfter evictingCalls).accountBucket .codex)[(t, sk)]? with
    | none => rfl
    | some a =>
      obtain ⟨s, hs, -, -, hcredit⟩ :=
        ((tracks_indexAfter evictingCalls).accounts .codex t sk a).mp ha
      rw [presentAfter_evictingCalls] at hs
      rw [(getElem?_presentAfter_old holdsOld_oldSession hs).2] at hcredit
      simp [creditCandidate, oldSession, withReadings, Session.blank] at hcredit
  have hpoints : (indexAfter evictingCalls).providerPoints .codex = [] := by
    rw [providerPoints, bucket_evictingCalls]
    rfl
  have hunobserved : buildQuotaSnapshot .codex true [] .empty .epoch ⟨0⟩ =
      some ⟨.codex, .transcriptDerived, [], some .noObservation⟩ := by
    decide +kernel
  have haccount : ((indexAfter evictingCalls).accountBucket .codex).toList.getLast? = none := by
    rw [haccounts]
    rfl
  simp [snapshots, ProviderRegistry.descriptors, hpoints, haccount, hunobserved,
    buildQuotaSnapshot_unsupported, headUnobserved]

private theorem not_alwaysAgrees_evictingCalls : ¬ AlwaysAgrees evictingCalls := by
  intro hagrees
  have hentries : [("old", oldSession)].Perm (presentAfter evictingCalls).toList := by
    rw [presentAfter_evictingCalls]
    exact List.Perm.refl _
  have h := congrArg headUnobserved (hagrees [("old", oldSession)] hentries .epoch ⟨0⟩)
  rw [headUnobserved_evictingCalls] at h
  exact absurd h (by decide +kernel)

/-- A session which reports a credit balance and no rate limits. -/
def withCredits (id : String) (balance : Float) : Session :=
  { Session.blank .codex id .epoch with creditsBalance := some balance }

/-- Two balances observed at the same instant. -/
def tiedCalls : List IndexCall :=
  [.updateSession "a" (withCredits "a" 1.0), .updateSession "b" (withCredits "b" 2.0)]

private theorem not_alwaysAgrees_tiedCalls : ¬ AlwaysAgrees tiedCalls := by
  intro hagrees
  have h := hagrees [("a", withCredits "a" 1.0), ("b", withCredits "b" 2.0)]
    (List.Perm.refl _) .epoch ⟨0⟩
  exact absurd h (by decide +kernel)

/-- Distinct rate-limit timestamps do not suffice. Eviction is not undone when the session
which caused it goes away: the index then reports no observation where a from-scratch
aggregation reports the old session's window. And of two credit balances observed at one
instant the index keeps the one with the greater key, the aggregation the first one. -/
theorem distinct_timestamps_do_not_suffice :
    (TimestampsDistinct (presentAfter evictingCalls) ∧ ¬ AlwaysAgrees evictingCalls) ∧
    (TimestampsDistinct (presentAfter tiedCalls) ∧ ¬ AlwaysAgrees tiedCalls) := by
  refine ⟨⟨?_, not_alwaysAgrees_evictingCalls⟩, ?_, not_alwaysAgrees_tiedCalls⟩
  · rw [presentAfter_evictingCalls]
    intro a b s t hs ht hne
    exact absurd ((getElem?_presentAfter_old holdsOld_oldSession hs).1.trans
      (getElem?_presentAfter_old holdsOld_oldSession ht).1.symm) hne
  · intro a b s t hs _ _ p hp
    have hmem := ExtTreeMap.mem_toList_iff_getElem?_eq_some.mpr hs
    have hlist : (presentAfter tiedCalls).toList =
        [("a", withCredits "a" 1.0), ("b", withCredits "b" 2.0)] := rfl
    simp only [hlist, List.mem_cons, Prod.mk.injEq, List.not_mem_nil, or_false] at hmem
    obtain ⟨-, rfl⟩ | ⟨-, rfl⟩ := hmem <;> simp [withCredits, Session.blank] at hp

end AgentOdometer.Quota
