import AgentOdometer.Quota.PointsIndex
import Mathlib.Data.List.Induction

/-!
# What the points index tracks

Every held point belongs to the current history of a present session, every held key is
claimed by its owner's contribution, and the credit observations are exactly those of the
present sessions. One lemma per operation; `tracks_indexAfter` is the run.
-/

namespace AgentOdometer.Quota

open Std (ExtTreeMap)
open OrderedMap (popFirst)

namespace QuotaPointsIndex

variable {index : QuotaPointsIndex} {present : ExtTreeMap String Session}
variable {sessionKey : String} {session : Session}

/-- The index tracks a set of present sessions. -/
structure Tracks (index : QuotaPointsIndex) (present : ExtTreeMap String Session) : Prop where
  held : ∀ p (k : PointKey) v, (index.bucket p)[k]? = some v →
    ∃ s, present[k.sessionKey]? = some s ∧
    s.harness = p ∧ (k, v) ∈ keyedHistory k.sessionKey s.rateLimitsHistory
  claimed : ∀ p (k : PointKey), k ∈ index.bucket p →
    ∃ c, index.contributions[k.sessionKey]? = some c ∧
    c.provider = p ∧ k ∈ c.pointKeys
  accounts : ∀ p (t : DateTime) (sk : String) a, (index.accountBucket p)[(t, sk)]? = some a ↔
    ∃ s, present[sk]? = some s ∧ s.harness = p ∧ s.lastEventAt = t ∧ creditCandidate s = some a
  accountClaimed : ∀ p (t : DateTime) (sk : String), (t, sk) ∈ index.accountBucket p →
    ∃ c, index.contributions[sk]? = some c ∧ c.provider = p ∧ c.accountKey = some (t, sk)
  ownPoints : ∀ (sk : String) c, index.contributions[sk]? = some c →
    ∀ k ∈ c.pointKeys, k.sessionKey = sk
  ownAccount : ∀ (sk : String) c key, index.contributions[sk]? = some c → c.accountKey = some key →
    key.2 = sk

/-! ### Small maps -/

theorem getElem?_eraseKeys (b : ProviderPoints) (keys : List PointKey) (k : PointKey) :
    (eraseKeys b keys)[k]? = if k ∈ keys then none else b[k]? := by
  induction keys generalizing b with
  | nil => simp [eraseKeys]
  | cons key keys ih =>
    rw [eraseKeys, List.foldl_cons, ← eraseKeys, ih, ExtTreeMap.getElem?_erase]
    by_cases h : k = key
    · simp [h]
    · have h' : ¬ key = k := fun e ↦ h e.symm
      simp [h, h']

theorem mem_insertPoints (b : ProviderPoints)
    (keyed : List (PointKey × RateLimitSnapshotPoint)) (k : PointKey) :
    k ∈ insertPoints b keyed ↔ k ∈ b ∨ k ∈ keyed.map Prod.fst := by
  induction keyed generalizing b with
  | nil => simp [insertPoints]
  | cons e keyed ih =>
    rw [insertPoints, List.foldl_cons, ← insertPoints, ih, ExtTreeMap.mem_insert]
    simp only [Std.compare_eq_iff_eq, List.map_cons, List.mem_cons]
    rw [eq_comm (a := e.1), or_assoc, or_left_comm]

theorem getElem?_insertPoints (b : ProviderPoints)
    (keyed : List (PointKey × RateLimitSnapshotPoint)) {k : PointKey}
    {v : RateLimitSnapshotPoint} (h : (insertPoints b keyed)[k]? = some v) :
    (k, v) ∈ keyed ∨ (b[k]? = some v ∧ k ∉ keyed.map Prod.fst) := by
  induction keyed generalizing b with
  | nil => exact Or.inr ⟨h, by simp⟩
  | cons e keyed ih =>
    obtain hmem | ⟨hget, hfresh⟩ := ih _ h
    · exact Or.inl (List.mem_cons_of_mem e hmem)
    · rw [ExtTreeMap.getElem?_insert] at hget
      split at hget
      · next heq =>
        have hk : e.1 = k := Std.LawfulEqCmp.eq_of_compare heq
        have hv : e.2 = v := by simpa using hget
        exact Or.inl (by simp [← hk, ← hv])
      · next hne =>
        have hk : k ≠ e.1 := by
          rintro rfl
          simp at hne
        exact Or.inr ⟨hget, by simp only [List.map_cons, List.mem_cons]; tauto⟩

theorem sessionKey_of_mem_keyedHistory {sk : String} {history : List RateLimitSnapshotPoint}
    {e : PointKey × RateLimitSnapshotPoint} (h : e ∈ keyedHistory sk history) :
    e.1.sessionKey = sk := by
  simp only [keyedHistory, List.mem_map] at h
  obtain ⟨⟨point, seq⟩, -, rfl⟩ := h
  rfl

/-! ### Retraction -/

theorem contributions_retract (index : QuotaPointsIndex) (sessionKey sk : String) :
    (index.retract sessionKey).contributions[sk]? =
      if sk = sessionKey then none else index.contributions[sk]? := by
  unfold retract
  cases hc : index.contributions[sessionKey]? with
  | none =>
    by_cases h : sk = sessionKey
    · simp [h, hc]
    · simp [h]
  | some c =>
    simp only [ExtTreeMap.getElem?_erase, Std.compare_eq_iff_eq]
    by_cases h : sk = sessionKey
    · simp [h]
    · simp [h, Ne.symm h]

private theorem getElem?_bucket_retract (index : QuotaPointsIndex) (sessionKey : String)
    (p : ProviderId) (k : PointKey) :
    ((index.retract sessionKey).bucket p)[k]? =
      if index.contributions[sessionKey]?.any fun c ↦ c.provider == p && c.pointKeys.contains k
      then none else (index.bucket p)[k]? := by
  unfold retract
  cases hc : index.contributions[sessionKey]? with
  | none => simp
  | some c =>
    simp only [bucket, ExtTreeMap.getElem?_modify, Std.compare_eq_iff_eq, Option.any_some]
    by_cases hp : c.provider = p
    · subst hp
      cases index.points[c.provider]? with
      | none => simp
      | some b => simp [getElem?_eraseKeys]
    · simp [hp]

private theorem getElem?_accountBucket_retract (index : QuotaPointsIndex)
    (sessionKey : String) (p : ProviderId) (key : DateTime × String) :
    ((index.retract sessionKey).accountBucket p)[key]? =
      if index.contributions[sessionKey]?.any fun c ↦
        c.provider == p && c.accountKey == some key
      then none else (index.accountBucket p)[key]? := by
  unfold retract
  cases hc : index.contributions[sessionKey]? with
  | none => simp
  | some c =>
    cases hkey : c.accountKey with
    | none => simp [accountBucket, hkey]
    | some key' =>
      simp only [accountBucket, hkey, ExtTreeMap.getElem?_modify, Std.compare_eq_iff_eq,
        Option.any_some]
      by_cases hp : c.provider = p
      · subst hp
        cases index.accounts[c.provider]? with
        | none => simp
        | some b => simp [ExtTreeMap.getElem?_erase]
      · simp [hp]

/-- Retraction removes exactly the session's own points. -/
theorem Tracks.getElem?_bucket_retract (h : Tracks index present) (sessionKey : String)
    (p : ProviderId) (k : PointKey) :
    ((index.retract sessionKey).bucket p)[k]? =
      if k.sessionKey = sessionKey then none else (index.bucket p)[k]? := by
  rw [QuotaPointsIndex.getElem?_bucket_retract]
  by_cases hk : k.sessionKey = sessionKey
  · rw [if_pos hk]
    split
    · rfl
    · next hunclaimed =>
      rw [Std.ExtTreeMap.getElem?_eq_none]
      intro hmem
      obtain ⟨c, hc, hp, hclaim⟩ := h.claimed p k hmem
      rw [hk] at hc
      exact hunclaimed (by simp [hc, hp, hclaim])
  · rw [if_neg hk, if_neg]
    simp only [Option.any_eq_true, Bool.and_eq_true, List.contains_iff_mem]
    rintro ⟨c, hc, -, hmem⟩
    exact hk (h.ownPoints _ c hc k hmem)

/-- Retraction removes exactly the session's own credit observation. -/
theorem Tracks.getElem?_accountBucket_retract (h : Tracks index present) (sessionKey : String)
    (p : ProviderId) (t : DateTime) (sk : String) :
    ((index.retract sessionKey).accountBucket p)[(t, sk)]? =
      if sk = sessionKey then none else (index.accountBucket p)[(t, sk)]? := by
  rw [QuotaPointsIndex.getElem?_accountBucket_retract]
  by_cases hsk : sk = sessionKey
  · subst hsk
    rw [if_pos rfl]
    split
    · rfl
    · next hunclaimed =>
      rw [Std.ExtTreeMap.getElem?_eq_none]
      intro hmem
      obtain ⟨c, hc, hp, hkey⟩ := h.accountClaimed p t sk hmem
      exact hunclaimed (by simp [hc, hp, hkey])
  · rw [if_neg hsk, if_neg]
    simp only [Option.any_eq_true, Bool.and_eq_true, beq_iff_eq]
    rintro ⟨c, hc, -, hkey⟩
    exact hsk (h.ownAccount _ c _ hc hkey)

/-- Retracting a session leaves the index tracking the others. -/
theorem tracks_retract (h : Tracks index present) (sessionKey : String) :
    Tracks (index.retract sessionKey) (present.erase sessionKey) where
  held p k v hv := by
    rw [h.getElem?_bucket_retract] at hv
    split at hv
    · contradiction
    · next hk =>
      obtain ⟨s, hs, hrest⟩ := h.held p k v hv
      refine ⟨s, ?_, hrest⟩
      rw [ExtTreeMap.getElem?_erase]
      simpa [Ne.symm hk] using hs
  claimed p k hk := by
    rw [ExtTreeMap.mem_iff_isSome_getElem?, h.getElem?_bucket_retract] at hk
    split at hk
    · contradiction
    · next hne =>
      obtain ⟨c, hc, hrest⟩ := h.claimed p k (ExtTreeMap.mem_iff_isSome_getElem?.mpr hk)
      exact ⟨c, by rw [contributions_retract, if_neg hne, hc], hrest⟩
  accounts p t sk a := by
    rw [h.getElem?_accountBucket_retract, ExtTreeMap.getElem?_erase]
    by_cases hsk : sk = sessionKey
    · simp [hsk]
    · simp [hsk, Ne.symm hsk, h.accounts]
  accountClaimed p t sk hmem := by
    rw [ExtTreeMap.mem_iff_isSome_getElem?, h.getElem?_accountBucket_retract] at hmem
    split at hmem
    · contradiction
    · next hne =>
      obtain ⟨c, hc, hrest⟩ :=
        h.accountClaimed p t sk (ExtTreeMap.mem_iff_isSome_getElem?.mpr hmem)
      exact ⟨c, by rw [contributions_retract, if_neg hne, hc], hrest⟩
  ownPoints sk c hc := by
    rw [contributions_retract] at hc
    split at hc
    · contradiction
    · exact h.ownPoints sk c hc
  ownAccount sk c key hc := by
    rw [contributions_retract] at hc
    split at hc
    · contradiction
    · exact h.ownAccount sk c key hc

/-! ### Eviction -/

/-- Claims after an eviction: contributions keep their provider and account, no claim grows,
and only evicted keys leave one. The second component is the list of the session being
updated, which is not stored yet. -/
structure Prunes (evicted : List PointKey)
    (s t : ExtTreeMap String SessionContribution × List PointKey) : Prop where
  kept : ∀ (sk : String) c, s.1[sk]? = some c → ∃ c', t.1[sk]? = some c' ∧
    c'.provider = c.provider ∧ c'.accountKey = c.accountKey ∧ c'.pointKeys ⊆ c.pointKeys ∧
    ∀ k ∈ c.pointKeys, k ∉ evicted → k ∈ c'.pointKeys
  absent : ∀ (sk : String), s.1[sk]? = none → t.1[sk]? = none
  localSubset : t.2 ⊆ s.2
  localKept : ∀ k ∈ s.2, k ∉ evicted → k ∈ t.2

theorem Prunes.refl {evicted : List PointKey}
    (s : ExtTreeMap String SessionContribution × List PointKey) : Prunes evicted s s where
  kept _ c hc := ⟨c, hc, rfl, rfl, List.Subset.refl _, fun _ hk _ ↦ hk⟩
  absent _ h := h
  localSubset := List.Subset.refl _
  localKept _ hk _ := hk

theorem Prunes.trans {evicted : List PointKey}
    {s t u : ExtTreeMap String SessionContribution × List PointKey}
    (hst : Prunes evicted s t) (htu : Prunes evicted t u) : Prunes evicted s u where
  kept sk c hc := by
    obtain ⟨c', hc', hp', ha', hsub', hkeep'⟩ := hst.kept sk c hc
    obtain ⟨c'', hc'', hp'', ha'', hsub'', hkeep''⟩ := htu.kept sk c' hc'
    exact ⟨c'', hc'', hp''.trans hp', ha''.trans ha', fun _ hk ↦ hsub' (hsub'' hk),
      fun k hk hne ↦ hkeep'' k (hkeep' k hk hne) hne⟩
  absent sk h := htu.absent sk (hst.absent sk h)
  localSubset := fun _ hk ↦ hst.localSubset (htu.localSubset hk)
  localKept k hk hne := htu.localKept k (hst.localKept k hk hne) hne

private theorem prunes_pruneOwner {evicted : List PointKey} {owned : String × List PointKey}
    (howned : owned.2 ⊆ evicted)
    (s : ExtTreeMap String SessionContribution × List PointKey) :
    Prunes evicted s (pruneOwner sessionKey s owned) := by
  unfold pruneOwner
  split
  · have hrefl : Prunes evicted s s := Prunes.refl s
    refine ⟨hrefl.kept, hrefl.absent, List.filter_sublist.subset, ?_⟩
    intro k hk hne
    have hfree : k ∉ owned.2 := fun h ↦ hne (howned h)
    simp [List.mem_filter, hk, hfree]
  · refine ⟨?_, ?_, List.Subset.refl _, fun _ hk _ ↦ hk⟩
    · intro sk c hc
      simp only [ExtTreeMap.getElem?_modify, Std.compare_eq_iff_eq]
      split
      · next heq =>
        subst heq
        refine ⟨c.retain owned.2, by simp [hc], rfl, rfl, List.filter_sublist.subset, ?_⟩
        intro k hk hne
        have hfree : k ∉ owned.2 := fun h ↦ hne (howned h)
        simp [SessionContribution.retain, hk, hfree]
      · exact (Prunes.refl s).kept sk c hc
    · intro sk hsk
      simp only [ExtTreeMap.getElem?_modify, Std.compare_eq_iff_eq]
      split
      · next heq =>
        subst heq
        simp [hsk]
      · exact hsk

private theorem prunes_foldl {evicted : List PointKey} (owners : List (String × List PointKey))
    (howners : ∀ o ∈ owners, o.2 ⊆ evicted)
    (s : ExtTreeMap String SessionContribution × List PointKey) :
    Prunes evicted s (owners.foldl (pruneOwner sessionKey) s) := by
  induction owners generalizing s with
  | nil => exact Prunes.refl s
  | cons o owners ih =>
    exact (prunes_pruneOwner (howners o List.mem_cons_self) s).trans
      (ih (fun o' ho' ↦ howners o' (List.mem_cons_of_mem o ho')) _)

private theorem evictedByOwner_subset (evicted : List PointKey) :
    ∀ o ∈ (evictedByOwner evicted).toList, o.2 ⊆ evicted := by
  have hfold : ∀ (keys : List PointKey) (m : ExtTreeMap String (List PointKey)),
      (∀ (o : String) ks, m[o]? = some ks → ks ⊆ evicted) → keys ⊆ evicted →
      ∀ (o : String) ks, (keys.foldl (fun m key ↦ m.alter key.sessionKey
        fun keys ↦ some (keys.getD [] ++ [key])) m)[o]? = some ks → ks ⊆ evicted := by
    intro keys
    induction keys with
    | nil => exact fun m hm _ ↦ hm
    | cons key keys ih =>
      intro m hm hkeys
      apply ih
      · intro o ks hks
        rw [ExtTreeMap.getElem?_alter] at hks
        split at hks
        · next heq =>
          rw [Option.some.injEq] at hks
          subst hks
          rw [List.append_subset]
          refine ⟨?_, by simpa using hkeys List.mem_cons_self⟩
          cases hold : m[key.sessionKey]? with
          | none => simp
          | some old => exact hm _ old hold
        · exact hm o ks hks
      · exact fun k hk ↦ hkeys (List.mem_cons_of_mem key hk)
  rintro ⟨o, ks⟩ ho
  rw [ExtTreeMap.mem_toList_iff_getElem?_eq_some] at ho
  exact hfold evicted ∅ (by simp) (List.Subset.refl _) o ks ho

/-- The keys popped from a bucket which exceeds a limit. -/
def evictedKeys (limit : Nat) (b : ProviderPoints) : List PointKey :=
  (popFirst (b.size - limit) b).1

/-- Nothing is evicted from a bucket within the limit. -/
theorem evictedKeys_of_size_le {limit : Nat} {b : ProviderPoints} (h : b.size ≤ limit) :
    evictedKeys limit b = [] := by
  rw [evictedKeys, Nat.sub_eq_zero_of_le h]
  rfl

/-- A bucket over the limit loses its oldest key. -/
theorem minKey_mem_evictedKeys {limit : Nat} {b : ProviderPoints} {k : PointKey}
    (hmin : b.minKey? = some k) (hsize : limit < b.size) : k ∈ evictedKeys limit b :=
  OrderedMap.minKey_mem_popFirst hmin (Nat.sub_pos_of_lt hsize)

theorem mem_of_mem_evictedKeys {limit : Nat} {b : ProviderPoints} {k : PointKey}
    (h : k ∈ evictedKeys limit b) : k ∈ b :=
  OrderedMap.mem_of_mem_popFirst _ b h

/-- What eviction does: some keys leave one bucket and the claims of their owners. -/
structure Evicts (index : QuotaPointsIndex) (provider : ProviderId) (pointKeys : List PointKey)
    (evicted : List PointKey) (result : QuotaPointsIndex × List PointKey) : Prop where
  bucket : ∀ p (k : PointKey), (result.1.bucket p)[k]? =
    if p = provider ∧ k ∈ evicted then none else (index.bucket p)[k]?
  accounts : result.1.accounts = index.accounts
  prunes : Prunes evicted (index.contributions, pointKeys) (result.1.contributions, result.2)

private theorem evicts_nothing (provider : ProviderId) (pointKeys : List PointKey) :
    Evicts index provider pointKeys [] (index, pointKeys) :=
  ⟨by simp, rfl, Prunes.refl _⟩

private theorem evicts_evictOldest {provider : ProviderId} {b : ProviderPoints}
    (hb : index.points[provider]? = some b) (pointKeys : List PointKey) (excess : Nat) :
    Evicts index provider pointKeys (popFirst excess b).1
      (index.evictOldest provider sessionKey pointKeys b excess) where
  bucket p k := by
    simp only [QuotaPointsIndex.bucket, evictOldest, ExtTreeMap.getElem?_insert,
      Std.compare_eq_iff_eq]
    by_cases hp : p = provider
    · subst hp
      simp [OrderedMap.getElem?_popFirst, hb]
    · simp [hp, Ne.symm hp]
  accounts := rfl
  prunes := prunes_foldl _ (evictedByOwner_subset _) _

/-- `evict_excess` evicts the oldest keys of the bucket, for any limit. -/
theorem evicts_evictBeyond (index : QuotaPointsIndex) (limit : Nat) (provider : ProviderId)
    (sessionKey : String) (pointKeys : List PointKey) :
    Evicts index provider pointKeys (evictedKeys limit (index.bucket provider))
      (index.evictBeyond limit provider sessionKey pointKeys) := by
  unfold evictBeyond
  cases hb : index.points[provider]? with
  | none =>
    have hbucket : index.bucket provider = ∅ := by simp [QuotaPointsIndex.bucket, hb]
    rw [hbucket, evictedKeys_of_size_le (by simp)]
    exact evicts_nothing provider pointKeys
  | some b =>
    have hbucket : index.bucket provider = b := by simp [QuotaPointsIndex.bucket, hb]
    rw [hbucket]
    simp only
    split
    · next hsize =>
      rw [evictedKeys_of_size_le hsize]
      exact evicts_nothing provider pointKeys
    · exact evicts_evictOldest hb pointKeys _

/-! ### Insertion -/

/-- A provider's bucket with a session's points inserted. -/
def withPoints (index : QuotaPointsIndex) (sessionKey : String) (session : Session)
    (p : ProviderId) : ProviderPoints :=
  if p = session.harness then
    insertPoints (index.bucket p) (keyedHistory sessionKey session.rateLimitsHistory)
  else index.bucket p

/-- What `updatePoints` does: insert the session's points, then evict. -/
structure Inserts (index : QuotaPointsIndex) (sessionKey : String) (session : Session)
    (evicted : List PointKey) (result : QuotaPointsIndex × List PointKey) : Prop where
  bucket : ∀ p (k : PointKey), (result.1.bucket p)[k]? =
    if p = session.harness ∧ k ∈ evicted then none
    else (index.withPoints sessionKey session p)[k]?
  accounts : result.1.accounts = index.accounts
  prunes : Prunes evicted
    (index.contributions, (keyedHistory sessionKey session.rateLimitsHistory).map Prod.fst)
    (result.1.contributions, result.2)

/-- The keys evicted when a session with points is inserted. -/
def evictedByUpdate (index : QuotaPointsIndex) (sessionKey : String) (session : Session) :
    List PointKey :=
  if session.rateLimitsHistory.isEmpty then []
  else evictedKeys retainedPointsPerProvider (index.withPoints sessionKey session session.harness)

theorem mem_of_mem_evictedByUpdate {k : PointKey}
    (h : k ∈ index.evictedByUpdate sessionKey session) :
    k ∈ index.withPoints sessionKey session session.harness := by
  unfold evictedByUpdate at h
  split at h
  · contradiction
  · exact mem_of_mem_evictedKeys h

/-- `updatePoints` inserts. -/
theorem inserts_updatePoints (index : QuotaPointsIndex) (sessionKey : String)
    (session : Session) :
    Inserts index sessionKey session (index.evictedByUpdate sessionKey session)
      (index.updatePoints sessionKey session) := by
  unfold updatePoints evictedByUpdate
  split
  · next hempty =>
    have hkeyed : keyedHistory sessionKey session.rateLimitsHistory = [] := by
      simp [keyedHistory, List.isEmpty_iff.mp hempty]
    refine ⟨?_, rfl, ?_⟩
    · intro p k
      simp only [List.not_mem_nil, and_false, if_false, withPoints, hkeyed, insertPoints,
        List.foldl_nil, ite_self]
    · rw [hkeyed]
      exact Prunes.refl _
  · have hwith : ∀ p, QuotaPointsIndex.bucket { index with
        points := index.points.alter session.harness fun bucket ↦ some (insertPoints
          (bucket.getD ∅) (keyedHistory sessionKey session.rateLimitsHistory)) } p =
        index.withPoints sessionKey session p := by
      intro p
      simp only [QuotaPointsIndex.bucket, withPoints, ExtTreeMap.getElem?_alter,
        Std.compare_eq_iff_eq]
      by_cases hp : p = session.harness
      · subst hp
        simp
      · simp [hp, Ne.symm hp]
    have hevicts := evicts_evictBeyond { index with
        points := index.points.alter session.harness fun bucket ↦ some (insertPoints
          (bucket.getD ∅) (keyedHistory sessionKey session.rateLimitsHistory)) }
      retainedPointsPerProvider session.harness sessionKey
      ((keyedHistory sessionKey session.rateLimitsHistory).map Prod.fst)
    rw [hwith] at hevicts
    refine ⟨?_, hevicts.accounts, hevicts.prunes⟩
    intro p k
    rw [← hwith p]
    exact hevicts.bucket p k

private theorem getElem?_updateAccount (accounts : ExtTreeMap ProviderId ProviderAccounts)
    (sessionKey : String) (session : Session)
    (p : ProviderId) (key : DateTime × String) (a : QuotaAccountInfo) :
    (((updateAccount accounts sessionKey session).1[p]?.getD ∅)[key]? = some a) ↔
      if p = session.harness ∧ key = (session.lastEventAt, sessionKey) ∧
        (creditCandidate session).isSome
      then creditCandidate session = some a
      else (accounts[p]?.getD ∅)[key]? = some a := by
  unfold updateAccount
  cases hc : creditCandidate session with
  | none => simp
  | some candidate =>
    simp only [ExtTreeMap.getElem?_alter, Std.compare_eq_iff_eq]
    by_cases hp : p = session.harness
    · subst hp
      by_cases hkey : key = (session.lastEventAt, sessionKey)
      · simp [hkey]
      · simp [hkey, ExtTreeMap.getElem?_insert, Ne.symm hkey]
    · simp [hp, Ne.symm hp]

private theorem updateAccount_snd (accounts : ExtTreeMap ProviderId ProviderAccounts) :
    (updateAccount accounts sessionKey session).2 =
      (creditCandidate session).map fun _ ↦ (session.lastEventAt, sessionKey) := by
  unfold updateAccount
  cases creditCandidate session <;> rfl

theorem mem_withPoints {p : ProviderId} {k : PointKey} :
    k ∈ index.withPoints sessionKey session p ↔ k ∈ index.bucket p ∨
      (p = session.harness ∧
        k ∈ (keyedHistory sessionKey session.rateLimitsHistory).map Prod.fst) := by
  unfold withPoints
  split
  · next hp => simp [mem_insertPoints, hp]
  · next hp => simp [hp]

/-- A point of a bucket with a session's points comes from the session or was there. -/
theorem getElem?_withPoints {p : ProviderId} {k : PointKey} {v : RateLimitSnapshotPoint}
    (h : (index.withPoints sessionKey session p)[k]? = some v) :
    (p = session.harness ∧ (k, v) ∈ keyedHistory sessionKey session.rateLimitsHistory) ∨
      (index.bucket p)[k]? = some v := by
  unfold withPoints at h
  split at h
  · next hp =>
    obtain hmem | ⟨hold, -⟩ := getElem?_insertPoints _ _ h
    · exact Or.inl ⟨hp, hmem⟩
    · exact Or.inr hold
  · exact Or.inr h

theorem sessionKey_of_mem_keys {k : PointKey} {history : List RateLimitSnapshotPoint}
    (h : k ∈ (keyedHistory sessionKey history).map Prod.fst) : k.sessionKey = sessionKey := by
  obtain ⟨e, he, rfl⟩ := List.mem_map.mp h
  exact sessionKey_of_mem_keyedHistory he

/-! ### One call -/

/-- The contribution which `update_session` stores. -/
def newContribution (session : Session) (pointKeys : List PointKey)
    (accountKey : Option (DateTime × String)) : Option SessionContribution :=
  if pointKeys.isEmpty && accountKey.isNone then none
  else some ⟨session.harness, pointKeys, accountKey⟩

/-- `update_session` on an index which no longer holds anything of the session. -/
structure Updates (index : QuotaPointsIndex) (sessionKey : String) (session : Session)
    (evicted : List PointKey) (result : QuotaPointsIndex) : Prop where
  bucket : ∀ p (k : PointKey), (result.bucket p)[k]? =
    if p = session.harness ∧ k ∈ evicted then none
    else (index.withPoints sessionKey session p)[k]?
  account : ∀ p key a, (result.accountBucket p)[key]? = some a ↔
    if p = session.harness ∧ key = (session.lastEventAt, sessionKey) ∧
      (creditCandidate session).isSome
    then creditCandidate session = some a
    else (index.accountBucket p)[key]? = some a
  claims : ∃ pointKeys accountKey,
    pointKeys ⊆ (keyedHistory sessionKey session.rateLimitsHistory).map Prod.fst ∧
    (∀ k ∈ (keyedHistory sessionKey session.rateLimitsHistory).map Prod.fst,
      k ∉ evicted → k ∈ pointKeys) ∧
    accountKey = (creditCandidate session).map (fun _ ↦ (session.lastEventAt, sessionKey)) ∧
    result.contributions[sessionKey]? = newContribution session pointKeys accountKey
  otherKept : ∀ (sk : String) c, sk ≠ sessionKey → index.contributions[sk]? = some c →
    ∃ c', result.contributions[sk]? = some c' ∧ c'.provider = c.provider ∧
      c'.accountKey = c.accountKey ∧ c'.pointKeys ⊆ c.pointKeys ∧
      ∀ k ∈ c.pointKeys, k ∉ evicted → k ∈ c'.pointKeys
  otherAbsent : ∀ (sk : String), sk ≠ sessionKey → index.contributions[sk]? = none →
    result.contributions[sk]? = none

/-- The contributions which an update stores. -/
theorem contributions_updateSession (index : QuotaPointsIndex) (sessionKey : String)
    (session : Session) (sk : String) :
    (index.updateSession sessionKey session).contributions[sk]? =
      if sk = sessionKey then
        newContribution session ((index.retract sessionKey).updatePoints sessionKey session).2
          ((creditCandidate session).map fun _ ↦ (session.lastEventAt, sessionKey))
      else ((index.retract sessionKey).updatePoints sessionKey session).1.contributions[sk]? := by
  simp only [updateSession, updateAccount_snd, newContribution]
  split <;> by_cases hsk : sk = sessionKey
  · simp [hsk]
  · simp [hsk, Ne.symm hsk, ExtTreeMap.getElem?_erase]
  · simp [hsk]
  · simp [hsk, Ne.symm hsk, ExtTreeMap.getElem?_insert]

/-- `update_session` retracts and then updates. -/
theorem updates_updateSession (index : QuotaPointsIndex) (sessionKey : String)
    (session : Session) :
    Updates (index.retract sessionKey) sessionKey session
      ((index.retract sessionKey).evictedByUpdate sessionKey session)
      (index.updateSession sessionKey session) := by
  have hins := inserts_updatePoints (index.retract sessionKey) sessionKey session
  refine ⟨hins.bucket, ?_, ?_, ?_, ?_⟩
  · intro p key a
    have haccount := getElem?_updateAccount
      ((index.retract sessionKey).updatePoints sessionKey session).1.accounts sessionKey session
      p key a
    simpa [accountBucket, updateSession, hins.accounts] using haccount
  · refine ⟨_, _, hins.prunes.localSubset, hins.prunes.localKept, rfl, ?_⟩
    rw [contributions_updateSession, if_pos rfl]
  · intro sk c hne hc
    rw [contributions_updateSession, if_neg hne]
    exact hins.prunes.kept sk c hc
  · intro sk hne hnone
    rw [contributions_updateSession, if_neg hne]
    exact hins.prunes.absent sk hnone

/-- Updating a session which the index holds nothing of makes the index track it. -/
theorem tracks_of_updates {result : QuotaPointsIndex}
    (h : Tracks index (present.erase sessionKey))
    (hu : Updates index sessionKey session (index.evictedByUpdate sessionKey session) result) :
    Tracks result (present.insert sessionKey session) := by
  have hother : ∀ (sk : String) s, (present.erase sessionKey)[sk]? = some s →
      sk ≠ sessionKey ∧ (present.insert sessionKey session)[sk]? = some s := by
    intro sk s hs
    rw [ExtTreeMap.getElem?_erase] at hs
    have hsk : sk ≠ sessionKey := by
      rintro rfl
      simp at hs
    refine ⟨hsk, ?_⟩
    rw [ExtTreeMap.getElem?_insert]
    simpa [Ne.symm hsk] using hs
  -- A key evicted from the session's bucket is not held for another provider.
  have hevicted : ∀ p (k : PointKey), k ∈ index.bucket p →
      k ∈ index.evictedByUpdate sessionKey session → p = session.harness := by
    intro p k hk hev
    obtain ⟨v, hv⟩ := Option.isSome_iff_exists.mp (ExtTreeMap.mem_iff_isSome_getElem?.mp hk)
    obtain ⟨s, hs, hp, -⟩ := h.held p k v hv
    obtain hold | ⟨-, hnew⟩ := mem_withPoints.mp (mem_of_mem_evictedByUpdate hev)
    · obtain ⟨v', hv'⟩ :=
        Option.isSome_iff_exists.mp (ExtTreeMap.mem_iff_isSome_getElem?.mp hold)
      obtain ⟨s', hs', hp', -⟩ := h.held _ k v' hv'
      rw [hs, Option.some.injEq] at hs'
      rw [← hp, hs', hp']
    · exact absurd (sessionKey_of_mem_keys hnew) (hother _ s hs).1
  obtain ⟨pointKeys, accountKey, hsubset, hkept, hkey, hnew⟩ := hu.claims
  constructor
  case held =>
    intro p k v hv
    rw [hu.bucket] at hv
    split at hv
    · contradiction
    obtain ⟨hp, hmem⟩ | hold := getElem?_withPoints hv
    · have hk := sessionKey_of_mem_keyedHistory hmem
      simp only at hk
      exact ⟨session, by rw [hk]; simp, hp.symm, by rw [hk]; exact hmem⟩
    · obtain ⟨s, hs, hrest⟩ := h.held p k v hold
      exact ⟨s, (hother _ s hs).2, hrest⟩
  case claimed =>
    intro p k hk
    rw [ExtTreeMap.mem_iff_isSome_getElem?, hu.bucket] at hk
    split at hk
    · contradiction
    next hnot =>
    obtain hold | ⟨hp, hmem⟩ := mem_withPoints.mp (ExtTreeMap.mem_iff_isSome_getElem?.mpr hk)
    · obtain ⟨c, hc, hp, hclaim⟩ := h.claimed p k hold
      obtain ⟨v, hv⟩ := Option.isSome_iff_exists.mp (ExtTreeMap.mem_iff_isSome_getElem?.mp hold)
      obtain ⟨s, hs, -, -⟩ := h.held p k v hv
      obtain ⟨c', hc', hp', -, -, hkeep⟩ := hu.otherKept _ c (hother _ s hs).1 hc
      refine ⟨c', hc', hp'.trans hp, hkeep k hclaim ?_⟩
      exact fun hev ↦ hnot ⟨hevicted p k hold hev, hev⟩
    · have hmem' : k ∈ pointKeys := hkept k hmem fun hev ↦ hnot ⟨hp, hev⟩
      have hne : pointKeys.isEmpty = false := by
        rw [List.isEmpty_eq_false_iff]
        exact List.ne_nil_of_mem hmem'
      refine ⟨⟨session.harness, pointKeys, accountKey⟩, ?_, hp.symm, hmem'⟩
      rw [sessionKey_of_mem_keys hmem, hnew]
      simp [newContribution, hne]
  case accounts =>
    intro p t sk a
    rw [hu.account]
    by_cases hsk : sk = sessionKey
    · subst hsk
      have hold : (index.accountBucket p)[(t, sk)]? ≠ some a := by
        rw [ne_eq, h.accounts]
        rintro ⟨s, hs, -⟩
        exact (hother _ s hs).1 rfl
      simp only [Prod.mk.injEq, and_true, ExtTreeMap.getElem?_insert_self, Option.some.injEq]
      split
      · next hcond =>
        constructor
        · exact fun ha ↦ ⟨session, rfl, hcond.1.symm, hcond.2.1.symm, ha⟩
        · rintro ⟨s, rfl, -, -, ha⟩
          exact ha
      · next hcond =>
        constructor
        · exact fun ha ↦ absurd ha hold
        · rintro ⟨s, rfl, hp, ht, ha⟩
          exact absurd ⟨hp.symm, ht.symm, by simp [ha]⟩ hcond
    · rw [if_neg (by simp [hsk]), h.accounts, ExtTreeMap.getElem?_erase,
        ExtTreeMap.getElem?_insert]
      simp [Ne.symm hsk]
  case accountClaimed =>
    intro p t sk hmem
    obtain ⟨a, ha⟩ := Option.isSome_iff_exists.mp (ExtTreeMap.mem_iff_isSome_getElem?.mp hmem)
    rw [hu.account] at ha
    split at ha
    · next hcond =>
      obtain ⟨hp, hpair, hsome⟩ := hcond
      simp only [Prod.mk.injEq] at hpair
      obtain ⟨rfl, rfl⟩ := hpair
      refine ⟨⟨session.harness, pointKeys, accountKey⟩, ?_, hp.symm, ?_⟩
      · rw [hnew, newContribution, if_neg]
        simp [hkey, ha]
      · simp [hkey, ha]
    · obtain ⟨s, hs, -⟩ := (h.accounts p t sk a).mp ha
      obtain ⟨c, hc, hp, hkey'⟩ :=
        h.accountClaimed p t sk (ExtTreeMap.mem_iff_isSome_getElem?.mpr (by rw [ha]; rfl))
      obtain ⟨c', hc', hp', ha', -, -⟩ := hu.otherKept sk c (hother sk s hs).1 hc
      exact ⟨c', hc', hp'.trans hp, ha'.trans hkey'⟩
  case ownPoints =>
    intro sk c hc k hk
    by_cases hsk : sk = sessionKey
    · subst hsk
      rw [hnew, newContribution] at hc
      split at hc
      · contradiction
      · simp only [Option.some.injEq] at hc
        subst hc
        exact sessionKey_of_mem_keys (hsubset hk)
    · cases hold : index.contributions[sk]? with
      | none =>
        rw [hu.otherAbsent sk hsk hold] at hc
        contradiction
      | some c₀ =>
        obtain ⟨c', hc', -, -, hsub, -⟩ := hu.otherKept sk c₀ hsk hold
        rw [hc', Option.some.injEq] at hc
        subst hc
        exact h.ownPoints sk c₀ hold k (hsub hk)
  case ownAccount =>
    intro sk c key hc hkey'
    by_cases hsk : sk = sessionKey
    · subst hsk
      rw [hnew, newContribution] at hc
      split at hc
      · contradiction
      · simp only [Option.some.injEq] at hc
        subst hc
        simp only [hkey, Option.map_eq_some_iff] at hkey'
        obtain ⟨-, -, rfl⟩ := hkey'
        rfl
    · cases hold : index.contributions[sk]? with
      | none =>
        rw [hu.otherAbsent sk hsk hold] at hc
        contradiction
      | some c₀ =>
        obtain ⟨c', hc', -, haccount, -, -⟩ := hu.otherKept sk c₀ hsk hold
        rw [hc', Option.some.injEq] at hc
        subst hc
        exact h.ownAccount sk c₀ key hold (haccount ▸ hkey')

end QuotaPointsIndex

open QuotaPointsIndex

/-- One call keeps the index tracking the present sessions. -/
theorem tracks_apply {index : QuotaPointsIndex} {present : ExtTreeMap String Session}
    (h : Tracks index present) (call : IndexCall) :
    Tracks (call.apply index) (call.applyPresent present) := by
  cases call with
  | updateSession sessionKey session =>
    exact tracks_of_updates (tracks_retract h sessionKey)
      (updates_updateSession index sessionKey session)
  | removeSession sessionKey => exact tracks_retract h sessionKey

theorem tracks_empty : Tracks .empty ∅ := by
  constructor <;> simp [QuotaPointsIndex.empty, bucket, accountBucket]

/-- After any sequence of calls the index tracks the present sessions. -/
theorem tracks_indexAfter (calls : List IndexCall) :
    Tracks (indexAfter calls) (presentAfter calls) := by
  induction calls using List.reverseRecOn with
  | nil => exact tracks_empty
  | append_singleton calls call ih =>
    rw [indexAfter_append, presentAfter_append]
    exact tracks_apply ih call

end AgentOdometer.Quota
