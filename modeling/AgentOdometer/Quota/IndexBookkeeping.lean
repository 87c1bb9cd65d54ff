import AgentOdometer.Quota.IndexInvariant

/-!
# Exact bookkeeping of the points index

Beyond `Tracks`: an evicted key leaves the claim of its owner, so every claim is held by its
bucket, and no bucket exceeds the retention cap.
-/

namespace AgentOdometer.Quota

open Std (ExtTreeMap)
open OrderedMap (keyLt popFirst)

namespace QuotaPointsIndex

variable {index : QuotaPointsIndex} {present : ExtTreeMap String Session}
variable {sessionKey : String} {session : Session}

/-! ### Evicted keys leave their claims -/

/-- Claims: the stored contributions and the list of the session being updated. -/
abbrev Claims :=
  ExtTreeMap String SessionContribution × List PointKey

/-- The owner of a key does not claim it. -/
def Unclaimed (sessionKey : String) (key : PointKey) (claims : Claims) : Prop :=
  if key.sessionKey = sessionKey then key ∉ claims.2
  else ∀ c, claims.1[key.sessionKey]? = some c → key ∉ c.pointKeys

/-- Pruning an owner leaves a key unclaimed which was so before or belongs to the pruned keys. -/
theorem unclaimed_pruneOwner {key : PointKey} {claims : Claims} {owned : String × List PointKey}
    (h : Unclaimed sessionKey key claims ∨ owned.1 = key.sessionKey ∧ key ∈ owned.2) :
    Unclaimed sessionKey key (pruneOwner sessionKey claims owned) := by
  unfold Unclaimed pruneOwner at *
  by_cases hown : key.sessionKey = sessionKey
  · rw [if_pos hown] at h ⊢
    split
    · rw [List.mem_filter]
      rintro ⟨hmem, hkept⟩
      rcases h with h | ⟨-, h⟩
      · exact h hmem
      · simp [h] at hkept
    · next hother =>
      exact h.resolve_right fun hpruned ↦ hother (hpruned.1.trans hown)
  · rw [if_neg hown] at h ⊢
    split
    · next hsame => exact h.resolve_right fun hpruned ↦ hown (hpruned.1.symm.trans hsame)
    · intro c hc
      rw [ExtTreeMap.getElem?_modify] at hc
      split at hc
      · next howner =>
        obtain ⟨old, hold, rfl⟩ := Option.map_eq_some_iff.mp hc
        rw [Std.compare_eq_iff_eq.mp howner] at hold
        unfold SessionContribution.retain
        rw [List.mem_filter]
        rintro ⟨hmem, hkept⟩
        rcases h with h | ⟨-, h⟩
        · exact h old hold hmem
        · simp [h] at hkept
      · next hother =>
        exact h.resolve_right (fun hpruned ↦ hother (Std.compare_eq_iff_eq.mpr hpruned.1)) c hc

theorem unclaimed_foldl_pruneOwner {key : PointKey} {owners : List (String × List PointKey)}
    {claims : Claims} (h : Unclaimed sessionKey key claims ∨
      ∃ owned ∈ owners, owned.1 = key.sessionKey ∧ key ∈ owned.2) :
    Unclaimed sessionKey key (owners.foldl (pruneOwner sessionKey) claims) := by
  induction owners generalizing claims with
  | nil => exact h.resolve_right fun ⟨_, hmem, _⟩ ↦ absurd hmem List.not_mem_nil
  | cons owned rest ih =>
    rw [List.foldl_cons]
    refine ih ?_
    rcases h with h | ⟨pruned, hmem, hpruned⟩
    · exact .inl (unclaimed_pruneOwner (.inl h))
    · rcases List.mem_cons.mp hmem with rfl | hmem
      · exact .inl (unclaimed_pruneOwner (.inr hpruned))
      · exact .inr ⟨pruned, hmem, hpruned⟩

/-- Every evicted key is listed under its owner. -/
theorem exists_evictedByOwner {evicted : List PointKey} {key : PointKey} (h : key ∈ evicted) :
    ∃ owned ∈ (evictedByOwner evicted).toList, owned.1 = key.sessionKey ∧ key ∈ owned.2 := by
  have hfold (keys : List PointKey) (m : ExtTreeMap String (List PointKey))
      (hkey : key ∈ keys ∨ key ∈ m[key.sessionKey]?.getD []) :
      key ∈ (keys.foldl (fun m key ↦ m.alter key.sessionKey
        fun keys ↦ some (keys.getD [] ++ [key])) m)[key.sessionKey]?.getD [] := by
    induction keys generalizing m with
    | nil => exact hkey.resolve_left List.not_mem_nil
    | cons head rest ih =>
      rw [List.foldl_cons]
      refine ih _ ?_
      rw [ExtTreeMap.getElem?_alter]
      rcases hkey with hkey | hkey
      · rcases List.mem_cons.mp hkey with rfl | hkey
        · right
          rw [if_pos (Std.compare_eq_iff_eq.mpr rfl), Option.getD_some]
          exact List.mem_append_right _ (List.mem_singleton_self _)
        · exact .inl hkey
      · right
        split
        · next heq =>
          rw [Std.compare_eq_iff_eq.mp heq, Option.getD_some]
          exact List.mem_append_left _ hkey
        · exact hkey
  have hmem := hfold evicted ∅ (.inl h)
  cases hkeys : (evictedByOwner evicted)[key.sessionKey]? with
  | none =>
    unfold evictedByOwner at hkeys
    rw [hkeys] at hmem
    exact absurd hmem List.not_mem_nil
  | some keys =>
    refine ⟨(key.sessionKey, keys), ExtTreeMap.mem_toList_iff_getElem?_eq_some.mpr hkeys, rfl, ?_⟩
    unfold evictedByOwner at hkeys
    rwa [hkeys] at hmem

/-- An evicted key is unclaimed. -/
theorem unclaimed_evictBeyond {limit : Nat} {provider : ProviderId} {pointKeys : List PointKey}
    {key : PointKey} (h : key ∈ evictedKeys limit (index.bucket provider)) :
    Unclaimed sessionKey key
      ((index.evictBeyond limit provider sessionKey pointKeys).1.contributions,
        (index.evictBeyond limit provider sessionKey pointKeys).2) := by
  unfold evictBeyond
  cases hb : index.points[provider]? with
  | none =>
    have hbucket : index.bucket provider = ∅ := by simp [bucket, hb]
    rw [hbucket, evictedKeys_of_size_le (by simp)] at h
    exact absurd h List.not_mem_nil
  | some b =>
    have hbucket : index.bucket provider = b := by simp [bucket, hb]
    rw [hbucket] at h
    simp only
    split
    · next hsize =>
      rw [evictedKeys_of_size_le hsize] at h
      exact absurd h List.not_mem_nil
    · exact unclaimed_foldl_pruneOwner (.inr (exists_evictedByOwner h))

/-- The same for the points which an update inserts. -/
theorem unclaimed_updatePoints {key : PointKey}
    (h : key ∈ index.evictedByUpdate sessionKey session) :
    Unclaimed sessionKey key ((index.updatePoints sessionKey session).1.contributions,
      (index.updatePoints sessionKey session).2) := by
  unfold evictedByUpdate at h
  unfold updatePoints
  split at h
  · exact absurd h List.not_mem_nil
  · next hsome =>
    rw [if_neg hsome]
    refine unclaimed_evictBeyond ?_
    have hbucket : QuotaPointsIndex.bucket { index with
        points := index.points.alter session.harness fun bucket ↦ some (insertPoints
          (bucket.getD ∅) (keyedHistory sessionKey session.rateLimitsHistory)) } session.harness =
        index.withPoints sessionKey session session.harness := by
      simp [QuotaPointsIndex.bucket, withPoints]
    rw [hbucket]
    exact h

/-! ### Sizes -/

theorem size_eraseKeys_le (b : ProviderPoints) (keys : List PointKey) :
    (eraseKeys b keys).size ≤ b.size := by
  induction keys generalizing b with
  | nil => exact le_rfl
  | cons key keys ih => exact (ih (b.erase key)).trans ExtTreeMap.size_erase_le

theorem size_bucket_retract_le (index : QuotaPointsIndex) (sessionKey : String) (p : ProviderId) :
    ((index.retract sessionKey).bucket p).size ≤ (index.bucket p).size := by
  unfold retract
  cases index.contributions[sessionKey]? with
  | none => exact le_rfl
  | some c =>
    simp only [bucket, ExtTreeMap.getElem?_modify]
    split
    · next hp =>
      rw [Std.compare_eq_iff_eq.mp hp]
      cases index.points[p]? with
      | none => exact le_rfl
      | some b => exact size_eraseKeys_le b c.pointKeys
    · exact le_rfl

theorem size_bucket_evictBeyond_le {limit : Nat} {provider : ProviderId}
    {pointKeys : List PointKey} :
    ((index.evictBeyond limit provider sessionKey pointKeys).1.bucket provider).size ≤ limit := by
  unfold evictBeyond
  cases hb : index.points[provider]? with
  | none => simp [bucket, hb]
  | some b =>
    simp only
    split
    · next hsize => simpa [bucket, hb] using hsize
    · simp only [bucket, evictOldest, ExtTreeMap.getElem?_insert_self, Option.getD_some,
        OrderedMap.size_popFirst]
      omega

/-- After an update the session's bucket is within the cap, and the others are as before. -/
theorem size_bucket_updatePoints_le (h : ∀ p, (index.bucket p).size ≤ retainedPointsPerProvider)
    (p : ProviderId) : ((index.updatePoints sessionKey session).1.bucket p).size ≤
      retainedPointsPerProvider := by
  by_cases hp : p = session.harness
  · subst hp
    unfold updatePoints
    split
    · exact h _
    · exact size_bucket_evictBeyond_le
  · have hsame : (index.updatePoints sessionKey session).1.bucket p = index.bucket p := by
      apply ExtTreeMap.ext_getElem?
      intro k
      rw [(inserts_updatePoints index sessionKey session).bucket, if_neg fun hk ↦ hp hk.1,
        withPoints, if_neg hp]
    rw [hsame]
    exact h p

/-! ### Every claim is held -/

/-- What the bookkeeping adds to `Tracks`. -/
structure Books (index : QuotaPointsIndex) : Prop where
  points : ∀ (sk : String) c, index.contributions[sk]? = some c →
    ∀ k ∈ c.pointKeys, k ∈ index.bucket c.provider
  account : ∀ (sk : String) c key, index.contributions[sk]? = some c → c.accountKey = some key →
    key ∈ index.accountBucket c.provider
  bounded : ∀ p, (index.bucket p).size ≤ retainedPointsPerProvider

theorem books_retract (h : Tracks index present) (hbooks : Books index) (sessionKey : String) :
    Books (index.retract sessionKey) where
  points sk c hc k hk := by
    rw [contributions_retract] at hc
    split at hc
    · cases hc
    next hother =>
    rw [ExtTreeMap.mem_iff_isSome_getElem?, h.getElem?_bucket_retract, if_neg]
    · exact ExtTreeMap.mem_iff_isSome_getElem?.mp (hbooks.points sk c hc k hk)
    · rw [h.ownPoints sk c hc k hk]
      exact hother
  account sk c key hc hkey := by
    rw [contributions_retract] at hc
    split at hc
    · cases hc
    next hother =>
    obtain ⟨t, owner⟩ := key
    rw [ExtTreeMap.mem_iff_isSome_getElem?, h.getElem?_accountBucket_retract, if_neg]
    · exact ExtTreeMap.mem_iff_isSome_getElem?.mp (hbooks.account sk c (t, owner) hc hkey)
    · have howner : owner = sk := h.ownAccount sk c (t, owner) hc hkey
      rw [howner]
      exact hother
  bounded p := (size_bucket_retract_le index sessionKey p).trans (hbooks.bounded p)

/-- A claim which survives an update was not evicted. -/
theorem mem_bucket_updatePoints {key : PointKey} {p : ProviderId} {claimed : List PointKey}
    (hclaimed : Unclaimed sessionKey key ((index.updatePoints sessionKey session).1.contributions,
      (index.updatePoints sessionKey session).2) → key ∉ claimed)
    (hkey : key ∈ claimed) (hwith : key ∈ index.withPoints sessionKey session p) :
    key ∈ (index.updatePoints sessionKey session).1.bucket p := by
  rw [ExtTreeMap.mem_iff_isSome_getElem?, (inserts_updatePoints index sessionKey session).bucket,
    if_neg]
  · exact ExtTreeMap.mem_iff_isSome_getElem?.mp hwith
  · rintro ⟨-, hevicted⟩
    exact hclaimed (unclaimed_updatePoints hevicted) hkey

/-- An update of a session which the index holds nothing of keeps the books. -/
theorem books_updateSession (h : Tracks index present) (hbooks : Books index) (sessionKey : String)
    (session : Session) : Books (index.updateSession sessionKey session) := by
  have htracks := tracks_retract h sessionKey
  have hretracted := books_retract h hbooks sessionKey
  have hupdates := updates_updateSession index sessionKey session
  have hins := inserts_updatePoints (index.retract sessionKey) sessionKey session
  refine ⟨fun sk c hc k hk ↦ ?_, fun sk c key hc hkey ↦ ?_,
    size_bucket_updatePoints_le hretracted.bounded⟩
  · show k ∈ ((index.retract sessionKey).updatePoints sessionKey session).1.bucket c.provider
    rw [contributions_updateSession] at hc
    split at hc
    · -- the session's own claim
      unfold newContribution at hc
      split at hc
      · cases hc
      rw [← Option.some.inj hc] at hk ⊢
      have hinserted := hins.prunes.localSubset hk
      have hown : k.sessionKey = sessionKey := sessionKey_of_mem_keys hinserted
      refine mem_bucket_updatePoints (fun hclaim ↦ ?_) hk ?_
      · rwa [Unclaimed, if_pos hown] at hclaim
      · rw [withPoints, if_pos rfl, mem_insertPoints]
        exact .inr hinserted
    · next hother =>
      -- the claim of another session, which only eviction can shorten
      cases hold : (index.retract sessionKey).contributions[sk]? with
      | none => cases (hins.prunes.absent sk hold).symm.trans hc
      | some old =>
        obtain ⟨c', hc', hprovider, -, hsubset, -⟩ := hins.prunes.kept sk old hold
        obtain rfl : c' = c := Option.some.inj (hc'.symm.trans hc)
        have hown : k.sessionKey = sk := htracks.ownPoints sk old hold k (hsubset hk)
        refine mem_bucket_updatePoints (fun hclaim ↦ ?_) hk ?_
        · rw [Unclaimed, if_neg (hown.trans_ne hother), hown] at hclaim
          exact hclaim c' hc
        · have hheld := hretracted.points sk old hold k (hsubset hk)
          rw [hprovider, withPoints]
          split
          · exact (mem_insertPoints _ _ _).mpr (.inl hheld)
          · exact hheld
  · have hcandidate (key : DateTime × String) : key ∈ (index.updateSession sessionKey
        session).accountBucket c.provider ↔ ∃ a, (if c.provider = session.harness ∧
          key = (session.lastEventAt, sessionKey) ∧ (creditCandidate session).isSome
          then creditCandidate session = some a
          else ((index.retract sessionKey).accountBucket c.provider)[key]? = some a) := by
      rw [ExtTreeMap.mem_iff_isSome_getElem?, Option.isSome_iff_exists]
      exact exists_congr fun a ↦ hupdates.account c.provider key a
    rw [hcandidate]
    rw [contributions_updateSession] at hc
    split at hc
    · unfold newContribution at hc
      split at hc
      · cases hc
      rw [← Option.some.inj hc] at hkey ⊢
      obtain ⟨a, ha, rfl⟩ := Option.map_eq_some_iff.mp hkey
      exact ⟨a, by rw [if_pos ⟨rfl, rfl, Option.isSome_of_eq_some ha⟩]; exact ha⟩
    · next hother =>
      cases hold : (index.retract sessionKey).contributions[sk]? with
      | none => cases (hins.prunes.absent sk hold).symm.trans hc
      | some old =>
        obtain ⟨c', hc', hprovider, haccount, -, -⟩ := hins.prunes.kept sk old hold
        obtain rfl : c' = c := Option.some.inj (hc'.symm.trans hc)
        rw [haccount] at hkey
        have howner : key.2 = sk := htracks.ownAccount sk old key hold hkey
        have hheld := hretracted.account sk old key hold hkey
        rw [← hprovider, ExtTreeMap.mem_iff_isSome_getElem?, Option.isSome_iff_exists] at hheld
        obtain ⟨a, ha⟩ := hheld
        refine ⟨a, ?_⟩
        rw [if_neg fun hnew ↦ hother (howner.symm.trans (congrArg Prod.snd hnew.2.1))]
        exact ha

end QuotaPointsIndex

open QuotaPointsIndex

/-! ### Every run -/

theorem books_indexAfter (calls : List IndexCall) : Books (indexAfter calls) := by
  induction calls using List.reverseRecOn with
  | nil =>
    constructor <;> simp [indexAfter, QuotaPointsIndex.empty, bucket]
  | append_singleton calls call ih =>
    rw [indexAfter_append]
    cases call with
    | updateSession sessionKey session =>
      exact books_updateSession (tracks_indexAfter calls) ih sessionKey session
    | removeSession sessionKey => exact books_retract (tracks_indexAfter calls) ih sessionKey

/-- After any sequence of calls every held point is claimed by exactly one contribution and every
claim is held, the buckets are sorted and within the cap, and the account keys are those of the
present sessions which report credits. -/
theorem index_bookkeeping (calls : List IndexCall) :
    (∀ p k, k ∈ (indexAfter calls).bucket p → ∃! sk : String, ∃ c,
      (indexAfter calls).contributions[sk]? = some c ∧ c.provider = p ∧ k ∈ c.pointKeys) ∧
    (∀ (sk : String) c, (indexAfter calls).contributions[sk]? = some c →
      (∀ k ∈ c.pointKeys, k ∈ (indexAfter calls).bucket c.provider) ∧
      ∀ key ∈ c.accountKey, key ∈ (indexAfter calls).accountBucket c.provider) ∧
    (∀ p, ((indexAfter calls).bucket p).toList.Pairwise keyLt ∧
      ((indexAfter calls).bucket p).size ≤ retainedPointsPerProvider) ∧
    ∀ p (t : DateTime) (sk : String), (t, sk) ∈ (indexAfter calls).accountBucket p ↔
      ∃ s, (presentAfter calls)[sk]? = some s ∧ s.harness = p ∧ s.lastEventAt = t ∧
        (creditCandidate s).isSome = true := by
  have htracks := tracks_indexAfter calls
  have hbooks := books_indexAfter calls
  refine ⟨fun p k hk ↦ ?_, fun sk c hc ↦ ⟨hbooks.points sk c hc, fun key hkey ↦
    hbooks.account sk c key hc hkey⟩, fun p ↦ ⟨ExtTreeMap.ordered_keys_toList, hbooks.bounded p⟩,
    fun p t sk ↦ ?_⟩
  · obtain ⟨c, hc, hprovider, hclaim⟩ := htracks.claimed p k hk
    refine ⟨k.sessionKey, ⟨c, hc, hprovider, hclaim⟩, ?_⟩
    rintro sk ⟨c', hc', -, hclaim'⟩
    exact (htracks.ownPoints sk c' hc' k hclaim').symm
  · rw [ExtTreeMap.mem_iff_isSome_getElem?, Option.isSome_iff_exists]
    simp only [htracks.accounts, Option.isSome_iff_exists]
    constructor
    · rintro ⟨a, s, hs, hprovider, ht, ha⟩
      exact ⟨s, hs, hprovider, ht, a, ha⟩
    · rintro ⟨s, hs, hprovider, ht, a, ha⟩
      exact ⟨a, s, hs, hprovider, ht, ha⟩

end AgentOdometer.Quota
