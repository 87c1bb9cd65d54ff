import AgentOdometer.Lib.OrderedMap
import AgentOdometer.Lib.SortedList
import AgentOdometer.Quota.Snapshot

/-!
# The incremental points index

`QuotaPointsIndex` (`quota.rs:708–1070`) beside the from-scratch aggregation
`quota_snapshots_from_sessions` (`quota.rs:643–706`). Both read at most
`maxPointsPerProvider` points of a provider; the index also evicts the oldest points of a
provider once it holds more than `retainedPointsPerProvider`.
-/

namespace AgentOdometer.Quota

open Std (ExtTreeMap)
open OrderedMap (keyLt popFirst)

/-! ### From-scratch aggregation -/

/-- The credit information which one session reports. Follows `quota.rs:658–663`. -/
def creditCandidate (session : Session) : Option QuotaAccountInfo :=
  if session.creditsUnlimited.isSome || session.creditsBalance.isSome then
    some ⟨session.creditsUnlimited, session.creditsBalance, some session.lastEventAt⟩
  else none

/-- Whether `candidate` replaces the account kept so far. Follows `quota.rs:669–677`. -/
def isNewer (candidate kept : QuotaAccountInfo) : Bool :=
  kept.observedAt.all fun existing ↦ candidate.observedAt.any fun c ↦ existing < c

/-- The maps which the aggregation loop fills. -/
structure ScratchState where
  pointsByProvider : ExtTreeMap ProviderId (List RateLimitSnapshotPoint)
  accountByProvider : ExtTreeMap ProviderId QuotaAccountInfo

/-- The body of the aggregation loop. Follows `quota.rs:652–680`. -/
def ScratchState.addSession (s : ScratchState) (session : Session) : ScratchState :=
  { pointsByProvider := s.pointsByProvider.alter session.harness fun points ↦
      some (points.getD [] ++ session.rateLimitsHistory)
    accountByProvider :=
      match creditCandidate session with
      | none => s.accountByProvider
      | some candidate =>
          s.accountByProvider.alter session.harness fun
            | none => some candidate
            | some kept => some (if isNewer candidate kept then candidate else kept) }

/-- The newest `maxPointsPerProvider` of a sorted list. Follows `quota.rs:689–692`. -/
def truncatePoints (points : List RateLimitSnapshotPoint) : List RateLimitSnapshotPoint :=
  points.drop (points.length - maxPointsPerProvider)

/-- Order of points by timestamp, the key of the stable sort at `quota.rs:688`. -/
def timestampLe (a b : RateLimitSnapshotPoint) : Prop :=
  a.timestamp ≤ b.timestamp

instance : DecidableRel timestampLe :=
  fun a b ↦ inferInstanceAs (Decidable (a.timestamp ≤ b.timestamp))

/-- `quota_snapshots_from_sessions`, `quota.rs:643–706`. -/
def quotaSnapshotsFromSessions (sessions : List Session) (now : DateTime)
    (maxCacheAge : Duration) : Option (List QuotaSnapshot) :=
  let s := sessions.foldl ScratchState.addSession ⟨∅, ∅⟩
  ProviderRegistry.descriptors.mapM fun descriptor ↦
    let points := (s.pointsByProvider[descriptor.id]?.getD []).insertionSort timestampLe
    buildQuotaSnapshot descriptor.id descriptor.capabilities.quotaSource
      (truncatePoints points) (s.accountByProvider[descriptor.id]?.getD .empty) now maxCacheAge

/-! ### The index -/

/-- Position of a point in its provider's bucket. Follows `quota.rs:809–814`. -/
structure PointKey where
  timestamp : DateTime
  sessionKey : String
  seq : Nat
deriving Repr, DecidableEq

namespace PointKey

/-- The fields in the order of the derived comparison. -/
def fields (k : PointKey) : DateTime × String × Nat :=
  (k.timestamp, k.sessionKey, k.seq)

theorem fields_injective : Function.Injective fields := by
  intro a b h
  cases a
  cases b
  simpa [fields] using h

instance : Ord PointKey :=
  ⟨compareOn fields⟩

instance : Std.TransOrd PointKey :=
  inferInstanceAs (Std.TransCmp (compareOn fields))

instance : Std.LawfulEqOrd PointKey :=
  lawfulEqCmp_compareOn fields_injective

end PointKey

/-- A provider's points in ascending key order. Follows `quota.rs:816–819`. -/
abbrev ProviderPoints :=
  ExtTreeMap PointKey RateLimitSnapshotPoint

/-- A provider's credit observations. Follows `quota.rs:821–824`. -/
abbrev ProviderAccounts :=
  ExtTreeMap (DateTime × String) QuotaAccountInfo

/-- What one session last contributed. Follows `quota.rs:829–833`. -/
structure SessionContribution where
  provider : ProviderId
  pointKeys : List PointKey
  accountKey : Option (DateTime × String)
deriving DecidableEq

/-- Keep the keys of a contribution which were not evicted. -/
def SessionContribution.retain (c : SessionContribution) (evicted : List PointKey) :
    SessionContribution :=
  { c with pointKeys := c.pointKeys.filter fun key ↦ !evicted.contains key }

/-- The state behind the index's mutex. Follows `quota.rs:835–840`. -/
structure QuotaPointsIndex where
  points : ExtTreeMap ProviderId ProviderPoints
  accounts : ExtTreeMap ProviderId ProviderAccounts
  contributions : ExtTreeMap String SessionContribution

namespace QuotaPointsIndex

/-- `QuotaPointsIndex::new`, `quota.rs:851–853`. -/
def empty : QuotaPointsIndex :=
  ⟨∅, ∅, ∅⟩

/-- Remove the keys one by one. Follows `quota.rs:930–932`. -/
def eraseKeys (bucket : ProviderPoints) (keys : List PointKey) : ProviderPoints :=
  keys.foldl (fun bucket key ↦ bucket.erase key) bucket

/-- `retract`, `quota.rs:925–939`. -/
def retract (index : QuotaPointsIndex) (sessionKey : String) : QuotaPointsIndex :=
  match index.contributions[sessionKey]? with
  | none => index
  | some contribution =>
      { points := index.points.modify contribution.provider fun bucket ↦
          eraseKeys bucket contribution.pointKeys
        accounts :=
          match contribution.accountKey with
          | none => index.accounts
          | some key => index.accounts.modify contribution.provider fun bucket ↦
              bucket.erase key
        contributions := index.contributions.erase sessionKey }

/-- A session's points with their keys. Follows `quota.rs:867–872`. -/
def keyedHistory (sessionKey : String) (history : List RateLimitSnapshotPoint) :
    List (PointKey × RateLimitSnapshotPoint) :=
  history.zipIdx.map fun (point, seq) ↦ (⟨point.timestamp, sessionKey, asU32 seq⟩, point)

/-- Insert keyed points one by one. Follows `quota.rs:873`. -/
def insertPoints (bucket : ProviderPoints)
    (keyed : List (PointKey × RateLimitSnapshotPoint)) : ProviderPoints :=
  keyed.foldl (fun bucket e ↦ bucket.insert e.1 e.2) bucket

/-- The evicted keys grouped by the session which owns them. Follows `quota.rs:992–1001`. -/
def evictedByOwner (evicted : List PointKey) : ExtTreeMap String (List PointKey) :=
  evicted.foldl (fun m key ↦ m.alter key.sessionKey fun keys ↦ some (keys.getD [] ++ [key])) ∅

/-- Drop evicted keys from one owner's claim: from the local list for the session being
updated, from its stored contribution otherwise. Follows `quota.rs:1003–1014`. -/
def pruneOwner (sessionKey : String)
    (s : ExtTreeMap String SessionContribution × List PointKey)
    (owned : String × List PointKey) : ExtTreeMap String SessionContribution × List PointKey :=
  if owned.1 = sessionKey then
    (s.1, s.2.filter fun key ↦ !owned.2.contains key)
  else
    (s.1.modify owned.1 fun c ↦ c.retain owned.2, s.2)

/-- Pop the oldest points of a bucket and prune the claims of their owners.
Follows `quota.rs:993–1014`. -/
def evictOldest (index : QuotaPointsIndex) (provider : ProviderId) (sessionKey : String)
    (pointKeys : List PointKey) (bucket : ProviderPoints) (excess : Nat) :
    QuotaPointsIndex × List PointKey :=
  let (evicted, bucket) := popFirst excess bucket
  let (contributions, pointKeys) := (evictedByOwner evicted).toList.foldl
    (pruneOwner sessionKey) (index.contributions, pointKeys)
  ({ index with points := index.points.insert provider bucket, contributions }, pointKeys)

/-- Evict the points of a provider's bucket beyond a limit. Follows `quota.rs:985–1014`. -/
def evictBeyond (index : QuotaPointsIndex) (limit : Nat) (provider : ProviderId)
    (sessionKey : String) (pointKeys : List PointKey) : QuotaPointsIndex × List PointKey :=
  match index.points[provider]? with
  | none => (index, pointKeys)
  | some bucket =>
      if bucket.size ≤ limit then (index, pointKeys)
      else index.evictOldest provider sessionKey pointKeys bucket (bucket.size - limit)

/-- `evict_excess`, `quota.rs:979–1015`, returning the local key list as well. -/
def evictExcess (index : QuotaPointsIndex) (provider : ProviderId) (sessionKey : String)
    (pointKeys : List PointKey) : QuotaPointsIndex × List PointKey :=
  index.evictBeyond retainedPointsPerProvider provider sessionKey pointKeys

/-- The point half of `update_session`. Follows `quota.rs:863–877`. -/
def updatePoints (index : QuotaPointsIndex) (sessionKey : String) (session : Session) :
    QuotaPointsIndex × List PointKey :=
  if session.rateLimitsHistory.isEmpty then (index, [])
  else
    let keyed := keyedHistory sessionKey session.rateLimitsHistory
    let index := { index with
      points := index.points.alter session.harness fun bucket ↦
        some (insertPoints (bucket.getD ∅) keyed) }
    index.evictExcess session.harness sessionKey (keyed.map Prod.fst)

/-- The account half of `update_session`. Follows `quota.rs:879–896`. -/
def updateAccount (accounts : ExtTreeMap ProviderId ProviderAccounts) (sessionKey : String)
    (session : Session) :
    ExtTreeMap ProviderId ProviderAccounts × Option (DateTime × String) :=
  match creditCandidate session with
  | none => (accounts, none)
  | some account =>
      let key := (session.lastEventAt, sessionKey)
      (accounts.alter session.harness fun bucket ↦ some ((bucket.getD ∅).insert key account),
        some key)

/-- `update_session`, `quota.rs:859–910`. -/
def updateSession (index : QuotaPointsIndex) (sessionKey : String) (session : Session) :
    QuotaPointsIndex :=
  let (index, pointKeys) := (index.retract sessionKey).updatePoints sessionKey session
  let (accounts, accountKey) := updateAccount index.accounts sessionKey session
  { index with
    accounts
    contributions :=
      if pointKeys.isEmpty && accountKey.isNone then index.contributions.erase sessionKey
      else index.contributions.insert sessionKey ⟨session.harness, pointKeys, accountKey⟩ }

/-- `remove_session`, `quota.rs:920–923`. -/
def removeSession (index : QuotaPointsIndex) (sessionKey : String) : QuotaPointsIndex :=
  index.retract sessionKey

/-- A provider's bucket, empty when it has none. -/
def bucket (index : QuotaPointsIndex) (provider : ProviderId) : ProviderPoints :=
  index.points[provider]?.getD ∅

/-- A provider's credit observations, empty when it has none. -/
def accountBucket (index : QuotaPointsIndex) (provider : ProviderId) : ProviderAccounts :=
  index.accounts[provider]?.getD ∅

/-- `provider_points`, `quota.rs:1050–1069`. -/
def providerPoints (index : QuotaPointsIndex) (provider : ProviderId) :
    List RateLimitSnapshotPoint :=
  let points := (index.bucket provider).toList.map Prod.snd
  if points.length ≤ maxPointsPerProvider then points
  else (points.reverse.take maxPointsPerProvider).reverse

/-- `snapshots`, `quota.rs:1022–1044`. -/
def snapshots (index : QuotaPointsIndex) (now : DateTime) (maxCacheAge : Duration) :
    Option (List QuotaSnapshot) :=
  ProviderRegistry.descriptors.mapM fun descriptor ↦
    let account := ((index.accountBucket descriptor.id).toList.getLast?.map Prod.snd).getD .empty
    buildQuotaSnapshot descriptor.id descriptor.capabilities.quotaSource
      (index.providerPoints descriptor.id) account now maxCacheAge

end QuotaPointsIndex

/-! ### Runs -/

/-- A call of one of the two mutators. -/
inductive IndexCall where
  | updateSession (sessionKey : String) (session : Session)
  | removeSession (sessionKey : String)

namespace IndexCall

/-- The call on the index. -/
def apply (index : QuotaPointsIndex) : IndexCall → QuotaPointsIndex
  | .updateSession sessionKey session => index.updateSession sessionKey session
  | .removeSession sessionKey => index.removeSession sessionKey

/-- The call on the abstract set of present sessions. -/
def applyPresent (present : ExtTreeMap String Session) : IndexCall → ExtTreeMap String Session
  | .updateSession sessionKey session => present.insert sessionKey session
  | .removeSession sessionKey => present.erase sessionKey

end IndexCall

/-- The index after a sequence of calls. -/
def indexAfter (calls : List IndexCall) : QuotaPointsIndex :=
  calls.foldl IndexCall.apply .empty

/-- The sessions present after a sequence of calls. -/
def presentAfter (calls : List IndexCall) : ExtTreeMap String Session :=
  calls.foldl IndexCall.applyPresent ∅

theorem indexAfter_append (calls : List IndexCall) (call : IndexCall) :
    indexAfter (calls ++ [call]) = call.apply (indexAfter calls) := by
  simp [indexAfter]

theorem presentAfter_append (calls : List IndexCall) (call : IndexCall) :
    presentAfter (calls ++ [call]) = call.applyPresent (presentAfter calls) := by
  simp [presentAfter]

end AgentOdometer.Quota
